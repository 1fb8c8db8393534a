import Provisioner.Text.Split

/-!
# Paths

A path is a text whose parts stand between slashes.  Nothing here looks at a disk,
and no path is ever rewritten: dots and doubled slashes stay where they are.

* `Path.join` puts a path below another one; an absolute path replaces it.
* `Path.parent?` is the path without its last part, and `Path.ancestors` the path,
  its parent, and so on upwards.
* `Path.fileName?` is the last part, and `Path.withFileName` replaces it.

Empty parts, and parts that are a single dot, do not count as parts, except for a
dot at the very beginning.
-/

namespace Provisioner.Path

/-- Whether a path starts at the root. -/
def isAbsolute (path : String) : Bool :=
  path.toList.head? == some '/'

/-- The path `relative` seen from `base`. -/
def join (base relative : String) : String :=
  if isAbsolute relative then relative
  else if base.isEmpty || base.toList.getLast? == some '/' then base ++ relative
  else base ++ "/" ++ relative

/-- The texts between the slashes. -/
def segments (cs : List Char) : List (List Char) :=
  Text.split (· == '/') cs

/-- The segments with slashes between them. -/
def unsegments (ss : List (List Char)) : List Char :=
  Text.join '/' ss

/-- Whether a segment does not count as a part. -/
def isIdle (segment : List Char) : Bool :=
  segment.isEmpty || segment == ['.']

/-- The segments up to the last one that counts. -/
def trimIdle (ss : List (List Char)) : List (List Char) :=
  (ss.reverse.dropWhile isIdle).reverse

/-- A path cut into its beginning, which is the root, a leading dot or nothing, and
the segments after it. -/
def cut (path : String) : List Char × List (List Char) :=
  match path.toList with
  | '/' :: rest => (['/'], segments rest)
  | ['.'] => (['.'], [[]])
  | '.' :: '/' :: rest => (['.'], segments ('/' :: rest))
  | cs => ([], segments cs)

/-- The path without its last part; the root and the empty path have no parent. -/
def parent? (path : String) : Option String :=
  let (start, ss) := cut path
  match (trimIdle ss).dropLast, trimIdle ss with
  | _, [] => if start = ['.'] then some "" else none
  | up, _ :: _ => some (String.ofList (start ++ unsegments (trimIdle up)))

/-- The last part of a path, if it is a name. -/
def fileName? (path : String) : Option String :=
  match (trimIdle (cut path).2).getLast? with
  | none => none
  | some s => if s = ['.', '.'] then none else some (String.ofList s)

/-- The path with its last part replaced; a path that does not end in a name gets one
more part. -/
def withFileName (path name : String) : String :=
  match fileName? path, parent? path with
  | some _, some up => join up name
  | _, _ => join path name

/-- The first `fuel` of the path, its parent, the parent of that, and so on. -/
def ancestorsUpTo : Nat → String → List String
  | 0, _ => []
  | fuel + 1, path =>
    path :: (match parent? path with
      | some up => ancestorsUpTo fuel up
      | none => [])

/-- The path and everything above it; each step upwards drops at least one character. -/
def ancestors (path : String) : List String :=
  ancestorsUpTo (path.length + 1) path

end Provisioner.Path
