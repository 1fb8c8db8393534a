import Provisioner.Disk

/-!
# File trees

A `FileTree` is a disk that lives in memory: directories and files, each at a place
that is named by the parts on the way to it from the root, and a current directory.

Paths are followed part by part.  Every part but the last has to be a directory, two
dots lead one place up, and a slash at the end asks for a directory.

* `FileTree.find?` and `FileTree.put` look at and change what stands at a place.
* `FileTree.follow` finds the place that a path leads to.
* The `Disk` instance gives the operations on paths, and `FileTree.program` looks for
  programs.
-/

namespace Provisioner

/-- A place: the names on the way from the root. -/
abbrev Place := List String

/-- What can stand at a place.  A file is executable if it can be run as a program. -/
inductive Node
  | directory
  | file (content : Content) (executable : Bool)
deriving DecidableEq, Repr

/-- Directories and files in memory.  The root is always there. -/
structure FileTree where
  nodes : List (Place × Node)
  current : Place
deriving Repr

namespace FileTree

/-- The tree that holds a root and nothing else. -/
def empty : FileTree := ⟨[], []⟩

/-- What stands at a place. -/
def find? (t : FileTree) (place : Place) : Option Node :=
  if place = [] then some .directory
  else (t.nodes.find? (fun e => e.1 == place)).map (·.2)

/-- The tree with a node at a place. -/
def put (t : FileTree) (place : Place) (node : Node) : FileTree :=
  { t with nodes := (place, node) :: t.nodes.filter (fun e => e.1 != place) }

/-- The longest name, in bytes. -/
def nameLimit : Nat := 255

/-- The longest path, in bytes. -/
def pathLimit : Nat := 4095

/-- Goes one part further from a directory. -/
def enter (t : FileTree) (place : Place) (name : String) : Except IoError Place :=
  match t.find? place with
  | none => .error .notFound
  | some (.file ..) => .error .notADirectory
  | some .directory =>
    if name = "" ∨ name = "." then .ok place
    else if name = ".." then .ok place.dropLast
    else if nameLimit < name.utf8ByteSize then .error .nameTooLong
    else
      match t.find? (place ++ [name]) with
      | some _ => .ok (place ++ [name])
      | none => .error .notFound

/-- Goes along several parts. -/
def walk (t : FileTree) : List String → Place → Except IoError Place
  | [], place => .ok place
  | name :: rest, place => do t.walk rest (← t.enter place name)

/-- The parts of a path and the place from which they lead on. -/
def depart (t : FileTree) (path : String) : Except IoError (List String × Place) :=
  if path.toList.contains (Char.ofNat 0) then .error .nulByte
  else if path.isEmpty then .error .notFound
  else if pathLimit < path.utf8ByteSize then .error .nameTooLong
  else
    let parts := (Path.segments path.toList).map String.ofList
    .ok (parts, if Path.isAbsolute path then [] else t.current)

/-- The place that a path leads to. -/
def follow (t : FileTree) (path : String) : Except IoError Place := do
  let (parts, place) ← t.depart path
  t.walk parts place

/-- What a path leads to. -/
def node (t : FileTree) (path : String) : Except IoError Node := do
  match t.find? (← t.follow path) with
  | some n => .ok n
  | none => .error .notFound

/-- The parts before the last one, the last one, and whether slashes follow it. -/
def splitLast (parts : List String) : List String × String × Bool :=
  let trimmed := (parts.reverse.dropWhile (· == "")).reverse
  (trimmed.dropLast, trimmed.getLast?.getD "", trimmed.length < parts.length)

/-- The place at which a path asks for a new node, and what stands there already.  The
flag says whether slashes follow the last name; `occupied` is the error of a path that
does not end in a name. -/
def target (t : FileTree) (path : String) (occupied : IoError) :
    Except IoError (Place × Option Node × Bool) := do
  let (parts, start) ← t.depart path
  let (above, name, slashes) := splitLast parts
  let place ← t.walk (above ++ [""]) start
  if name = "" ∨ name = "." ∨ name = ".." then .error occupied
  else if nameLimit < name.utf8ByteSize then .error .nameTooLong
  else return (place ++ [name], t.find? (place ++ [name]), slashes)

/-- The place of the file that a path asks to write, and whether the file can be run. -/
def targetFile (t : FileTree) (path : String) : Except IoError (Place × Bool) := do
  let (place, node?, slashes) ← t.target path .isADirectory
  if slashes then .error .isADirectory
  else
    match node? with
    | some .directory => .error .isADirectory
    | some (.file _ executable) => return (place, executable)
    | none => return (place, false)

/-- What the file at a path holds. -/
def content (t : FileTree) (path : String) : Except IoError Content := do
  match ← t.node path with
  | .file c _ => .ok c
  | .directory => .error .isADirectory

/-- The tree after an operation that leaves it alone when it fails. -/
def commit (t : FileTree) : Except IoError FileTree → Except IoError Unit × FileTree
  | .ok changed => (.ok (), changed)
  | .error e => (.error e, t)

/-- Makes a directory. -/
def createDir (path : String) (t : FileTree) : Except IoError FileTree := do
  match ← t.target path .exists with
  | (place, none, _) => return t.put place .directory
  | (_, some _, _) => .error .exists

/-- Makes a file hold a content. -/
def writeContent (path : String) (c : Content) (t : FileTree) : Except IoError FileTree := do
  let (place, executable) ← t.targetFile path
  return t.put place (.file c executable)

/-- Makes a file hold what another one holds. -/
def copy (source path : String) (t : FileTree) : Except IoError FileTree := do
  match ← t.node source with
  | .directory => .error .notAFile
  | .file c executable =>
    let (place, _) ← t.targetFile path
    return t.put place (.file c executable)

/-- The path of a place. -/
def pathOf (place : Place) : String :=
  if place = [] then "/" else String.join (place.map ("/" ++ ·))

/-- The program that a name leads to.  A name with slashes is a path; any other is looked
for in the directories of a search path, between colons.  Files that cannot be run are
passed over, but are the reason for the failure if nothing else is found. -/
def program (searchPath name : String) (t : FileTree) : Except IoError Node :=
  let isPath := name.toList.contains '/'
  let directories := Text.split (· == ':') searchPath.toList
  let paths := if isPath then [name] else directories.map fun d => Path.join (String.ofList d) name
  if name.isEmpty then .error .notFound else go .notFound paths
where
  go (failure : IoError) : List String → Except IoError Node
    | [] => .error failure
    | path :: rest =>
      match t.node path with
      | .ok (.file content true) => .ok (.file content true)
      | .ok _ => go .permissionDenied rest
      | .error e => go (if failure = .permissionDenied then failure else e) rest

instance : Disk FileTree where
  stat t path := (t.node path).map fun
    | .directory => .directory
    | .file .. => .file
  read t path := t.content path
  currentDir t := .ok (pathOf t.current)
  createDir path t := t.commit (t.createDir path)
  copy source path t := t.commit (t.copy source path)
  write path s t := t.commit (t.writeContent path (.text s))

end FileTree

end Provisioner
