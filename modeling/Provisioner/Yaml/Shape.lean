import Provisioner.Json.Shape
import Provisioner.Yaml.Node

/-!
# Records in YAML

Records are read from the nodes of a document.  A text field takes the text of any scalar,
whatever it looks like.  Where a mapping is expected an empty plain scalar stands for an
empty one, and where a value is optional an empty or null plain scalar stands for none.

* `readText`, `readOptional` and `readMap` read values of simple types.
* `Shape.read` reads a record: members of unknown names are skipped, a field that comes
  twice is an error, and a field that is missing keeps its initial value.
* `decodeText` reads a record from a whole text, which has to hold one document.
-/

namespace Provisioner.Yaml

/-! ## Skipping and wording -/

namespace Node

mutual

/-- Passes over a node that nobody asks for; it may not be broken off. -/
def skip : Node → Except Fault Unit
  | .sequence _ items tail? => do skipItems items; checkTail tail?
  | .mapping _ members tail? => do skipMembers members; checkTail tail?
  | .broken f => .error f
  | _ => .ok ()

/-- Passes over the items of a sequence. -/
def skipItems : List Node → Except Fault Unit
  | [] => .ok ()
  | n :: rest => do skip n; skipItems rest

/-- Passes over the members of a mapping. -/
def skipMembers : List (Node × Node) → Except Fault Unit
  | [] => .ok ()
  | (k, v) :: rest => do skip k; skip v; skipMembers rest

/-- Succeeds unless there is a fault. -/
def checkTail : Option Fault → Except Fault Unit
  | none => .ok ()
  | some f => .error f

end

end Node

/-- Whether a plain text stands for null. -/
def isNull (text : String) : Bool :=
  text == "null" || text == "Null" || text == "NULL" || text == "~"

/-- The truth value that a plain text stands for. -/
def truth? (text : String) : Option Bool :=
  if text == "true" || text == "True" || text == "TRUE" then some true
  else if text == "false" || text == "False" || text == "FALSE" then some false
  else none

/-- The value of digits in a base. -/
def number? (base : Nat) (ds : List Char) : Option Nat :=
  if ds.isEmpty then none
  else ds.foldl (fun n? d => do
    let n ← n?
    let v ← Json.hexValue? d
    if v < base then some (n * base + v) else none) (some 0)

/-- Whether decimal digits start with a zero that is not the only digit. -/
def hasLeadingZero (ds : List Char) : Bool :=
  match ds with
  | '0' :: rest => !rest.isEmpty && rest.all Char.isDigit
  | _ => false

/-- The integer that a plain text stands for. -/
def integer? (text : String) : Option Int :=
  match text.toList with
  | '-' :: ds => (magnitude? ds).map fun n => -(n : Int)
  | '+' :: ds => (magnitude? ds).map Int.ofNat
  | ds => (magnitude? ds).map Int.ofNat
where
  /-- The value of digits without a sign. -/
  magnitude? : List Char → Option Nat
    | '0' :: 'x' :: ds => number? 16 ds
    | '0' :: 'o' :: ds => number? 8 ds
    | '0' :: 'b' :: ds => number? 2 ds
    | ds => if hasLeadingZero ds then none else number? 10 ds

/-- What a plain text is called in a message. -/
def describePlain (text : String) : String :=
  if text.isEmpty || isNull text then "unit value"
  else
    match truth? text with
    | some b => (Json.Scalar.bool b).describe
    | none =>
      match integer? text with
      | some n => (Json.Scalar.num (.whole n)).describe
      | none =>
        let unsigned := String.ofList (text.toList.dropWhile (· == '+'))
        match if hasLeadingZero text.toList then none else Json.parse? unsigned with
        | some (.num n) => (Json.Scalar.num n).describe
        | _ => (Json.Scalar.str text).describe

/-- What a scalar is called in a message. -/
def describeScalar (tag? : Option String) (text : String) (style : Style) : String :=
  let isLocal := tag?.all (fun t => t.toList.head? == some '!')
  if style == .plain && isLocal then describePlain text else (Json.Scalar.str text).describe

/-- The fault of a node of another type than the expected one. -/
def mismatch (path expected : String) : Node → Fault
  | .scalar m tag? text style =>
    .data path ("invalid type: " ++ describeScalar tag? text style ++ ", expected " ++ expected) m
  | .sequence m .. => .data path ("invalid type: sequence, expected " ++ expected) m
  | .mapping m .. => .data path ("invalid type: map, expected " ++ expected) m
  | .broken f => f
  | _ => .endOfStream

/-! ## Simple types -/

/-- A way to read a value from a node of a document; the text is the path of the node. -/
abbrev Reading (α : Type) := Document → String → Node → Except Fault α

/-- Reads the text of a scalar. -/
def readText (expected : String) : Reading String := fun d path n =>
  match d.deref n with
  | .scalar _ _ text _ => .ok text
  | other => .error (mismatch path expected other)

/-- The tag of nulls. -/
def nullTag : String := "tag:yaml.org,2002:null"

/-- Reads a value, or nothing from an empty or null plain scalar. -/
def readOptional {α : Type} (read : Reading α) : Reading (Option α) := fun d path n =>
  match d.deref n with
  | .scalar m (some tag) text .plain =>
    if tag = nullTag then
      if isNull text then .ok none
      else
        .error (.data path ("invalid value: " ++ (Json.Scalar.str text).describe
          ++ ", expected null") m)
    else if text.isEmpty then .ok none
    else (read d path n).map some
  | .scalar _ none text .plain =>
    if text.isEmpty || isNull text then .ok none else (read d path n).map some
  | .nothing => .ok none
  | _ => (read d path n).map some

/-- The members of a mapping with its place and the fault at its end, if it is broken off. -/
def readMembers (expected : String) :
    Reading (Mark × List (Node × Node) × Option Fault) := fun d path n =>
  match d.deref n with
  | .mapping m members tail? => .ok (m, members, tail?)
  | .nothing => .ok (.start, [], none)
  | .scalar m tag? text style =>
    if text.isEmpty && style == .plain then .ok (m, [], none)
    else .error (mismatch path expected (.scalar m tag? text style))
  | other => .error (mismatch path expected other)

/-- The path of a member's value. -/
def memberPath (path : String) (key : Node) : String :=
  (if path = "." then "" else path ++ ".")
    ++ (match key with
      | .scalar _ _ text _ => text
      | _ => "?")

/-- Reads a mapping as the pairs that it is made of. -/
def readPairs {α : Type} (read : Reading α) : Reading (List (String × α)) := fun d path n => do
  let (_, members, tail?) ← readMembers "a map" d path n
  let pairs ← members.mapM fun (key, value) => do
    let name ← readText "a string" d path key
    return (name, ← read d (memberPath path key) value)
  Node.checkTail tail?
  return pairs

/-- Reads a mapping as a map; of two members with one name the later one stays. -/
def readMap {α : Type} (read : Reading α) : Reading (KeyMap α) := fun d path n =>
  (readPairs read d path n).map KeyMap.ofList

/-! ## Records -/

/-- A field of the record type `ρ`: how it is called and how its value is stored. -/
structure Field (ρ : Type) where
  name : String
  read : Document → String → Node → ρ → Except Fault ρ

/-- The fields of a record type, what it is called in messages, and the record from which
reading starts. -/
structure Shape (ρ : Type) where
  title : String
  initial : ρ
  fields : List (Field ρ)

/-- Reads the members of a record; `seen` are the names of the fields read before. -/
def Shape.readFields {ρ : Type} (s : Shape ρ) (d : Document) (path : String) (m : Mark) :
    List (Node × Node) → List String → ρ → Except Fault ρ
  | [], _, r => .ok r
  | (key, value) :: rest, seen, r => do
    let name ← readText "field identifier" d path key
    match s.fields.find? (fun f => f.name == name) with
    | none =>
      value.skip
      readFields s d path m rest seen r
    | some f =>
      if seen.contains name then
        throw (.data path ("duplicate field `" ++ name ++ "`") m)
      let r ← f.read d (memberPath path key) value r
      readFields s d path m rest (name :: seen) r

/-- Reads a record. -/
def Shape.read {ρ : Type} (s : Shape ρ) : Reading ρ := fun d path n => do
  let (m, members, tail?) ← readMembers s.title d path n
  let r ← s.readFields d path m members [] s.initial
  Node.checkTail tail?
  return r

/-! ## Whole texts -/

/-- Reads a record from a text that holds one document. -/
def decodeText {α : Type} (read : Reading α) (text : String) : Except Fault α := do
  let d := Document.ofText text
  let a ← match d.root, d.fault? with
    | .nothing, some f => throw f
    | _, _ => read d "." d.root
  Node.checkTail d.fault?
  if d.followed then throw .severalDocuments
  return a

end Provisioner.Yaml
