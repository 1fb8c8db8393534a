import Provisioner.Json.Document

/-!
# Records in JSON

A record is an object whose members are the fields of a structure.  Its `Shape`
lists the fields in order, each with its name, with a reader that stores the value,
and with whether it may be missing.

* Values of simple types: `readText`, `readOptional`, `readMap` and the integers.
* `Shape.read` reads a record.  Members of unknown names are skipped, a field that
  comes twice is an error, and an array gives the fields in their order.
* `Shape.readOpen` reads a record that keeps the members of unknown names; such a
  record has no array form.
* The shape of a mistake is worded by `mismatch`: what was found, what was expected.
-/

namespace Provisioner.Json

/-! ## Wording -/

/-- A number with a fraction or an exponent, positional up to sixteen digits before the
point and five zeros after it. -/
def describeDecimal (negative : Bool) (digits : Nat) (exponent : Int) : String :=
  let ds := (toString digits).toList
  let kept := (ds.reverse.dropWhile (· == '0')).reverse
  let exponent := exponent + (ds.length - kept.length : Nat)
  let point : Int := kept.length + exponent
  let body :=
    if kept.isEmpty then "0.0"
    else if 0 ≤ exponent ∧ point ≤ 16 then
      String.ofList (kept ++ List.replicate exponent.toNat '0') ++ ".0"
    else if 0 < point ∧ point ≤ 16 then
      String.ofList (kept.take point.toNat) ++ "." ++ String.ofList (kept.drop point.toNat)
    else if -5 < point ∧ point ≤ 0 then
      "0." ++ String.ofList (List.replicate (-point).toNat '0' ++ kept)
    else
      let rest := kept.drop 1
      String.ofList (kept.take 1) ++ (if rest.isEmpty then "" else "." ++ String.ofList rest)
        ++ "e" ++ toString (point - 1)
  if negative then "-" ++ body else body

/-- A character inside quotes in a message. -/
def describeChar (c : Char) : List Char :=
  if c = '"' then ['\\', '"']
  else if c = '\\' then ['\\', '\\']
  else if c = '\n' then ['\\', 'n']
  else if c = '\r' then ['\\', 'r']
  else if c = '\t' then ['\\', 't']
  else if c.toNat = 0 then ['\\', '0']
  else if c.toNat < 0x20 ∨ c.toNat = 0x7F then
    ['\\', 'u', '\x7b'] ++ Nat.toDigits 16 c.toNat ++ ['\x7d']
  else [c]

/-- A text between quotes in a message. -/
def describeText (s : String) : String :=
  String.ofList ('"' :: (s.toList.flatMap describeChar ++ ['"']))

/-- What a scalar is called in a message. -/
def Scalar.describe : Scalar → String
  | .null => "null"
  | .bool b => "boolean `" ++ (if b then "true" else "false") ++ "`"
  | .num (.whole n) => "integer `" ++ toString n ++ "`"
  | .num (.decimal negative digits exponent) =>
    "floating point `" ++ describeDecimal negative digits exponent ++ "`"
  | .str s => "string " ++ describeText s

/-- A fault in the data at some place. -/
def dataFault (offset : Nat) (explanation : String) : Fault :=
  ⟨.wrongData explanation, offset⟩

namespace Tree

/-- The fault of a value of another type than the expected one.  A container is judged
by its bracket, before anything inside it is looked at. -/
def mismatch (expected : String) : Tree → Fault
  | .scalar _ stop v =>
    dataFault stop ("invalid type: " ++ v.describe ++ ", expected " ++ expected)
  | .arr start .. => dataFault start ("invalid type: sequence, expected " ++ expected)
  | .obj start .. => dataFault start ("invalid type: map, expected " ++ expected)
  | .unreadable _ (.arr start ..) =>
    dataFault start ("invalid type: sequence, expected " ++ expected)
  | .unreadable _ (.obj start ..) => dataFault start ("invalid type: map, expected " ++ expected)
  | .unreadable fault _ => fault
  | .broken reading _ => reading

end Tree

/-! ## Simple types -/

/-- Reads a text. -/
def readText (expected : String) : Tree → Except Fault String
  | .scalar _ _ (.str s) => .ok s
  | t => .error (t.mismatch expected)

/-- Reads a value, or null. -/
def readOptional {α : Type} (read : Tree → Except Fault α) : Tree → Except Fault (Option α)
  | .scalar _ _ .null => .ok none
  | t => (read t).map some

/-- Reads an integer between two bounds. -/
def readInt (low high : Int) (expected : String) : Tree → Except Fault Int
  | t@(.scalar _ stop (.num (.whole n))) =>
    if low ≤ n ∧ n ≤ high then .ok n
    else
      match t with
      | .scalar _ _ v =>
        .error (dataFault stop ("invalid value: " ++ v.describe ++ ", expected " ++ expected))
      | t => .error (t.mismatch expected)
  | t => .error (t.mismatch expected)

/-- Reads an unsigned integer of 32 bits. -/
def readUInt32 (t : Tree) : Except Fault Nat :=
  (readInt 0 0xFFFFFFFF "u32" t).map Int.toNat

/-- Reads a signed integer of 64 bits. -/
def readInt64 (t : Tree) : Except Fault Int :=
  readInt (-0x8000000000000000) 0x7FFFFFFFFFFFFFFF "i64" t

/-- Reads the members of an object in turn. -/
def readEach {α : Type} (read : Tree → Except Fault α) :
    List (Key × Tree) → Except Fault (List (String × α))
  | [] => .ok []
  | (k, t) :: rest => do
    unlessFault k.fault?
    let v ← read t
    return (k.name, v) :: (← readEach read rest)

/-- Reads an object as the pairs that it is made of. -/
def readPairs {α : Type} (read : Tree → Except Fault α) :
    Tree → Except Fault (List (String × α))
  | .obj _ _ members tail? => do
    let pairs ← readEach read members
    unlessFault tail?
    return pairs
  | .unreadable fault (.obj ..) => .error fault
  | t => .error (t.mismatch "a map")

/-- Reads an object as a map; of two members with one name the later one stays. -/
def readMap {α : Type} (read : Tree → Except Fault α) (t : Tree) : Except Fault (KeyMap α) :=
  (readPairs read t).map KeyMap.ofList

/-! ## Records -/

/-- A field of the record type `ρ`: how it is called, whether a record must give it, and
how its value is stored. -/
structure Field (ρ : Type) where
  name : String
  required : Bool
  read : Tree → ρ → Except Fault ρ

/-- The fields of a record type, what it is called in messages, and the record from which
reading starts. -/
structure Shape (ρ : Type) where
  title : String
  initial : ρ
  fields : List (Field ρ)

namespace Shape

variable {ρ : Type}

/-- The field called `name`. -/
def field? (s : Shape ρ) (name : String) : Option (Field ρ) :=
  s.fields.find? (fun f => f.name == name)

/-- The first required field that is not among the names seen. -/
def missing? (s : Shape ρ) (seen : List String) : Option String :=
  (s.fields.find? (fun f => f.required && !seen.contains f.name)).map (·.name)

/-- Refuses a record without a required field. -/
def checkMissing (s : Shape ρ) (seen : List String) (stop : Nat) : Except Fault Unit :=
  match s.missing? seen with
  | none => .ok ()
  | some name => .error (dataFault stop ("missing field `" ++ name ++ "`"))

/-- Reads the members of a record: known fields once each, and every other member with
`other`. -/
def readFields (s : Shape ρ) (other : Key → Tree → ρ → Except Fault ρ) :
    List (Key × Tree) → List String → ρ → Except Fault (ρ × List String)
  | [], seen, r => .ok (r, seen)
  | (k, t) :: rest, seen, r => do
    unlessFault k.fault?
    match s.field? k.name with
    | none =>
      let r ← other k t r
      readFields s other rest seen r
    | some f =>
      if seen.contains f.name then
        throw (dataFault k.stop ("duplicate field `" ++ f.name ++ "`"))
      let r ← f.read t r
      readFields s other rest (f.name :: seen) r

/-- Reads the fields of a record from the items of an array; `count` of them are read. -/
def readItems (s : Shape ρ) (stop : Nat) (tail? : Option Fault) :
    List (Field ρ) → List Tree → Nat → ρ → Except Fault ρ
  | [], [], _, r => do unlessFault tail?; return r
  | [], _ :: _, _, _ => .error ⟨.trailingCharacters, stop⟩
  | f :: fs, t :: ts, count, r => do
    let r ← f.read t r
    readItems s stop tail? fs ts (count + 1) r
  | f :: fs, [], count, r => do
    unlessFault tail?
    if f.required then
      throw (dataFault stop ("invalid length " ++ toString count ++ ", expected " ++ s.title
        ++ " with " ++ toString s.fields.length ++ " element"
        ++ (if s.fields.length = 1 then "" else "s")))
    readItems s stop tail? fs [] (count + 1) r

/-- Reads a record that forgets the members it does not know. -/
def read (s : Shape ρ) : Tree → Except Fault ρ
  | .obj _ stop members tail? => do
    let (r, seen) ← s.readFields (fun _ t r => do t.skip; return r) members [] s.initial
    unlessFault tail?
    s.checkMissing seen stop
    return r
  | .arr _ stop items tail? => s.readItems stop tail? s.fields items 0 s.initial
  | .unreadable fault (.obj ..) => .error fault
  | .unreadable fault (.arr ..) => .error fault
  | t => .error (t.mismatch s.title)

/-- Reads a record that keeps the members it does not know, with `keep`; of two of them
with one name the later one stays. -/
def readOpen (s : Shape ρ) (keep : String → Json → ρ → ρ) : Tree → Except Fault ρ
  | .obj _ stop members tail? => do
    let (r, seen) ← s.readFields (fun k t r => do return keep k.name (← t.value) r)
      members [] s.initial
    unlessFault tail?
    s.checkMissing seen stop
    return r
  | .unreadable fault (.obj ..) => .error fault
  | t => .error (t.mismatch s.title)

end Shape

end Provisioner.Json
