/-!
# Faults in YAML documents

What can be wrong with a document and where.  Places are `Mark`s; lines and columns
count from zero in them and from one in messages.

A fault is about the text (`grammar`), about the data that is read from it (`data`), or
about the document as a whole.  `Fault.message` is the wording.
-/

namespace Provisioner.Yaml

/-- A place in a document. -/
structure Mark where
  index : Nat
  line : Nat
  column : Nat
deriving DecidableEq, Repr, Inhabited

namespace Mark

/-- The beginning of a document. -/
def start : Mark := ⟨0, 0, 0⟩

/-- Whether two places are on one line and in one column. -/
def sameSpot (a b : Mark) : Bool := a.line == b.line && a.column == b.column

/-- Whether a place is at the beginning of the first line. -/
def isOrigin (m : Mark) : Bool := m.line == 0 && m.column == 0

/-- A place in words. -/
def describe (m : Mark) : String :=
  "line " ++ toString (m.line + 1) ++ " column " ++ toString (m.column + 1)

end Mark

/-- What is wrong with a document. -/
inductive Fault
  | grammar (problem : String) (at_ : Mark) (context? : Option (String × Mark))
  | character (offset : Nat)
  | data (path explanation : String) (at_ : Mark)
  | unknownAnchor (at_ : Mark)
  | endOfStream
  | severalDocuments
deriving DecidableEq, Repr, Inhabited

namespace Fault

/-- A fault with the place of its context. -/
def inContext (context : String) (since : Mark) (problem : String) (m : Mark) : Fault :=
  .grammar problem m (some (context, since))

/-- The words for a place, unless it is the very beginning. -/
def atMark (m : Mark) : String :=
  if m.isOrigin then "" else " at " ++ m.describe

/-- The wording of a fault. -/
def message : Fault → String
  | .grammar problem m context? =>
    problem ++ atMark m ++
      (match context? with
      | none => ""
      | some (context, since) =>
        ", " ++ context ++ (if since.sameSpot m then "" else atMark since))
  | .character offset =>
    "control characters are not allowed"
      ++ (if offset = 0 then "" else " at position " ++ toString offset)
  | .data path explanation m =>
    (if path = "." then "" else path ++ ": ") ++ explanation ++ atMark m
  | .unknownAnchor m => "unknown anchor" ++ atMark m
  | .endOfStream => "EOF while parsing a value"
  | .severalDocuments =>
    "deserializing from YAML containing more than one document is not supported"

end Fault

end Provisioner.Yaml
