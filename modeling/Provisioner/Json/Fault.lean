/-!
# Faults in JSON documents

What can be wrong with a document, where, and how it is reported.  A `Cause` is
one rule of the grammar, or a value that does not fit the record that is read
from it; a `Fault` adds the place, as the number of bytes before it.

* `Cause.category` sorts causes into a text that ends early, a text that breaks
  the grammar, and data of the wrong shape.
* `Cause.message` is the wording, and `Fault.message` the wording with the line
  and the column of the place.
-/

namespace Provisioner.Json

/-- The three ways in which reading a record can fail. -/
inductive Category
  | syntactic
  | endOfText
  | data
deriving DecidableEq, Repr

/-- The rule that a document breaks. -/
inductive Cause
  | endInValue
  | endInArray
  | endInObject
  | endInString
  | expectedColon
  | expectedArrayEnd
  | expectedObjectEnd
  | expectedWord
  | expectedValue
  | badEscape
  | badNumber
  | numberOutOfRange
  | controlCharacter
  | keyNotText
  | loneSurrogate
  | unfinishedSurrogate
  | trailingComma
  | trailingCharacters
  | tooDeep
  | wrongData (explanation : String)
deriving DecidableEq, Repr, Inhabited

/-- A cause, and how many bytes stand before the place where it shows. -/
structure Fault where
  cause : Cause
  offset : Nat
deriving DecidableEq, Repr, Inhabited

/-- The category of a cause. -/
def Cause.category : Cause → Category
  | .endInValue | .endInArray | .endInObject | .endInString => .endOfText
  | .wrongData _ => .data
  | _ => .syntactic

/-- The wording of a cause. -/
def Cause.message : Cause → String
  | .endInValue => "EOF while parsing a value"
  | .endInArray => "EOF while parsing a list"
  | .endInObject => "EOF while parsing an object"
  | .endInString => "EOF while parsing a string"
  | .expectedColon => "expected `:`"
  | .expectedArrayEnd => "expected `,` or `]`"
  | .expectedObjectEnd => "expected `,` or `\x7d`"
  | .expectedWord => "expected ident"
  | .expectedValue => "expected value"
  | .badEscape => "invalid escape"
  | .badNumber => "invalid number"
  | .numberOutOfRange => "number out of range"
  | .controlCharacter => "control character (\\u0000-\\u001F) found while parsing a string"
  | .keyNotText => "key must be a string"
  | .loneSurrogate => "lone leading surrogate in hex escape"
  | .unfinishedSurrogate => "unexpected end of hex escape"
  | .trailingComma => "trailing comma"
  | .trailingCharacters => "trailing characters"
  | .tooDeep => "recursion limit exceeded"
  | .wrongData explanation => explanation

/-- The category of a fault is that of its cause. -/
def Fault.category (f : Fault) : Category := f.cause.category

/-- The line and the column, in bytes, after `offset` bytes of the text: lines count
from one, columns from zero. -/
def position (offset : Nat) (text : List Char) : Nat × Nat :=
  go text 0 1 0
where
  go : List Char → Nat → Nat → Nat → Nat × Nat
    | [], _, line, start => (line, offset - start)
    | c :: rest, seen, line, start =>
      let seen := seen + c.utf8Size
      if offset < seen then (line, offset - start)
      else if c = '\n' then go rest seen (line + 1) seen
      else go rest seen line start

/-- The wording of a fault in `text`, with its place. -/
def Fault.message (f : Fault) (text : String) : String :=
  let (line, column) := position f.offset text.toList
  f.cause.message ++ " at line " ++ toString line ++ " column " ++ toString column

end Provisioner.Json
