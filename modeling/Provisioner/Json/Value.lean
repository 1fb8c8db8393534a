import Provisioner.KeyMap
import Provisioner.Text.Utf8

/-!
# JSON values

The dynamic values that record members of unknown names hold, and the text they
are written as.

Numbers are exact.  A number without a fraction or an exponent that fits a
signed or an unsigned 64-bit word is a `whole` number; every other one is a
`decimal`, kept as its digits and its power of ten.

* `Json.render` writes a value as one line of text, without spaces.
* `Json.member?` and the functions after it read the parts of a value.
-/

namespace Provisioner

/-- A JSON number: an integer of at most 64 bits, or digits with a power of ten. -/
inductive Json.Number
  | whole (value : Int)
  | decimal (negative : Bool) (digits : Nat) (exponent : Int)
deriving DecidableEq, Repr, Inhabited

/-- A JSON value; the members of an object stand in the order of the text. -/
inductive Json
  | null
  | bool (value : Bool)
  | num (value : Json.Number)
  | str (value : String)
  | arr (items : List Json)
  | obj (members : List (String × Json))
deriving Inhabited

namespace Json

/-- An integer as a JSON value. -/
def int (n : Int) : Json := .num (.whole n)

/-- A text, or null. -/
def optional : Option String → Json
  | some s => .str s
  | none => .null

/-- The object of a map, in the order of its keys. -/
def ofMap (m : KeyMap Json) : Json := .obj m.entries

/-- The member called `name`; of several, the last. -/
def member? (name : String) : Json → Option Json
  | .obj members => (members.reverse.find? (fun m => m.1 == name)).map (·.2)
  | _ => none

/-- The text, if the value is one. -/
def str? : Json → Option String
  | .str s => some s
  | _ => none

/-- The integer, if the value is one. -/
def int? : Json → Option Int
  | .num (.whole n) => some n
  | _ => none

/-- The truth value, if the value is one. -/
def bool? : Json → Option Bool
  | .bool b => some b
  | _ => none

/-- The items of an array; none for any other value. -/
def items : Json → List Json
  | .arr is => is
  | _ => []

/-- The members of an object; none for any other value. -/
def members : Json → List (String × Json)
  | .obj ms => ms
  | _ => []

/-! ## Writing -/

/-- The digit `n < 16` in base sixteen, in lower case. -/
def hexDigit (n : Nat) : Char :=
  if n < 10 then Char.ofNat (0x30 + n) else Char.ofNat (0x57 + n)

/-- How a character is written between quotes. -/
def quoteChar (c : Char) : List Char :=
  if c = '"' then ['\\', '"']
  else if c = '\\' then ['\\', '\\']
  else if c = '\n' then ['\\', 'n']
  else if c = '\r' then ['\\', 'r']
  else if c = '\t' then ['\\', 't']
  else if c.toNat = 0x08 then ['\\', 'b']
  else if c.toNat = 0x0C then ['\\', 'f']
  else if c.toNat < 0x20 then
    ['\\', 'u', '0', '0', hexDigit (c.toNat / 16), hexDigit (c.toNat % 16)]
  else [c]

/-- A text between quotes. -/
def quote (s : String) : List Char :=
  '"' :: (s.toList.flatMap quoteChar ++ ['"'])

/-- The text of a number. -/
def Number.render : Number → List Char
  | .whole n => (toString n).toList
  | .decimal negative digits exponent =>
    (if negative then ['-'] else []) ++ (toString digits).toList ++ ['e']
      ++ (toString exponent).toList

mutual

/-- The text of a value, without spaces. -/
def renderChars : Json → List Char
  | .null => ['n', 'u', 'l', 'l']
  | .bool true => ['t', 'r', 'u', 'e']
  | .bool false => ['f', 'a', 'l', 's', 'e']
  | .num n => n.render
  | .str s => quote s
  | .arr items => '[' :: renderItems items
  | .obj members => '{' :: renderMembers members

/-- The items of an array, up to and with its closing bracket. -/
def renderItems : List Json → List Char
  | [] => [']']
  | [v] => renderChars v ++ [']']
  | v :: w :: rest => renderChars v ++ ',' :: renderItems (w :: rest)

/-- The members of an object, up to and with its closing brace. -/
def renderMembers : List (String × Json) → List Char
  | [] => ['}']
  | [(k, v)] => quote k ++ ':' :: (renderChars v ++ ['}'])
  | (k, v) :: m :: rest => quote k ++ ':' :: (renderChars v ++ ',' :: renderMembers (m :: rest))

end

/-- The text of a value. -/
def render (v : Json) : String :=
  String.ofList (renderChars v)

end Json

end Provisioner
