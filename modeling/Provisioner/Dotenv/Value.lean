import Provisioner.Dotenv.Line
import Provisioner.Text.Alphanumeric

/-!
# Values in environment files

The text behind a `=` is read character by character.

* A single quote takes everything up to the next one as it is.
* A backslash before one of `\ ' " $`, a space or `n` gives that character or a line
  feed; before any other character it is an error.
* Double quotes keep spaces and tabs; outside quotes these end the value, and only more
  of them and a comment may follow.
* `$name` and `${name}` stand for the value of a variable, or for nothing.  A bare name
  goes on as long as letters and digits follow, and the character behind it is taken
  as it is, even a quote.

`Value.read` is this reader; `Value.Mode` says where it stands.
-/

namespace Provisioner.Dotenv.Value

/-- Where the reader of a value stands.  The flag says whether it is inside double
quotes; a name is kept with its last character first. -/
inductive Mode
  | text (quoted : Bool)
  | escape (quoted : Bool)
  | strong
  | bare (quoted : Bool) (name : List Char)
  | braced (quoted : Bool) (name : List Char)
  | ending
deriving DecidableEq, Repr

/-- The character that a backslash and `c` stand for. -/
def unescape? (c : Char) : Option Char :=
  if c = '\\' ∨ c = '\'' ∨ c = '"' ∨ c = '$' ∨ c = ' ' then some c
  else if c = 'n' then some '\n'
  else none

/-- What a character does to the reader: it goes on in some mode after some text, the
value ends, or the character is an error. -/
inductive Step
  | next (mode : Mode) (output : List Char)
  | stop
  | refuse
deriving DecidableEq, Repr

/-- The text of a variable whose name was read backwards. -/
def fill (lookup : String → String) (name : List Char) : List Char :=
  (lookup (String.ofList name.reverse)).toList

/-- The characters that end a value outside quotes: a space and a tab. -/
def isGap (c : Char) : Bool :=
  c == ' ' || c == '\t'

/-- Takes a character in text that is no part of a variable. -/
def stepText (quoted : Bool) (c : Char) : Step :=
  if c = '$' then .next (.bare quoted []) []
  else if quoted then
    if c = '"' then .next (.text false) []
    else if c = '\\' then .next (.escape true) []
    else .next (.text true) [c]
  else if c = '\'' then .next .strong []
  else if c = '"' then .next (.text true) []
  else if c = '\\' then .next (.escape false) []
  else if isGap c then .next .ending []
  else .next (.text false) [c]

/-- Takes a character behind a `$` and the name read so far. -/
def stepBare (lookup : String → String) (quoted : Bool) (name : List Char) (c : Char) : Step :=
  if Text.isAlphanumeric c then .next (.bare quoted (c :: name)) []
  else if c = '\x7b' ∧ name = [] then .next (.braced quoted []) []
  else if c = '$' then .next (.bare quoted []) (fill lookup name)
  else .next (.text quoted) (fill lookup name ++ [c])

/-- Takes one character. -/
def step (lookup : String → String) : Mode → Char → Step
  | .text quoted, c => stepText quoted c
  | .escape quoted, c =>
    match unescape? c with
    | some d => .next (.text quoted) [d]
    | none => .refuse
  | .strong, c => if c = '\'' then .next (.text false) [] else .next .strong [c]
  | .bare quoted name, c => stepBare lookup quoted name c
  | .braced quoted name, c =>
    if c = '\x7d' then .next (.text quoted) (fill lookup name)
    else .next (.braced quoted (c :: name)) []
  | .ending, c =>
    if isGap c then .next .ending []
    else if c = '#' then .stop
    else .refuse

/-- The text that is still to come when the characters end in some mode; an open quote or
brace is an error. -/
def finish? (lookup : String → String) : Mode → Option (List Char)
  | .text false | .escape false | .ending => some []
  | .bare false name => some (fill lookup name)
  | _ => none

/-- Reads a value.  The error is the number of characters before the one that is refused,
or `last` if the value ends too early. -/
def read (lookup : String → String) (last : Nat) :
    Mode → Nat → List Char → Except Nat (List Char)
  | mode, _, [] =>
    match finish? lookup mode with
    | some output => .ok output
    | none => .error last
  | mode, index, c :: rest =>
    match step lookup mode c with
    | .stop => .ok []
    | .refuse => .error index
    | .next mode output => (read lookup last mode (index + 1) rest).map (output ++ ·)

end Provisioner.Dotenv.Value
