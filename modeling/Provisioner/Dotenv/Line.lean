import Provisioner.Disk
import Provisioner.Text.Blank
import Provisioner.Text.Utf8

/-!
# Lines of environment files

An environment file is read in logical lines.  A physical line that ends inside a
quote, behind a backslash or behind blanks is continued by the next one, and a `#`
behind blanks cuts the rest of its physical line off.

* `Line.State` says how far the quotes, backslashes and blanks of a line are
  understood, and `Line.scan` runs through a physical line.
* `physicalLines` cuts a file after every line feed.
* `joinLines` puts physical lines together.

Both kinds of quote know the backslash here, although values take a backslash in a
single quote as it is.
-/

namespace Provisioner.Dotenv

/-- Why an environment file cannot be read: a line with the place in it where it stops
to make sense, or the disk. -/
inductive Failure
  | line (text : String) (index : Nat)
  | io (error : IoError)
deriving DecidableEq, Repr

/-- The wording of a failure. -/
def Failure.message : Failure → String
  | .line text index =>
    "Error parsing line: '" ++ text ++ "', error at line index: " ++ toString index
  | .io error => error.message

namespace Line

/-- Where in a line its reader stands: outside quotes, behind blanks, behind a backslash
outside quotes, in a double or a single quote, or behind a backslash in one. -/
inductive State
  | plain
  | blank
  | escape
  | weak
  | weakEscape
  | strong
  | strongEscape
deriving DecidableEq, Repr

/-- The state that a character outside quotes leads to. -/
def State.outside (c : Char) : State :=
  if c = '\\' then .escape
  else if c = '"' then .weak
  else if c = '\'' then .strong
  else .plain

/-- The state after one more character; a comment is not looked for. -/
def State.next : State → Char → State
  | .plain, c => if Text.isBlank c && c != '\n' && c != '\r' then .blank else .outside c
  | .blank, c => .outside c
  | .escape, _ => .plain
  | .weak, c => if c = '\\' then .weakEscape else if c = '"' then .plain else .weak
  | .weakEscape, _ => .weak
  | .strong, c => if c = '\\' then .strongEscape else if c = '\'' then .plain else .strong
  | .strongEscape, _ => .strong

/-- Runs through a physical line: the text before a comment, if one is reached, or the
state at its end. -/
def scan : State → List Char → List Char ⊕ State
  | s, [] => .inr s
  | s, c :: rest =>
    if s = .blank ∧ c = '#' then .inl []
    else
      match scan (s.next c) rest with
      | .inl before => .inl (c :: before)
      | .inr final => .inr final

/-- A line without the line feed at its end, and without a carriage return before that. -/
def stripEnd (line : List Char) : List Char :=
  match line.reverse with
  | '\n' :: '\r' :: rest => rest.reverse
  | '\n' :: rest => rest.reverse
  | _ => line

end Line

/-- Cuts after every line feed. -/
def cutLines : List Char → List (List Char)
  | [] => []
  | c :: rest =>
    if c = '\n' then [c] :: cutLines rest
    else
      match cutLines rest with
      | [] => [[c]]
      | line :: more => (c :: line) :: more

/-- Cuts bytes after every line feed. -/
def cutBytes : List UInt8 → List (List UInt8)
  | [] => []
  | b :: rest =>
    if b = 0x0A then [b] :: cutBytes rest
    else
      match cutBytes rest with
      | [] => [[b]]
      | line :: more => (b :: line) :: more

/-- The physical lines of a file, each with its line feed; a line that is no text is a
failure of its own. -/
def physicalLines : Content → List (Except Failure (List Char))
  | .text s => (cutLines s.toList).map .ok
  | .bytes bs => (cutBytes bs).map fun line =>
    match Text.Utf8.decode? line with
    | some s => .ok s.toList
    | none => .error (.io .notText)

/-- Puts physical lines together into logical ones; `read` has been read of the current
one, up to the given state. -/
def joinLines : List (Except Failure (List Char)) → List Char → Line.State →
    List (Except Failure (List Char))
  | [], read, state =>
    if state = .plain then []
    else [.error (.line (String.ofList read) (Text.Utf8.size read))]
  | .error e :: _, _, _ => [.error e]
  | .ok line :: rest, read, state =>
    if (Text.trimStartChars (read ++ line)).head? = some '#' then
      .ok [] :: joinLines rest [] .plain
    else
      match Line.scan state line with
      | .inl before => .ok (read ++ before) :: joinLines rest [] .plain
      | .inr .plain => .ok (Line.stripEnd (read ++ line)) :: joinLines rest [] .plain
      | .inr unfinished => joinLines rest (read ++ line) unfinished

/-- The logical lines of a file, up to the first that cannot be read. -/
def logicalLines (content : Content) : List (Except Failure (List Char)) :=
  joinLines (physicalLines content) [] .plain

end Provisioner.Dotenv
