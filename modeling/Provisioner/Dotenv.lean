import Provisioner.Dotenv.Value
import Provisioner.KeyMap

/-!
# Environment files

An environment file binds keys to values, one logical line for each: a key, `=` and a
value, with `export` before the key if one likes.  Empty lines and comments are
skipped, and of two lines with one key the later one counts.

* `Dotenv.parse` reads a file.  Variables in its values are looked up in the process
  environment first and then among the keys read before.
* `Dotenv.render` writes a map as a file, every value in double quotes.
-/

namespace Provisioner.Dotenv

/-- The characters that a key can start with: ASCII letters and `_`. -/
def isKeyStart (c : Char) : Bool :=
  c.isAlpha || c == '_'

/-- The characters that a key can go on with: ASCII letters, digits, `_` and `.`. -/
def isKeyChar (c : Char) : Bool :=
  c.isAlphanum || c == '_' || c == '.'

/-- A part of a line that is still to be read, and how many bytes stand before it. -/
structure Rest where
  chars : List Char
  offset : Nat

namespace Rest

/-- The rest behind blanks. -/
def skipBlanks (r : Rest) : Rest :=
  let blanks := r.chars.takeWhile Text.isBlank
  ⟨r.chars.dropWhile Text.isBlank, r.offset + Text.Utf8.size blanks⟩

/-- A key, and the rest behind it and the blanks after it. -/
def key? (r : Rest) : Option (String × Rest) :=
  match r.chars with
  | [] => none
  | c :: _ =>
    if isKeyStart c then
      let key := r.chars.takeWhile isKeyChar
      some (String.ofList key,
        skipBlanks ⟨r.chars.dropWhile isKeyChar, r.offset + key.length⟩)
    else none

/-- The rest behind a `=`. -/
def equals? (r : Rest) : Option Rest :=
  match r.chars with
  | '=' :: rest => some ⟨rest, r.offset + 1⟩
  | _ => none

/-- Whether nothing stands here, or a comment. -/
def isIdle (r : Rest) : Bool :=
  match r.chars.head? with
  | none => true
  | some c => c == '#'

end Rest

/-- Reads a key and the `=` behind it.  The word `export` is a key of its own if a `=`
follows it, and is passed over if another key does.  The error is the number of bytes
before the place that makes no sense. -/
def readKey (r : Rest) : Except Nat (String × Rest) :=
  match r.key? with
  | none => .error r.offset
  | some (key, after) =>
    match after.equals? with
    | some value => .ok (key, value)
    | none =>
      if key = "export" then
        match after.key? with
        | none => .error after.offset
        | some (key, after) =>
          match after.equals? with
          | some value => .ok (key, value)
          | none => .error after.offset
      else .error after.offset

/-- Reads a logical line; an idle line binds nothing. -/
def readLine (lookup : String → String) (line : List Char) :
    Except Failure (Option (String × String)) :=
  let start := Rest.skipBlanks ⟨Text.trimEndChars line, 0⟩
  if start.isIdle then .ok none
  else
    match readKey start with
    | .error index => .error (.line (String.ofList line) index)
    | .ok (key, after) =>
      let value := after.skipBlanks
      if value.isIdle then .ok (some (key, ""))
      else
        match Value.read lookup (Text.Utf8.size value.chars - 1) (.text false) 0 value.chars with
        | .ok output => .ok (some (key, String.ofList output))
        | .error index => .error (.line (String.ofList value.chars) index)

/-- The text of a variable: the process environment's, or that of a key read before, or
nothing. -/
def variableText (environment values : KeyMap String) (name : String) : String :=
  match environment.get? name with
  | some text => text
  | none => (values.get? name).getD ""

/-- Reads logical lines into a map; stops at the first failure. -/
def readLines (environment : KeyMap String) :
    List (Except Failure (List Char)) → KeyMap String → Except Failure (KeyMap String)
  | [], values => .ok values
  | .error e :: _, _ => .error e
  | .ok line :: rest, values =>
    match readLine (variableText environment values) line with
    | .error e => .error e
    | .ok none => readLines environment rest values
    | .ok (some (key, value)) => readLines environment rest (values.insert key value)

/-- Reads a file. -/
def parse (environment : KeyMap String) (content : Content) :
    Except Failure (KeyMap String) :=
  readLines environment (logicalLines content) KeyMap.empty

/-- How a character is written in double quotes. -/
def escapeChar (c : Char) : List Char :=
  if c = '\\' then ['\\', '\\']
  else if c = '"' then ['\\', '"']
  else if c = '$' then ['\\', '$']
  else if c = '\n' then ['\\', 'n']
  else [c]

/-- The line that binds a key to a value. -/
def renderEntry (key value : String) : List Char :=
  key.toList ++ '=' :: '"' :: (value.toList.flatMap escapeChar ++ ['"', '\n'])

/-- Writes a map as a file, in the order of its keys. -/
def render (values : KeyMap String) : String :=
  String.ofList (values.entries.flatMap fun e => renderEntry e.1 e.2)

end Provisioner.Dotenv
