import Provisioner.Yaml.Fault

/-!
# Walking through a YAML text

A `Cursor` is the text from some place on, with the place.  It also says which
characters are blanks, line ends and parts of names.

* `Cursor.advance` passes over one character, `Cursor.advanceLine` over a line end.
* `Cursor.readLine` gives the line end that is passed over: a line feed for the usual
  ones, and the Unicode separators as they are.
* `checkCharacters` refuses a text with control characters.
-/

namespace Provisioner.Yaml

/-- Whether a character may stand in a document. -/
def isAllowed (c : Char) : Bool :=
  let n := c.toNat
  n == 0x09 || n == 0x0A || n == 0x0D || (0x20 ≤ n && n ≤ 0x7E) || n == 0x85
    || (0xA0 ≤ n && n ≤ 0xD7FF) || (0xE000 ≤ n && n ≤ 0xFFFD) || 0x10000 ≤ n

/-- Refuses a text with a character that may not stand in it; `offset` bytes precede. -/
def checkCharacters : List Char → Nat → Except Fault Unit
  | [], _ => .ok ()
  | c :: rest, offset =>
    if isAllowed c then checkCharacters rest (offset + c.utf8Size)
    else .error (.character offset)

/-- The mark that may stand at the very beginning of a text. -/
def byteOrderMark : Char := Char.ofNat 0xFEFF

/-- Whether a character ends a line. -/
def isBreak (c : Char) : Bool :=
  let n := c.toNat
  n == 0x0A || n == 0x0D || n == 0x85 || n == 0x2028 || n == 0x2029

/-- Whether a character is a space or a tab. -/
def isSpaceOrTab (c : Char) : Bool := c == ' ' || c == '\t'

/-- Whether a character can be a part of an anchor, a tag handle or a directive's name. -/
def isNameChar (c : Char) : Bool := c.isAlphanum || c == '-' || c == '_'

/-- The text from a place on. -/
structure Cursor where
  rest : List Char
  mark : Mark
deriving Inhabited

namespace Cursor

/-- The next character. -/
def peek? (c : Cursor) : Option Char := c.rest.head?

/-- Whether the next character is this one. -/
def sees (c : Cursor) (d : Char) : Bool := c.rest.head? == some d

/-- Whether the text starts with these characters here. -/
def seesAll (c : Cursor) (ds : List Char) : Bool := ds.isPrefixOf c.rest

/-- Whether the text is over. -/
def atEnd (c : Cursor) : Bool := c.rest.isEmpty

/-- Whether a space or a tab is next. -/
def atBlank (c : Cursor) : Bool := c.rest.head?.any isSpaceOrTab

/-- Whether a line end is next. -/
def atBreak (c : Cursor) : Bool := c.rest.head?.any isBreak

/-- Whether a list of characters starts with a space, a tab or a line end, or is over. -/
def startsBlank : List Char → Bool
  | [] => true
  | c :: _ => isSpaceOrTab c || isBreak c

/-- Whether a space, a tab, a line end or the end of the text is next. -/
def atBlankOrEnd (c : Cursor) : Bool := startsBlank c.rest

/-- Whether a line end or the end of the text is next. -/
def atBreakOrEnd (c : Cursor) : Bool := c.atEnd || c.atBreak

/-- Passes over one character that does not end a line. -/
def advance (c : Cursor) : Cursor :=
  match c.rest with
  | [] => c
  | _ :: rest => ⟨rest, ⟨c.mark.index + 1, c.mark.line, c.mark.column + 1⟩⟩

/-- Passes over several characters that do not end a line. -/
def advanceBy : Nat → Cursor → Cursor
  | 0, c => c
  | n + 1, c => advanceBy n c.advance

/-- The line end that is next, as it counts in a value, and the cursor behind it. -/
def readLine (c : Cursor) : List Char × Cursor :=
  match c.rest with
  | '\r' :: '\n' :: rest => (['\n'], ⟨rest, ⟨c.mark.index + 2, c.mark.line + 1, 0⟩⟩)
  | b :: rest =>
    if isBreak b then
      let kept := if b.toNat = 0x2028 ∨ b.toNat = 0x2029 then [b] else ['\n']
      (kept, ⟨rest, ⟨c.mark.index + 1, c.mark.line + 1, 0⟩⟩)
    else ([], c)
  | [] => ([], c)

/-- Passes over the line end that is next. -/
def advanceLine (c : Cursor) : Cursor := c.readLine.2

/-- Passes over the characters of a class, which holds no line end. -/
def skipWhile (p : Char → Bool) (c : Cursor) : Cursor :=
  go c.rest c.mark
where
  go : List Char → Mark → Cursor
    | [], m => ⟨[], m⟩
    | d :: rest, m =>
      if p d then go rest ⟨m.index + 1, m.line, m.column + 1⟩ else ⟨d :: rest, m⟩

/-- Passes over a comment, if one is next. -/
def skipComment (c : Cursor) : Cursor :=
  if c.sees '#' then c.skipWhile (fun d => !isBreak d) else c

/-- Whether a line starts here with three dashes or three dots that stand alone. -/
def atDocumentIndicator (c : Cursor) : Bool :=
  c.mark.column == 0 && (c.seesAll ['-', '-', '-'] || c.seesAll ['.', '.', '.'])
    && startsBlank (c.rest.drop 3)

end Cursor

end Provisioner.Yaml
