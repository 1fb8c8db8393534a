import Provisioner.Yaml.Cursor
import Provisioner.Yaml.Token
import Provisioner.Json.Document

/-!
# Anchors, tags and directives

The properties that stand before a node, and the directives that stand before a
document.

* `Property.anchor` reads an anchor or an alias.
* `Property.tag` reads a tag: a verbatim one in angle brackets, or a handle with a
  suffix.
* `Property.directive` reads a version or a tag directive up to the end of its line.
-/

namespace Provisioner.Yaml.Property

/-- The cursor behind the characters of a class, and those characters. -/
def readWhile (p : Char → Bool) (c : Cursor) : List Char × Cursor :=
  (c.rest.takeWhile p, c.skipWhile p)

/-- Whether a character may follow a name without a blank between them. -/
def endsName (c : Char) : Bool :=
  c == '?' || c == ':' || c == ',' || c == ']' || c == '\x7d' || c == '%' || c == '@'
    || c.toNat == 0x60

/-- Reads an anchor or an alias whose indicator is next. -/
def anchor (isAlias : Bool) (c : Cursor) : Except Fault (Token.Kind × Cursor) :=
  let (name, after) := readWhile isNameChar c.advance
  if name.isEmpty || !(after.atBlankOrEnd || after.peek?.any endsName) then
    .error (.inContext
      (if isAlias then "while scanning an alias" else "while scanning an anchor") c.mark
      "did not find expected alphabetic or numeric character" after.mark)
  else
    .ok (if isAlias then .alias (String.ofList name) else .anchor (String.ofList name), after)

/-! ## Tags -/

/-- Whether a character may stand in a tag; flow indicators only in a verbatim one. -/
def isUriChar (verbatim : Bool) (c : Char) : Bool :=
  isNameChar c || c == ';' || c == '/' || c == '?' || c == ':' || c == '@' || c == '&'
    || c == '=' || c == '+' || c == '$' || c == '.' || c == '%' || c == '!' || c == '~'
    || c == '*' || c == '\'' || c == '(' || c == ')'
    || (verbatim && (c == ',' || c == '[' || c == ']'))

/-- How many bytes a character takes that begins with this byte. -/
def encodedWidth (b : Nat) : Nat :=
  if b < 0x80 then 1
  else if 0xC0 ≤ b ∧ b < 0xE0 then 2
  else if 0xE0 ≤ b ∧ b < 0xF0 then 3
  else if 0xF0 ≤ b ∧ b < 0xF8 then 4
  else 0

/-- What a tag is read for, in words: for a tag directive or for a node. -/
def purpose (directive : Bool) : String :=
  if directive then "while parsing a %TAG directive" else "while parsing a tag"

/-- Reads the escaped bytes of one character; `left` of them are to come unless it is none
yet. -/
def readEscapes (directive : Bool) (since : Mark) :
    Nat → (left? : Option Nat) → Cursor → Except Fault (List UInt8 × Cursor)
  | 0, _, c => .ok ([], c)
  | fuel + 1, left?, c =>
    if left? = some 0 then .ok ([], c)
    else
      let fail (problem : String) : Except Fault (List UInt8 × Cursor) :=
        .error (.inContext (purpose directive) since problem c.mark)
      match c.rest with
      | '%' :: a :: b :: _ =>
        match Json.hexValue? a, Json.hexValue? b with
        | some a, some b =>
          let octet := a * 16 + b
          let more (left : Nat) : Except Fault (List UInt8 × Cursor) :=
            match readEscapes directive since fuel (some left) (c.advanceBy 3) with
            | .error f => .error f
            | .ok (bytes, c) => .ok (UInt8.ofNat octet :: bytes, c)
          match left? with
          | none =>
            if encodedWidth octet = 0 then fail "found an incorrect leading UTF-8 octet"
            else more (encodedWidth octet - 1)
          | some left =>
            if octet / 0x40 ≠ 2 then fail "found an incorrect trailing UTF-8 octet"
            else more (left - 1)
        | _, _ => fail "did not find URI escaped octet"
      | _ => fail "did not find URI escaped octet"

/-- Reads the characters of a tag as bytes. -/
def readUriBytes (verbatim directive : Bool) (since : Mark) :
    Nat → Cursor → Except Fault (List UInt8 × Cursor)
  | 0, c => .ok ([], c)
  | fuel + 1, c =>
    match c.rest with
    | [] => .ok ([], c)
    | d :: _ =>
      if !isUriChar verbatim d then .ok ([], c)
      else
        let here : Except Fault (List UInt8 × Cursor) :=
          if d == '%' then readEscapes directive since 5 none c
          else .ok ([UInt8.ofNat d.toNat], c.advance)
        match here with
        | .error f => .error f
        | .ok (bytes, c) =>
          match readUriBytes verbatim directive since fuel c with
          | .error f => .error f
          | .ok (more, c) => .ok (bytes ++ more, c)

/-- Reads a tag's text behind `head`, which counts although its first character is left
out.  There has to be something. -/
def readUri (verbatim directive : Bool) (head : List Char) (since : Mark) (c : Cursor) :
    Except Fault (String × Cursor) :=
  match readUriBytes verbatim directive since (c.rest.length + 1) c with
  | .error f => .error f
  | .ok (bytes, after) =>
    if head.isEmpty && bytes.isEmpty then
      .error (.inContext (purpose directive) since "did not find expected tag URI" after.mark)
    else .ok (String.ofList (head.drop 1) ++ Text.Utf8.decodeLossy bytes, after)

/-- Reads a handle: `!`, a name, and `!` again if it is there.  A directive needs the second
one, unless there is no name. -/
def readHandle (directive : Bool) (since : Mark) (c : Cursor) :
    Except Fault (List Char × Cursor) :=
  let context := if directive then "while scanning a directive" else "while scanning a tag"
  if !c.sees '!' then .error (.inContext context since "did not find expected '!'" c.mark)
  else
    let (name, c) := readWhile isNameChar c.advance
    if c.sees '!' then .ok ('!' :: name ++ ['!'], c.advance)
    else if directive && !name.isEmpty then
      .error (.inContext "while parsing a directive" since "did not find expected '!'" c.mark)
    else .ok ('!' :: name, c)

/-- Reads a tag behind its handle, or without one. -/
def readSuffix (since : Mark) (handle : List Char) (c : Cursor) :
    Except Fault (Token.Kind × Cursor) := do
  if 2 ≤ handle.length ∧ handle.getLast? = some '!' then
    let (suffix, c) ← readUri false false [] since c
    return (.tag (String.ofList handle) suffix, c)
  else
    let (suffix, c) ← readUri false false handle since c
    return (if suffix.isEmpty then .tag "" "!" else .tag "!" suffix, c)

/-- Reads a verbatim tag. -/
def readVerbatim (since : Mark) (c : Cursor) : Except Fault (Token.Kind × Cursor) := do
  let (suffix, c) ← readUri true false [] since (c.advanceBy 2)
  if !c.sees '>' then
    throw (.inContext "while scanning a tag" since "did not find the expected '>'" c.mark)
  return (.tag "" suffix, c.advance)

/-- Reads a tag whose `!` is next. -/
def tag (flow : Bool) (c : Cursor) : Except Fault (Token.Kind × Cursor) := do
  let (kind, after) ←
    if c.seesAll ['!', '<'] then readVerbatim c.mark c
    else do
      let (handle, after) ← readHandle false c.mark c
      readSuffix c.mark handle after
  if after.atBlankOrEnd || (flow && after.sees ',') then return (kind, after)
  throw (.inContext "while scanning a tag" c.mark "did not find expected whitespace or line break"
    after.mark)

/-! ## Directives -/

/-- Reads a number of at most nine digits in a version. -/
def readVersionNumber (since : Mark) (c : Cursor) : Except Fault (Nat × Cursor) :=
  let (digits, after) := readWhile Char.isDigit c
  let fail (problem : String) (m : Mark) : Except Fault (Nat × Cursor) :=
    .error (.inContext "while scanning a %YAML directive" since problem m)
  if 9 < digits.length then
    fail "found extremely long version number" (c.advanceBy 9).mark
  else if digits.isEmpty then fail "did not find expected version number" c.mark
  else .ok (Json.digitsValue digits, after)

/-- Reads the version of a version directive. -/
def readVersion (since : Mark) (c : Cursor) : Except Fault (Token.Kind × Cursor) := do
  let (major, c) ← readVersionNumber since (c.skipWhile isSpaceOrTab)
  if !c.sees '.' then
    throw (.inContext "while scanning a %YAML directive" since
      "did not find expected digit or '.' character" c.mark)
  let (minor, c) ← readVersionNumber since c.advance
  return (.versionDirective major minor, c)

/-- Reads the handle and the leader of a tag directive. -/
def readTagDirective (since : Mark) (c : Cursor) : Except Fault (Token.Kind × Cursor) := do
  let (handle, c) ← readHandle true since (c.skipWhile isSpaceOrTab)
  if !c.atBlank then
    throw (.inContext "while scanning a %TAG directive" since "did not find expected whitespace"
      c.mark)
  let (leader, c) ← readUri true true [] since (c.skipWhile isSpaceOrTab)
  if !c.atBlankOrEnd then
    throw (.inContext "while scanning a %TAG directive" since
      "did not find expected whitespace or line break" c.mark)
  return (.tagDirective (String.ofList handle) leader, c)

/-- Reads the name of a directive. -/
def readDirectiveName (since : Mark) (c : Cursor) : Except Fault (String × Cursor) :=
  let (name, after) := readWhile isNameChar c
  if name.isEmpty then
    .error (.inContext "while scanning a directive" since
      "could not find expected directive name" after.mark)
  else if !after.atBlankOrEnd then
    .error (.inContext "while scanning a directive" since
      "found unexpected non-alphabetical character" after.mark)
  else .ok (String.ofList name, after)

/-- Reads a directive whose `%` is next. -/
def directive (c : Cursor) : Except Fault (Token.Kind × Mark × Cursor) := do
  let since := c.mark
  let (name, c) ← readDirectiveName since c.advance
  let (kind, c) ←
    if name = "YAML" then readVersion since c
    else if name = "TAG" then readTagDirective since c
    else throw (.inContext "while scanning a directive" since
      "found unknown directive name" c.mark)
  let stop := c.mark
  let c := (c.skipWhile isSpaceOrTab).skipComment
  if !c.atBreakOrEnd then
    throw (.inContext "while scanning a directive" since
      "did not find expected comment or line break" c.mark)
  return (kind, stop, c.advanceLine)

end Provisioner.Yaml.Property
