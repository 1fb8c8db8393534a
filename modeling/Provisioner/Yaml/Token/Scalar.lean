import Provisioner.Yaml.Cursor
import Provisioner.Json.Document

/-!
# Scalars in YAML

The three families of scalars.

* A quoted scalar ends at its quote.  Line ends in it are folded, and double quotes know
  escapes.
* A block scalar is indented below its indicator.  Its head says how its last line ends
  are kept and, if one likes, how far it is indented.
* A plain scalar ends before `: `, before ` #`, at an indicator of a flow collection, or
  where the indentation ends.

Line ends between the words of a scalar are collected in a `Gap`: blanks on one line, or
the first line end and the further ones.
-/

namespace Provisioner.Yaml.Scalar

/-- What stands between two words of a scalar; each text has its last character first. -/
structure Gap where
  blanks : List Char
  leading : List Char
  trailing : List Char
  broken : Bool

namespace Gap

/-- Nothing. -/
def none : Gap := ⟨[], [], [], false⟩

/-- The gap with one more blank; blanks at the beginning of a line do not count. -/
def addBlank (g : Gap) (c : Char) : Gap :=
  if g.broken then g else { g with blanks := c :: g.blanks }

/-- The gap with one more line end. -/
def addBreak (g : Gap) (b : List Char) : Gap :=
  if g.broken then { g with trailing := b.reverse ++ g.trailing }
  else ⟨[], b.reverse, [], true⟩

/-- The text of a gap, its last character first.  A single line end folds to a space, and
the first of several is dropped. -/
def folded (g : Gap) : List Char :=
  if !g.broken then g.blanks
  else if g.leading.getLast? == some '\n' then
    if g.trailing.isEmpty then [' '] else g.trailing
  else g.trailing ++ g.leading

end Gap

/-! ## Quoted scalars -/

/-- The character that a letter behind a backslash stands for. -/
def escape? (c : Char) : Option Char :=
  if c = '0' then some (Char.ofNat 0x00)
  else if c = 'a' then some (Char.ofNat 0x07)
  else if c = 'b' then some (Char.ofNat 0x08)
  else if c = 't' ∨ c = '\t' then some '\t'
  else if c = 'n' then some '\n'
  else if c = 'v' then some (Char.ofNat 0x0B)
  else if c = 'f' then some (Char.ofNat 0x0C)
  else if c = 'r' then some '\r'
  else if c = 'e' then some (Char.ofNat 0x1B)
  else if c = ' ' ∨ c = '"' ∨ c = '/' ∨ c = '\\' then some c
  else if c = 'N' then some (Char.ofNat 0x85)
  else if c = '_' then some (Char.ofNat 0xA0)
  else if c = 'L' then some (Char.ofNat 0x2028)
  else if c = 'P' then some (Char.ofNat 0x2029)
  else none

/-- How many digits follow a letter behind a backslash. -/
def escapeDigits? (c : Char) : Option Nat :=
  if c = 'x' then some 2 else if c = 'u' then some 4 else if c = 'U' then some 8 else none

/-- The value of hexadecimal digits. -/
def hexNumber? : List Char → Option Nat
  | cs => cs.foldl (fun n? c => do
      let n ← n?
      let d ← Json.hexValue? c
      return n * 16 + d) (some 0)

/-- Reads an escape in a scalar that began at `since`; the cursor stands on the
backslash. -/
def readEscape (since : Mark) (c : Cursor) : Except Fault (Char × Cursor) :=
  let fail (problem : String) : Except Fault (Char × Cursor) :=
    .error (.inContext "while parsing a quoted scalar" since problem c.mark)
  match c.rest.drop 1 with
  | [] => fail "found unknown escape character"
  | e :: after =>
    match escape? e with
    | some d => .ok (d, c.advanceBy 2)
    | none =>
      match escapeDigits? e with
      | none => fail "found unknown escape character"
      | some count =>
        let c := c.advanceBy 2
        match if (after.take count).length = count then hexNumber? (after.take count) else none with
        | none =>
          .error (.inContext "while parsing a quoted scalar" since
            "did not find expected hexdecimal number" c.mark)
        | some n =>
          if (0xD800 ≤ n ∧ n ≤ 0xDFFF) ∨ 0x10FFFF < n then
            .error (.inContext "while parsing a quoted scalar" since
              "found invalid Unicode character escape code" c.mark)
          else .ok (Char.ofNat n, c.advanceBy count)

/-- The quote of a style. -/
def quoteOf (single : Bool) : Char := if single then '\'' else '"'

/-- Reads a quoted scalar from behind its opening quote, one character at a time; `acc`
holds its text so far and `gap` what was collected since the last word, `words` says
whether a word is being read.  The answer is the text, its last character first, and the
cursor behind the closing quote. -/
def readQuoted (single : Bool) (since : Mark) :
    Nat → (words : Bool) → List Char → Gap → Cursor → Except Fault (List Char × Cursor)
  | 0, _, _, _, c =>
    .error (.inContext "while scanning a quoted scalar" since "found unexpected end of stream"
      c.mark)
  | fuel + 1, words, acc, gap, c =>
    if !words && c.atDocumentIndicator then
      .error (.inContext "while scanning a quoted scalar" since
        "found unexpected document indicator" c.mark)
    else
      match c.rest with
      | [] =>
        .error (.inContext "while scanning a quoted scalar" since
          "found unexpected end of stream" c.mark)
      | d :: after =>
        if isSpaceOrTab d then readQuoted single since fuel false acc (gap.addBlank d) c.advance
        else if isBreak d then
          let (b, c) := c.readLine
          readQuoted single since fuel false acc (gap.addBreak b) c
        else
          let acc := gap.folded ++ acc
          if single && d == '\'' && after.head? == some '\'' then
            readQuoted single since fuel true ('\'' :: acc) .none (c.advanceBy 2)
          else if d == quoteOf single then .ok (acc, c.advance)
          else if !single && d == '\\' then
            if after.head?.any isBreak then
              readQuoted single since fuel false acc ⟨[], [], [], true⟩ c.advance.advanceLine
            else
              match readEscape since c with
              | .error f => .error f
              | .ok (e, c) => readQuoted single since fuel true (e :: acc) .none c
          else readQuoted single since fuel true (d :: acc) .none c.advance

/-- Reads a quoted scalar whose opening quote is next. -/
def quoted (single : Bool) (c : Cursor) : Except Fault (String × Cursor) :=
  (readQuoted single c.mark (c.rest.length + 1) false [] .none c.advance).map
    fun (text, c) => (String.ofList text.reverse, c)

/-! ## Plain scalars -/

/-- Whether a plain scalar ends at the head of a text. -/
def endsPlain (flow : Bool) : List Char → Bool
  | [] => true
  | c :: rest =>
    (c == ':' && Cursor.startsBlank rest)
      || (flow && (c == ',' || c == '[' || c == ']' || c == '\x7b' || c == '\x7d'))

/-- Whether a colon with an indicator behind it is next, which no plain scalar of a flow
collection may hold. -/
def hasStrayColon : List Char → Bool
  | ':' :: c :: _ => c == ',' || c == '?' || c == '[' || c == ']' || c == '\x7b' || c == '\x7d'
  | _ => false

/-- A plain scalar that was read: its text with the last character first, the place behind
its last word, the cursor behind the gap after it, and whether that gap has a line end. -/
structure Plain where
  text : List Char
  stop : Mark
  after : Cursor
  broken : Bool

/-- Reads a plain scalar that began at `since` and whose lines are indented by at least
`indent`; the arguments are as for `readQuoted`. -/
def readPlain (flow : Bool) (indent : Int) (since : Mark) :
    Nat → (words : Bool) → List Char → Mark → Gap → Cursor → Except Fault Plain
  | 0, _, acc, stop, gap, c => .ok ⟨acc, stop, c, gap.broken⟩
  | fuel + 1, words, acc, stop, gap, c =>
    if !words && (c.atDocumentIndicator || c.sees '#') then .ok ⟨acc, stop, c, gap.broken⟩
    else
      match c.rest with
      | [] => .ok ⟨acc, stop, c, gap.broken⟩
      | d :: _ =>
        if isSpaceOrTab d then
          if gap.broken && (c.mark.column : Int) < indent && d == '\t' then
            .error (.inContext "while scanning a plain scalar" since
              "found a tab character that violates indentation" c.mark)
          else readBlank fuel acc stop (gap.addBlank d) c.advance
        else if isBreak d then
          let (b, c) := c.readLine
          readBlank fuel acc stop (gap.addBreak b) c
        else if flow && hasStrayColon c.rest then
          .error (.inContext "while scanning a plain scalar" since "found unexpected ':'" c.mark)
        else if endsPlain flow c.rest then .ok ⟨acc, stop, c, gap.broken⟩
        else
          readPlain flow indent since fuel true (d :: (gap.folded ++ acc)) c.advance.mark .none
            c.advance
where
  /-- Goes on behind a blank; where blanks end, the indentation is looked at. -/
  readBlank (fuel : Nat) (acc : List Char) (stop : Mark) (gap : Gap) (c : Cursor) :
      Except Fault Plain :=
    if !c.atBlank && !c.atBreak && !flow && (c.mark.column : Int) < indent then
      .ok ⟨acc, stop, c, gap.broken⟩
    else readPlain flow indent since fuel false acc stop gap c

/-- Reads a plain scalar at the cursor. -/
def plain (flow : Bool) (indent : Int) (c : Cursor) : Except Fault Plain :=
  readPlain flow indent c.mark (c.rest.length + 1) false [] c.mark .none c

/-! ## Block scalars -/

/-- How the line ends behind the last line of a block scalar are kept. -/
inductive Chomping
  | clip
  | strip
  | keep
deriving DecidableEq, Repr

/-- The head of a block scalar: chomping, the indentation if it is given, and the cursor
behind both. -/
def blockHead (since : Mark) (c : Cursor) : Except Fault (Chomping × Nat × Cursor) :=
  let (chomping?, c) := chompingAt c
  match c.rest.head? with
  | some d =>
    if d.isDigit then
      if d == '0' then
        .error (.inContext "while scanning a block scalar" since
          "found an indentation indicator equal to 0" c.mark)
      else
        let c := c.advance
        match chomping? with
        | some k => .ok (k, d.toNat - 0x30, c)
        | none =>
          let (later?, c) := chompingAt c
          .ok (later?.getD .clip, d.toNat - 0x30, c)
    else .ok (chomping?.getD .clip, 0, c)
  | none => .ok (chomping?.getD .clip, 0, c)
where
  /-- The chomping indicator at the cursor. -/
  chompingAt (c : Cursor) : Option Chomping × Cursor :=
    if c.sees '+' then (some .keep, c.advance)
    else if c.sees '-' then (some .strip, c.advance)
    else (none, c)

/-- Passes over empty lines and indentation.  An indentation of zero is not known yet:
`widest` is then the widest seen so far.  The answer is the line ends with the last one
first, the widest indentation, and the cursor. -/
def blockBreaks (since : Mark) (indent : Nat) :
    Nat → (breaks : List Char) → (widest : Nat) → Cursor →
      Except Fault (List Char × Nat × Cursor)
  | 0, breaks, widest, c => .ok (breaks, widest, c)
  | fuel + 1, breaks, widest, c =>
    let inside := indent = 0 || c.mark.column < indent
    match c.rest with
    | [] => .ok (breaks, max widest c.mark.column, c)
    | d :: _ =>
      if inside && d == ' ' then blockBreaks since indent fuel breaks widest c.advance
      else
        let widest := max widest c.mark.column
        if inside && d == '\t' then
          .error (.inContext "while scanning a block scalar" since
            "found a tab character where an indentation space is expected" c.mark)
        else if isBreak d then
          let (b, c) := c.readLine
          blockBreaks since indent fuel (b.reverse ++ breaks) widest c
        else .ok (breaks, widest, c)

/-- The text of a block scalar while it is read, its parts with the last character first. -/
structure Block where
  text : List Char
  leading : List Char
  trailing : List Char
  afterBlank : Bool

/-- The text of a block in front of its next line, which starts with a blank or not.  In a
folded block a line end between two lines without such blanks is folded. -/
def Block.joined (b : Block) (literal blank : Bool) : List Char :=
  if !literal && b.leading.getLast? == some '\n' && !b.afterBlank && !blank then
    if b.trailing.isEmpty then ' ' :: b.text else b.trailing ++ b.text
  else b.trailing ++ b.leading ++ b.text

/-- Reads the lines of a block scalar. -/
def blockLines (literal : Bool) (since : Mark) (indent : Nat) :
    Nat → Block → Cursor → Except Fault (Block × Cursor)
  | 0, b, c => .ok (b, c)
  | fuel + 1, b, c =>
    if c.mark.column != indent || c.atEnd then .ok (b, c)
    else
      let blank := c.atBlank
      let line := c.rest.takeWhile (fun d => !isBreak d)
      let text := line.reverse ++ b.joined literal blank
      let (ending, c) := (c.skipWhile (fun d => !isBreak d)).readLine
      match blockBreaks since indent (c.rest.length + 1) [] 0 c with
      | .error f => .error f
      | .ok (breaks, _, c) =>
        blockLines literal since indent fuel ⟨text, ending.reverse, breaks, blank⟩ c

/-- Reads a block scalar whose indicator is next, inside blocks that are indented by
`parent`. -/
def block (literal : Bool) (parent : Int) (c : Cursor) : Except Fault (String × Cursor) := do
  let since := c.mark
  let (chomping, increment, c) ← blockHead since c.advance
  let c := (c.skipWhile isSpaceOrTab).skipComment
  if !c.atBreakOrEnd then
    throw (.inContext "while scanning a block scalar" since
      "did not find expected comment or line break" c.mark)
  let c := c.advanceLine
  let given : Nat := if increment = 0 then 0
    else if 0 ≤ parent then parent.toNat + increment else increment
  let (breaks, widest, c) ← blockBreaks since given (c.rest.length + 1) [] 0 c
  let indent := if given = 0 then max (max widest (parent + 1).toNat) 1 else given
  let (b, c) ← blockLines literal since indent (c.rest.length + 1) ⟨[], [], breaks, false⟩ c
  let text := match chomping with
    | .strip => b.text
    | .clip => b.leading ++ b.text
    | .keep => b.trailing ++ b.leading ++ b.text
  return (String.ofList text.reverse, c)

end Provisioner.Yaml.Scalar
