import Provisioner.Yaml.Token.Property
import Provisioner.Yaml.Token.Scalar

/-!
# From text to tokens

Tokens are read one after the other.  Two things in YAML show only later.

* A line that turns out to be indented less than the block it stands in ends that block,
  and one that is indented more begins a block: `Lexer.unroll` and `Lexer.roll` keep the
  indentations of the open blocks.
* A node turns out to be a key when a `:` follows it on its line.  Where a key may begin
  its place among the tokens is remembered as a `Candidate`, one for every open flow
  collection and one for the blocks around them; at the `:` the key token is put in there.

`Lexer.tokens` gives the tokens of a text, and the fault at which they break off.
-/

namespace Provisioner.Yaml

/-- A place where a key may have begun: how many tokens stand before it, and whether it has
to be a key because of its indentation. -/
structure Candidate where
  required : Bool
  before : Nat
  mark : Mark

/-- The state of the reader.  `produced` holds the tokens so far with the last one first,
`candidates` the candidate of the innermost flow collection first. -/
structure Lexer where
  cursor : Cursor
  indent : Int
  outer : List Int
  produced : List Token
  count : Nat
  keyAllowed : Bool
  candidates : List (Option Candidate)

namespace Lexer

/-- The reader at the beginning of a text. -/
def start (cs : List Char) : Lexer where
  cursor := ⟨cs, .start⟩
  indent := -1
  outer := []
  produced := []
  count := 0
  keyAllowed := true
  candidates := [none]

/-- How many flow collections are open. -/
def flowLevel (l : Lexer) : Nat := l.candidates.length - 1

/-- Whether the reader is inside a flow collection. -/
def inFlow (l : Lexer) : Bool := l.flowLevel != 0

/-- The longest a key can be. -/
def keyLimit : Nat := 1024

/-- The fault of a key that is missing its `:`. -/
def missingColon (l : Lexer) (k : Candidate) : Fault :=
  .inContext "while scanning a simple key" k.mark "could not find expected ':'" l.cursor.mark

/-- Appends a token. -/
def emit (l : Lexer) (kind : Token.Kind) (start stop : Mark) : Lexer :=
  { l with produced := ⟨kind, start, stop⟩ :: l.produced, count := l.count + 1 }

/-- Puts a token in behind the first `before` ones. -/
def emitAt (l : Lexer) (before : Nat) (kind : Token.Kind) (m : Mark) : Lexer :=
  let later := l.produced.take (l.count - before)
  let earlier := l.produced.drop (l.count - before)
  { l with produced := later ++ ⟨kind, m, m⟩ :: earlier, count := l.count + 1 }

/-- Ends the blocks that are indented by more than `column`. -/
def unroll (column : Int) (l : Lexer) : Lexer :=
  if l.inFlow then l else go l.outer l
where
  go : List Int → Lexer → Lexer
    | [], l => l
    | up :: outer, l =>
      if column < l.indent then
        go outer { l.emit .blockEnd l.cursor.mark l.cursor.mark with indent := up, outer := outer }
      else l

/-- Begins a block at a column if it is indented by more than the innermost one; its token
goes behind the first `before` ones. -/
def roll (column : Nat) (before : Nat) (kind : Token.Kind) (m : Mark) (l : Lexer) : Lexer :=
  if l.inFlow || (column : Int) ≤ l.indent then l
  else { l.emitAt before kind m with indent := column, outer := l.indent :: l.outer }

/-- Gives up the candidates that are too far back to be keys. -/
def dropStale (l : Lexer) : Except Fault Lexer := do
  let here := l.cursor.mark
  let candidates ← l.candidates.reverse.mapM fun
    | none => pure none
    | some k =>
      if k.mark.line < here.line ∨ k.mark.index + keyLimit < here.index then
        if k.required then throw (l.missingColon k) else pure none
      else pure (some k)
  return { l with candidates := candidates.reverse }

/-- Gives up the innermost candidate. -/
def dropCandidate (l : Lexer) : Except Fault Lexer :=
  match l.candidates with
  | some k :: more =>
    if k.required then .error (l.missingColon k) else .ok { l with candidates := none :: more }
  | _ => .ok l

/-- Remembers this place if a key may begin here. -/
def saveCandidate (l : Lexer) : Except Fault Lexer := do
  if !l.keyAllowed then return l
  let required := !l.inFlow && l.indent == (l.cursor.mark.column : Int)
  let l ← l.dropCandidate
  return { l with candidates := some ⟨required, l.count, l.cursor.mark⟩ :: l.candidates.drop 1 }

/-- Appends the token of an indicator of some characters. -/
def indicator (kind : Token.Kind) (width : Nat) (l : Lexer) : Lexer :=
  let after := l.cursor.advanceBy width
  { l.emit kind l.cursor.mark after.mark with cursor := after }

/-- Allows or forbids keys from here on. -/
def allowKey (allowed : Bool) (l : Lexer) : Lexer := { l with keyAllowed := allowed }

/-- Passes over blanks, comments and line ends.  Where a key may begin a tab is no blank. -/
def skipIdle : Nat → Lexer → Lexer
  | 0, l => l
  | fuel + 1, l =>
    let c := if l.cursor.mark.index == 0 && l.cursor.sees byteOrderMark
      then l.cursor.advance else l.cursor
    let tabs := l.inFlow || !l.keyAllowed
    let c := (c.skipWhile (fun d => d == ' ' || (tabs && d == '\t'))).skipComment
    if c.atBreak then
      skipIdle fuel { l with cursor := c.advanceLine, keyAllowed := l.keyAllowed || !l.inFlow }
    else { l with cursor := c }

/-- The end of the text. -/
def readEnd (l : Lexer) : Except Fault Lexer := do
  let m := l.cursor.mark
  let m : Mark := if m.column = 0 then m else ⟨m.index, m.line + 1, 0⟩
  let l ← (unroll (-1) { l with cursor := ⟨l.cursor.rest, m⟩ }).dropCandidate
  return (l.allowKey false).emit .streamEnd m m

/-- A directive. -/
def readDirective (l : Lexer) : Except Fault Lexer := do
  let l ← (unroll (-1) l).dropCandidate
  let (kind, stop, after) ← Property.directive l.cursor
  return { (l.allowKey false).emit kind l.cursor.mark stop with cursor := after }

/-- The three characters that begin or end a document. -/
def readDocumentIndicator (kind : Token.Kind) (l : Lexer) : Except Fault Lexer := do
  let l ← (unroll (-1) l).dropCandidate
  return (l.allowKey false).indicator kind 3

/-- The beginning of a flow collection. -/
def readFlowStart (kind : Token.Kind) (l : Lexer) : Except Fault Lexer := do
  let l ← l.saveCandidate
  return ({ l with candidates := none :: l.candidates }.allowKey true).indicator kind 1

/-- The end of a flow collection. -/
def readFlowEnd (kind : Token.Kind) (l : Lexer) : Except Fault Lexer := do
  let l ← l.dropCandidate
  let l := if l.inFlow then { l with candidates := l.candidates.drop 1 } else l
  return (l.allowKey false).indicator kind 1

/-- The comma in a flow collection. -/
def readFlowEntry (l : Lexer) : Except Fault Lexer := do
  let l ← l.dropCandidate
  return (l.allowKey true).indicator .flowEntry 1

/-- The dash of a block sequence. -/
def readBlockEntry (l : Lexer) : Except Fault Lexer := do
  let m := l.cursor.mark
  if !l.inFlow && !l.keyAllowed then
    throw (.grammar "block sequence entries are not allowed in this context" m none)
  let l ← (l.roll m.column l.count .blockSequenceStart m).dropCandidate
  return (l.allowKey true).indicator .blockEntry 1

/-- The question mark before a key. -/
def readKey (l : Lexer) : Except Fault Lexer := do
  let m := l.cursor.mark
  if !l.inFlow && !l.keyAllowed then
    throw (.grammar "mapping keys are not allowed in this context" m none)
  let l ← (l.roll m.column l.count .blockMappingStart m).dropCandidate
  return (l.allowKey (!l.inFlow)).indicator .key 1

/-- The colon before a value. -/
def readValue (l : Lexer) : Except Fault Lexer := do
  let m := l.cursor.mark
  match l.candidates with
  | some k :: more =>
    let l := { l.emitAt k.before .key k.mark with candidates := none :: more }
    let l := l.roll k.mark.column k.before .blockMappingStart k.mark
    return (l.allowKey false).indicator .value 1
  | _ =>
    if !l.inFlow && !l.keyAllowed then
      throw (.grammar "mapping values are not allowed in this context" m none)
    let l := l.roll m.column l.count .blockMappingStart m
    return (l.allowKey (!l.inFlow)).indicator .value 1

/-- An anchor, an alias or a tag. -/
def readProperty (read : Cursor → Except Fault (Token.Kind × Cursor)) (l : Lexer) :
    Except Fault Lexer := do
  let l := (← l.saveCandidate).allowKey false
  let (kind, after) ← read l.cursor
  return { l.emit kind l.cursor.mark after.mark with cursor := after }

/-- A block scalar. -/
def readBlockScalar (literal : Bool) (l : Lexer) : Except Fault Lexer := do
  let l := (← l.dropCandidate).allowKey true
  let (text, after) ← Scalar.block literal l.indent l.cursor
  return { l.emit (.scalar text (if literal then .literal else .folded)) l.cursor.mark after.mark
    with cursor := after }

/-- A quoted scalar. -/
def readQuoted (single : Bool) (l : Lexer) : Except Fault Lexer := do
  let l := (← l.saveCandidate).allowKey false
  let (text, after) ← Scalar.quoted single l.cursor
  return { l.emit (.scalar text (if single then .singleQuoted else .doubleQuoted))
    l.cursor.mark after.mark with cursor := after }

/-- A plain scalar; if line ends follow it a key may begin behind them. -/
def readPlain (l : Lexer) : Except Fault Lexer := do
  let l ← l.saveCandidate
  let p ← Scalar.plain l.inFlow (l.indent + 1) l.cursor
  return { (l.allowKey p.broken).emit (.scalar (String.ofList p.text.reverse) .plain)
    l.cursor.mark p.stop with cursor := p.after }

/-- Whether a plain scalar can begin with a character that `rest` follows. -/
def beginsPlain (flow : Bool) (c : Char) (rest : List Char) : Bool :=
  let isIndicator := c == '-' || c == '?' || c == ':' || c == ',' || c == '[' || c == ']'
    || c == '\x7b' || c == '\x7d' || c == '#' || c == '&' || c == '*' || c == '!' || c == '|'
    || c == '>' || c == '\'' || c == '"' || c == '%' || c == '@' || c.toNat == 0x60
  !(isIndicator || isSpaceOrTab c || isBreak c)
    || (c == '-' && !rest.head?.any isSpaceOrTab)
    || (!flow && (c == '?' || c == ':') && !Cursor.startsBlank rest)

/-- Reads the token that begins with a character that `rest` follows. -/
def readToken (c : Char) (rest : List Char) (l : Lexer) : Except Fault Lexer :=
  let alone := Cursor.startsBlank rest
  if l.cursor.mark.column == 0 && c == '%' then l.readDirective
  else if l.cursor.atDocumentIndicator then
    l.readDocumentIndicator (if c == '-' then .documentStart else .documentEnd)
  else if c == '[' then l.readFlowStart .flowSequenceStart
  else if c == '\x7b' then l.readFlowStart .flowMappingStart
  else if c == ']' then l.readFlowEnd .flowSequenceEnd
  else if c == '\x7d' then l.readFlowEnd .flowMappingEnd
  else if c == ',' then l.readFlowEntry
  else if c == '-' && alone then l.readBlockEntry
  else if c == '?' && (l.inFlow || alone) then l.readKey
  else if c == ':' && (l.inFlow || alone) then l.readValue
  else if c == '*' then l.readProperty (Property.anchor true)
  else if c == '&' then l.readProperty (Property.anchor false)
  else if c == '!' then l.readProperty (Property.tag l.inFlow)
  else if c == '|' && !l.inFlow then l.readBlockScalar true
  else if c == '>' && !l.inFlow then l.readBlockScalar false
  else if c == '\'' then l.readQuoted true
  else if c == '"' then l.readQuoted false
  else if beginsPlain l.inFlow c rest then l.readPlain
  else
    .error (.inContext "while scanning for the next token" l.cursor.mark
      "found character that cannot start any token" l.cursor.mark)

/-- Reads the next token; the flag says that it was the last one. -/
def step (l : Lexer) : Except Fault (Lexer × Bool) := do
  let l ← (skipIdle (l.cursor.rest.length + 1) l).dropStale
  let l := l.unroll l.cursor.mark.column
  match l.cursor.rest with
  | [] => return (← l.readEnd, true)
  | c :: rest => return (← l.readToken c rest, false)

/-- Reads tokens until the text ends or breaks off. -/
def run : Nat → Lexer → List Token × Option Fault
  | 0, l => (l.produced.reverse, some .endOfStream)
  | fuel + 1, l =>
    match l.step with
    | .error f => (l.produced.reverse, some f)
    | .ok (l, true) => (l.produced.reverse, none)
    | .ok (l, false) => run fuel l

/-- The tokens of a text.  Every step takes a character or ends the text. -/
def tokens (text : String) : List Token × Option Fault :=
  let cs := text.toList
  match checkCharacters cs 0 with
  | .error f => ([], some f)
  | .ok () =>
    let cs := if cs.head? = some byteOrderMark then cs.drop 1 else cs
    run (cs.length + 1) (start cs)

end Lexer

end Provisioner.Yaml
