import Provisioner.Json.Tree

/-!
# Reading JSON text

`Document.ofText` makes the tree of a text.  It keeps going until the grammar is
broken or the text ends, and notes for every value where it stands.

There are four groups.

* Words and numbers.  A number is exact; one too large for a double is
  `unreadable`, and a number that breaks off has different faults for a reader
  and for one who skips it.
* Strings, with their escapes.  A surrogate without its partner makes the string
  unreadable; the rest of it is still scanned.
* Arrays, objects and values.  A container inside 127 others is unreadable.
* Whole documents, and `Json.parse?` for callers who only need a value.
-/

namespace Provisioner.Json

/-- The text from some place on, and how many bytes stand before that place. -/
structure Cursor where
  rest : List Char
  offset : Nat

namespace Cursor

/-- The cursor after the spaces, tabs and line ends that it stands on. -/
def skipSpace (c : Cursor) : Cursor :=
  go c.rest c.offset
where
  go : List Char → Nat → Cursor
    | [], n => ⟨[], n⟩
    | c :: rest, n =>
      if c = ' ' ∨ c = '\n' ∨ c = '\t' ∨ c = '\r' then go rest (n + 1) else ⟨c :: rest, n⟩

/-- A fault that shows at the next character. -/
def ahead (c : Cursor) (cause : Cause) : Fault :=
  match c.rest with
  | [] => ⟨cause, c.offset⟩
  | _ :: _ => ⟨cause, c.offset + 1⟩

end Cursor

/-- A tree, and the place after it unless the grammar broke inside. -/
abbrev Reading := Tree × Option Cursor

/-- The reading of a place where the grammar is broken. -/
def stopAt (f : Fault) : Reading := (.broken f f, none)

/-! ## Words and numbers -/

/-- Reads the rest of a word such as `null`. -/
def readWord (start : Nat) (value : Scalar) : List Char → List Char → Nat → Reading
  | [], rest, n => (.scalar start n value, some ⟨rest, n⟩)
  | _ :: _, [], n => stopAt ⟨.endInValue, n⟩
  | w :: word, c :: rest, n =>
    if c = w then readWord start value word rest (n + 1) else stopAt ⟨.expectedWord, n + 1⟩

/-- The value of decimal digits. -/
def digitsValue (ds : List Char) : Nat :=
  ds.foldl (fun n c => n * 10 + (c.toNat - 0x30)) 0

/-- Whether `digits` times the given power of ten rounds beyond the largest double. -/
def exceedsDouble (digits : Nat) (exponent : Int) : Bool :=
  if digits = 0 then false
  else
    let size := (toString digits).length + exponent
    if size < 300 then false
    else if 320 < size then true
    else
      let limit := 0x3FFFFFFFFFFFFF <<< 970
      if exponent < 0 then limit * Nat.pow 10 exponent.natAbs ≤ digits
      else limit ≤ digits * Nat.pow 10 exponent.natAbs

/-- The scalar of an integer: whole if it fits 64 bits and is not a negative zero. -/
def integerScalar (negative : Bool) (n : Nat) : Number :=
  if negative then
    if n = 0 ∨ 0x8000000000000000 < n then .decimal true n 0 else .whole (-(n : Int))
  else if 0x10000000000000000 ≤ n then .decimal false n 0 else .whole n

/-- Ends a number with its exponent; `cs` follows the letter `e`. -/
def readExponent (start : Nat) (negative : Bool) (digits fraction : Nat) (cs : List Char)
    (n : Nat) : Reading :=
  let (minus, cs, n) : Bool × List Char × Nat := match cs with
    | '+' :: rest => (false, rest, n + 1)
    | '-' :: rest => (true, rest, n + 1)
    | _ => (false, cs, n)
  match cs with
  | [] => (.broken ⟨.endInValue, n⟩ ⟨.badNumber, n⟩, none)
  | c :: _ =>
    if c.isDigit then
      let ds := cs.takeWhile Char.isDigit
      let e : Int := if minus then -(digitsValue ds : Int) else digitsValue ds
      let stop := n + ds.length
      let exponent := e - fraction
      let node := Tree.scalar start stop (.num (.decimal negative digits exponent))
      let node := if exceedsDouble digits exponent
        then .unreadable ⟨.numberOutOfRange, stop⟩ node else node
      (node, some ⟨cs.dropWhile Char.isDigit, stop⟩)
    else stopAt ⟨.badNumber, n + 1⟩

/-- Continues a number after its fraction, if it has one. -/
def readAfterFraction (start : Nat) (negative : Bool) (digits fraction : Nat) (cs : List Char)
    (n : Nat) : Reading :=
  match cs with
  | c :: rest =>
    if c = 'e' ∨ c = 'E' then readExponent start negative digits fraction rest (n + 1)
    else (.scalar start n (.num (.decimal negative digits (-(fraction : Int)))), some ⟨cs, n⟩)
  | [] => (.scalar start n (.num (.decimal negative digits (-(fraction : Int)))), some ⟨cs, n⟩)

/-- Reads a number; a minus sign before `cs` has been taken already. -/
def readNumber (start : Nat) (negative : Bool) (cs : List Char) (n : Nat) : Reading :=
  match cs with
  | [] => (.broken ⟨.endInValue, n⟩ ⟨.badNumber, n⟩, none)
  | c :: rest =>
    if !c.isDigit then stopAt ⟨.badNumber, n + 1⟩
    else if c = '0' ∧ rest.head?.any Char.isDigit then stopAt ⟨.badNumber, n + 2⟩
    else
      let ds := cs.takeWhile Char.isDigit
      let after := cs.dropWhile Char.isDigit
      let n := n + ds.length
      let whole := digitsValue ds
      match after with
      | '.' :: more =>
        let fs := more.takeWhile Char.isDigit
        let n := n + 1
        if fs.isEmpty then
          match more with
          | [] => (.broken ⟨.endInValue, n⟩ ⟨.badNumber, n⟩, none)
          | _ :: _ => stopAt ⟨.badNumber, n + 1⟩
        else
          readAfterFraction start negative (digitsValue (ds ++ fs)) fs.length
            (more.dropWhile Char.isDigit) (n + fs.length)
      | e :: more =>
        if e = 'e' ∨ e = 'E' then readExponent start negative whole 0 more (n + 1)
        else
          let node := Tree.scalar start n (.num (integerScalar negative whole))
          (if exceedsDouble whole 0 then .unreadable ⟨.numberOutOfRange, n⟩ node else node,
            some ⟨after, n⟩)
      | [] =>
        let node := Tree.scalar start n (.num (integerScalar negative whole))
        (if exceedsDouble whole 0 then .unreadable ⟨.numberOutOfRange, n⟩ node else node,
          some ⟨after, n⟩)

/-! ## Strings -/

/-- How the scan of a string ends: at its closing quote, with the first fault that
makes it unreadable, or where the grammar is broken. -/
inductive StringEnd
  | closed (text : String) (fault? : Option Fault) (after : Cursor)
  | broken (fault : Fault)

/-- The value of a digit in base sixteen. -/
def hexValue? (c : Char) : Option Nat :=
  if c.isDigit then some (c.toNat - 0x30)
  else if 'a' ≤ c ∧ c ≤ 'f' then some (c.toNat - 0x57)
  else if 'A' ≤ c ∧ c ≤ 'F' then some (c.toNat - 0x37)
  else none

/-- The value of four digits in base sixteen at the head of the text. -/
def hexFour? : List Char → Option Nat
  | a :: b :: c :: d :: _ => do
    let a ← hexValue? a
    let b ← hexValue? b
    let c ← hexValue? c
    let d ← hexValue? d
    return ((a * 16 + b) * 16 + c) * 16 + d
  | _ => none

/-- The fault of an escape whose four digits are missing or wrong. -/
def hexFault (cs : List Char) (n : Nat) : Fault :=
  let left := Text.Utf8.size (cs.take 4)
  if left < 4 then ⟨.endInString, n + left⟩ else ⟨.badEscape, n + 4⟩

/-- The character that a one-letter escape stands for. -/
def simpleEscape? (c : Char) : Option Char :=
  if c = '"' ∨ c = '\\' ∨ c = '/' then some c
  else if c = 'b' then some (Char.ofNat 0x08)
  else if c = 'f' then some (Char.ofNat 0x0C)
  else if c = 'n' then some '\n'
  else if c = 'r' then some '\r'
  else if c = 't' then some '\t'
  else none

/-- What an escape of four hexadecimal digits holds: a character, half of one, or a
broken text.  `taken` characters belong to it. -/
inductive UnicodeEscape
  | char (value : Char) (taken : Nat)
  | half (fault : Fault) (taken : Nat)
  | broken (fault : Fault)

/-- Reads the second half of a character beyond the basic plane, whose first half is
`high`; `cs` follows the first escape. -/
def lowSurrogate (high : Nat) (cs : List Char) (n : Nat) : UnicodeEscape :=
  match cs with
  | [] => .broken ⟨.endInString, n⟩
  | b :: cs =>
    if b ≠ '\\' then .half ⟨.unfinishedSurrogate, n + 1⟩ 4
    else
      match cs with
      | [] => .broken ⟨.endInString, n + 1⟩
      | u :: cs =>
        if u ≠ 'u' then .half ⟨.unfinishedSurrogate, n + 2⟩ 4
        else
          match hexFour? cs with
          | none => .broken (hexFault cs (n + 2))
          | some low =>
            if 0xDC00 ≤ low ∧ low ≤ 0xDFFF then
              .char (Char.ofNat (0x10000 + (high - 0xD800) * 0x400 + (low - 0xDC00))) 10
            else .half ⟨.loneSurrogate, n + 6⟩ 4

/-- Reads an escape of four hexadecimal digits; `cs` follows its letter. -/
def unicodeEscape (cs : List Char) (n : Nat) : UnicodeEscape :=
  match hexFour? cs with
  | none => .broken (hexFault cs n)
  | some code =>
    if 0xDC00 ≤ code ∧ code ≤ 0xDFFF then .half ⟨.loneSurrogate, n + 4⟩ 4
    else if 0xD800 ≤ code ∧ code ≤ 0xDBFF then lowSurrogate code (cs.drop 4) (n + 4)
    else .char (Char.ofNat code) 4

/-- Scans a string from behind its opening quote; `acc` holds its characters so far,
the last one first, and `fault?` the first fault that makes it unreadable. -/
def readString (acc : List Char) (fault? : Option Fault) (n : Nat) : List Char → StringEnd
  | [] => .broken ⟨.endInString, n⟩
  | c :: rest =>
    if c = '"' then .closed (String.ofList acc.reverse) fault? ⟨rest, n + 1⟩
    else if c = '\\' then
      match rest with
      | [] => .broken ⟨.endInString, n + 1⟩
      | e :: rest =>
        if e = 'u' then
          match unicodeEscape rest (n + 2) with
          | .broken fault => .broken fault
          | .char d taken => readString (d :: acc) fault? (n + 2 + taken) (rest.drop taken)
          | .half fault taken =>
            readString acc (some (fault?.getD fault)) (n + 2 + taken) (rest.drop taken)
        else
          match simpleEscape? e with
          | some d => readString (d :: acc) fault? (n + 2) rest
          | none => .broken ⟨.badEscape, n + 2⟩
    else if c.toNat < 0x20 then .broken ⟨.controlCharacter, n + 1⟩
    else readString (c :: acc) fault? (n + c.utf8Size) rest
termination_by cs => cs.length
decreasing_by
  all_goals simp only [List.length_cons, List.length_drop]
  all_goals omega

/-! ## Values -/

mutual

/-- Reads the value at the cursor; `depth` counts the containers around it. -/
def readValue (depth : Nat) : Nat → Cursor → Reading
  | 0, c => stopAt (c.ahead .endInValue)
  | fuel + 1, c =>
    let c := c.skipSpace
    let start := c.offset
    match c.rest with
    | [] => stopAt (c.ahead .endInValue)
    | h :: rest =>
      if h = 'n' then readWord start .null ['u', 'l', 'l'] rest (start + 1)
      else if h = 't' then readWord start (.bool true) ['r', 'u', 'e'] rest (start + 1)
      else if h = 'f' then readWord start (.bool false) ['a', 'l', 's', 'e'] rest (start + 1)
      else if h = '-' then readNumber start true rest (start + 1)
      else if h.isDigit then readNumber start false c.rest start
      else if h = '"' then
        match readString [] none (start + 1) rest with
        | .broken f => stopAt f
        | .closed text fault? after =>
          let node := Tree.scalar start after.offset (.str text)
          (match fault? with
            | none => node
            | some f => .unreadable f node, some after)
      else if h = '[' then
        let (items, tail?, after?) := readItems (depth + 1) true fuel ⟨rest, start + 1⟩
        guardDepth depth start (.arr start (stopOf after?) items tail?, after?)
      else if h = '{' then
        let (members, tail?, after?) := readMembers (depth + 1) true fuel ⟨rest, start + 1⟩
        guardDepth depth start (.obj start (stopOf after?) members tail?, after?)
      else stopAt (c.ahead .expectedValue)
where
  /-- Marks a container that lies inside 127 others. -/
  guardDepth (depth start : Nat) (r : Reading) : Reading :=
    if depth < 127 then r else (.unreadable ⟨.tooDeep, start + 1⟩ r.1, r.2)
  /-- The end of a container, if it is closed. -/
  stopOf (after? : Option Cursor) : Nat :=
    (after?.map (·.offset)).getD 0

/-- Reads the items of an array up to and with its bracket. -/
def readItems (depth : Nat) (first : Bool) : Nat → Cursor →
    List Tree × Option Fault × Option Cursor
  | 0, c => ([], some (c.ahead .endInArray), none)
  | fuel + 1, c =>
    let c := c.skipSpace
    let item (c : Cursor) : List Tree × Option Fault × Option Cursor :=
      match readValue depth fuel c with
      | (t, none) => ([t], none, none)
      | (t, some after) =>
        let (ts, tail?, after?) := readItems depth false fuel after
        (t :: ts, tail?, after?)
    match c.rest with
    | [] => ([], some (c.ahead .endInArray), none)
    | h :: rest =>
      if h = ']' then ([], none, some ⟨rest, c.offset + 1⟩)
      else if first then item c
      else if h = ',' then
        let c := Cursor.skipSpace ⟨rest, c.offset + 1⟩
        match c.rest with
        | [] => ([], some (c.ahead .endInValue), none)
        | h :: _ => if h = ']' then ([], some (c.ahead .trailingComma), none) else item c
      else ([], some (c.ahead .expectedArrayEnd), none)

/-- Reads the members of an object up to and with its brace. -/
def readMembers (depth : Nat) (first : Bool) : Nat → Cursor →
    List (Key × Tree) × Option Fault × Option Cursor
  | 0, c => ([], some (c.ahead .endInObject), none)
  | fuel + 1, c =>
    let c := c.skipSpace
    let member (c : Cursor) : List (Key × Tree) × Option Fault × Option Cursor :=
      match readString [] none (c.offset + 1) (c.rest.drop 1) with
      | .broken f => ([], some f, none)
      | .closed name fault? after =>
        let key : Key := ⟨name, fault?, after.offset⟩
        let after := after.skipSpace
        match after.rest with
        | [] => ([(key, (stopAt (after.ahead .endInObject)).1)], none, none)
        | h :: rest =>
          if h = ':' then
            match readValue depth fuel ⟨rest, after.offset + 1⟩ with
            | (t, none) => ([(key, t)], none, none)
            | (t, some after) =>
              let (ms, tail?, after?) := readMembers depth false fuel after
              ((key, t) :: ms, tail?, after?)
          else ([(key, (stopAt (after.ahead .expectedColon)).1)], none, none)
    match c.rest with
    | [] => ([], some (c.ahead .endInObject), none)
    | h :: rest =>
      if h = '}' then ([], none, some ⟨rest, c.offset + 1⟩)
      else if first then
        if h = '"' then member c else ([], some (c.ahead .keyNotText), none)
      else if h = ',' then
        let c := Cursor.skipSpace ⟨rest, c.offset + 1⟩
        match c.rest with
        | [] => ([], some (c.ahead .endInValue), none)
        | h :: _ =>
          if h = '"' then member c
          else if h = '}' then ([], some (c.ahead .trailingComma), none)
          else ([], some (c.ahead .keyNotText), none)
      else ([], some (c.ahead .expectedObjectEnd), none)

end

/-! ## Documents -/

/-- The document of a text.  Every call takes a character or opens a value, so twice
the length of the text bounds the calls. -/
def Document.ofText (text : String) : Document :=
  let cs := text.toList
  match readValue 0 (2 * cs.length + 2) ⟨cs, 0⟩ with
  | (root, none) => ⟨root, none⟩
  | (root, some after) =>
    let after := after.skipSpace
    match after.rest with
    | [] => ⟨root, none⟩
    | _ :: _ => ⟨root, some (after.ahead .trailingCharacters)⟩

/-- Reads a record from a whole text: the value first, then nothing but space. -/
def decodeText {α : Type} (decode : Tree → Except Fault α) (text : String) : Except Fault α := do
  let document := Document.ofText text
  let v ← decode document.root
  unlessFault document.tail?
  return v

/-- The value of a text, if it is one. -/
def parse? (text : String) : Option Json :=
  (decodeText Tree.value text).toOption

end Provisioner.Json
