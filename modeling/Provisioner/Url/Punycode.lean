/-!
# Punycode

A label of a domain name with letters beyond ASCII is written with ASCII letters: the
ASCII characters first, and after a dash the others, in increasing order, as distances
from one to the next.  A distance is a number with digits in base thirty-six, whose
thresholds follow the size of the distances before.

* `Punycode.encode?` writes a label; it fails if a distance grows beyond 32 bits.
* `Punycode.decode?` reads one back.
-/

namespace Provisioner.Url.Punycode

/-- The digit with a value below thirty-six: letters first, then ASCII digits. -/
def digit (n : Nat) : Char :=
  if n < 26 then Char.ofNat (0x61 + n) else Char.ofNat (0x16 + n)

/-- The value of a digit. -/
def digitValue? (c : Char) : Option Nat :=
  if 'a' ≤ c ∧ c ≤ 'z' then some (c.toNat - 0x61)
  else if 'A' ≤ c ∧ c ≤ 'Z' then some (c.toNat - 0x41)
  else if c.isDigit then some (c.toNat - 0x16)
  else none

/-- The threshold of the digit at position `k`, which counts in steps of 36. -/
def threshold (k bias : Nat) : Nat :=
  if k ≤ bias then 1 else if bias + 26 ≤ k then 26 else k - bias

theorem threshold_pos (k bias : Nat) : 1 ≤ threshold k bias := by
  unfold threshold
  split
  · omega
  · split <;> omega

/-- Divides by 35 until the rest is at most 455; counts the steps in steps of 36. -/
def shrink (delta k : Nat) : Nat × Nat :=
  if 455 < delta then shrink (delta / 35) (k + 36) else (delta, k)
termination_by delta
decreasing_by omega

/-- The bias after a distance; `count` characters are in place. -/
def adapt (delta count : Nat) (first : Bool) : Nat :=
  let delta := if first then delta / 700 else delta / 2
  let (delta, k) := shrink (delta + delta / count) 0
  k + 36 * delta / (delta + 38)

/-- A number with the thresholds of a bias. -/
def writeNumber (bias k n : Nat) : List Char :=
  let t := threshold k bias
  if n < t then [digit n]
  else digit (t + (n - t) % (36 - t)) :: writeNumber bias (k + 36) ((n - t) / (36 - t))
termination_by n
decreasing_by
  have := threshold_pos k bias
  have := Nat.div_le_self (n - threshold k bias) (36 - threshold k bias)
  omega

/-- What is known while the characters beyond ASCII are written: how many characters are
in place, the distance so far, the bias and the text. -/
structure Writing where
  placed : Nat
  delta : Nat
  bias : Nat
  output : List Char

/-- Passes over a character while those of value `next` are written. -/
def Writing.step (basic next : Nat) (w : Writing) (c : Char) : Writing :=
  if c.toNat < next then { w with delta := w.delta + 1 }
  else if c.toNat = next then
    ⟨w.placed + 1, 0, adapt w.delta (w.placed + 1) (w.placed == basic),
      w.output ++ writeNumber w.bias 36 w.delta⟩
  else w

/-- Writes the characters of the given values, which increase; `seen` is the least value
that may still come. -/
def writeAll (label : List Char) (basic : Nat) : List Nat → Nat → Writing → Option Writing
  | [], _, w => some w
  | next :: more, seen, w =>
    let delta := w.delta + (next - seen) * (w.placed + 1)
    if 0x100000000 ≤ delta then none
    else
      let w := label.foldl (Writing.step basic next) { w with delta := delta }
      writeAll label basic more (next + 1) { w with delta := w.delta + 1 }

/-- The least character value beyond ASCII. -/
def firstValue : Nat := 0x80

/-- The label in ASCII characters, without a mark that says so. -/
def encode? (label : List Char) : Option (List Char) :=
  let basic := label.filter (·.toNat < firstValue)
  let values := ((label.map Char.toNat).filter (firstValue ≤ ·)).mergeSort.eraseDups
  let start := if basic.isEmpty then [] else basic ++ ['-']
  (writeAll label basic.length values firstValue ⟨basic.length, 0, 72, start⟩).map (·.output)

/-- Reads a number with the thresholds of a bias; `weight` is that of the next digit. -/
def readNumber (bias : Nat) : List Char → Nat → Nat → Nat → Option (Nat × List Char)
  | [], _, _, _ => none
  | c :: rest, k, weight, n =>
    match digitValue? c with
    | none => none
    | some d =>
      let n := n + d * weight
      let t := threshold k bias
      if 0x100000000 ≤ n then none
      else if d < t then some (n, rest)
      else readNumber bias rest (k + 36) (weight * (36 - t)) n

/-- Reads distances and puts their characters in place; `fuel` bounds their number. -/
def readAll : Nat → List Char → Nat → Nat → Nat → List Char → Option (List Char)
  | _, [], _, _, _, label => some label
  | 0, _ :: _, _, _, _, _ => none
  | fuel + 1, cs, next, place, bias, label =>
    match readNumber bias cs 36 1 0 with
    | none => none
    | some (delta, rest) =>
      let count := label.length + 1
      let place := place + delta
      let next := next + place / count
      if h : next.isValidChar then
        readAll fuel rest next (place % count + 1) (adapt delta count (place = delta))
          (label.insertIdx (place % count) (Char.ofNatAux next h))
      else none

/-- The label that ASCII characters stand for.  What stands before the last dash is
taken as it is. -/
def decode? (cs : List Char) : Option (List Char) :=
  let after := (cs.reverse.takeWhile (· != '-')).reverse
  let before := cs.take (cs.length - after.length - 1)
  readAll cs.length after firstValue 0 72 before

end Provisioner.Url.Punycode
