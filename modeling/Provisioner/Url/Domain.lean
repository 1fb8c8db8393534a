import Provisioner.Text.Split
import Provisioner.Url.Punycode

/-!
# Domain names

A domain name consists of labels with dots between them.  It is compared, and sent,
in ASCII: letters are small, widths are folded, and a label with other letters is
written in Punycode behind `xn--`.

`Domain.toAscii?` gives that form; it fails for characters that no name can have.  The
letters that have a small form here are those of the Latin, Greek, Cyrillic and
Armenian alphabets.
-/

namespace Provisioner.Url.Domain

/-- The capitals that stand at a fixed distance before their small letters, as ranges
with that distance. -/
def capitalRanges : List (Nat × Nat × Nat) :=
  [(0x41, 0x5A, 32), (0xC0, 0xD6, 32), (0xD8, 0xDE, 32), (0x388, 0x38A, 37), (0x391, 0x3A1, 32),
    (0x3A3, 0x3AB, 32), (0x400, 0x40F, 80), (0x410, 0x42F, 32), (0x531, 0x556, 48)]

/-- Ranges in which every second character is a capital, and its small letter the next
one; the first character of a range is a capital. -/
def alternatingRanges : List (Nat × Nat) :=
  [(0x100, 0x12F), (0x132, 0x137), (0x139, 0x148), (0x14A, 0x177), (0x179, 0x17E),
    (0x1CD, 0x1DC), (0x1DE, 0x1EF), (0x1F8, 0x21F), (0x222, 0x233), (0x3D8, 0x3EF),
    (0x460, 0x481), (0x48A, 0x4BF), (0x4C1, 0x4CE), (0x4D0, 0x52F), (0x1E00, 0x1E95),
    (0x1EA0, 0x1EFF)]

/-- The small form of a letter. -/
def small (c : Char) : Char :=
  let n := c.toNat
  match capitalRanges.find? (fun r => r.1 ≤ n && n ≤ r.2.1) with
  | some r => Char.ofNat (n + r.2.2)
  | none =>
    if n = 0x178 then Char.ofNat 0xFF
    else
      match alternatingRanges.find? (fun r => r.1 ≤ n && n ≤ r.2) with
      | some r => if (n - r.1) % 2 = 0 then Char.ofNat (n + 1) else c
      | none => c

/-- Whether a character counts for nothing in a name. -/
def isSilent (c : Char) : Bool :=
  let n := c.toNat
  n == 0xAD || n == 0x34F || n == 0x200B || n == 0x2060 || n == 0x2064 || n == 0xFEFF
    || (0x180B ≤ n && n ≤ 0x180D) || (0xFE00 ≤ n && n ≤ 0xFE0F)

/-- A character in the standard width; the full stops of other scripts are dots. -/
def folded (c : Char) : Char :=
  let n := c.toNat
  if n = 0x3002 ∨ n = 0xFF61 then '.'
  else if 0xFF01 ≤ n ∧ n ≤ 0xFF5E then Char.ofNat (n - 0xFEE0)
  else if n = 0xAA then 'a'
  else if n = 0xBA then 'o'
  else if n = 0xB9 then '1'
  else if n = 0xB2 then '2'
  else if n = 0xB3 then '3'
  else c

/-- The characters of a name as they are compared. -/
def normal (cs : List Char) : List Char :=
  (cs.filter (!isSilent ·)).map (small ∘ folded)

/-- Whether a character can stand in no name: control characters, blanks, the marks that
have a meaning in URLs, and what is no character at all. -/
def isForbidden (c : Char) : Bool :=
  let n := c.toNat
  n ≤ 0x20 || (0x7F ≤ n && n ≤ 0xA0) || c == '%' || c == '#' || c == '/' || c == ':'
    || c == '<' || c == '>' || c == '?' || c == '@' || c == '[' || c == '\\' || c == ']'
    || c == '^' || c == '|' || n == 0x1680 || (0x2000 ≤ n && n ≤ 0x200F)
    || (0x2028 ≤ n && n ≤ 0x202F) || (0x205F ≤ n && n ≤ 0x206F) || n == 0x3000
    || (0xE000 ≤ n && n ≤ 0xF8FF) || (0xFDD0 ≤ n && n ≤ 0xFDEF) || (0xFFF9 ≤ n && n ≤ 0xFFFF)
    || 0xE0000 ≤ n

/-- Whether a character is an ASCII one. -/
def isAscii (c : Char) : Bool :=
  c.toNat < Punycode.firstValue

/-- What a label in Punycode begins with. -/
def mark : List Char := ['x', 'n', '-', '-']

/-- Whether a label in Punycode, without its mark, says what a plain label can. -/
def isSound (code : List Char) : Bool :=
  match Punycode.decode? code with
  | none => false
  | some label =>
    !label.all isAscii && !label.any isForbidden && normal label == label
      && Punycode.encode? label == some code

/-- A label in ASCII. -/
def labelToAscii? (label : List Char) : Option (List Char) :=
  if label.all isAscii then
    if mark.isPrefixOf label then
      if isSound (label.drop mark.length) then some label else none
    else some label
  else (Punycode.encode? label).map (mark ++ ·)

/-- A name in ASCII. -/
def toAscii? (cs : List Char) : Option (List Char) :=
  let name := normal cs
  if name.any isForbidden then none
  else ((Text.split (· == '.') name).mapM labelToAscii?).map (Text.join '.')

end Provisioner.Url.Domain
