import Provisioner.Json.Document
import Provisioner.Text.Split

/-!
# Addresses in the place of host names

A host can be given by its number.

* `IPv4.parse?` reads up to four numbers with dots between them, in base ten, eight or
  sixteen; the last one fills all the bytes that are left.  `IPv4.isMeant` says whether
  a host is to be read in this way.
* `IPv6.parse?` reads eight pieces in base sixteen with colons between them.  Two colons
  stand for a run of zero pieces, and the last two pieces may be an IPv4 address.
* `IPv4.render` and `IPv6.render` write the one normal form.
-/

namespace Provisioner.Url

/-- The number of the given digits in base sixteen. -/
def hexNumber? (cs : List Char) : Option Nat :=
  cs.foldlM (fun n c => (Json.hexValue? c).map (n * 16 + ·)) 0

namespace IPv4

/-- The number of the given digits in a base of at most sixteen. -/
def digits? (base : Nat) (cs : List Char) : Option Nat :=
  cs.foldlM (fun n c => do
    let d ← Json.hexValue? c
    if d < base then some (n * base + d) else none) 0

/-- One part of an address. -/
def part? : List Char → Option Nat
  | [] => none
  | '0' :: 'x' :: rest => digits? 16 rest
  | '0' :: 'X' :: rest => digits? 16 rest
  | '0' :: c :: rest => digits? 8 (c :: rest)
  | cs => digits? 10 cs

/-- The parts of a host, without an empty one at the end. -/
def parts (cs : List Char) : List (List Char) :=
  let ps := Text.split (· == '.') cs
  if 1 < ps.length ∧ ps.getLast? = some [] then ps.dropLast else ps

/-- Whether a host has to be an address: its last part is a number. -/
def isMeant (cs : List Char) : Bool :=
  match (parts cs).getLast? with
  | none => false
  | some last => (!last.isEmpty && last.all Char.isDigit) || (part? last).isSome

/-- The number of an address from its parts: all but the last are bytes. -/
def ofParts? (ns : List Nat) : Option Nat :=
  match ns.getLast? with
  | none => none
  | some last =>
    let leading := ns.dropLast
    if 3 < leading.length ∨ leading.any (255 < ·)
      ∨ Nat.pow 256 (4 - leading.length) ≤ last then none
    else some (leading.foldr (fun n acc => n * 0x1000000 + acc / 256) 0 + last)

/-- Reads an address. -/
def parse? (cs : List Char) : Option Nat := do
  ofParts? (← (parts cs).mapM part?)

/-- The four bytes of an address in base ten. -/
def render (n : Nat) : List Char :=
  Text.join '.' ([n / 0x1000000, n / 0x10000 % 256, n / 256 % 256, n % 256].map fun b =>
    (toString b).toList)

end IPv4

namespace IPv6

/-- A piece: one to four digits in base sixteen. -/
def piece? (cs : List Char) : Option Nat :=
  if cs.isEmpty ∨ 4 < cs.length then none else hexNumber? cs

/-- A byte in base ten, without zeros before it. -/
def byte? (cs : List Char) : Option Nat :=
  match cs with
  | ['0'] => some 0
  | [] => none
  | '0' :: _ => none
  | _ =>
    if cs.all Char.isDigit ∧ cs.length ≤ 3 then
      let n := Json.digitsValue cs
      if n ≤ 255 then some n else none
    else none

/-- The two pieces of an IPv4 address. -/
def dotted? (cs : List Char) : Option (List Nat) :=
  match (Text.split (· == '.') cs).mapM byte? with
  | some [a, b, c, d] => some [a * 256 + b, c * 256 + d]
  | _ => none

/-- The pieces of a text without double colons; an IPv4 address may end it if
`mayEndDotted` holds. -/
def pieces? (mayEndDotted : Bool) (cs : List Char) : Option (List Nat) :=
  if cs.isEmpty then some []
  else
    let parts := Text.split (· == ':') cs
    match parts.getLast? with
    | none => none
    | some last =>
      if mayEndDotted ∧ last.contains '.' then do
        return (← parts.dropLast.mapM piece?) ++ (← dotted? last)
      else parts.mapM piece?

/-- The text before the first double colon, and the one behind it. -/
def splitRun : List Char → List Char → Option (List Char × List Char)
  | _, [] => none
  | before, ':' :: ':' :: rest => some (before.reverse, rest)
  | before, c :: rest => splitRun (c :: before) rest

/-- Reads the eight pieces of an address; a double colon stands for at least one. -/
def parse? (cs : List Char) : Option (List Nat) :=
  match splitRun [] cs with
  | none => do
    let ps ← pieces? true cs
    if ps.length = 8 then some ps else none
  | some (before, after) => do
    let front ← pieces? false before
    let back ← pieces? true after
    let count := front.length + back.length
    if count < 8 then some (front ++ List.replicate (8 - count) 0 ++ back) else none

/-- The length of the run of zeros at the head of the pieces. -/
def zeroRun (ps : List Nat) : Nat :=
  (ps.takeWhile (· == 0)).length

/-- The place and the length of the first longest run of zeros; `place` is that of the
first piece. -/
def longestRun (place : Nat) : List Nat → Nat × Nat
  | [] => (place, 0)
  | p :: rest =>
    let length := zeroRun (p :: rest)
    let later := longestRun (place + 1) rest
    if later.2 ≤ length then (place, length) else later

/-- Pieces with colons between them. -/
def renderPieces (ps : List Nat) : List Char :=
  Text.join ':' (ps.map (Nat.toDigits 16))

/-- The normal form of an address: the first longest run of two zeros or more is left
out. -/
def render (ps : List Nat) : List Char :=
  let (place, length) := longestRun 0 ps
  if length < 2 then renderPieces ps
  else renderPieces (ps.take place) ++ [':', ':'] ++ renderPieces (ps.drop (place + length))

end IPv6

end Provisioner.Url
