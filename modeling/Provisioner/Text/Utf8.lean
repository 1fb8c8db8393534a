/-!
# Text from bytes

Program output arrives as bytes.  `decode?` accepts exactly the well-formed
UTF-8 sequences; `decodeLossy` never fails and writes the replacement character
`U+FFFD` once for every maximal part that no well-formed sequence can continue.

Both walk the bytes with `step`, which reads one character or one ill-formed
part and says how many bytes it took.
-/

namespace Provisioner.Text.Utf8

/-- The continuation bytes `80` to `BF`, narrowed to `lo ≤ b ≤ hi`. -/
def within (lo hi : Nat) (b : UInt8) : Bool :=
  lo ≤ b.toNat && b.toNat ≤ hi

/-- What the first bytes of a sequence hold: a character, or an ill-formed part;
`taken` bytes after the first belong to it. -/
structure Step where
  char? : Option Char
  taken : Nat

/-- Reads two more continuation bytes at most, each six bits, after a prefix of
value `acc`; `taken` counts the bytes read after the first. -/
def continueWith (acc taken : Nat) : Nat → List UInt8 → Step
  | 0, _ => ⟨some (Char.ofNat acc), taken⟩
  | _ + 1, [] => ⟨none, taken⟩
  | n + 1, b :: rest =>
    if within 0x80 0xBF b then continueWith (acc * 64 + (b.toNat - 0x80)) (taken + 1) n rest
    else ⟨none, taken⟩

/-- Reads the second byte, which the first one narrows to `lo ≤ b ≤ hi`, and then
`more` further ones. -/
def second (acc lo hi more : Nat) : List UInt8 → Step
  | [] => ⟨none, 0⟩
  | b :: rest =>
    if within lo hi b then continueWith (acc * 64 + (b.toNat - 0x80)) 1 more rest
    else ⟨none, 0⟩

/-- Reads one character, or one maximal ill-formed part, that starts with `b`. -/
def step (b : UInt8) (rest : List UInt8) : Step :=
  let n := b.toNat
  if n < 0x80 then ⟨some (Char.ofNat n), 0⟩
  else if n < 0xC2 then ⟨none, 0⟩
  else if n < 0xE0 then second (n - 0xC0) 0x80 0xBF 0 rest
  else if n == 0xE0 then second 0 0xA0 0xBF 1 rest
  else if n == 0xED then second 0xD 0x80 0x9F 1 rest
  else if n < 0xF0 then second (n - 0xE0) 0x80 0xBF 1 rest
  else if n == 0xF0 then second 0 0x90 0xBF 2 rest
  else if n < 0xF4 then second (n - 0xF0) 0x80 0xBF 2 rest
  else if n == 0xF4 then second 4 0x80 0x8F 2 rest
  else ⟨none, 0⟩

/-- The characters of the bytes, with `none` for every ill-formed part. -/
def parts : List UInt8 → List (Option Char)
  | [] => []
  | b :: rest =>
    let s := step b rest
    s.char? :: parts (rest.drop s.taken)
termination_by bs => bs.length
decreasing_by simp only [List.length_drop, List.length_cons]; omega

/-- The text that the bytes encode, if they are well-formed. -/
def decode? (bytes : List UInt8) : Option String :=
  ((parts bytes).mapM id).map String.ofList

/-- The text of the bytes, with `U+FFFD` for every ill-formed part. -/
def decodeLossy (bytes : List UInt8) : String :=
  String.ofList ((parts bytes).map (·.getD '\uFFFD'))

/-- The bytes of a text. -/
def encode (s : String) : List UInt8 :=
  s.toList.flatMap String.utf8EncodeChar

/-- How many bytes a text takes. -/
def size (cs : List Char) : Nat :=
  cs.foldl (fun n c => n + c.utf8Size) 0

end Provisioner.Text.Utf8
