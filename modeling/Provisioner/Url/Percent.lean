import Provisioner.Json.Document

/-!
# Percent-encoding

A character that has no place in a part of a URL is written as its bytes, each as `%`
and two digits in base sixteen.  Which characters those are depends on the part; a
character beyond ASCII is encoded everywhere.

* `Percent.encode` encodes the characters of a set.
* `Percent.decode` gives the bytes of an encoded text; it leaves alone what is no
  encoding.
* `Percent.segment`, `Percent.query` and their like are the sets.
-/

namespace Provisioner.Url.Percent

/-- A digit in base sixteen; letters are capitals. -/
def hexDigit (n : Nat) : Char :=
  if n < 10 then Char.ofNat (0x30 + n) else Char.ofNat (0x37 + n)

/-- The encoding of a byte. -/
def encodeByte (b : UInt8) : List Char :=
  ['%', hexDigit (b.toNat / 16), hexDigit (b.toNat % 16)]

/-- A character, encoded if it is in the set. -/
def encodeChar (set : Char → Bool) (c : Char) : List Char :=
  if set c then (String.utf8EncodeChar c).flatMap encodeByte else [c]

/-- A text with the characters of the set encoded. -/
def encode (set : Char → Bool) (cs : List Char) : List Char :=
  cs.flatMap (encodeChar set)

/-- The bytes of a text, with every encoding replaced by the byte that it stands for. -/
def decode : List Char → List UInt8
  | [] => []
  | '%' :: a :: b :: rest =>
    match Json.hexValue? a, Json.hexValue? b with
    | some high, some low => UInt8.ofNat (high * 16 + low) :: decode rest
    | _, _ => String.utf8EncodeChar '%' ++ decode (a :: b :: rest)
  | c :: rest => String.utf8EncodeChar c ++ decode rest

/-- Control characters, and everything beyond ASCII. -/
def control (c : Char) : Bool :=
  c.toNat < 0x20 || 0x7F ≤ c.toNat

/-- What is encoded in a fragment. -/
def fragment (c : Char) : Bool :=
  control c || c == ' ' || c == '"' || c == '<' || c == '>' || c == '\x60'

/-- What is encoded in a query. -/
def query (special : Bool) (c : Char) : Bool :=
  control c || c == ' ' || c == '"' || c == '#' || c == '<' || c == '>'
    || (special && c == '\x27')

/-- What is encoded in a path that comes with slashes. -/
def path (c : Char) : Bool :=
  fragment c || c == '#' || c == '?' || c == '\x7b' || c == '\x7d'

/-- What is encoded in one segment of a path. -/
def segment (special : Bool) (c : Char) : Bool :=
  path c || c == '/' || c == '%' || (special && c == '\\')

/-- What is encoded in a user name or a password. -/
def userinfo (c : Char) : Bool :=
  path c || c == '/' || c == ':' || c == ';' || c == '=' || c == '@' || c == '[' || c == '\\'
    || c == ']' || c == '^' || c == '|'

end Provisioner.Url.Percent
