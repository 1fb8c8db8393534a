import Provisioner.Json.Document

/-!
# JSON from bytes

A document that comes as bytes need not be text throughout: ill-formed bytes do no harm
within strings that nobody reads.  Everywhere else they are a fault.
-/

namespace Provisioner.Json

/-- The character that stands for ill-formed bytes. -/
def replacement : Char := '\uFFFD'

/-- The fault of a text with ill-formed bytes in it, if it has any. -/
def illFormed? (text : String) (stop : Nat) : Option Fault :=
  if text.toList.contains replacement then some ⟨.loneSurrogate, stop⟩ else none

mutual

/-- The tree in which strings with ill-formed bytes cannot be read. -/
def Tree.refuseIllFormed : Tree → Tree
  | .scalar start stop (.str s) =>
    match illFormed? s stop with
    | some fault => .unreadable fault (.scalar start stop (.str s))
    | none => .scalar start stop (.str s)
  | .scalar start stop v => .scalar start stop v
  | .arr start stop items tail? => .arr start stop (refuseItems items) tail?
  | .obj start stop members tail? => .obj start stop (refuseMembers members) tail?
  | .unreadable fault inner => .unreadable fault inner.refuseIllFormed
  | .broken reading skipping => .broken reading skipping

/-- `Tree.refuseIllFormed` for the items of an array. -/
def refuseItems : List Tree → List Tree
  | [] => []
  | t :: rest => t.refuseIllFormed :: refuseItems rest

/-- `Tree.refuseIllFormed` for the members of an object. -/
def refuseMembers : List (Key × Tree) → List (Key × Tree)
  | [] => []
  | (k, t) :: rest =>
    ({ k with fault? := k.fault?.or (illFormed? k.name k.stop) }, t.refuseIllFormed)
      :: refuseMembers rest

end

/-- Reads a record from bytes. -/
def decodeBytes {α : Type} (decode : Tree → Except Fault α) (bytes : List UInt8) :
    Except Fault α :=
  match Text.Utf8.decode? bytes with
  | some text => decodeText decode text
  | none => decodeText (fun t => decode t.refuseIllFormed) (Text.Utf8.decodeLossy bytes)

end Provisioner.Json
