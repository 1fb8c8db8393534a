import Provisioner.Json.Fault
import Provisioner.Json.Value

/-!
# JSON documents as far as they can be read

A record is read from a text from left to right, and the first thing that is
wrong is reported, be it the grammar or the shape of the data.  A `Tree` is what
the grammar makes of a text, with the faults left in their places, so that a
reader of records meets them in the order of the text.

A member that no record asks for is skipped, and skipping is more lenient than
reading: it accepts lone surrogates, numbers beyond every range and any depth of
nesting.  Such a value is `unreadable`: reading it gives its fault, skipping it
looks inside.  Where the grammar itself is broken the tree ends in `broken`.

* `Tree.skip` passes over a value.
* `Tree.value` reads a value of any shape.
* `Tree.ofValue` is the tree of a value that is already known.
-/

namespace Provisioner.Json

/-- A value that is neither an array nor an object. -/
inductive Scalar
  | null
  | bool (value : Bool)
  | num (value : Number)
  | str (value : String)
deriving DecidableEq, Repr

/-- The name of an object's member; `fault?` says that it cannot be read, and `stop`
counts the bytes up to its end. -/
structure Key where
  name : String
  fault? : Option Fault
  stop : Nat
deriving DecidableEq, Repr

/-- A document as far as the grammar carries.  `start` and `stop` count the bytes
before a value and up to its end; `tail?` is the fault after the last part of an
array or an object that is not closed. -/
inductive Tree
  | scalar (start stop : Nat) (value : Scalar)
  | arr (start stop : Nat) (items : List Tree) (tail? : Option Fault)
  | obj (start stop : Nat) (members : List (Key × Tree)) (tail? : Option Fault)
  | unreadable (fault : Fault) (inner : Tree)
  | broken (reading skipping : Fault)
deriving Inhabited

/-- A whole document: its value, and what stands after it. -/
structure Document where
  root : Tree
  tail? : Option Fault

/-- Succeeds unless there is a fault. -/
def unlessFault : Option Fault → Except Fault Unit
  | none => .ok ()
  | some f => .error f

namespace Tree

mutual

/-- Passes over a value that nobody asks for. -/
def skip : Tree → Except Fault Unit
  | .scalar .. => .ok ()
  | .arr _ _ items tail? => do skipItems items; unlessFault tail?
  | .obj _ _ members tail? => do skipMembers members; unlessFault tail?
  | .unreadable _ inner => skip inner
  | .broken _ skipping => .error skipping

/-- Passes over the items of an array. -/
def skipItems : List Tree → Except Fault Unit
  | [] => .ok ()
  | t :: rest => do skip t; skipItems rest

/-- Passes over the members of an object. -/
def skipMembers : List (Key × Tree) → Except Fault Unit
  | [] => .ok ()
  | (_, t) :: rest => do skip t; skipMembers rest

end

mutual

/-- Reads a value of any shape; of members with one name the last one stays. -/
def value : Tree → Except Fault Json
  | .scalar _ _ .null => .ok .null
  | .scalar _ _ (.bool b) => .ok (.bool b)
  | .scalar _ _ (.num n) => .ok (.num n)
  | .scalar _ _ (.str s) => .ok (.str s)
  | .arr _ _ items tail? => do
    let vs ← valueItems items
    unlessFault tail?
    return .arr vs
  | .obj _ _ members tail? => do
    let ms ← valueMembers members
    unlessFault tail?
    return .ofMap (KeyMap.ofList ms)
  | .unreadable fault _ => .error fault
  | .broken reading _ => .error reading

/-- Reads the items of an array. -/
def valueItems : List Tree → Except Fault (List Json)
  | [] => .ok []
  | t :: rest => do
    let v ← value t
    let vs ← valueItems rest
    return v :: vs

/-- Reads the members of an object. -/
def valueMembers : List (Key × Tree) → Except Fault (List (String × Json))
  | [] => .ok []
  | (k, t) :: rest => do
    unlessFault k.fault?
    let v ← value t
    let ms ← valueMembers rest
    return (k.name, v) :: ms

end

mutual

/-- The tree of a known value; its places are all zero. -/
def ofValue : Json → Tree
  | .null => .scalar 0 0 .null
  | .bool b => .scalar 0 0 (.bool b)
  | .num n => .scalar 0 0 (.num n)
  | .str s => .scalar 0 0 (.str s)
  | .arr items => .arr 0 0 (ofItems items) none
  | .obj members => .obj 0 0 (ofMembers members) none

/-- The trees of known items. -/
def ofItems : List Json → List Tree
  | [] => []
  | v :: rest => ofValue v :: ofItems rest

/-- The trees of known members. -/
def ofMembers : List (String × Json) → List (Key × Tree)
  | [] => []
  | (k, v) :: rest => (⟨k, none, 0⟩, ofValue v) :: ofMembers rest

end

end Tree

end Provisioner.Json
