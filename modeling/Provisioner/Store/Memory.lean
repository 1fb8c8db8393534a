import Provisioner.Store.Failure

/-!
# Stores in memory

A store that lives as long as its process.  Several values are stored one after the
other, so that the ones before an unusable key stay.
-/

namespace Provisioner.Store

/-- Values in memory. -/
structure Memory where
  values : KeyMap String
deriving DecidableEq, Repr, Inhabited

namespace Memory

/-- The store with a value under a key, whatever the key is. -/
def withValue (s : Memory) (key value : String) : Memory :=
  ⟨s.values.insert key value⟩

/-- The value under a key. -/
def get? (s : Memory) (key : String) : Option String :=
  s.values.get? key

/-- Stores a value. -/
def set (key value : String) (s : Memory) : Except Failure Unit × Memory :=
  match checkKey key with
  | .ok () => (.ok (), s.withValue key value)
  | .error e => (.error e, s)

/-- Stores several values in turn, up to the first key that cannot be used. -/
def setAll : List (String × String) → Memory → Except Failure Unit × Memory
  | [], s => (.ok (), s)
  | (key, value) :: rest, s =>
    match s.set key value with
    | (.ok (), s) => setAll rest s
    | failed => failed

end Memory

end Provisioner.Store
