import Provisioner.Kind
import Provisioner.Store.Dotenv
import Provisioner.Store.Memory

/-!
# Stores

Names that were resolved are published in a store, and templates are filled in from
it.  A `Store` is in memory or in an environment file.

* `Store.get?` looks a value up, and `Store.lookup` is the same for templates.
* `Store.set` and `Store.setAll` store values.
* `Store.published` is the name that was published for a kind.
-/

namespace Provisioner

/-- A store of either sort. -/
inductive Store
  | memory (store : Store.Memory)
  | dotenv (store : Store.DotenvFile)
deriving DecidableEq, Repr

namespace Store

variable {δ : Type} [Disk δ]

/-- The value under a key. -/
def get? : Store → String → Option String
  | .memory s, key => s.get? key
  | .dotenv s, key => s.get? key

/-- The store as the source of a template's variables. -/
def lookup (s : Store) : Template.Lookup := s.get?

/-- Stores a value. -/
def set (key value : String) (s : Store) (d : δ) : Except Failure Unit × Store × δ :=
  match s with
  | .memory s =>
    let (answer, s) := s.set key value
    (answer, .memory s, d)
  | .dotenv s =>
    let (answer, s, d) := s.set key value d
    (answer, .dotenv s, d)

/-- Stores several values as one update. -/
def setAll (pairs : List (String × String)) (s : Store) (d : δ) :
    Except Failure Unit × Store × δ :=
  match s with
  | .memory s =>
    let (answer, s) := s.setAll pairs
    (answer, .memory s, d)
  | .dotenv s =>
    let (answer, s, d) := s.setAll pairs d
    (answer, .dotenv s, d)

/-- The name that was published for a kind, or nothing. -/
def published (s : Store) (kind : Kind) : String :=
  (kind.publishKey?.bind s.get?).getD ""

end Store

end Provisioner
