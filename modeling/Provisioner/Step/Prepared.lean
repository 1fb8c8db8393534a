import Provisioner.Component
import Provisioner.World

/-!
# Prepared components

Before anything is asked or run, the inputs of a step are filled in: its name and its
overrides from the store, and the path of its definition, which has to exist.  A
`Prepared` component holds the result.

Steps differ in what they look at first, and so in the error they report when several
inputs are wrong: `Prepared.definitionFirst` and `Prepared.nameFirst`.
-/

namespace Provisioner

/-- A component with its inputs filled in. -/
structure Prepared where
  name : String
  definition : String
  overrides : Arguments
deriving DecidableEq, Repr

namespace Prepared

variable {δ : Type} [Disk δ]

/-- Fills in the name of a resource. -/
def resolveName (store : Store) (kind : Kind) (name : Template) : Except ProvisionError String :=
  (name.resolve store.lookup).mapError (.template (kind.name ++ " name value"))

/-- The path of a definition in the directory of a service, if there is anything. -/
def findDefinition (disk : δ) (kind : Kind) (service relative : String) :
    Except ProvisionError String :=
  let path := Path.join service relative
  match Disk.stat disk path with
  | .ok _ => .ok path
  | .error e => .error (.fileNotFound kind path e)

/-- Fills in overrides. -/
def resolveOverrides (store : Store) (overrides : Overrides) : Except ProvisionError Arguments :=
  (overrides.arguments store.lookup).mapError .ofOverride

/-- Fills in a component, its definition before its name. -/
def definitionFirst (store : Store) (disk : δ) (kind : Kind) (service : String)
    (c : Component) : Except ProvisionError Prepared := do
  let definition ← findDefinition disk kind service c.path
  let name ← resolveName store kind c.name
  let overrides ← resolveOverrides store c.overrides
  return ⟨name, definition, overrides⟩

/-- Fills in a component, its name before its definition. -/
def nameFirst (store : Store) (disk : δ) (kind : Kind) (service : String) (c : Component) :
    Except ProvisionError Prepared := do
  let name ← resolveName store kind c.name
  let definition ← findDefinition disk kind service c.path
  let overrides ← resolveOverrides store c.overrides
  return ⟨name, definition, overrides⟩

end Prepared

end Provisioner
