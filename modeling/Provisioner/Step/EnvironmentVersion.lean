import Provisioner.Step.Prepared

/-!
# Making an environment version

The container of the environment says which version comes next; that version is made
and read back.
-/

namespace Provisioner.EnvironmentVersion

variable {σ κ δ : Type} [Disk δ]

/-- The inputs of the step. -/
def prepare (store : Store) (disk : δ) (service : String) (c : Component) :
    Except ProvisionError Prepared :=
  Prepared.definitionFirst store disk .environment service c

/-- The arguments that make a version. -/
def arguments (scope : Scope) (p : Prepared) (version : String) : Arguments :=
  (((Arguments.ml "environment" scope p.definition).set "name" p.name).set "version" version)
    ++ p.overrides

/-- What the step publishes. -/
def publication (p : Prepared) : List (String × String) :=
  Kind.environment.publication p.name

/-- Makes the next version. -/
def provision (cx : Context σ κ) (p : Prepared) : Op σ κ δ EnvironmentVersion := do
  let version ← cx.ask .environment p.name (.container .environment p.name) Version.next
  discard <| cx.invoke .environment p.name (arguments cx.scope p version)
  let record ← cx.read .environment p.name (.environmentVersion p.name version)
  Op.publish (publication p)
  return record

end Provisioner.EnvironmentVersion
