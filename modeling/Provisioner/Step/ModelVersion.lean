import Provisioner.Step.Prepared

/-!
# Making a model version

The program chooses the version that it makes; afterwards it is the latest one of the
model's container, and is read back as such.
-/

namespace Provisioner.ModelVersion

variable {σ κ δ : Type} [Disk δ]

/-- The inputs of the step. -/
def prepare (store : Store) (disk : δ) (service : String) (c : Component) :
    Except ProvisionError Prepared :=
  Prepared.definitionFirst store disk .model service c

/-- The arguments that make a version. -/
def arguments (scope : Scope) (p : Prepared) : Arguments :=
  ((Arguments.ml "model" scope p.definition).set "name" p.name) ++ p.overrides

/-- What the step publishes. -/
def publication (p : Prepared) : List (String × String) :=
  Kind.model.publication p.name

/-- Makes a version. -/
def provision (cx : Context σ κ) (p : Prepared) : Op σ κ δ ModelVersion := do
  discard <| cx.invoke .model p.name (arguments cx.scope p)
  let latest ← cx.ask .model p.name (.container .model p.name) (Version.latest p.name)
  let record ← cx.read .model p.name (.modelVersion p.name latest.version)
  Op.publish (publication p)
  return record

end Provisioner.ModelVersion
