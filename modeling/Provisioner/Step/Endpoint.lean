import Provisioner.Step.Prepared

/-!
# Making an endpoint

An endpoint is made once.  If it is there already no program runs; in both cases its
record is read and returned.
-/

namespace Provisioner.Endpoint

variable {σ κ δ : Type} [Disk δ]

/-- Whether an endpoint is there.  That it is not found is an answer; any other failure
stays one. -/
def isThere : Except ControlPlane.Failure Endpoint → Except ControlPlane.Failure Bool
  | .ok _ => .ok true
  | .error e => if e.isNotFound then .ok false else .error e

/-- The inputs of the step. -/
def prepare (store : Store) (disk : δ) (service : String) (c : Component) :
    Except ProvisionError Prepared :=
  Prepared.nameFirst store disk .endpoint service c

/-- The arguments that make an endpoint. -/
def arguments (scope : Scope) (p : Prepared) : Arguments :=
  ((Arguments.ml "online-endpoint" scope p.definition).set "name" p.name) ++ p.overrides

/-- What the step publishes. -/
def publication (p : Prepared) : List (String × String) :=
  Kind.endpoint.publication p.name

/-- Makes the endpoint unless it is there. -/
def provision (cx : Context σ κ) (p : Prepared) : Op σ κ δ Endpoint := do
  let there ← cx.ask .endpoint p.name (.endpoint p.name) isThere
  if !there then discard <| cx.invoke .endpoint p.name (arguments cx.scope p)
  let record ← cx.read .endpoint p.name (.endpoint p.name)
  Op.publish (publication p)
  return record

end Provisioner.Endpoint
