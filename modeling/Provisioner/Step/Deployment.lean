import Provisioner.Step.Prepared

/-!
# Making a deployment

A deployment binds the latest version of an environment and that of a model to an
endpoint.  It is named afresh from the time at which it is prepared.

* `Deployment.Input` holds the inputs of the step, `Deployment.prepare` fills them in.
* `Deployment.provision` reads the two versions, makes the deployment and reads it back.
-/

namespace Provisioner.Deployment

variable {σ κ δ : Type} [Disk δ]

/-- The inputs of the step, filled in. -/
structure Input where
  name : String
  endpoint : String
  environment : String
  model : String
  definition : String
  overrides : Arguments
deriving DecidableEq, Repr

/-- The beginning of every deployment's name. -/
def nameStart : String := "fleetml"

/-- The name of a deployment that is prepared at a time, in seconds.  Two of the same
second share it. -/
def freshName (start : String) (now : Int) : String :=
  start ++ "-" ++ toString now

/-- Fills in the inputs of a deployment to `endpoint`. -/
def prepare (store : Store) (disk : δ) (service endpoint : String) (d : DeploymentSpec)
    (now : Int) : Except ProvisionError Input := do
  let environment ← Prepared.resolveName store .environment d.environment.name
  let model ← Prepared.resolveName store .model d.model.name
  let definition ← Prepared.findDefinition disk .deployment service d.deployment.path
  let overrides ← Prepared.resolveOverrides store d.deployment.overrides
  return ⟨freshName nameStart now, endpoint, environment, model, definition, overrides⟩

/-- The arguments that make a deployment. -/
def arguments (scope : Scope) (p : Input) (environment model : VersionRef) : Arguments :=
  (((((Arguments.ml "online-deployment" scope p.definition).set "name" p.name).set
    "environment" environment.assetId).set "model" model.assetId).set
    "endpoint_name" p.endpoint) ++ p.overrides

/-- What the step publishes: the endpoint and the deployment. -/
def publication (p : Input) : List (String × String) :=
  Kind.endpoint.publication p.endpoint ++ Kind.deployment.publication p.name

/-- Makes the deployment.  Errors in reading the two versions are those of the
environment and of the model. -/
def provision (cx : Context σ κ) (p : Input) : Op σ κ δ Deployment := do
  let environment ← cx.ask .environment p.environment
    (.container .environment p.environment) (Version.latest p.environment)
  let model ← cx.ask .model p.model (.container .model p.model) (Version.latest p.model)
  discard <| cx.invoke .deployment p.name (arguments cx.scope p environment model)
  let record ← cx.read .deployment p.name (.deployment p.endpoint p.name)
  Op.publish (publication p)
  return record

end Provisioner.Deployment
