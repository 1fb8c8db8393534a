import Provisioner.Step.Deployment
import Provisioner.Step.Endpoint
import Provisioner.Step.EnvironmentVersion
import Provisioner.Step.Flow
import Provisioner.Step.ModelVersion

/-!
# Operations

One operation for every kind of resource.  Each fills its inputs in first, so that
input errors come before any contact; then it gets a client and runs its step.

* `Op.client` connects to the control plane and makes the programs ready, once for all
  operations of a session.  Nothing is kept of an attempt that fails or is cancelled.
* `Op.ensureWorkspace` and `Op.getEndpoint` read, the other operations make resources.
* `Scope.resolve` is the scope of a service that may name a workspace.
-/

namespace Provisioner

variable {σ κ δ : Type}

/-- The scope of a service: the base scope, in the workspace that the service names, if
it names one. -/
def Scope.resolve (store : Store) (base : Scope) (workspace? : Option Template) :
    Except ProvisionError Scope :=
  match workspace?.filter (fun t => !t.isEmpty) with
  | none => .ok base
  | some t =>
    match t.resolve store.lookup with
    | .ok name => .ok (base.withWorkspace name)
    | .error e => .error (.template "workspace name value" e)

namespace Op

/-- Connects to the control plane and then makes the programs ready. -/
def openClient (w : World σ κ) (kind : Kind) (name : String) (scope : Scope) :
    Op σ κ δ κ := do
  let connected ← orCancelled kind name
    (← perform (.connect scope.subscription) (w.connect scope.subscription))
  let client ← orFail .controlPlaneInit connected
  let ready ← orCancelled kind name (← perform .startTools w.startTools)
  orFail .toolInit ready
  modify fun s => { s with client? := some client }
  return client

/-- The client of the session; the first operation opens it. -/
def client (w : World σ κ) (kind : Kind) (name : String) (scope : Scope) : Op σ κ δ κ := do
  checkCancelled w kind name
  match (← get).client? with
  | some client => return client
  | none => openClient w kind name scope

/-- Runs an operation with the client of the session. -/
def connected {α : Type} (w : World σ κ) (kind : Kind) (name : String) (scope : Scope)
    (body : Context σ κ → Op σ κ δ α) : Op σ κ δ α := do
  body ⟨w, ← client w kind name scope, scope⟩

/-- Inputs filled in from the store and the disk of the session. -/
def prepared {α : Type} (fill : Store → δ → Except ProvisionError α) : Op σ κ δ α := do
  let s ← get
  orFail id (fill s.store s.disk)

/-- Reads the workspace of a scope, and fails if it has another name; the case of ASCII
letters does not matter. -/
def ensureWorkspace (w : World σ κ) (scope : Scope) : Op σ κ δ Workspace :=
  connected w .workspace scope.workspace scope fun cx => do
    let record : Workspace ← cx.read .workspace scope.workspace .workspace
    let actual := record.nameOr scope.workspace
    if actual.map Char.toLower != scope.workspace.map Char.toLower then
      throw (.workspaceMismatch scope.workspace actual)
    return record

/-- Reads an endpoint. -/
def getEndpoint (w : World σ κ) (scope : Scope) (name : String) : Op σ κ δ Endpoint :=
  connected w .endpoint name scope fun cx => cx.read .endpoint name (.endpoint name)

variable [Disk δ]

/-- Makes the next version of an environment. -/
def createEnvironmentVersion (w : World σ κ) (scope : Scope) (service : String)
    (c : Component) : Op σ κ δ EnvironmentVersion := do
  let p ← prepared (EnvironmentVersion.prepare · · service c)
  connected w .environment p.name scope (EnvironmentVersion.provision · p)

/-- Makes a version of a model. -/
def createModelVersion (w : World σ κ) (scope : Scope) (service : String) (c : Component) :
    Op σ κ δ ModelVersion := do
  let p ← prepared (ModelVersion.prepare · · service c)
  connected w .model p.name scope (ModelVersion.provision · p)

/-- Makes an endpoint unless it is there. -/
def createEndpoint (w : World σ κ) (scope : Scope) (service : String) (c : Component) :
    Op σ κ δ Endpoint := do
  let p ← prepared (Endpoint.prepare · · service c)
  connected w .endpoint p.name scope (Endpoint.provision · p)

/-- Deploys to an endpoint at a time. -/
def deploy (w : World σ κ) (scope : Scope) (service endpoint : String) (d : DeploymentSpec)
    (now : Int) : Op σ κ δ Deployment := do
  let p ← prepared (Deployment.prepare · · service endpoint d now)
  connected w .deployment p.name scope (Deployment.provision · p)

/-- Makes or updates a flow at a time. -/
def createFlow (w : World σ κ) (scope : Scope) (service : String) (c : Component)
    (now : Int) : Op σ κ δ Flow := do
  let p ← prepared (Flow.prepare · · service c now)
  connected w .flow p.name scope (Flow.provision · p)

end Op

end Provisioner
