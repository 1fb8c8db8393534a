import Provisioner.Proofs.Operation.Effects

/-!
# Requests

All that can be asked of an orchestrator: to make one of five kinds of resource, or to read
one of two.

* A `Request` says which operation it is, and with what.  `Request.op` is the operation.
* `Request.fill` fills its inputs in, and `Request.course` is the course that it keeps to then.
* `Request.follows` says so, of all operations at once.
-/

namespace Provisioner

variable {σ κ δ : Type}

/-- What an orchestrator is asked for. -/
inductive Request
  | environment (scope : Scope) (service : String) (c : Component)
  | model (scope : Scope) (service : String) (c : Component)
  | endpoint (scope : Scope) (service : String) (c : Component)
  | deployment (scope : Scope) (service parent : String) (d : DeploymentSpec) (now : Int)
  | flow (scope : Scope) (service : String) (c : Component) (now : Int)
  | workspace (scope : Scope)
  | endpointRecord (scope : Scope) (name : String)

namespace Request

/-- What the answer is, if there is one. -/
def Record : Request → Type
  | .environment .. => EnvironmentVersion
  | .model .. => ModelVersion
  | .endpoint .. => Endpoint
  | .deployment .. => Deployment
  | .flow .. => Flow
  | .workspace _ => Workspace
  | .endpointRecord .. => Endpoint

/-- The inputs of a request, filled in.  To read a resource there is nothing to fill in. -/
def Input : Request → Type
  | .deployment .. => Deployment.Input
  | .workspace _ => Unit
  | .endpointRecord .. => Unit
  | _ => Prepared

/-- The kind of the resource. -/
def kind : Request → Kind
  | .environment .. => .environment
  | .model .. => .model
  | .endpoint .. => .endpoint
  | .deployment .. => .deployment
  | .flow .. => .flow
  | .workspace _ => .workspace
  | .endpointRecord .. => .endpoint

/-- Where the resource is. -/
def scope : Request → Scope
  | .environment scope .. => scope
  | .model scope .. => scope
  | .endpoint scope .. => scope
  | .deployment scope .. => scope
  | .flow scope .. => scope
  | .workspace scope => scope
  | .endpointRecord scope _ => scope

/-- The name of the resource. -/
def name : (q : Request) → q.Input → String
  | .environment .. => Prepared.name
  | .model .. => Prepared.name
  | .endpoint .. => Prepared.name
  | .deployment .. => Deployment.Input.name
  | .flow .. => Prepared.name
  | .workspace scope => fun _ => scope.workspace
  | .endpointRecord _ name => fun _ => name

/-- The course that the operation keeps to with a client. -/
def course : (q : Request) → q.Input → κ → Course κ q.Record
  | .environment scope .. => fun p client => Course.environment client scope p
  | .model scope .. => fun p client => Course.model client scope p
  | .endpoint scope .. => fun p client => Course.endpoint client scope p
  | .deployment scope .. => fun p client => Course.deployment client scope p
  | .flow scope .. => fun p _ => Course.flow scope p
  | .workspace scope => fun _ client => Course.workspace client scope
  | .endpointRecord scope name => fun _ client => Course.endpointRecord client scope name

/-- What the operation publishes, if it publishes anything. -/
def publication? : (q : Request) → q.Input → Option (List (String × String))
  | .environment .. => fun p => some (EnvironmentVersion.publication p)
  | .model .. => fun p => some (ModelVersion.publication p)
  | .endpoint .. => fun p => some (Endpoint.publication p)
  | .deployment .. => fun p => some (Deployment.publication p)
  | .flow .. => fun p => some (Flow.publication p)
  | .workspace _ => fun _ => none
  | .endpointRecord .. => fun _ => none

variable [Disk δ]

/-- The operation. -/
def op (w : World σ κ) : (q : Request) → Op σ κ δ q.Record
  | .environment scope service c => Op.createEnvironmentVersion w scope service c
  | .model scope service c => Op.createModelVersion w scope service c
  | .endpoint scope service c => Op.createEndpoint w scope service c
  | .deployment scope service parent d now => Op.deploy w scope service parent d now
  | .flow scope service c now => Op.createFlow w scope service c now
  | .workspace scope => Op.ensureWorkspace w scope
  | .endpointRecord scope name => Op.getEndpoint w scope name

/-- Fills the inputs in. -/
def fill (store : Store) (disk : δ) : (q : Request) → Except ProvisionError q.Input
  | .environment _ service c => EnvironmentVersion.prepare store disk service c
  | .model _ service c => ModelVersion.prepare store disk service c
  | .endpoint _ service c => Endpoint.prepare store disk service c
  | .deployment _ service parent d now => Deployment.prepare store disk service parent d now
  | .flow _ service c now => Flow.prepare store disk service c now
  | .workspace _ => .ok ()
  | .endpointRecord .. => .ok ()

/-- An operation whose inputs are filled in keeps to its course. -/
theorem follows (w : World σ κ) (s : Session σ κ δ) (q : Request) :
    OnceFilled (q.fill s.store s.disk) s
      (fun p => Follows w q.kind (q.name p) q.scope (q.course p) (q.publication? p) s)
      ((q.op w).run.run s) := by
  cases q with
  | environment scope service c => exact follows_createEnvironmentVersion w scope s service c
  | model scope service c => exact follows_createModelVersion w scope s service c
  | endpoint scope service c => exact follows_createEndpoint w scope s service c
  | deployment scope service parent d now => exact follows_deploy w scope s service parent d now
  | flow scope service c now => exact follows_createFlow w scope s service c now
  | workspace scope => exact ⟨nofun, fun _ _ => Course.follows_ensureWorkspace scope w s⟩
  | endpointRecord scope name => exact ⟨nofun, fun _ _ => Course.follows_getEndpoint scope w s name⟩

end Request

end Provisioner
