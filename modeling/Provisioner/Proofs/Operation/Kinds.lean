import Provisioner.FileTree
import Provisioner.Proofs.Basic
import Provisioner.Proofs.Operation.Course

/-!
# The courses of the five kinds

The calls of every operation that makes something, in order:

* environment: its container, the run, the version;
* model: the run, its container, the version;
* endpoint: the endpoint, the run unless it is there, the endpoint again;
* deployment: the containers of the environment and of the model, the run, the deployment;
* flow: a run that shows it, and the run that creates or updates it.

`operations_end` says that every operation keeps to its course.
-/

namespace Provisioner

variable {σ κ δ : Type}

/-! ## The courses -/

/-- The version that the answer about a container proposes. -/
def Exchange.proposed : Exchange κ → String
  | .read _ _ (.container ..) (.ok container) =>
    container.properties.nextVersion.getD Version.initial
  | _ => Version.initial

/-- The latest version of a name in the answer about its container. -/
def Exchange.latest (name : String) : Exchange κ → VersionRef
  | .read _ _ (.container ..) (.ok container) =>
    ⟨container.nameOr name, container.properties.latestVersion.getD Version.initial⟩
  | _ => ⟨name, Version.initial⟩

namespace Course

variable (client : κ) (scope : Scope)

/-- A container that is not found stands for a name without versions. -/
def environment (p : Prepared) : Course κ EnvironmentVersion
  | [] => .call ⟨.environment, p.name, .read client scope (.container .environment p.name), true⟩
  | [container] =>
    .call ⟨.environment, p.name,
      .run .mlClient (EnvironmentVersion.arguments scope p container.proposed), false⟩
  | [container, _] =>
    .call ⟨.environment, p.name,
      .read client scope (.environmentVersion p.name container.proposed), false⟩
  | [_, _, .read _ _ (.environmentVersion ..) (.ok record)] => .done (.ok record)
  | _ => .astray

def model (p : Prepared) : Course κ ModelVersion
  | [] => .call ⟨.model, p.name, .run .mlClient (ModelVersion.arguments scope p), false⟩
  | [_] => .call ⟨.model, p.name, .read client scope (.container .model p.name), false⟩
  | [_, container] =>
    .call ⟨.model, p.name,
      .read client scope (.modelVersion p.name (container.latest p.name).version), false⟩
  | [_, _, .read _ _ (.modelVersion ..) (.ok record)] => .done (.ok record)
  | _ => .astray

/-- An endpoint that is not found is made; one that is there is only read again. -/
def endpoint (p : Prepared) : Course κ Endpoint
  | [] => .call ⟨.endpoint, p.name, .read client scope (.endpoint p.name), true⟩
  | [there] =>
    if there.isMiss then
      .call ⟨.endpoint, p.name, .run .mlClient (Endpoint.arguments scope p), false⟩
    else .call ⟨.endpoint, p.name, .read client scope (.endpoint p.name), false⟩
  | [_, .run ..] => .call ⟨.endpoint, p.name, .read client scope (.endpoint p.name), false⟩
  | [_, .read _ _ (.endpoint _) (.ok record)] => .done (.ok record)
  | [_, .run .., .read _ _ (.endpoint _) (.ok record)] => .done (.ok record)
  | _ => .astray

/-- The containers are those of other resources, and their failures as well. -/
def deployment (p : Deployment.Input) : Course κ Deployment
  | [] =>
    .call ⟨.environment, p.environment,
      .read client scope (.container .environment p.environment), false⟩
  | [_] => .call ⟨.model, p.model, .read client scope (.container .model p.model), false⟩
  | [environment, model] =>
    .call ⟨.deployment, p.name,
      .run .mlClient (Deployment.arguments scope p (environment.latest p.environment)
        (model.latest p.model)), false⟩
  | [_, _, _] =>
    .call ⟨.deployment, p.name, .read client scope (.deployment p.endpoint p.name), false⟩
  | [_, _, _, .read _ _ (.deployment ..) (.ok record)] => .done (.ok record)
  | _ => .astray

/-- If the run that shows a flow fails the flow is created, and else updated.  Its record
is what the second run prints. -/
def flow (p : Prepared) : Course κ Flow
  | [] =>
    .call ⟨.flow, p.name, .run .promptFlowClient (Flow.showArguments scope p.name), true⟩
  | [shown] =>
    .call ⟨.flow, p.name,
      .run .promptFlowClient
        (Flow.arguments (if shown.isMiss then .create else .update) scope p), false⟩
  | [_, .run _ _ (.ok output)] => .done (Flow.ofOutput p.name output)
  | _ => .astray

/-! ## How answers are judged -/

theorem errorOf?_next (answer : Except ControlPlane.Failure Container) :
    errorOf? (fun _ => false) (Version.next answer) =
      errorOf? (fun e => true && e.isNotFound) answer := by
  cases answer with
  | ok _ => rfl
  | error e => cases e <;> rfl

theorem errorOf?_latest (name : String) (answer : Except ControlPlane.Failure Container) :
    errorOf? (fun _ => false) (Version.latest name answer) =
      errorOf? (fun e => false && e.isNotFound) answer := by
  cases answer <;> rfl

theorem errorOf?_isThere (answer : Except ControlPlane.Failure Endpoint) :
    errorOf? (fun _ => false) (Endpoint.isThere answer) =
      errorOf? (fun e => true && e.isNotFound) answer := by
  cases answer with
  | ok _ => rfl
  | error e => cases e <;> rfl

theorem errorOf?_verbOf (ended : Except Program.Failure Program.Output) :
    errorOf? (fun _ => false) (Flow.verbOf ended) =
      errorOf? (fun e => true && e.isFailedRun) ended := by
  cases ended with
  | ok _ => rfl
  | error e => cases e <;> rfl

end Course

section

variable {family : ControlPlane.Family} {name : String} (client : κ) (scope : Scope)

theorem Exchange.proposed_of_next {answer : ControlPlane.Answer (.container family name)}
    {version : String} (h : Version.next answer = .ok version) :
    proposed (.read client scope (.container family name) answer) = version := by
  cases answer with
  | ok container => exact Except.ok.inj h
  | error e =>
    cases e with
    | notFound _ => exact Except.ok.inj h
    | _ => cases h

theorem Exchange.latest_of_latest {answer : ControlPlane.Answer (.container family name)}
    {version : VersionRef} (h : Version.latest name answer = .ok version) :
    latest name (.read client scope (.container family name) answer) = version := by
  cases answer with
  | ok container => exact Except.ok.inj h
  | error e => cases h

theorem Exchange.isMiss_of_isThere {answer : ControlPlane.Answer (.endpoint name)} {there : Bool}
    (h : Endpoint.isThere answer = .ok there) :
    isMiss (.read client scope (.endpoint name) answer) = !there := by
  cases answer with
  | ok _ =>
    obtain rfl := Except.ok.inj h
    rfl
  | error e =>
    cases e with
    | notFound _ =>
      obtain rfl := Except.ok.inj h
      rfl
    | _ => cases h

end

theorem Exchange.verb_of_verbOf {program : Program} {arguments : Arguments}
    {ended : Except Program.Failure Program.Output} {verb : Flow.Verb}
    (h : Flow.verbOf ended = .ok verb) :
    (if (Exchange.run (κ := κ) program arguments ended).isMiss then Flow.Verb.create
      else .update) = verb := by
  cases ended with
  | ok _ => exact Except.ok.inj h
  | error e =>
    cases e with
    | failed _ _ _ => exact Except.ok.inj h
    | _ => cases h

/-! ## The operations -/

namespace Course

section

variable [Disk δ] (w : World σ κ) (client : κ) (scope : Scope) (s : Session σ κ δ)

theorem unfolds_environment (p : Prepared) :
    Unfolds w (some (EnvironmentVersion.publication p)) (environment client scope p) s
      ((EnvironmentVersion.provision ⟨w, client, scope⟩ p).run.run s) := by
  refine .ask rfl errorOf?_next fun container version _ hversion => ?_
  obtain rfl := Exchange.proposed_of_next client scope hversion
  refine .invoke rfl fun output _ => ?_
  refine .read rfl fun record _ => ?_
  exact .publish rfl

theorem unfolds_model (p : Prepared) :
    Unfolds w (some (ModelVersion.publication p)) (model client scope p) s
      ((ModelVersion.provision ⟨w, client, scope⟩ p).run.run s) := by
  refine .invoke rfl fun output _ => ?_
  refine .ask rfl (errorOf?_latest p.name) fun container latest _ hlatest => ?_
  obtain rfl := Exchange.latest_of_latest client scope hlatest
  refine .read rfl fun record _ => ?_
  exact .publish rfl

theorem unfolds_endpoint (p : Prepared) :
    Unfolds w (some (Endpoint.publication p)) (endpoint client scope p) s
      ((Endpoint.provision ⟨w, client, scope⟩ p).run.run s) := by
  refine .ask rfl errorOf?_isThere fun answer there _ hthere => ?_
  have hmiss := Exchange.isMiss_of_isThere client scope hthere
  cases there with
  | true =>
    have hstage : endpoint client scope p [.read client scope (.endpoint p.name) answer] =
        .call ⟨.endpoint, p.name, .read client scope (.endpoint p.name), false⟩ := by
      rw [endpoint, hmiss]
      rfl
    refine .read hstage fun record _ => ?_
    exact .publish rfl
  | false =>
    have hstage : endpoint client scope p [.read client scope (.endpoint p.name) answer] =
        .call ⟨.endpoint, p.name, .run .mlClient (Endpoint.arguments scope p), false⟩ := by
      rw [endpoint, hmiss]
      rfl
    refine .invoke hstage fun output _ => ?_
    refine .read rfl fun record _ => ?_
    exact .publish rfl

theorem unfolds_deployment (p : Deployment.Input) :
    Unfolds w (some (Deployment.publication p)) (deployment client scope p) s
      ((Deployment.provision ⟨w, client, scope⟩ p).run.run s) := by
  refine .ask rfl (errorOf?_latest p.environment) fun environment latest _ hlatest => ?_
  obtain rfl := Exchange.latest_of_latest client scope hlatest
  refine .ask rfl (errorOf?_latest p.model) fun model latest _ hlatest => ?_
  obtain rfl := Exchange.latest_of_latest client scope hlatest
  refine .invoke rfl fun output _ => ?_
  refine .read rfl fun record _ => ?_
  exact .publish rfl

theorem unfolds_flow (p : Prepared) :
    Unfolds w (some (Flow.publication p)) (flow scope p) s
      ((Flow.provision ⟨w, client, scope⟩ p).run.run s) := by
  refine .attempt rfl errorOf?_verbOf fun shown verb _ hverb => ?_
  have hstage : flow (κ := κ) scope p
        [.run .promptFlowClient (Flow.showArguments scope p.name) shown] =
      .call ⟨.flow, p.name, .run .promptFlowClient (Flow.arguments verb scope p), false⟩ := by
    rw [flow, Exchange.verb_of_verbOf hverb]
  refine .attempt hstage (fun ended => ?_) fun ended output world hended => ?_
  · cases ended <;> rfl
  obtain rfl : ended = .ok output := hended
  have hresult := Op.run_orFail_id (σ := σ) (κ := κ) (δ := δ) (Flow.ofOutput p.name output)
  cases hrecord : Flow.ofOutput p.name output with
  | error e =>
    rw [hrecord] at hresult
    exact .useless_of_error (congrArg Next.done hrecord) (hresult _)
  | ok record =>
    rw [hrecord] at hresult
    rw [run_bind_of_ok (hresult _)]
    exact .publish (congrArg Next.done hrecord)

end

variable [Disk δ] {w : World σ κ} (hw : w.NeverCancels) (client : κ) (scope : Scope)
  (s : Session σ κ δ)
include hw

/-- Every operation whose inputs are good keeps to its course, whatever it is answered. -/
theorem operations_end (hclient : s.client? = some client) (service : String) :
    (∀ c p, EnvironmentVersion.prepare s.store s.disk service c = .ok p →
      Ends w (environment client scope p) (EnvironmentVersion.publication p) s
        ((Op.createEnvironmentVersion w scope service c).run.run s)) ∧
    (∀ c p, ModelVersion.prepare s.store s.disk service c = .ok p →
      Ends w (model client scope p) (ModelVersion.publication p) s
        ((Op.createModelVersion w scope service c).run.run s)) ∧
    (∀ c p, Endpoint.prepare s.store s.disk service c = .ok p →
      Ends w (endpoint client scope p) (Endpoint.publication p) s
        ((Op.createEndpoint w scope service c).run.run s)) ∧
    (∀ parent d now p, Deployment.prepare s.store s.disk service parent d now = .ok p →
      Ends w (deployment client scope p) (Deployment.publication p) s
        ((Op.deploy w scope service parent d now).run.run s)) ∧
    (∀ c now p, Flow.prepare s.store s.disk service c now = .ok p →
      Ends w (flow scope p) (Flow.publication p) s
        ((Op.createFlow w scope service c now).run.run s)) := by
  refine ⟨?environment, ?model, ?endpoint, ?deployment, ?flow⟩
  case environment =>
    intro c p hp
    exact .prepared hw hclient hp ((unfolds_environment w client scope _ p).ends hw)
  case model =>
    intro c p hp
    exact .prepared hw hclient hp ((unfolds_model w client scope _ p).ends hw)
  case endpoint =>
    intro c p hp
    exact .prepared hw hclient hp ((unfolds_endpoint w client scope _ p).ends hw)
  case deployment =>
    intro parent d now p hp
    exact .prepared hw hclient hp ((unfolds_deployment w client scope _ p).ends hw)
  case flow =>
    intro c now p hp
    exact .prepared hw hclient hp ((unfolds_flow w client scope _ p).ends hw)

omit hw

/-! ## A world without resources -/

/-- A world in which nothing exists and every program succeeds. -/
def emptyWorld : World Unit Unit where
  cancelled _ := false
  connect _ s := (some (.ok ()), s)
  startTools s := (some (.ok ()), s)
  run _ _ s := (some (.ok default), s)
  read _ _ _ s := (some (.error (.notFound "")), s)

/-- A definition on a disk. -/
def definitionTree : FileTree :=
  ⟨[(["svc"], .directory), (["svc", "thing.yml"], .file (.text "") false)], []⟩

/-- A resource with this definition, whose name comes from the store. -/
def thing : Component := ⟨⟨"$\x7bNAME\x7d"⟩, "thing.yml", .empty⟩

/-- A session that is connected to that world. -/
def connectedSession : Session Unit Unit FileTree :=
  ⟨(), definitionTree, .memory ⟨KeyMap.ofList [("NAME", "thing")]⟩, some (), []⟩

theorem operations_end_emptyWorld :
    let s := connectedSession
    let scope : Scope := ⟨"sub", "rg", "ws"⟩
    let p : Prepared := ⟨"thing", "svc/thing.yml", []⟩
    let deployed : Deployment.Input :=
      ⟨"fleetml-7", "parent", "thing", "thing", "svc/thing.yml", []⟩
    Ends emptyWorld (environment () scope p) (EnvironmentVersion.publication p) s
        ((Op.createEnvironmentVersion emptyWorld scope "svc" thing).run.run s) ∧
      Ends emptyWorld (model () scope p) (ModelVersion.publication p) s
        ((Op.createModelVersion emptyWorld scope "svc" thing).run.run s) ∧
      Ends emptyWorld (endpoint () scope p) (Endpoint.publication p) s
        ((Op.createEndpoint emptyWorld scope "svc" thing).run.run s) ∧
      Ends emptyWorld (deployment () scope deployed) (Deployment.publication deployed) s
        ((Op.deploy emptyWorld scope "svc" "parent" ⟨none, thing, thing, thing⟩ 7).run.run s) ∧
      Ends emptyWorld (flow scope { p with name := "thing-7" })
        (Flow.publication { p with name := "thing-7" }) s
        ((Op.createFlow emptyWorld scope "svc" thing 7).run.run s) := by
  have hw : emptyWorld.NeverCancels := ⟨fun _ => rfl, fun _ _ _ => rfl, fun _ _ _ _ => rfl⟩
  intro s scope p deployed
  obtain ⟨henvironment, hmodel, hendpoint, hdeployment, hflow⟩ :=
    operations_end hw () scope s rfl "svc"
  refine ⟨henvironment thing p ?_, hmodel thing p ?_, hendpoint thing p ?_,
    hdeployment "parent" ⟨none, thing, thing, thing⟩ 7 deployed ?_,
    hflow thing 7 { p with name := "thing-7" } ?_⟩
  · decide +kernel
  · decide +kernel
  · decide +kernel
  · decide +kernel
  · decide +kernel

end Course

end Provisioner
