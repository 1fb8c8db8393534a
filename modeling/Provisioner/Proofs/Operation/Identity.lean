import Provisioner.Proofs.Operation.Scoped

/-!
# One name throughout

An operation that succeeds has asked, run and published the same thing.

* `Trace.of_read` and its siblings say what the exchange at a stage was that went well.
* `EnvironmentVersion.Exchanged` and its siblings are all exchanges of an operation with a
  result, with the names and versions in them.
* `Completed` is what every such operation leaves in its session.
* `operations_agree` says of all five operations that their exchanges are such.
-/

namespace Provisioner

open Options (Decides)

variable {σ κ δ α : Type}

/-! ## Stages that went well -/

namespace Course

section

variable {x : Exchange κ} {kind : Kind} {name : String} {missCounts : Bool}

/-- A question that is answered well: with a record, or where a miss counts with a miss. -/
theorem exists_answer_of_read {client : κ} {scope : Scope} {q : ControlPlane.Query}
    (hcall : x.call = .read client scope q)
    (hnone : (Stage.mk kind name (.read client scope q) missCounts).failure? x = none) :
    ∃ answer, x = .read client scope q answer ∧ ((∃ record, answer = .ok record) ∨
      missCounts = true ∧ ∃ what, answer = .error (.notFound what)) := by
  cases x with
  | run => cases hcall
  | read client' scope' q' answer =>
    cases hcall
    refine ⟨answer, rfl, ?_⟩
    cases answer with
    | ok record => exact .inl ⟨record, rfl⟩
    | error e =>
      cases missCounts with
      | false => cases hnone
      | true =>
        cases e with
        | notFound what => exact .inr ⟨rfl, what, rfl⟩
        | authentication | api | transport | decode => cases hnone

/-- A run that ended well: with an output, or where a miss counts with a failure of the program
itself. -/
theorem exists_ended_of_run {program : Program} {args : Arguments}
    (hcall : x.call = .run program args)
    (hnone : (Stage.mk kind name (.run program args) missCounts).failure? x = none) :
    ∃ ended, x = .run program args ended ∧ ((∃ output, ended = .ok output) ∨
      missCounts = true ∧ ∃ failure, ended = .error failure ∧ failure.isFailedRun = true) := by
  cases x with
  | read => cases hcall
  | run program' args' ended =>
    cases hcall
    refine ⟨ended, rfl, ?_⟩
    cases ended with
    | ok output => exact .inl ⟨output, rfl⟩
    | error e =>
      cases missCounts with
      | false => cases hnone
      | true =>
        cases e with
        | failed => exact .inr ⟨rfl, _, rfl, rfl⟩
        | launch | unavailable => cases hnone

end

namespace Trace

variable {course : Course κ α} {xs : List (Exchange κ)} {last? : Option (Call κ)} {a : α}
  {kind : Kind} {name : String}

section

variable {client : κ} {scope : Scope} {q : ControlPlane.Query}

/-- Where a miss counts the resource was there, or not found. -/
theorem of_probe (h : course.Trace xs last? (some a))
    (hstage : course [] = .call ⟨kind, name, .read client scope q, true⟩) :
    ∃ answer rest, xs = .read client scope q answer :: rest ∧
      ((∃ record, answer = .ok record) ∨ ∃ what, answer = .error (.notFound what)) ∧
      (course.after [.read client scope q answer]).Trace rest last? (some a) := by
  obtain ⟨x, rest, rfl, hcall, hnone, hrest⟩ := h.of_stage hstage
  obtain ⟨answer, rfl, hanswer⟩ := exists_answer_of_read hcall hnone
  exact ⟨answer, rest, rfl, hanswer.imp_right And.right, hrest⟩

/-- What was read was there. -/
theorem of_read (h : course.Trace xs last? (some a))
    (hstage : course [] = .call ⟨kind, name, .read client scope q, false⟩) :
    ∃ record rest, xs = .read client scope q (.ok record) :: rest ∧
      (course.after [.read client scope q (.ok record)]).Trace rest last? (some a) := by
  obtain ⟨x, rest, rfl, hcall, hnone, hrest⟩ := h.of_stage hstage
  obtain ⟨answer, rfl, ⟨record, rfl⟩ | ⟨⟨⟩, -⟩⟩ := exists_answer_of_read hcall hnone
  exact ⟨record, rest, rfl, hrest⟩

end

section

variable {program : Program} {args : Arguments}

/-- Where a miss counts the program succeeded, or it ran and failed. -/
theorem of_attempt (h : course.Trace xs last? (some a))
    (hstage : course [] = .call ⟨kind, name, .run program args, true⟩) :
    ∃ ended rest, xs = .run program args ended :: rest ∧
      ((∃ output, ended = .ok output) ∨ ∃ failure, ended = .error failure ∧
        failure.isFailedRun = true) ∧
      (course.after [.run program args ended]).Trace rest last? (some a) := by
  obtain ⟨x, rest, rfl, hcall, hnone, hrest⟩ := h.of_stage hstage
  obtain ⟨ended, rfl, hended⟩ := exists_ended_of_run hcall hnone
  exact ⟨ended, rest, rfl, hended.imp_right And.right, hrest⟩

/-- What was run succeeded. -/
theorem of_run (h : course.Trace xs last? (some a))
    (hstage : course [] = .call ⟨kind, name, .run program args, false⟩) :
    ∃ output rest, xs = .run program args (.ok output) :: rest ∧
      (course.after [.run program args (.ok output)]).Trace rest last? (some a) := by
  obtain ⟨x, rest, rfl, hcall, hnone, hrest⟩ := h.of_stage hstage
  obtain ⟨ended, rfl, ⟨output, rfl⟩ | ⟨⟨⟩, -⟩⟩ := exists_ended_of_run hcall hnone
  exact ⟨output, rest, rfl, hrest⟩

end

end Trace

end Course

/-! ## Exchanges -/

section

variable (client : κ) (scope : Scope) (overrides : Overrides)

/-- The version that is planned from the answer about a container: the one that it announces, and
the first one if it announces none or is not found. -/
inductive Version.Planned : Except ControlPlane.Failure Container → String → Prop
  | absent {what : String} : Planned (.error (.notFound what)) "1"
  | announced {container : Container} {version : String} :
    container.properties.nextVersion = some version → Planned (.ok container) version
  | silent {container : Container} : container.properties.nextVersion = none →
    Planned (.ok container) "1"

/-- The exchanges that make a version of an environment: its container, the run with the planned
version, and this version. -/
inductive EnvironmentVersion.Exchanged (name : String) (record : EnvironmentVersion) :
    List (Exchange κ) → Prop
  | made {container : Except ControlPlane.Failure Container} {version : String}
    {args : Arguments} {output : Program.Output} :
    Version.Planned container version →
    (∀ f ∈ fields name version, Decides overrides args.options f.1 f.2) →
    Exchanged name record
      [.read client scope (.container .environment name) container,
        .run .mlClient args (.ok output),
        .read client scope (.environmentVersion name version) (.ok record)]

/-- The exchanges that make a version of a model: the run, its container, and the version that
this says is the latest. -/
inductive ModelVersion.Exchanged (name : String) (record : ModelVersion) :
    List (Exchange κ) → Prop
  | made {container : Container} {args : Arguments} {output : Program.Output} :
    (∀ f ∈ fields name, Decides overrides args.options f.1 f.2) →
    Exchanged name record
      [.run .mlClient args (.ok output),
        .read client scope (.container .model name) (.ok container),
        .read client scope
          (.modelVersion name (container.properties.latestVersion.getD "1")) (.ok record)]

/-- The exchanges that make an endpoint: if it is not found there is a run, and then it is read
in any case. -/
inductive Endpoint.Exchanged (name : String) (record : Endpoint) : List (Exchange κ) → Prop
  | there {found : Endpoint} :
    Exchanged name record
      [.read client scope (.endpoint name) (.ok found),
        .read client scope (.endpoint name) (.ok record)]
  | made {what : String} {args : Arguments} {output : Program.Output} :
    (∀ f ∈ fields name, Decides overrides args.options f.1 f.2) →
    Exchanged name record
      [.read client scope (.endpoint name) (.error (.notFound what)),
        .run .mlClient args (.ok output),
        .read client scope (.endpoint name) (.ok record)]

/-- The exchanges that make a deployment: the containers of what it binds, the run with the names
and latest versions that they give, and the deployment. -/
inductive Deployment.Exchanged (endpoint name environment model : String) (record : Deployment) :
    List (Exchange κ) → Prop
  | made {e m : Container} {args : Arguments} {output : Program.Output} :
    (∀ f ∈ fields name endpoint
        ("azureml:" ++ e.nameOr environment ++ ":" ++ e.properties.latestVersion.getD "1")
        ("azureml:" ++ m.nameOr model ++ ":" ++ m.properties.latestVersion.getD "1"),
      Decides overrides args.options f.1 f.2) →
    Exchanged endpoint name environment model record
      [.read client scope (.container .environment environment) (.ok e),
        .read client scope (.container .model model) (.ok m),
        .run .mlClient args (.ok output),
        .read client scope (.deployment endpoint name) (.ok record)]

/-- Arguments that name a flow, with the directory that they give for it. -/
structure Flow.Names (verb name : String) (directory : List String) (args : Arguments) :
    Prop where
  verb : args.head? = some verb
  name : Options.values "-n" (Program.promptFlowClient.options args) = [name]
  directory : Options.values "-f" (Program.promptFlowClient.options args) = directory

/-- The exchanges that make a flow.  One that is shown is updated, and one that is not is made,
from its directory. -/
inductive Flow.Exchanged (name directory : String) (record : Flow) : List (Exchange κ) → Prop
  | updated {shown updated : Arguments} {output output' : Program.Output} :
    Names "show" name [] shown → Names "update" name [] updated →
    ofOutput name output' = .ok record →
    Exchanged name directory record
      [.run .promptFlowClient shown (.ok output), .run .promptFlowClient updated (.ok output')]
  | created {shown created : Arguments} {failure : Program.Failure} {output : Program.Output} :
    failure.isFailedRun = true →
    Names "show" name [] shown → Names "create" name [directory] created →
    ofOutput name output = .ok record →
    Exchanged name directory record
      [.run .promptFlowClient shown (.error failure), .run .promptFlowClient created (.ok output)]

end

section

variable {client : κ} {scope : Scope} {overrides : Overrides} {lookup : Template.Lookup}
  {xs : List (Exchange κ)} {last? : Option (Call κ)}

theorem Version.planned_of_answer (client : κ) (scope : Scope) {name : String}
    {answer : ControlPlane.Answer (.container .environment name)}
    (h : (∃ record, answer = .ok record) ∨ ∃ what, answer = .error (.notFound what)) :
    Planned answer
      (Exchange.read client scope (.container .environment name) answer).proposed := by
  rcases h with ⟨container, rfl⟩ | ⟨what, rfl⟩
  · rw [Exchange.proposed]
    cases hnext : container.properties.nextVersion with
    | some version => exact .announced hnext
    | none => exact .silent hnext
  · exact .absent

theorem EnvironmentVersion.exchanged {p : Prepared} {record : EnvironmentVersion}
    (h : (Course.environment client scope p).Trace xs last? (some record))
    (hoverrides : overrides.arguments lookup = .ok p.overrides) :
    Exchanged client scope overrides p.name record xs := by
  obtain ⟨container, rest, rfl, hcontainer, hrun⟩ := h.of_probe rfl
  obtain ⟨output, rest, rfl, hread⟩ := hrun.of_run rfl
  obtain ⟨last, rest, rfl, hdone⟩ := hread.of_read rfl
  obtain ⟨⟨⟩, rfl⟩ := hdone.of_done rfl
  have hplanned := Version.planned_of_answer client scope hcontainer
  generalize (Exchange.read client scope _ container).proposed = version at hplanned ⊢
  exact .made hplanned (orders scope hoverrides version).decides

theorem ModelVersion.exchanged {p : Prepared} {record : ModelVersion}
    (h : (Course.model client scope p).Trace xs last? (some record))
    (hoverrides : overrides.arguments lookup = .ok p.overrides) :
    Exchanged client scope overrides p.name record xs := by
  obtain ⟨output, rest, rfl, hcontainer⟩ := h.of_run rfl
  obtain ⟨container, rest, rfl, hread⟩ := hcontainer.of_read rfl
  obtain ⟨last, rest, rfl, hdone⟩ := hread.of_read rfl
  obtain ⟨⟨⟩, rfl⟩ := hdone.of_done rfl
  exact .made (orders scope hoverrides).decides

theorem Endpoint.exchanged {p : Prepared} {record : Endpoint}
    (h : (Course.endpoint client scope p).Trace xs last? (some record))
    (hoverrides : overrides.arguments lookup = .ok p.overrides) :
    Exchanged client scope overrides p.name record xs := by
  obtain ⟨answer, rest, rfl, ⟨found, rfl⟩ | ⟨what, rfl⟩, hnext⟩ := h.of_probe rfl
  · obtain ⟨last, rest, rfl, hdone⟩ := hnext.of_read rfl
    obtain ⟨⟨⟩, rfl⟩ := hdone.of_done rfl
    exact .there
  · obtain ⟨output, rest, rfl, hread⟩ := hnext.of_run rfl
    obtain ⟨last, rest, rfl, hdone⟩ := hread.of_read rfl
    obtain ⟨⟨⟩, rfl⟩ := hdone.of_done rfl
    exact .made (orders scope hoverrides).decides

theorem Deployment.exchanged {p : Input} {record : Deployment}
    (h : (Course.deployment client scope p).Trace xs last? (some record))
    (hoverrides : overrides.arguments lookup = .ok p.overrides) :
    Exchanged client scope overrides p.endpoint p.name p.environment p.model record xs := by
  obtain ⟨e, rest, rfl, hmodel⟩ := h.of_read rfl
  obtain ⟨m, rest, rfl, hrun⟩ := hmodel.of_read rfl
  obtain ⟨output, rest, rfl, hread⟩ := hrun.of_run rfl
  obtain ⟨last, rest, rfl, hdone⟩ := hread.of_read rfl
  obtain ⟨⟨⟩, rfl⟩ := hdone.of_done rfl
  have horders := orders scope hoverrides
    ⟨e.nameOr p.environment, e.properties.latestVersion.getD "1"⟩
    ⟨m.nameOr p.model, m.properties.latestVersion.getD "1"⟩
  exact .made horders.decides

theorem Flow.names_show (scope : Scope) (name : String) :
    Names "show" name [] (showArguments scope name) :=
  ⟨rfl, rfl, rfl⟩

theorem Flow.names_arguments (scope : Scope) {p : Prepared}
    (h : overrides.arguments lookup = .ok p.overrides) (verb : Verb) :
    Names verb.name p.name (match verb with | .create => [p.definition] | .update => [])
      (arguments verb scope p) := by
  have hname := values_arguments scope h verb (show "--set" ≠ "-n" by decide)
  have hdirectory := values_arguments scope h verb (show "--set" ≠ "-f" by decide)
  cases verb with
  | create => exact ⟨rfl, hname, hdirectory⟩
  | update => exact ⟨rfl, hname, hdirectory⟩

theorem Flow.exchanged {p : Prepared} {record : Flow}
    (h : (Course.flow (κ := κ) scope p).Trace xs last? (some record))
    (hoverrides : overrides.arguments lookup = .ok p.overrides) :
    Exchanged p.name p.definition record xs := by
  obtain ⟨ended, rest, rfl, hended, hrun⟩ := h.of_attempt rfl
  obtain ⟨output, rest, rfl, hdone⟩ := hrun.of_run rfl
  obtain ⟨hrecord, rfl⟩ := hdone.of_done rfl
  have hmade := names_arguments scope hoverrides
  rcases hended with ⟨shown, rfl⟩ | ⟨failure, rfl, hfailed⟩
  · exact .updated (names_show scope p.name) (hmade .update) hrecord
  · have hmiss : (Exchange.run (κ := κ) .promptFlowClient (showArguments scope p.name)
        (.error failure)).isMiss = true := hfailed
    rw [if_pos hmiss]
    exact .created hfailed (names_show scope p.name) (hmade .create) hrecord

end

/-! ## Operations with a result -/

/-- What was stored under a key of its own is found under it. -/
theorem Store.get?_of_mem [Disk δ] {pairs : List (String × String)} {store store' : Store}
    {disk disk' : δ} (h : store.setAll pairs disk = (.ok (), store', disk'))
    (hkeys : (pairs.map Prod.fst).Nodup) {p : String × String} (hp : p ∈ pairs) :
    store'.get? p.1 = some p.2 := by
  rw [get?_of_setAll h, KeyMap.lookup_reverse_of_mem hkeys hp]
  rfl

/-- What an operation with a result leaves behind.  Its exchanges, all of them in its scope, are
all that it has called for apart from its client, and what it publishes is stored. -/
structure Completed [Disk δ] (scope : Scope) (pairs : List (String × String))
    (s s' : Session (Logbook σ κ) κ δ) (xs : List (Exchange κ)) : Prop where
  answered : s'.world.answered = s.world.answered ++ xs
  calls : ∃ opening, opening <+: [.connect scope.subscription, .startTools] ∧
    s'.calls = s.calls ++ (opening ++ xs.map Exchange.call)
  inScope : ∀ x ∈ xs, x.call.InScope scope
  stored : s.store.setAll pairs s.disk = (.ok (), s'.store, s'.disk)
  published : ∀ p ∈ pairs, s'.store.get? p.1 = some p.2

section

variable [Disk δ] {w : World σ κ} {s s' : Session (Logbook σ κ) κ δ}

/-- An operation with a result had good inputs and went through its course. -/
theorem Request.completed {q : Request} {a : q.Record} {pairs : q.Input → List (String × String)}
    (h : (q.op w.logged).run.run s = (.ok a, s'))
    (hpairs : q.publication? = fun p => some (pairs p))
    (hkeys : ∀ p, ((pairs p).map Prod.fst).Nodup) :
    ∃ p client xs, q.fill s.store s.disk = .ok p ∧
      (q.course p client).Trace xs none (some a) ∧ Completed q.scope (pairs p) s s' xs := by
  have hfollows := q.follows w.logged s
  rw [h, hpairs] at hfollows
  obtain ⟨p, hfill, hfollows⟩ := hfollows.exists_of_ok
  have hstored := hfollows.stores.ok a rfl
  obtain ⟨opening, xs, last?, htraced⟩ := hfollows.traced
  cases htraced.trace with
  | opened htrace =>
  obtain rfl := htrace.last?_eq_none
  have hcalls : Course.traceCalls xs none = xs.map Exchange.call := List.append_nil _
  have hinScope := htraced.inScope hfill
  rw [hcalls] at hinScope
  refine ⟨p, _, xs, hfill, htrace, htraced.answered, ⟨opening, htraced.opens, ?_⟩, fun x hx => ?_,
    hstored, fun pair hpair => ?_⟩
  · rw [htraced.calls, hcalls]
  · exact hinScope _ (List.mem_append_right _ (List.mem_map_of_mem hx))
  · exact Store.get?_of_mem hstored (hkeys p) hpair

end

/-! ## What a result stands for -/

section

variable [Disk δ] (scope : Scope) (s s' : Session (Logbook σ κ) κ δ)

/-- All that led to a version of an environment bears the name of the component. -/
def EnvironmentVersion.Agrees (c : Component) (record : EnvironmentVersion) : Prop :=
  ∃ name client xs, c.name.resolve s.store.lookup = .ok name ∧
    Completed scope [("AZUREML_ENVIRONMENT_NAME", name)] s s' xs ∧
    Exchanged client scope c.overrides name record xs

/-- All that led to a version of a model bears the name of the component. -/
def ModelVersion.Agrees (c : Component) (record : ModelVersion) : Prop :=
  ∃ name client xs, c.name.resolve s.store.lookup = .ok name ∧
    Completed scope [("AZUREML_MODEL_NAME", name)] s s' xs ∧
    Exchanged client scope c.overrides name record xs

/-- All that led to an endpoint bears the name of the component. -/
def Endpoint.Agrees (c : Component) (record : Endpoint) : Prop :=
  ∃ name client xs, c.name.resolve s.store.lookup = .ok name ∧
    Completed scope [("AZUREML_ENDPOINT_NAME", name)] s s' xs ∧
    Exchanged client scope c.overrides name record xs

/-- All that led to a deployment bears its new name and that of the endpoint it is given. -/
def Deployment.Agrees (parent : String) (d : DeploymentSpec) (now : Int) (record : Deployment) :
    Prop :=
  ∃ name environment model client xs, name = "fleetml-" ++ toString now ∧
    d.environment.name.resolve s.store.lookup = .ok environment ∧
    d.model.name.resolve s.store.lookup = .ok model ∧
    Completed scope
      [("AZUREML_ENDPOINT_NAME", parent), ("AZUREML_DEPLOYMENT_NAME", name)] s s' xs ∧
    Exchanged client scope d.deployment.overrides parent name environment model record xs

/-- All that led to a flow bears the name of the component with the time appended. -/
def Flow.Agrees (service : String) (c : Component) (now : Int) (record : Flow) : Prop :=
  ∃ base name xs, c.name.resolve s.store.lookup = .ok base ∧
    name = base ++ "-" ++ toString now ∧
    Completed scope [("AZUREML_FLOW_NAME", name)] s s' xs ∧
    Exchanged name (Path.join service c.path) record xs

end

variable [Disk δ]

/-- An operation with a result works on one thing throughout, in one scope.  What it asks about,
what it tells the programs to make and what it publishes bear one name, and the version that it
makes is the one that it planned and reads back. -/
theorem operations_agree (w : World σ κ) (s : Session (Logbook σ κ) κ δ) (scope : Scope)
    (service : String) :
    (∀ c record s',
      (Op.createEnvironmentVersion w.logged scope service c).run.run s = (.ok record, s') →
      EnvironmentVersion.Agrees scope s s' c record) ∧
    (∀ c record s',
      (Op.createModelVersion w.logged scope service c).run.run s = (.ok record, s') →
      ModelVersion.Agrees scope s s' c record) ∧
    (∀ c record s',
      (Op.createEndpoint w.logged scope service c).run.run s = (.ok record, s') →
      Endpoint.Agrees scope s s' c record) ∧
    (∀ parent d now record s',
      (Op.deploy w.logged scope service parent d now).run.run s = (.ok record, s') →
      Deployment.Agrees scope s s' parent d now record) ∧
    (∀ c now record s',
      (Op.createFlow w.logged scope service c now).run.run s = (.ok record, s') →
      Flow.Agrees scope s s' service c now record) := by
  refine ⟨?environment, ?model, ?endpoint, ?deployment, ?flow⟩
  case environment =>
    intro c record s' h
    obtain ⟨p, client, xs, hfill, htrace, hcompleted⟩ :=
      Request.completed (q := .environment scope service c) h rfl fun p =>
        List.pairwise_singleton _ _
    have hp := Prepared.filledIn_of_definitionFirst hfill
    exact ⟨p.name, client, xs, hp.name, hcompleted,
      EnvironmentVersion.exchanged htrace hp.overrides⟩
  case model =>
    intro c record s' h
    obtain ⟨p, client, xs, hfill, htrace, hcompleted⟩ :=
      Request.completed (q := .model scope service c) h rfl fun p => List.pairwise_singleton _ _
    have hp := Prepared.filledIn_of_definitionFirst hfill
    exact ⟨p.name, client, xs, hp.name, hcompleted,
      ModelVersion.exchanged htrace hp.overrides⟩
  case endpoint =>
    intro c record s' h
    obtain ⟨p, client, xs, hfill, htrace, hcompleted⟩ :=
      Request.completed (q := .endpoint scope service c) h rfl fun p => List.pairwise_singleton _ _
    have hp := Prepared.filledIn_of_nameFirst hfill
    exact ⟨p.name, client, xs, hp.name, hcompleted,
      Endpoint.exchanged htrace hp.overrides⟩
  case deployment =>
    intro parent d now record s' h
    have hkeys : ["AZUREML_ENDPOINT_NAME", "AZUREML_DEPLOYMENT_NAME"].Nodup := by decide
    obtain ⟨p, client, xs, hfill, htrace, hcompleted⟩ :=
      Request.completed (q := .deployment scope service parent d now) h rfl fun p => hkeys
    have hp := Deployment.filledIn_of_prepare hfill
    have hxs := Deployment.exchanged htrace hp.overrides
    have hcompleted : Completed scope [("AZUREML_ENDPOINT_NAME", p.endpoint),
      ("AZUREML_DEPLOYMENT_NAME", p.name)] s s' xs := hcompleted
    rw [hp.endpoint] at hcompleted hxs
    exact ⟨p.name, p.environment, p.model, client, xs, hp.name, hp.environment, hp.model,
      hcompleted, hxs⟩
  case flow =>
    intro c now record s' h
    obtain ⟨p, client, xs, hfill, htrace, hcompleted⟩ :=
      Request.completed (q := .flow scope service c now) h rfl fun p => List.pairwise_singleton _ _
    obtain ⟨filled, hfilled, rfl⟩ := Flow.exists_filledIn_of_prepare hfill
    have hxs := Flow.exchanged htrace hfilled.overrides
    rw [hfilled.definition] at hxs
    exact ⟨filled.name, _, xs, hfilled.name, rfl, hcompleted, hxs⟩

/-- A record of whatever is asked about. -/
def ControlPlane.Query.sample : (q : ControlPlane.Query) → q.Record
  | .workspace => Resource.named "ws" .blank
  | .container _ name =>
    Resource.named name { ContainerProperties.blank with
      nextVersion := some "4", latestVersion := some "3" }
  | .environmentVersion _ version => Resource.named version .blank
  | .modelVersion _ version => Resource.named version .blank
  | .endpoint name => Resource.named name .blank
  | .deployment _ name => Resource.named name .blank

/-- A world in which everything exists and every program prints an empty record. -/
def fullWorld : World Unit Unit where
  cancelled _ := false
  connect _ s := (some (.ok ()), s)
  startTools s := (some (.ok ()), s)
  run _ _ s := (some (.ok ⟨"\x7b\x7d", ""⟩), s)
  read _ _ q s := (some (.ok q.sample), s)

theorem operations_agree_fullWorld :
    let w := fullWorld.logged
    let scope : Scope := ⟨"sub", "rg", "ws"⟩
    let s : Session (Logbook Unit Unit) Unit FileTree :=
      { Course.connectedSession with world := ⟨(), []⟩, client? := none }
    let thing := Course.thing
    let parts : DeploymentSpec := ⟨none, thing, thing, thing⟩
    (∃ record s', (Op.createEnvironmentVersion w scope "svc" thing).run.run s = (.ok record, s') ∧
      EnvironmentVersion.Agrees scope s s' thing record) ∧
    (∃ record s', (Op.createModelVersion w scope "svc" thing).run.run s = (.ok record, s') ∧
      ModelVersion.Agrees scope s s' thing record) ∧
    (∃ record s', (Op.createEndpoint w scope "svc" thing).run.run s = (.ok record, s') ∧
      Endpoint.Agrees scope s s' thing record) ∧
    (∃ record s', (Op.deploy w scope "svc" "parent" parts 7).run.run s = (.ok record, s') ∧
      Deployment.Agrees scope s s' "parent" parts 7 record) ∧
    ∃ record s', (Op.createFlow w scope "svc" thing 7).run.run s = (.ok record, s') ∧
      Flow.Agrees scope s s' "svc" thing 7 record := by
  intro w scope s thing parts
  obtain ⟨henvironment, hmodel, hendpoint, hdeployment, hflow⟩ :=
    operations_agree fullWorld s scope "svc"
  refine ⟨?environment, ?model, ?endpoint, ?deployment, ?flow⟩
  case environment =>
    obtain ⟨record, s', h⟩ := exists_ok_of_isSome
      (r := (Op.createEnvironmentVersion w scope "svc" thing).run.run s) (by decide +kernel)
    exact ⟨record, s', h, henvironment _ _ _ h⟩
  case model =>
    obtain ⟨record, s', h⟩ := exists_ok_of_isSome
      (r := (Op.createModelVersion w scope "svc" thing).run.run s) (by decide +kernel)
    exact ⟨record, s', h, hmodel _ _ _ h⟩
  case endpoint =>
    obtain ⟨record, s', h⟩ := exists_ok_of_isSome
      (r := (Op.createEndpoint w scope "svc" thing).run.run s) (by decide +kernel)
    exact ⟨record, s', h, hendpoint _ _ _ h⟩
  case deployment =>
    obtain ⟨record, s', h⟩ := exists_ok_of_isSome
      (r := (Op.deploy w scope "svc" "parent" parts 7).run.run s) (by decide +kernel)
    exact ⟨record, s', h, hdeployment _ _ _ _ _ h⟩
  case flow =>
    obtain ⟨record, s', h⟩ := exists_ok_of_isSome
      (r := (Op.createFlow w scope "svc" thing 7).run.run s) (by decide +kernel)
    exact ⟨record, s', h, hflow _ _ _ _ h⟩

end Provisioner
