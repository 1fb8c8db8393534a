import Provisioner.Proofs.Operation.Identity

/-!
# What overrides leave of a decision

A step decides on the values of some fields and sets them itself.  Overrides are appended after
them, whatever their keys are, so an override may set such a field once more.

* A `Decision` is what a step has decided on, and `Decision.Kept` says what the operation does
  about it, however it ends.
* `operations_keep_decisions` says of the four operations that run the ML client that they keep to
  their decisions, and when an override stands against one.
* `not_forall_settings` is an override that does.
-/

namespace Provisioner

open Options (Decides)

variable {σ κ δ α : Type}

/-- What a step has decided on: the fields that it sets itself, all that it asks about, and what
it publishes.  The grounds are the answers that it bases the fields on. -/
structure Decision (κ : Type) where
  fields : List (String × String)
  asks : ControlPlane.Query → Prop
  publication : List (String × String)
  grounds : List (Exchange κ) → Prop

/-- A call that keeps to a decision: a run that sets its fields before any override does, or a
question that belongs to it. -/
def Call.Keeps (d : Decision κ) (overrides : Overrides) : Call κ → Prop
  | .run program arguments =>
    program = .mlClient ∧ ∀ f ∈ d.fields, Decides overrides arguments.options f.1 f.2
  | .read _ _ query => d.asks query
  | .connect _ | .startTools => True

/-- An operation keeps to a decision in all its calls.  If it runs anything it has the grounds for
the decision, and if it has a result it has published what it decided to. -/
structure Decision.Kept [Disk δ] (d : Decision κ) (overrides : Overrides)
    (s : Session (Logbook σ κ) κ δ) (r : Except ProvisionError α × Session (Logbook σ κ) κ δ) :
    Prop where
  calls : ∃ calls xs, r.2.calls = s.calls ++ calls ∧
    r.2.world.answered = s.world.answered ++ xs ∧ (∀ call ∈ calls, call.Keeps d overrides) ∧
    ((∃ program args, .run program args ∈ calls) → d.grounds xs)
  published : ∀ a, r.1 = .ok a → ∀ p ∈ d.publication, r.2.store.get? p.1 = some p.2

/-! ## The decisions of the steps -/

section

variable (scope : Scope)

/-- To make a version of an environment that is planned from the answer about its container. -/
def EnvironmentVersion.decision (name version : String) : Decision κ where
  fields := fields name version
  asks q := q = .container .environment name ∨ q = .environmentVersion name version
  publication := [("AZUREML_ENVIRONMENT_NAME", name)]
  grounds xs := ∃ client container,
    .read client scope (.container .environment name) container ∈ xs ∧
      Version.Planned container version

/-- To make a version of a model, whichever the program chooses. -/
def ModelVersion.decision (name : String) : Decision κ where
  fields := fields name
  asks q := q = .container .model name ∨ ∃ version, q = .modelVersion name version
  publication := [("AZUREML_MODEL_NAME", name)]
  grounds _ := True

/-- To make an endpoint that is not found. -/
def Endpoint.decision (name : String) : Decision κ where
  fields := fields name
  asks q := q = .endpoint name
  publication := [("AZUREML_ENDPOINT_NAME", name)]
  grounds _ := True

/-- To bind what two containers say to an endpoint. -/
def Deployment.decision (name endpoint environment model bound bound' : String) :
    Decision κ where
  fields := fields name endpoint bound bound'
  asks q := q = .container .environment environment ∨ q = .container .model model ∨
    q = .deployment endpoint name
  publication := [("AZUREML_ENDPOINT_NAME", endpoint), ("AZUREML_DEPLOYMENT_NAME", name)]
  grounds xs := ∃ client e m,
    .read client scope (.container .environment environment) (.ok e) ∈ xs ∧
      .read client scope (.container .model model) (.ok m) ∈ xs ∧
      bound = "azureml:" ++ e.nameOr environment ++ ":" ++ e.properties.latestVersion.getD "1" ∧
      bound' = "azureml:" ++ m.nameOr model ++ ":" ++ m.properties.latestVersion.getD "1"

end

/-! ## Courses that keep to a decision -/

namespace Course

/-- The calls of an operation keep to a decision, and there are grounds for it if there is a
run. -/
def Grounded (d : Decision κ) (overrides : Overrides) (xs : List (Exchange κ))
    (last? : Option (Call κ)) : Prop :=
  (∀ call ∈ traceCalls xs last?, call.Keeps d overrides) ∧
    ((∃ program args, .run program args ∈ traceCalls xs last?) → d.grounds xs)

variable {client : κ} {scope : Scope} {overrides : Overrides} {lookup : Template.Lookup}
  {d : Decision κ} {xs rest : List (Exchange κ)} {x : Exchange κ} {last? : Option (Call κ)}

/-- An operation that only asks needs no grounds. -/
theorem Grounded.of_reads (h : ∀ call ∈ traceCalls xs last?,
    ∃ client there q, call = .read client there q ∧ d.asks q) : Grounded d overrides xs last? := by
  refine ⟨fun call hmem => ?_, fun ⟨program, args, hmem⟩ => ?_⟩
  · obtain ⟨client, there, q, rfl, hq⟩ := h call hmem
    exact hq
  · obtain ⟨client, there, q, hcall, -⟩ := h _ hmem
    cases hcall

theorem Grounded.of_grounds (hkeeps : ∀ call ∈ traceCalls xs last?, call.Keeps d overrides)
    (hgrounds : d.grounds xs) : Grounded d overrides xs last? :=
  ⟨hkeeps, fun _ => hgrounds⟩

/-- An exchange that keeps to a decision, before others that do. -/
theorem forall_keeps_cons (hx : x.call.Keeps d overrides)
    (hrest : ∀ call ∈ traceCalls rest last?, call.Keeps d overrides) :
    ∀ call ∈ traceCalls (x :: rest) last?, call.Keeps d overrides :=
  List.forall_mem_cons.2 ⟨hx, hrest⟩

section

variable {p : Prepared} (h : overrides.arguments lookup = .ok p.overrides)
include h

/-- What the step of an environment does once it has the answer about the container. -/
theorem asks_environment_after :
    ((environment client scope p).after [x]).Asks
      (Call.Keeps (EnvironmentVersion.decision scope p.name x.proposed) overrides) := by
  intro ys stage hstage
  rcases call_of_environment hstage with ⟨⟨⟩, -⟩ | ⟨_, ⟨⟩, hcall⟩ | ⟨_, y, ⟨⟩, hcall⟩ <;>
    rw [hcall]
  · exact ⟨rfl, (EnvironmentVersion.orders scope h _).decides⟩
  · exact .inr rfl

theorem grounded_environment {record? : Option EnvironmentVersion}
    (htrace : (environment client scope p).Trace xs last? record?) :
    ∃ version, Grounded (EnvironmentVersion.decision scope p.name version) overrides xs last? := by
  rcases htrace.stage_cases rfl with hfew | ⟨x, rest, rfl, hcall, hnone, hrest⟩
  · refine ⟨"1", .of_reads fun call hmem => ?_⟩
    exact ⟨client, scope, _, List.mem_singleton.1 (hfew.subset hmem), .inl rfl⟩
  obtain ⟨container, rfl, hcontainer⟩ := exists_answer_of_read hcall hnone
  refine ⟨_, .of_grounds (forall_keeps_cons (.inl rfl)
    (hrest.forall_calls (asks_environment_after h))) ?_⟩
  have hplanned := Version.planned_of_answer client scope (hcontainer.imp_right And.right)
  exact ⟨client, container, List.mem_cons_self, hplanned⟩

theorem asks_model :
    (model client scope p).Asks (Call.Keeps (ModelVersion.decision p.name) overrides) := by
  intro xs stage hstage
  rcases call_of_model hstage with ⟨-, hcall⟩ | ⟨x, -, hcall⟩ | ⟨x, y, -, hcall⟩ <;> rw [hcall]
  · exact ⟨rfl, (ModelVersion.orders scope h).decides⟩
  · exact .inl rfl
  · exact .inr ⟨_, rfl⟩

theorem asks_endpoint :
    (endpoint client scope p).Asks (Call.Keeps (Endpoint.decision p.name) overrides) := by
  intro xs stage hstage
  rcases call_of_endpoint hstage with hcall | ⟨x, -, -, hcall⟩ <;> rw [hcall]
  · rfl
  · exact ⟨rfl, (Endpoint.orders scope h).decides⟩

end

section

variable {p : Deployment.Input} (h : overrides.arguments lookup = .ok p.overrides)
include h

/-- What the step of a deployment does once it has the answers about both containers. -/
theorem asks_deployment_after (e m : Exchange κ) :
    ((deployment client scope p).after [e, m]).Asks
      (Call.Keeps (Deployment.decision scope p.name p.endpoint p.environment p.model
        (e.latest p.environment).assetId (m.latest p.model).assetId) overrides) := by
  intro ys stage hstage
  rcases call_of_deployment hstage with
    ⟨⟨⟩, -⟩ | ⟨_, ⟨⟩, -⟩ | ⟨_, _, ⟨⟩, hcall⟩ | ⟨_, _, y, ⟨⟩, hcall⟩ <;> rw [hcall]
  · exact ⟨rfl, (Deployment.orders scope h _ _).decides⟩
  · exact .inr (.inr rfl)

theorem grounded_deployment {record? : Option Deployment}
    (htrace : (deployment client scope p).Trace xs last? record?) :
    ∃ bound : String × String, Grounded (Deployment.decision scope p.name p.endpoint
      p.environment p.model bound.1 bound.2) overrides xs last? := by
  rcases htrace.stage_cases rfl with hfew | ⟨x, rest, rfl, hcall, hnone, hrest⟩
  · refine ⟨("", ""), .of_reads fun call hmem => ?_⟩
    exact ⟨client, scope, _, List.mem_singleton.1 (hfew.subset hmem), .inl rfl⟩
  obtain ⟨answer, rfl, ⟨e, rfl⟩ | ⟨⟨⟩, -⟩⟩ := exists_answer_of_read hcall hnone
  rcases hrest.stage_cases rfl with hfew | ⟨y, rest, rfl, hcall, hnone, hrest⟩
  · refine ⟨("", ""), .of_reads (List.forall_mem_cons.2 ⟨?_, fun call hmem => ?_⟩)⟩
    · exact ⟨client, scope, _, rfl, .inl rfl⟩
    · exact ⟨client, scope, _, List.mem_singleton.1 (hfew.subset hmem), .inr (.inl rfl)⟩
  obtain ⟨answer, rfl, ⟨m, rfl⟩ | ⟨⟨⟩, -⟩⟩ := exists_answer_of_read hcall hnone
  refine ⟨(_, _), .of_grounds (forall_keeps_cons (.inl rfl) (forall_keeps_cons (.inr (.inl rfl))
    (hrest.forall_calls (asks_deployment_after h _ _)))) ?_⟩
  exact ⟨client, e, m, List.mem_cons_self, List.mem_cons_of_mem _ List.mem_cons_self, rfl, rfl⟩

end

end Course

/-! ## All operations -/

theorem Course.Grounded.nil {d : Decision κ} {overrides : Overrides} :
    Grounded d overrides [] none :=
  .of_reads fun _ hmem => absurd hmem List.not_mem_nil

variable [Disk δ]

/-- An operation whose inputs are refused does nothing, and any other keeps to the decision to
which its course leads. -/
theorem Request.refused_or_kept {ι : Type} [Nonempty ι] (w : World σ κ)
    (s : Session (Logbook σ κ) κ δ) (q : Request) (overrides : Overrides)
    (decision : q.Input → ι → Decision κ)
    (hpublication : ∀ i, q.publication? = fun p => some (decision p i).publication)
    (hkeys : ∀ p i, ((decision p i).publication.map Prod.fst).Nodup)
    (hgrounded : ∀ p client xs last? a?, q.fill s.store s.disk = .ok p →
      (q.course p client).Trace xs last? a? →
      ∃ i, Course.Grounded (decision p i) overrides xs last?) :
    (∃ e, (q.op w.logged).run.run s = (.error e, s)) ∨
      ∃ p i, q.fill s.store s.disk = .ok p ∧
        (decision p i).Kept overrides s ((q.op w.logged).run.run s) := by
  rcases (q.follows w.logged s).refused_or_good with ⟨e, -, hr⟩ | ⟨p, hfill, hfollows⟩
  · exact .inl ⟨e, hr⟩
  obtain ⟨opening, xs, last?, htraced⟩ := hfollows.traced
  obtain ⟨i, hkeeps, hgrounds⟩ : ∃ i, Course.Grounded (decision p i) overrides xs last? := by
    have htrace := htraced.trace
    generalize ((q.op w.logged).run.run s).1.toOption = a? at htrace
    cases htrace with
    | unopened => exact ⟨Classical.choice inferInstance, .nil⟩
    | opened htrace => exact hgrounded p _ _ _ _ hfill htrace
  rw [hpublication i] at hfollows
  refine .inr ⟨p, i, hfill, ?calls, ?published⟩
  case calls =>
    refine ⟨_, xs, htraced.calls, htraced.answered, fun call hmem => ?_,
      fun ⟨program, args, hmem⟩ => hgrounds ⟨program, args, ?_⟩⟩
    · rcases List.mem_append.1 hmem with hmem | hmem
      · rcases eq_of_mem_opening htraced.opens hmem with rfl | rfl <;> trivial
      · exact hkeeps call hmem
    · rcases List.mem_append.1 hmem with hmem | hmem
      · rcases eq_of_mem_opening htraced.opens hmem with hcall | hcall <;> cases hcall
      · exact hmem
  case published =>
    intro a ha pair hpair
    exact Store.get?_of_mem (hfollows.stores.ok a ha) (hkeys p i) hpair

/-- However an operation that runs the ML client ends, it keeps to what its step has decided.
Each vector that it gives to the client sets the fields of the step first, to the values that it
then confirms and publishes.  Only an override whose key stands for such a field sets it again,
once for each such override. -/
theorem operations_keep_decisions (w : World σ κ) (s : Session (Logbook σ κ) κ δ) (scope : Scope)
    (service : String) :
    (∀ c, let r := (Op.createEnvironmentVersion w.logged scope service c).run.run s
      (∃ e, r = (.error e, s)) ∨
        ∃ name version, c.name.resolve s.store.lookup = .ok name ∧
          (EnvironmentVersion.decision scope name version).Kept c.overrides s r) ∧
    (∀ c, let r := (Op.createModelVersion w.logged scope service c).run.run s
      (∃ e, r = (.error e, s)) ∨
        ∃ name, c.name.resolve s.store.lookup = .ok name ∧
          (ModelVersion.decision name).Kept c.overrides s r) ∧
    (∀ c, let r := (Op.createEndpoint w.logged scope service c).run.run s
      (∃ e, r = (.error e, s)) ∨
        ∃ name, c.name.resolve s.store.lookup = .ok name ∧
          (Endpoint.decision name).Kept c.overrides s r) ∧
    ∀ parent d now, let r := (Op.deploy w.logged scope service parent d now).run.run s
      (∃ e, r = (.error e, s)) ∨
        ∃ environment model bound bound',
          d.environment.name.resolve s.store.lookup = .ok environment ∧
          d.model.name.resolve s.store.lookup = .ok model ∧
          (Deployment.decision scope ("fleetml-" ++ toString now) parent environment model bound
            bound').Kept d.deployment.overrides s r := by
  refine ⟨?environment, ?model, ?endpoint, ?deployment⟩
  case environment =>
    intro c
    rcases Request.refused_or_kept w s (.environment scope service c) c.overrides
        (fun p version => EnvironmentVersion.decision scope p.name version) (fun _ => rfl)
        (fun _ _ => List.pairwise_singleton _ _)
        (fun _ _ _ _ _ hfill htrace => Course.grounded_environment
          (Prepared.filledIn_of_definitionFirst hfill).overrides htrace)
      with hrefused | ⟨p, version, hfill, hkept⟩
    · exact .inl hrefused
    · exact .inr ⟨p.name, version, (Prepared.filledIn_of_definitionFirst hfill).name, hkept⟩
  case model =>
    intro c
    rcases Request.refused_or_kept w s (.model scope service c) c.overrides
        (fun p (_ : Unit) => ModelVersion.decision p.name) (fun _ => rfl)
        (fun _ _ => List.pairwise_singleton _ _)
        (fun _ _ _ _ _ hfill htrace => ⟨(), .of_grounds (htrace.forall_calls
          (Course.asks_model (Prepared.filledIn_of_definitionFirst hfill).overrides)) trivial⟩)
      with hrefused | ⟨p, -, hfill, hkept⟩
    · exact .inl hrefused
    · exact .inr ⟨p.name, (Prepared.filledIn_of_definitionFirst hfill).name, hkept⟩
  case endpoint =>
    intro c
    rcases Request.refused_or_kept w s (.endpoint scope service c) c.overrides
        (fun p (_ : Unit) => Endpoint.decision p.name) (fun _ => rfl)
        (fun _ _ => List.pairwise_singleton _ _)
        (fun _ _ _ _ _ hfill htrace => ⟨(), .of_grounds (htrace.forall_calls
          (Course.asks_endpoint (Prepared.filledIn_of_nameFirst hfill).overrides)) trivial⟩)
      with hrefused | ⟨p, -, hfill, hkept⟩
    · exact .inl hrefused
    · exact .inr ⟨p.name, (Prepared.filledIn_of_nameFirst hfill).name, hkept⟩
  case deployment =>
    intro parent d now
    have hkeys : ["AZUREML_ENDPOINT_NAME", "AZUREML_DEPLOYMENT_NAME"].Nodup := by decide
    rcases Request.refused_or_kept w s (.deployment scope service parent d now)
        d.deployment.overrides
        (fun p (bound : String × String) => Deployment.decision scope p.name p.endpoint
          p.environment p.model bound.1 bound.2) (fun _ => rfl)
        (fun _ _ => hkeys)
        (fun _ _ _ _ _ hfill htrace => Course.grounded_deployment
          (Deployment.filledIn_of_prepare hfill).overrides htrace)
      with hrefused | ⟨p, ⟨bound, bound'⟩, hfill, hkept⟩
    · exact .inl hrefused
    · have hp := Deployment.filledIn_of_prepare hfill
      rw [hp.name, hp.endpoint] at hkept
      exact .inr ⟨p.environment, p.model, bound, bound', hp.environment, hp.model, hkept⟩

/-- A component with an override of its own name. -/
def renamedThing : Component :=
  { Course.thing with overrides := .ofList [("name", ⟨"other"⟩)] }

theorem operations_keep_decisions_fullWorld :
    let scope : Scope := ⟨"sub", "rg", "ws"⟩
    let s : Session (Logbook Unit Unit) Unit FileTree :=
      { Course.connectedSession with world := ⟨(), []⟩, client? := none }
    let r := (Op.createEnvironmentVersion fullWorld.logged scope "svc" renamedThing).run.run s
    ∃ name version, renamedThing.name.resolve s.store.lookup = .ok name ∧
      (EnvironmentVersion.decision scope name version).Kept renamedThing.overrides s r := by
  intro scope s r
  obtain ⟨record, s', hr⟩ := exists_ok_of_isSome (r := r) (by decide +kernel)
  rcases (operations_keep_decisions fullWorld s scope "svc").1 renamedThing with ⟨e, he⟩ | hkept
  · cases hr.symm.trans he
  · exact hkept

/-- An override may contradict the name that is published. -/
theorem not_forall_settings :
    ¬ ∀ (c : Component) (record : EnvironmentVersion) (s' : Session Unit Unit FileTree),
      (Op.createEnvironmentVersion fullWorld ⟨"sub", "rg", "ws"⟩ "svc" c).run.run
        Course.connectedSession = (.ok record, s') →
      ∀ run ∈ programsRun s'.calls,
        some (Options.settings "name" run.2.options) =
          (s'.store.get? "AZUREML_ENVIRONMENT_NAME").map ([·]) := by
  intro h
  obtain ⟨record, s', hrun⟩ := exists_ok_of_isSome
    (r := (Op.createEnvironmentVersion fullWorld ⟨"sub", "rg", "ws"⟩ "svc" renamedThing).run.run
      Course.connectedSession) (by decide +kernel)
  have hs : s' = ((Op.createEnvironmentVersion fullWorld ⟨"sub", "rg", "ws"⟩ "svc"
      renamedThing).run.run Course.connectedSession).2 := congrArg Prod.snd hrun.symm
  have hall := h renamedThing record s' hrun
  rw [hs] at hall
  revert hall
  decide +kernel

end Provisioner
