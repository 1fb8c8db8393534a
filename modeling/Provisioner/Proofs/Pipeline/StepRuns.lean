import Provisioner.Proofs.Operation.Effects
import Provisioner.Proofs.Pipeline.Attempts

/-!
# The steps of a run, one by one

A run can be looked at step by step: what each step found, and what it left behind.

* `StepRun` is a step that a run has begun, with the sessions before and after it.
  `Plan.stepRuns` are those of several kinds in turn, and `stepRunsFor` those of the command
  that provisions a service.
* `Leads` says how steps follow each other: each attempts its kind in the session that the one
  before has left, and none follows a failure.
* `comesTo_provision`: the steps of a run lead from the session that was opened to the outcome
  of the run.
* `Outcome.GoesThrough` says of a run that its calls are those of its steps, and
  `goesThrough_stepRunsFor` that they are.
-/

namespace Provisioner

/-- After one exchange nothing more is asked for about a workspace. -/
theorem Course.workspace_ne_call {κ : Type} {client : κ} {scope : Scope} {x : Exchange κ}
    {stage : Stage κ} : workspace client scope [x] ≠ .call stage := by
  intro h
  unfold workspace at h
  split at h
  · next hnil => cases hnil
  · dsimp only at h
    split at h <;> cases h
  · cases h

namespace Cli

open Store

variable {σ κ δ α β : Type}

/-! ## Steps with their sessions -/

/-- A step that a run has begun: the endpoint that was made before it, the sessions before and
after it, and why it failed, if it did. -/
structure StepRun (σ κ δ : Type) where
  kind : Kind
  made? : Option String
  before : Session σ κ δ
  after : Session σ κ δ
  failure? : Option Failure

namespace StepRun

/-- Whether a step was completed. -/
def completed (x : StepRun σ κ δ) : Bool := x.failure?.isNone

/-- A step that failed because the store did not take what it publishes. -/
def WriteFailed (x : StepRun σ κ δ) : Prop :=
  ∃ e, x.failure? = some (.operation (.store e))

/-- The calls that were made in a step. -/
def calls (x : StepRun σ κ δ) : List (Call κ) :=
  x.after.calls.drop x.before.calls.length

theorem calls_eq {x : StepRun σ κ δ} {calls : List (Call κ)}
    (h : x.after.calls = x.before.calls ++ calls) : x.calls = calls := by
  rw [StepRun.calls, h, List.drop_left]

end StepRun

section

variable [Disk δ] (w : World σ κ) (st : Setting)

/-- The steps that a plan begins for several kinds. -/
def Plan.stepRuns (scope : Scope) (p : Plan) :
    List Kind → Option String → Transcript × Session σ κ δ → List (StepRun σ κ δ)
  | [], _, _ => []
  | kind :: rest, made?, ts =>
    match (provisionKind w st scope p made? kind).run.run ts with
    | (.ok made?', ts') => ⟨kind, made?, ts.2, ts'.2, none⟩ :: stepRuns scope p rest made?' ts'
    | (.error e, ts') => [⟨kind, made?, ts.2, ts'.2, some e⟩]

/-- The steps that the command begins that provisions a service. -/
def stepRunsFor (options : Options) (service : String) (only : List Kind) (s : σ) (d : δ) :
    List (StepRun σ κ δ) :=
  match Plan.make st service only d with
  | .error _ => []
  | .ok p =>
    match openSession st options p.root d with
    | .error _ => []
    | .ok (store, base) =>
      match (p.check w st base).run.run (default, ⟨s, d, store, none, []⟩) with
      | (.error _, _) => []
      | (.ok scope, ts) => p.stepRuns w st scope p.kinds none ts

/-- Steps in turn that take one session to another. -/
inductive Leads (scope : Scope) (name directory : String) (r : Resources) :
    Session σ κ δ → List (StepRun σ κ δ) → Session σ κ δ → Prop
  | nil {s : Session σ κ δ} : Leads scope name directory r s [] s
  | failed {x : StepRun σ κ δ} {e : Failure} : x.failure? = some e →
    Attempt w st scope name directory r x.made? x.before x.kind x.failure? x.after →
    Leads scope name directory r x.before [x] x.after
  | next {x : StepRun σ κ δ} {rest : List (StepRun σ κ δ)} {s : Session σ κ δ} :
    x.failure? = none →
    Attempt w st scope name directory r x.made? x.before x.kind x.failure? x.after →
    Leads scope name directory r x.after rest s →
    Leads scope name directory r x.before (x :: rest) s

end

/-! ## The calls of steps -/

section

variable [Disk δ] {w : World σ κ} {st : Setting} {scope : Scope} {name directory : String}
  {r : Resources} {s s' : Session σ κ δ} {steps : List (StepRun σ κ δ)}

/-- An operation adds its calls to those that were made before. -/
theorem isPrefix_calls_of_onceFilled {kind : Kind} {named : β → String}
    {filled : Except ProvisionError β} {course : β → κ → Course κ α}
    {publication? : β → Option (List (String × String))}
    {result : Except ProvisionError α × Session σ κ δ}
    (h : OnceFilled filled s (fun p =>
      Follows w kind (named p) scope (course p) (publication? p) s) result) :
    s.calls <+: result.2.calls := by
  rcases h.refused_or_good with ⟨e, -, rfl⟩ | ⟨p, -, hfollows⟩
  · exact List.prefix_rfl
  · obtain ⟨opening, calls, hcalls, -⟩ := hfollows.calls
    rw [hcalls, List.append_assoc]
    exact List.prefix_append _ _

/-- A step adds its calls to those that were made before. -/
theorem Attempt.isPrefix_calls {made? : Option String} {kind : Kind} {failure? : Option Failure}
    (h : Attempt w st scope name directory r made? s kind failure? s') : s.calls <+: s'.calls := by
  cases h with
  | @environment c _ _ _ hop =>
    have hfollows := follows_createEnvironmentVersion w scope s directory c
    rw [hop] at hfollows
    exact isPrefix_calls_of_onceFilled hfollows
  | @model c _ _ _ hop =>
    have hfollows := follows_createModelVersion w scope s directory c
    rw [hop] at hfollows
    exact isPrefix_calls_of_onceFilled hfollows
  | @endpoint c _ _ _ hop =>
    have hfollows := follows_createEndpoint w scope s directory c
    rw [hop] at hfollows
    exact isPrefix_calls_of_onceFilled hfollows
  | @deployment d endpoint _ _ _ _ hop =>
    have hfollows := follows_deploy w scope s directory endpoint d (st.clock .deployment)
    rw [hop] at hfollows
    exact isPrefix_calls_of_onceFilled hfollows
  | noEndpoint => exact List.prefix_rfl
  | @flow c _ _ _ hop =>
    have hfollows := follows_createFlow w scope s directory c (st.clock .flow)
    rw [hop] at hfollows
    exact isPrefix_calls_of_onceFilled hfollows

/-- Steps in turn make their calls in turn. -/
theorem Leads.calls_eq (h : Leads w st scope name directory r s steps s') :
    s'.calls = s.calls ++ steps.flatMap StepRun.calls := by
  induction h with
  | nil => exact (List.append_nil _).symm
  | failed _ hattempt =>
    rw [List.flatMap_singleton]
    exact (List.prefix_iff_eq_append.1 hattempt.isPrefix_calls).symm
  | next _ hattempt _ ih =>
    rw [List.flatMap_cons, ← List.append_assoc, ih]
    exact congrArg (· ++ _) (List.prefix_iff_eq_append.1 hattempt.isPrefix_calls).symm

theorem Leads.eq_of_nil (h : Leads w st scope name directory r s [] s') : s' = s := by
  cases h
  rfl

/-- Steps in turn leave the disk that the last of them has left. -/
theorem Leads.disk_eq (h : Leads w st scope name directory r s steps s') :
    ∀ x ∈ steps.getLast?, s'.disk = x.after.disk := by
  induction h with
  | nil => exact fun _ hx => nomatch hx
  | failed =>
    intro x hx
    rw [List.getLast?_singleton] at hx
    obtain rfl := Option.some.inj hx
    rfl
  | @next y rest s' _ _ hrest ih =>
    intro x hx
    cases rest with
    | nil =>
      rw [List.getLast?_singleton] at hx
      obtain rfl := Option.some.inj hx
      rw [hrest.eq_of_nil]
    | cons z rest =>
      rw [List.getLast?_cons_cons] at hx
      exact ih x hx

end

namespace Plan

variable [Disk δ] {w : World σ κ} {st : Setting} {scope : Scope} {p : Plan}

/-- The steps of a plan lead to the outcome of the plan. -/
theorem leads_stepRuns (hspec : p.resources.deploymentSpec p.service = .ok p.deployment?)
    {kinds : List Kind} (hkinds : ∀ kind ∈ kinds, (p.resources.component? kind).isSome)
    (made? : Option String) (ts : Transcript × Session σ κ δ) :
    ∃ s, Leads w st scope p.service p.directory p.resources ts.2
        (p.stepRuns w st scope kinds made? ts) s ∧
      (p.finish w st scope kinds made? ts).outcome.disk = s.disk ∧
      (p.finish w st scope kinds made? ts).outcome.calls = s.calls := by
  induction kinds generalizing made? ts with
  | nil => exact ⟨ts.2, .nil, rfl, rfl⟩
  | cons kind rest ih =>
    obtain ⟨failure?, t', s', hattempt, hrun⟩ := exists_attempt w st scope hspec
      (hkinds kind List.mem_cons_self) made? ts.1 ts.2
    cases failure? with
    | some e =>
      rw [finish_cons_of_error hrun, stepRuns, hrun]
      exact ⟨s', .failed (x := ⟨kind, made?, ts.2, s', some e⟩) rfl hattempt, rfl, rfl⟩
    | none =>
      obtain ⟨s, hleads, hdisk, hcalls⟩ :=
        ih (fun k hk => hkinds k (List.mem_cons_of_mem _ hk)) (madeAfter made? s' kind) (t', s')
      rw [finish_cons_of_ok hrun, stepRuns, hrun]
      exact ⟨s, .next (x := ⟨kind, made?, ts.2, s', none⟩) rfl hattempt hleads, hdisk, hcalls⟩

/-- A plan begins its kinds in order. -/
theorem isPrefix_stepRuns (kinds : List Kind) (made? : Option String)
    (ts : Transcript × Session σ κ δ) :
    (p.stepRuns w st scope kinds made? ts).map StepRun.kind <+: kinds := by
  induction kinds generalizing made? ts with
  | nil => exact List.prefix_rfl
  | cons kind rest ih =>
    rcases hrun : (provisionKind w st scope p made? kind).run.run ts with ⟨answer, ts'⟩
    rw [stepRuns, hrun]
    cases answer with
    | ok made?' => exact (List.prefix_cons_inj kind).2 (ih made?' ts')
    | error e => exact ⟨rest, rfl⟩

end Plan

/-! ## The steps of the command -/

section

variable [Disk δ]

/-- How a plan comes to its steps, if it does: it opens the store of the project, and checks
the workspace.  Nothing is stored before the first step, and nothing is asked about a resource. -/
inductive ComesTo (w : World σ κ) (st : Setting) (options : Options) (p : Plan) (d : δ) :
    List (StepRun σ κ δ) → Outcome σ κ δ → Prop
  | nowhere {o : Outcome σ κ δ} : o.disk = d → resourceCalls o.calls = [] →
    ComesTo w st options p d [] o
  | steps {o : Outcome σ κ δ} {first : DotenvFile} {scope : Scope} {s s' : Session σ κ δ}
    {steps : List (StepRun σ κ δ)} :
    DotenvFile.openIn st.environment p.root options.environment d = .ok first →
    s.store = .dotenv first → s.disk = d →
    Leads w st scope p.service p.directory p.resources s steps s' →
    steps.map StepRun.kind <+: p.kinds → o.disk = s'.disk → o.calls = s'.calls →
    resourceCalls s.calls = [] → ComesTo w st options p d steps o

variable {w : World σ κ} {st : Setting} {options : Options} {name : String} {only : List Kind}
  {s : σ} {d : δ} {e : Failure} {p : Plan} {store : Store} {base scope : Scope}
  {ts : Transcript × Session σ κ δ}

theorem stepRunsFor_of_make_error (h : Plan.make st name only d = .error e) :
    stepRunsFor w st options name only s d = [] := by
  simp only [stepRunsFor, h]

theorem stepRunsFor_of_openSession_error (h : Plan.make st name only d = .ok p)
    (hopen : openSession st options p.root d = .error e) :
    stepRunsFor w st options name only s d = [] := by
  simp only [stepRunsFor, h, hopen]

theorem stepRunsFor_of_check_error (h : Plan.make st name only d = .ok p)
    (hopen : openSession st options p.root d = .ok (store, base))
    (hcheck : (p.check w st base).run.run (default, ⟨s, d, store, none, []⟩) = (.error e, ts)) :
    stepRunsFor w st options name only s d = [] := by
  simp only [stepRunsFor, h, hopen, hcheck]

theorem stepRunsFor_of_check_ok (h : Plan.make st name only d = .ok p)
    (hopen : openSession st options p.root d = .ok (store, base))
    (hcheck : (p.check w st base).run.run (default, ⟨s, d, store, none, []⟩) = (.ok scope, ts)) :
    stepRunsFor w st options name only s d = p.stepRuns w st scope p.kinds none ts := by
  simp only [stepRunsFor, h, hopen, hcheck]

/-- Without kinds there are no steps. -/
theorem stepRunsFor_of_nil (h : Plan.make st name only d = .ok p) (hkinds : p.kinds = []) :
    stepRunsFor w st options name only s d = [] := by
  cases hopen : openSession st options p.root d with
  | error e => exact stepRunsFor_of_openSession_error h hopen
  | ok opened =>
    obtain ⟨store, base⟩ := opened
    rcases hcheck : (p.check w st base).run.run (default, ⟨s, d, store, none, []⟩) with ⟨answer, ts⟩
    cases answer with
    | error e => exact stepRunsFor_of_check_error h hopen hcheck
    | ok scope =>
      rw [stepRunsFor_of_check_ok h hopen hcheck, hkinds]
      rfl

/-- To check the workspace is to ask about no resource. -/
theorem resourceCalls_of_follows_workspace {s : Session σ κ δ}
    {r : Except ProvisionError Workspace × Session σ κ δ}
    (h : Follows w .workspace scope.workspace scope (Course.workspace · scope) none s r) :
    resourceCalls r.2.calls = resourceCalls s.calls := by
  obtain ⟨opening, calls, hcalls, hopening, hmade⟩ := h.calls
  have hnone : resourceCalls calls = [] := by
    generalize r.1.toOption = record? at hmade
    cases hmade with
    | unopened => rfl
    | opened hmade =>
      rcases hmade.stage_cases rfl with ⟨rfl, -⟩ | ⟨rfl, -⟩ | ⟨x, rest, rfl, -, hrest⟩
      · rfl
      · rfl
      · obtain rfl := hrest.eq_nil fun _ => Course.workspace_ne_call
        rfl
  have hopened : resourceCalls (opening ++ calls) = [] :=
    (filterMap_append_of_opening hopening rfl calls).trans hnone
  rw [hcalls, List.append_assoc, resourceCalls_append, hopened, List.append_nil]

/-- Checking the workspace leaves the store and the disk alone, and asks about no resource. -/
theorem frame_check {s : Session σ κ δ} {answer : Except Failure Scope}
    (h : (p.check w st base).run.run (default, s) = (answer, ts)) :
    ts.2.store = s.store ∧ ts.2.disk = s.disk ∧
      resourceCalls ts.2.calls = resourceCalls s.calls := by
  cases hscope : Scope.resolve s.store base p.resources.workspace? with
  | error e =>
    have hfailed : ∃ t', (p.check w st base).run.run (default, s) =
        (.error (.operation e), t', s) := Plan.exists_run_check_of_error hscope default
    obtain ⟨t', hrun⟩ := hfailed
    cases h.symm.trans hrun
    exact ⟨rfl, rfl, rfl⟩
  | ok scope =>
    rcases hensure : (Op.ensureWorkspace w scope).run.run s with ⟨checked, s'⟩
    obtain ⟨t', hrun⟩ := p.exists_run_check st default hscope hensure
    cases h.symm.trans hrun
    have hfollows := Course.follows_ensureWorkspace scope w s
    rw [hensure] at hfollows
    obtain ⟨hstore, hdisk⟩ := hfollows.frame_of_none
    exact ⟨hstore, hdisk, resourceCalls_of_follows_workspace hfollows⟩

/-- The steps of a plan lead from the session that it opens to its outcome. -/
theorem Plan.comesTo_run (hmake : Plan.make st name only d = .ok p)
    (hspec : p.resources.deploymentSpec p.service = .ok p.deployment?)
    (hkinds : ∀ kind ∈ p.kinds, (p.resources.component? kind).isSome) (w : World σ κ)
    (options : Options) (s : σ) :
    ComesTo w st options p d (stepRunsFor w st options name only s d)
      (p.run w st options s d).outcome := by
  cases hopen : openSession st options p.root d with
  | error e =>
    rw [stepRunsFor_of_openSession_error hmake hopen, run_of_openSession_error hopen]
    exact .nowhere rfl rfl
  | ok opened =>
  obtain ⟨store, base⟩ := opened
  obtain ⟨first, rfl, hfirst, -⟩ := exists_of_openSession hopen
  rcases hcheck : (p.check w st base).run.run (default, ⟨s, d, .dotenv first, none, []⟩)
    with ⟨answer, ts⟩
  obtain ⟨hstore, hdisk, hnone⟩ := frame_check hcheck
  cases answer with
  | error e =>
    rw [stepRunsFor_of_check_error hmake hopen hcheck, run_of_check_error hopen hcheck]
    exact .nowhere hdisk hnone
  | ok scope =>
    obtain ⟨s', hleads, hdisk', hcalls⟩ := p.leads_stepRuns hspec hkinds none ts
    rw [stepRunsFor_of_check_ok hmake hopen hcheck, run_of_check_ok hopen hcheck]
    exact .steps hfirst hstore hdisk hleads (p.isPrefix_stepRuns p.kinds none ts) hdisk' hcalls
      hnone

/-- A run that provisions a service either has no steps, calls nobody and leaves the disk alone, or
comes to the steps of the service's plan. -/
theorem comesTo_provision {project : Project}
    (hproject : Project.discover st.environment d = .ok project) (w : World σ κ)
    (options : Options) (name : String) (only : List Kind) (s : σ) :
    let outcome := Invocation.run (.ok w) st ⟨options, .provision name only⟩ s d
    (stepRunsFor w st options name only s d = [] ∧ outcome.disk = d ∧ outcome.calls = []) ∨
      ∃ service deployment?, st.service project name = .ok service ∧
        ComesTo w st options
          (planFor project name service deployment? (selected service.resources only)) d
          (stepRunsFor w st options name only s d) outcome := by
  intro outcome
  cases hservice : st.service project name with
  | error e =>
    have hmake := make_of_unknown st hproject hservice only
    have hends : outcome.EndsIn 1 s d [] := endsIn_of_make_error hmake _
    exact .inl ⟨stepRunsFor_of_make_error hmake, hends.disk, hends.calls⟩
  | ok service =>
  cases hspec : service.resources.deploymentSpec name with
  | error e =>
    have hmake := make_of_incomplete st hproject hservice hspec only
    have hends : outcome.EndsIn 1 s d [] := endsIn_of_make_error hmake _
    exact .inl ⟨stepRunsFor_of_make_error hmake, hends.disk, hends.calls⟩
  | ok deployment? =>
  have hmake := make_of_deploymentSpec st hproject hservice hspec only
  rw [select_kinds] at hmake
  by_cases hkinds : selected service.resources only = []
  · have hends : outcome.EndsIn 0 s d [] := endsIn_of_kinds_nil hmake hkinds _
    exact .inl ⟨stepRunsFor_of_nil hmake hkinds, hends.disk, hends.calls⟩
  · have hrun : outcome = _ := congrArg Run.outcome (runFor_of_ne_nil hmake hkinds)
    rw [hrun]
    refine .inr ⟨service, deployment?, rfl, ?_⟩
    exact Plan.comesTo_run hmake hspec (fun _ => isSome_of_mem_selected) w options s

/-- A run that goes through steps: it makes their calls, after those with which it checks the
workspace, and leaves the disk that the last of them has left. -/
structure Outcome.GoesThrough (o : Outcome σ κ δ) (steps : List (StepRun σ κ δ)) : Prop where
  calls : ∃ opening, resourceCalls opening = [] ∧ o.calls = opening ++ steps.flatMap StepRun.calls
  disk : ∀ x ∈ steps.getLast?, o.disk = x.after.disk

/-- The command that provisions a service goes through its steps. -/
theorem goesThrough_stepRunsFor {project : Project}
    (hproject : Project.discover st.environment d = .ok project) (w : World σ κ)
    (options : Options) (name : String) (only : List Kind) (s : σ) :
    (Invocation.run (.ok w) st ⟨options, .provision name only⟩ s d).GoesThrough
      (stepRunsFor w st options name only s d) := by
  rcases comesTo_provision hproject w options name only s with ⟨hnil, -, hcalls⟩ | hcomes
  · rw [hnil]
    exact ⟨⟨[], rfl, hcalls⟩, fun _ hx => nomatch hx⟩
  obtain ⟨service, deployment?, -, hcomes⟩ := hcomes
  generalize stepRunsFor w st options name only s d = steps at hcomes ⊢
  generalize Invocation.run (.ok w) st ⟨options, .provision name only⟩ s d = o at hcomes ⊢
  cases hcomes with
  | nowhere _ hnone => exact ⟨⟨o.calls, hnone, (List.append_nil _).symm⟩, fun _ hx => nomatch hx⟩
  | steps _ _ _ hleads _ hdisk hcalls hnone =>
    refine ⟨⟨_, hnone, hcalls.trans hleads.calls_eq⟩, fun x hx => ?_⟩
    exact hdisk.trans (hleads.disk_eq x hx)

end

end Cli

end Provisioner
