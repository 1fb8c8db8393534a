import Mathlib.Data.List.Nodup
import Provisioner.Cli
import Provisioner.Proofs.Basic

/-!
# Runs of the pipeline

What a run that provisions a service consists of: it finds the service, opens a session,
checks the workspace, and begins one step after the other.

* `Plan.check` comes before the steps, `Plan.finish` are the steps with what is printed
  after them, and `Plan.run` is the whole.
* `Plan.inOrder` is a plan with its overrides in the order of a process, and `Plan.run_order` says
  that nothing else in a run depends on this order.
* `planFor` is the plan that `Plan.make` comes to.
* `runFor` is the run of the command.  A `Run` also says which steps were begun and which
  failure ended the run; `reports_runFor` says that it is the failure that is reported.
-/

namespace Provisioner

/-! ## Resources in the order of a process -/

/-- A deployment with all overrides in the order of a process. -/
def DeploymentSpec.inOrder (order : Kind → Overrides.Order) (d : DeploymentSpec) :
    DeploymentSpec where
  workspace? := d.workspace?
  environment := d.environment.inOrder (order .environment)
  model := d.model.inOrder (order .model)
  deployment := d.deployment.inOrder (order .deployment)

namespace Resources

variable (order : Kind → Overrides.Order) (r : Resources)

theorem component?_inOrder (kind : Kind) :
    (r.inOrder order).component? kind = (r.component? kind).map (·.inOrder (order kind)) := by
  cases kind <;> rfl

theorem kinds_inOrder : (r.inOrder order).kinds = r.kinds := by
  refine List.filter_congr fun k _ => ?_
  rw [component?_inOrder, Option.isSome_map]

theorem deploymentSpec_inOrder (name : String) : (r.inOrder order).deploymentSpec name =
    (r.deploymentSpec name).map (Option.map (·.inOrder order)) := by
  obtain ⟨workspace?, environment?, model?, endpoint?, deployment?, flow?⟩ := r
  cases deployment? <;> cases environment? <;> cases model? <;> rfl

end Resources

namespace Cli

/-! ## Runs -/

/-- A run: how it ended, which steps it began, and why it failed. -/
structure Run (σ κ δ : Type) where
  outcome : Outcome σ κ δ
  steps : List Kind
  failure? : Option Failure

/-- A run reports why it failed: last on the errors, and with its exit code. -/
structure Run.Reports {σ κ δ : Type} (r : Run σ κ δ) : Prop where
  exitCode : r.outcome.exitCode = if r.failure?.isSome then 1 else 0
  errors : ∀ e ∈ r.failure?, r.outcome.transcript.errors.getLast? = some e.render

variable {σ κ δ : Type}

theorem Run.reports_early (e : Failure) (s : σ) (d : δ) :
    (⟨.failure e s d, [], some e⟩ : Run σ κ δ).Reports :=
  ⟨rfl, fun _ he => congrArg (fun e : Failure => some e.render) (Option.some.inj he)⟩

theorem Run.reports_failure (t : Transcript) (s : Session σ κ δ) (steps : List Kind)
    (e : Failure) : (⟨.ofJob (.error e, t, s), steps, some e⟩ : Run σ κ δ).Reports := by
  refine ⟨rfl, fun e' he => ?_⟩
  obtain rfl : e = e' := Option.some.inj he
  exact List.getLast?_concat

namespace Plan

variable [Disk δ] (w : World σ κ) (st : Setting) (scope : Scope) (p : Plan)

/-- What a run does before its steps: it checks the workspace. -/
def check (base : Scope) : Job σ κ δ Scope := do
  let scope ← Job.orExplain st (Scope.resolve (← Job.store) base p.resources.workspace?)
  Job.print ("🚀 Provisioning service: " ++ st.paint .cyan p.service)
  Job.print ("   Workspace: " ++ st.paint .dimmed scope.display)
  Job.print ""
  discard <| Job.perform st (Op.ensureWorkspace w scope)
  printDone st ("workspace " ++ scope.workspace)
  return scope

/-- What a run prints after its steps. -/
def printComplete : Job σ κ δ Unit := do
  Job.print ""
  Job.print (st.paint .boldGreen "✓ Provisioning complete")

theorem provision_eq (base : Scope) :
    (p.provision w st base : Job σ κ δ Unit) = (do
      let scope ← p.check w st base
      provisionKinds w st scope p p.kinds none
      printComplete st) := by
  simp only [provision, check, printComplete, bind_assoc, pure_bind]

/-- The steps that are begun for several kinds, and the failure of the last one. -/
def begun : List Kind → Option String → Transcript × Session σ κ δ → List Kind × Option Failure
  | [], _, _ => ([], none)
  | kind :: rest, made?, ts =>
    match (provisionKind w st scope p made? kind).run.run ts with
    | (.ok made?, ts) => (kind :: (begun rest made? ts).1, (begun rest made? ts).2)
    | (.error e, _) => ([kind], some e)

/-- A run from its steps on. -/
def finish (kinds : List Kind) (made? : Option String) (ts : Transcript × Session σ κ δ) :
    Run σ κ δ where
  outcome := .ofJob
    ((do provisionKinds w st scope p kinds made?; printComplete st : Job σ κ δ Unit).run.run ts)
  steps := (begun w st scope p kinds made? ts).1
  failure? := (begun w st scope p kinds made? ts).2

variable {w st scope p} {kind : Kind} {rest : List Kind} {made? made?' : Option String}
  {ts ts' : Transcript × Session σ κ δ}

theorem finish_nil : finish w st scope p [] made? ts =
    ⟨⟨0, ⟨ts.1.output ++ [""] ++ [st.paint .boldGreen "✓ Provisioning complete"], ts.1.errors⟩,
      ts.2.world, ts.2.disk, ts.2.calls⟩, [], none⟩ :=
  rfl

theorem finish_cons_of_ok
    (h : (provisionKind w st scope p made? kind).run.run ts = (.ok made?', ts')) :
    finish w st scope p (kind :: rest) made? ts =
      { finish w st scope p rest made?' ts' with
        steps := kind :: (finish w st scope p rest made?' ts').steps } := by
  simp only [finish, begun, h, provisionKinds, bind_assoc, run_bind_of_ok h]

theorem finish_cons_of_error {e : Failure}
    (h : (provisionKind w st scope p made? kind).run.run ts = (.error e, ts')) :
    finish w st scope p (kind :: rest) made? ts = ⟨.ofJob (.error e, ts'), [kind], some e⟩ := by
  simp only [finish, begun, h, provisionKinds, bind_assoc, run_bind_of_error h]

theorem reports_finish (kinds : List Kind) (made? : Option String)
    (ts : Transcript × Session σ κ δ) : (finish w st scope p kinds made? ts).Reports := by
  induction kinds generalizing made? ts with
  | nil => exact ⟨rfl, fun _ he => nomatch he⟩
  | cons kind rest ih =>
    rcases hstep : (provisionKind w st scope p made? kind).run.run ts with ⟨answer, ts'⟩
    cases answer with
    | ok made?' =>
      rw [finish_cons_of_ok hstep]
      exact ⟨(ih made?' ts').exitCode, (ih made?' ts').errors⟩
    | error e =>
      rw [finish_cons_of_error hstep]
      exact Run.reports_failure ts'.1 ts'.2 _ e

/-- A run of a plan, from opening its session on. -/
def run (w : World σ κ) (st : Setting) (options : Options) (p : Plan) (s : σ) (d : δ) :
    Run σ κ δ :=
  match openSession st options p.root d with
  | .error e => ⟨.failure e s d, [], some e⟩
  | .ok (store, base) =>
    match (p.check w st base).run.run (default, ⟨s, d, store, none, []⟩) with
    | (.error e, ts) => ⟨.ofJob (.error e, ts), [], some e⟩
    | (.ok scope, ts) => p.finish w st scope p.kinds none ts

/-! ### The order of overrides -/

/-- The plan with all overrides in the order of a process. -/
def inOrder (order : Kind → Overrides.Order) (p : Plan) : Plan :=
  { p with
    resources := p.resources.inOrder order
    deployment? := p.deployment?.map (·.inOrder order) }

section

variable (order : Kind → Overrides.Order)

/-- Once there is a plan, its steps do not ask for the order of overrides. -/
theorem provisionKind_order (kind : Kind) :
    (provisionKind w { st with order := order } scope p made? kind : Job σ κ δ (Option String)) =
      provisionKind w st scope p made? kind := by
  cases kind <;> rfl

theorem provisionKinds_order (kinds : List Kind) (made? : Option String) :
    (provisionKinds w { st with order := order } scope p kinds made? : Job σ κ δ Unit) =
      provisionKinds w st scope p kinds made? := by
  induction kinds generalizing made? with
  | nil => rfl
  | cons kind rest ih =>
    rw [provisionKinds, provisionKinds, provisionKind_order]
    exact congrArg _ (funext ih)

theorem begun_order (kinds : List Kind) (made? : Option String)
    (ts : Transcript × Session σ κ δ) :
    begun w { st with order := order } scope p kinds made? ts =
      begun w st scope p kinds made? ts := by
  induction kinds generalizing made? ts with
  | nil => rfl
  | cons kind rest ih => simp only [begun, provisionKind_order, ih]

/-- A run of a plan does not ask for the order of overrides. -/
theorem run_order (options : Options) (s : σ) (d : δ) :
    p.run w { st with order := order } options s d = p.run w st options s d := by
  have hfinish : ∀ scope ts, finish w { st with order := order } scope p p.kinds none ts =
      (finish w st scope p p.kinds none ts : Run σ κ δ) := by
    intro scope ts
    simp only [finish, provisionKinds_order, begun_order]
    rfl
  simp only [run, hfinish]
  rfl

end

section

variable {options : Options} {store : Store} {base : Scope} {s : σ} {d : δ} {e : Failure}

theorem run_of_openSession_error (h : openSession st options p.root d = .error e) :
    p.run w st options s d = ⟨.failure e s d, [], some e⟩ := by
  simp only [run, h]

theorem run_of_check_error (hopen : openSession st options p.root d = .ok (store, base))
    (h : (p.check w st base).run.run (default, ⟨s, d, store, none, []⟩) = (.error e, ts)) :
    p.run w st options s d = ⟨.ofJob (.error e, ts), [], some e⟩ := by
  simp only [run, hopen, h]

theorem run_of_check_ok (hopen : openSession st options p.root d = .ok (store, base))
    (h : (p.check w st base).run.run (default, ⟨s, d, store, none, []⟩) = (.ok scope, ts)) :
    p.run w st options s d = p.finish w st scope p.kinds none ts := by
  simp only [run, hopen, h]

theorem reports_run : (p.run w st options s d).Reports := by
  cases hopen : openSession st options p.root d with
  | error e =>
    rw [run_of_openSession_error hopen]
    exact Run.reports_early e s d
  | ok opened =>
    obtain ⟨store, base⟩ := opened
    rcases hcheck : (p.check w st base).run.run (default, ⟨s, d, store, none, []⟩) with ⟨answer, ts⟩
    cases answer with
    | error e =>
      rw [run_of_check_error hopen hcheck]
      exact Run.reports_failure ts.1 ts.2 [] e
    | ok scope =>
      rw [run_of_check_ok hopen hcheck]
      exact reports_finish p.kinds none ts

end

end Plan

/-! ## The plan of a service -/

/-- The plan of a service for some of its kinds. -/
def planFor (project : Project) (name : String) (service : Service)
    (deployment? : Option DeploymentSpec) (kinds : List Kind) : Plan :=
  ⟨project.root, name, project.servicePath service, service.resources, deployment?, kinds⟩

section

variable [Disk δ] {st : Setting} {project : Project} {name : String} {service : Service} {d : δ}

omit [Disk δ] in
theorem Setting.service_of_ok (st : Setting) (h : project.service name = .ok service) :
    st.service project name = .ok (service.inOrder st.order) :=
  congrArg (Except.map _) h

variable (st)

theorem make_of_deploymentSpec {deployment? : Option DeploymentSpec}
    (hproject : Project.discover st.environment d = .ok project)
    (hservice : st.service project name = .ok service)
    (hdeployment : service.resources.deploymentSpec name = .ok deployment?) (only : List Kind) :
    Plan.make st name only d = .ok (planFor project name service deployment?
      (Plan.select only service.resources.kinds)) := by
  rw [Plan.make, bind_of_ok (mapError_of_ok hproject _), bind_of_ok (mapError_of_ok hservice _),
    bind_of_ok (mapError_of_ok hdeployment _)]
  rfl

theorem make_of_unknown {e : ProjectError}
    (hproject : Project.discover st.environment d = .ok project)
    (hservice : st.service project name = .error e) (only : List Kind) :
    Plan.make st name only d = .error (.project e) := by
  rw [Plan.make, bind_of_ok (mapError_of_ok hproject _), hservice]
  rfl

theorem make_of_incomplete {e : ProjectError}
    (hproject : Project.discover st.environment d = .ok project)
    (hservice : st.service project name = .ok service)
    (hdeployment : service.resources.deploymentSpec name = .error e) (only : List Kind) :
    Plan.make st name only d = .error (.project e) := by
  rw [Plan.make, bind_of_ok (mapError_of_ok hproject _), bind_of_ok (mapError_of_ok hservice _),
    hdeployment]
  rfl

end

/-- Only a service that has a deployment can be incomplete. -/
theorem kinds_ne_nil_of_incomplete {r : Resources} {name : String} {e : ProjectError}
    (h : r.deploymentSpec name = .error e) : r.kinds ≠ [] := by
  have hdeployment : r.deployment?.isSome := by
    cases hnone : r.deployment? with
    | some c => rfl
    | none =>
      rw [Resources.deploymentSpec, hnone] at h
      cases h
  have hmem : Kind.deployment ∈ r.kinds := List.mem_filter.2 ⟨by decide, hdeployment⟩
  exact List.ne_nil_of_mem hmem

theorem nodup_kinds (r : Resources) : r.kinds.Nodup := by
  have hall : Kind.provisionable.Nodup := by decide
  exact hall.filter _

theorem select_nil (kinds : List Kind) : Plan.select [] kinds = kinds :=
  List.filter_eq_self.2 fun _ _ => rfl

theorem select_singleton {kinds : List Kind} {kind : Kind} (hkind : kind ∈ kinds)
    (hnodup : kinds.Nodup) : Plan.select [kind] kinds = [kind] := by
  have hfilter : Plan.select [kind] kinds = kinds.filter (· = kind) := by
    unfold Plan.select
    refine List.filter_congr fun k _ => ?_
    simp
  rw [hfilter, List.filter_eq, List.count_eq_one_of_mem hnodup hkind]
  rfl

/-! ## The command -/

variable [Disk δ]

/-- The run of the command that provisions a service: for some kinds, or else for all that
the service has. -/
def runFor (w : World σ κ) (st : Setting) (options : Options) (service : String)
    (only : List Kind) (s : σ) (d : δ) : Run σ κ δ where
  outcome := Invocation.run (.ok w) st ⟨options, .provision service only⟩ s d
  steps :=
    match Plan.make st service only d with
    | .error _ => []
    | .ok p => if p.kinds.isEmpty then [] else (p.run w st options s d).steps
  failure? :=
    match Plan.make st service only d with
    | .error e => some e
    | .ok p => if p.kinds.isEmpty then none else (p.run w st options s d).failure?

variable {w : World σ κ} {st : Setting} {options : Options} {service : String}
  {only : List Kind} {s : σ} {d : δ} {p : Plan}

theorem runFor_of_error {e : Failure} (h : Plan.make st service only d = .error e) :
    runFor w st options service only s d = ⟨.failure e s d, [], some e⟩ := by
  simp only [runFor, Invocation.run, taskOf, h]
  rfl

theorem taskOf_of_plan (h : Plan.make st service only d = .ok p) :
    (taskOf st d (.provision service only) : Except Failure (Task σ κ δ ⊕ String)) =
      if p.kinds.isEmpty then
        .ok (.inr (st.paint .yellow ("Service '" ++ service ++ "' has nothing to provision")))
      else .ok (.inl ⟨p.root, fun w scope => p.provision w st scope⟩) := by
  simp only [taskOf, h]
  show (if p.kinds.isEmpty then _ else _ : Except Failure (Task σ κ δ ⊕ String)) = _
  cases p.kinds.isEmpty <;> rfl

theorem runFor_of_nil (h : Plan.make st service only d = .ok p) (hkinds : p.kinds = []) :
    runFor w st options service only s d =
      ⟨.quiet 0 ⟨[st.paint .yellow ("Service '" ++ service ++ "' has nothing to provision")], []⟩
        s d, [], none⟩ := by
  simp only [runFor, Invocation.run, taskOf_of_plan h, h, hkinds]
  rfl

theorem runFor_of_ne_nil (h : Plan.make st service only d = .ok p) (hkinds : p.kinds ≠ []) :
    runFor w st options service only s d = p.run w st options s d := by
  have hsome : p.kinds.isEmpty = false := List.isEmpty_eq_false_iff.2 hkinds
  simp only [runFor, Invocation.run, taskOf_of_plan h, h, hsome]
  simp only [Bool.false_eq_true, ↓reduceIte, Task.run, Plan.run, Plan.provision_eq]
  cases openSession st options p.root d with
  | error e => rfl
  | ok opened =>
    obtain ⟨store, base⟩ := opened
    simp only [run_bind]
    rcases (p.check w st base).run.run (default, ⟨s, d, store, none, []⟩) with ⟨answer, ts⟩
    cases answer with
    | error e => rfl
    | ok scope =>
      simp only [Plan.finish, run_bind]

theorem reports_runFor : (runFor w st options service only s d).Reports := by
  cases hplan : Plan.make st service only d with
  | error e =>
    rw [runFor_of_error hplan]
    exact Run.reports_early e s d
  | ok p =>
    by_cases hkinds : p.kinds = []
    · rw [runFor_of_nil hplan hkinds]
      exact ⟨rfl, fun _ he => nomatch he⟩
    · rw [runFor_of_ne_nil hplan hkinds]
      exact Plan.reports_run

end Cli

end Provisioner
