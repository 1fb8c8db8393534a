import Provisioner.Proofs.Pipeline.Split

/-!
# What a run attempts

A run that provisions a service attempts the kinds that the service has and that are
selected, one after the other, until one of them fails.

* `selected` are these kinds, in the order of the pipeline.
* `Attempt` is the attempt of one kind: the operation of the kind on the component that the
  service has for it.  `Attempts` are those of several kinds in turn.
* `Provisions` is what a run does once its scope is known.
* `provision_attempts` says so of every run.  A run that is refused before that, or has
  nothing selected, does nothing at all.
-/

namespace Provisioner

variable {σ κ δ α β : Type}

namespace Resources

/-- A service that has a deployment, but not all that the deployment binds. -/
def Incomplete (r : Resources) : Prop :=
  r.deployment?.isSome ∧ (r.environment? = .none ∨ r.model? = .none)

variable {r : Resources} {name : String}

theorem Incomplete.exists_error (h : r.Incomplete) (name : String) :
    ∃ e, r.deploymentSpec name = .error e := by
  obtain ⟨hdeployment, hmissing⟩ := h
  obtain ⟨c, hc⟩ := Option.isSome_iff_exists.1 hdeployment
  rw [deploymentSpec, hc]
  rcases hmissing with hnone | hnone
  · rw [hnone]
    exact ⟨_, rfl⟩
  · rw [hnone]
    cases r.environment? with
    | none => exact ⟨_, rfl⟩
    | some _ => exact ⟨_, rfl⟩

theorem exists_deploymentSpec (h : ¬ r.Incomplete) (name : String) :
    ∃ d?, r.deploymentSpec name = .ok d? := by
  rw [deploymentSpec]
  cases hdeployment : r.deployment? with
  | none => exact ⟨_, rfl⟩
  | some c =>
    have hsome : r.deployment?.isSome := by
      rw [hdeployment]
      rfl
    cases henvironment : r.environment? with
    | none => exact absurd ⟨hsome, .inl henvironment⟩ h
    | some _ =>
      cases hmodel : r.model? with
      | none => exact absurd ⟨hsome, .inr hmodel⟩ h
      | some _ => exact ⟨_, rfl⟩

/-- A service that has a deployment deploys. -/
theorem exists_of_deploymentSpec {d? : Option DeploymentSpec}
    (h : r.deploymentSpec name = .ok d?) (hdeployment : r.deployment?.isSome) :
    ∃ d, d? = some d := by
  rw [deployment_of_deploymentSpec h, Option.isSome_map] at hdeployment
  exact Option.isSome_iff_exists.1 hdeployment

/-! ### Resources in the order of a process -/

theorem incomplete_inOrder (order : Kind → Overrides.Order) (r : Resources) :
    (r.inOrder order).Incomplete ↔ r.Incomplete := by
  simp only [Incomplete, inOrder, Option.isSome_map, Option.map_eq_none_iff]

end Resources

namespace Cli

/-- The kinds that a service has and that are selected; no selection selects all. -/
def selected (r : Resources) (only : List Kind) : List Kind :=
  Kind.provisionable.filter fun k => (r.component? k).isSome ∧ (only = [] ∨ k ∈ only)

/-- A run ended with an exit code, and left a session behind. -/
structure Outcome.EndsIn (o : Outcome σ κ δ) (exitCode : Nat) (world : σ) (disk : δ)
    (calls : List (Call κ)) : Prop where
  exitCode : o.exitCode = exitCode
  world : o.world = world
  disk : o.disk = disk
  calls : o.calls = calls

/-- The failure that an operation ends in. -/
def failureOf? : Except ProvisionError α → Option Failure
  | .ok _ => none
  | .error e => some (.operation e)

section

variable [Disk δ] (w : World σ κ) (st : Setting) (scope : Scope) (name directory : String)
  (r : Resources)

/-- The attempt of a kind, in a session, when an endpoint may have been made before: the
operation of the kind on the component that the service has.  A deployment for which there
is no endpoint is attempted as well, and fails at once. -/
inductive Attempt (made? : Option String) (s : Session σ κ δ) :
    Kind → Option Failure → Session σ κ δ → Prop
  | environment {c : Component} {answer : Except ProvisionError EnvironmentVersion}
    {s' : Session σ κ δ} : r.environment? = some c →
    (Op.createEnvironmentVersion w scope directory c).run.run s = (answer, s') →
    Attempt made? s .environment (failureOf? answer) s'
  | model {c : Component} {answer : Except ProvisionError ModelVersion} {s' : Session σ κ δ} :
    r.model? = some c →
    (Op.createModelVersion w scope directory c).run.run s = (answer, s') →
    Attempt made? s .model (failureOf? answer) s'
  | endpoint {c : Component} {answer : Except ProvisionError Endpoint} {s' : Session σ κ δ} :
    r.endpoint? = some c →
    (Op.createEndpoint w scope directory c).run.run s = (answer, s') →
    Attempt made? s .endpoint (failureOf? answer) s'
  | deployment {d : DeploymentSpec} {endpoint : String}
    {answer : Except ProvisionError Deployment} {s' : Session σ κ δ} :
    r.deploymentSpec name = .ok (some d) →
    made?.or (s.store.get? Failure.endpointKey) = some endpoint →
    (Op.deploy w scope directory endpoint d (st.clock .deployment)).run.run s = (answer, s') →
    Attempt made? s .deployment (failureOf? answer) s'
  | noEndpoint {d : DeploymentSpec} : r.deploymentSpec name = .ok (some d) →
    made?.or (s.store.get? Failure.endpointKey) = none →
    Attempt made? s .deployment (some (.noEndpoint name)) s
  | flow {c : Component} {answer : Except ProvisionError Flow} {s' : Session σ κ δ} :
    r.flow? = some c →
    (Op.createFlow w scope directory c (st.clock .flow)).run.run s = (answer, s') →
    Attempt made? s .flow (failureOf? answer) s'

/-- The endpoint that has been made after the step of a kind. -/
def madeAfter (made? : Option String) (s : Session σ κ δ) : Kind → Option String
  | .endpoint => some (s.store.published .endpoint)
  | _ => made?

/-- The attempts of several kinds in turn: which kinds were attempted, and the failure of the
last of them. -/
inductive Attempts : Option String → Session σ κ δ → List Kind → List Kind → Option Failure →
    Session σ κ δ → Prop
  | done {made? : Option String} {s : Session σ κ δ} : Attempts made? s [] [] none s
  | failed {made? : Option String} {s s' : Session σ κ δ} {kind : Kind} {rest : List Kind}
    {e : Failure} : Attempt w st scope name directory r made? s kind (some e) s' →
    Attempts made? s (kind :: rest) [kind] (some e) s'
  | next {made? : Option String} {s s' s'' : Session σ κ δ} {kind : Kind}
    {rest attempted : List Kind} {failure? : Option Failure} :
    Attempt w st scope name directory r made? s kind none s' →
    Attempts (madeAfter made? s' kind) s' rest attempted failure? s'' →
    Attempts made? s (kind :: rest) (kind :: attempted) failure? s''

/-- What a run does once its scope is known.  It checks the workspace, and attempts nothing
if the check fails; else it attempts the kinds, all of them unless one fails. -/
inductive Provisions (kinds : List Kind) (s : Session σ κ δ) : Outcome σ κ δ → Prop
  | unchecked {o : Outcome σ κ δ} {e : ProvisionError} {s' : Session σ κ δ} :
    (Op.ensureWorkspace w scope).run.run s = (.error e, s') →
    o.EndsIn 1 s'.world s'.disk s'.calls → Provisions kinds s o
  | checked {o : Outcome σ κ δ} {record : Workspace} {attempted : List Kind}
    {failure? : Option Failure} {s' s'' : Session σ κ δ} :
    (Op.ensureWorkspace w scope).run.run s = (.ok record, s') →
    Attempts w st scope name directory r none s' kinds attempted failure? s'' →
    attempted <+: kinds → (failure? = none → attempted = kinds) →
    o.EndsIn (if failure? = none then 0 else 1) s''.world s''.disk s''.calls →
    Provisions kinds s o

end

variable {w : World σ κ} {st : Setting} {scope : Scope}

/-! ## Steps and operations -/

/-- A job that prints before it goes on. -/
theorem Job.OnlyPrints.exists_run {job : Job σ κ δ α} (h : OnlyPrints job)
    (next : α → Job σ κ δ β) (t : Transcript) (s : Session σ κ δ) :
    ∃ a t', (job >>= next).run.run (t, s) = (next a).run.run (t', s) := by
  obtain ⟨a, output, hrun⟩ := h t s
  exact ⟨a, _, run_bind_of_ok hrun⟩

/-- A job that only prints, and returns an answer. -/
theorem Job.OnlyPrints.exists_run_pure {job : Job σ κ δ α} (h : OnlyPrints job) (b : β)
    (t : Transcript) (s : Session σ κ δ) :
    ∃ t', (job >>= fun _ => pure b).run.run (t, s) = (.ok b, t', s) := by
  obtain ⟨_, t', hrun⟩ := h.exists_run (fun _ => pure b) t s
  exact ⟨t', hrun⟩

/-- A step ends as its operation does, if it only prints after the operation. -/
theorem run_perform_bind (st : Setting) {op : Op σ κ δ α} {next : α → Job σ κ δ β} (b : β)
    (t : Transcript) {s s' : Session σ κ δ} {answer : Except ProvisionError α}
    (hop : op.run.run s = (answer, s'))
    (hnext : ∀ a t, ∃ t', (next a).run.run (t, s') = (.ok b, t', s')) :
    ∃ t', (Job.perform st op >>= next).run.run (t, s) =
      ((failureOf? answer).elim (.ok b) .error, t', s') := by
  have hperform := Job.run_perform st op t s
  rw [hop] at hperform
  cases answer with
  | error e =>
    obtain ⟨lines, hexplain⟩ :=
      Job.exists_run_orExplain_error (σ := σ) (κ := κ) (δ := δ) (α := α) st e
    rw [hexplain] at hperform
    exact ⟨_, run_bind_of_error hperform⟩
  | ok a =>
    obtain ⟨t', hrun⟩ := hnext a t
    exact ⟨t', (run_bind_of_ok hperform).trans hrun⟩

namespace Plan

open Job

variable [Disk δ] {p : Plan}

theorem exists_run_provisionEndpoint (st : Setting) {c : Component}
    {answer : Except ProvisionError Endpoint} {s s' : Session σ κ δ} (t : Transcript)
    (hop : (Op.createEndpoint w scope p.directory c).run.run s = (answer, s')) :
    ∃ t', (provisionEndpoint w st scope p c).run.run (t, s) =
      ((failureOf? answer).elim (.ok (s'.store.published .endpoint)) .error, t', s') := by
  refine run_perform_bind st _ t hop fun record t => ?_
  obtain ⟨name, t, hrun⟩ := (onlyPrints_publishedName st .endpoint).exists_run _ t s'
  obtain ⟨_, t, hrun'⟩ := (onlyPrints_printDone st _).exists_run _ t s'
  rw [hrun, hrun']
  cases record.properties.scoringUri with
  | none => exact ⟨t, rfl⟩
  | some uri => exact ⟨_, rfl⟩

/-- The step of a kind that the service has attempts it, and ends as the attempt does. -/
theorem exists_attempt (w : World σ κ) (st : Setting) (scope : Scope)
    (hspec : p.resources.deploymentSpec p.service = .ok p.deployment?) {kind : Kind}
    (hkind : (p.resources.component? kind).isSome) (made? : Option String)
    (t : Transcript) (s : Session σ κ δ) :
    ∃ failure? t' s',
      Attempt w st scope p.service p.directory p.resources made? s kind failure? s' ∧
      (provisionKind w st scope p made? kind).run.run (t, s) =
        (failure?.elim (.ok (madeAfter made? s' kind)) .error, t', s') := by
  obtain ⟨c, hc⟩ := Option.isSome_iff_exists.1 hkind
  cases kind with
  | workspace => cases hkind
  | environment =>
    have hc : p.resources.environment? = some c := hc
    rcases hop : (Op.createEnvironmentVersion w scope p.directory c).run.run s with ⟨answer, s'⟩
    rw [provisionKind, hc]
    obtain ⟨t', hrun⟩ := run_perform_bind st made? t hop fun record =>
      ((onlyPrints_printVersion st .environment record.name?).exists_run_pure made? · s')
    exact ⟨_, t', s', .environment hc hop, hrun⟩
  | model =>
    have hc : p.resources.model? = some c := hc
    rcases hop : (Op.createModelVersion w scope p.directory c).run.run s with ⟨answer, s'⟩
    rw [provisionKind, hc]
    obtain ⟨t', hrun⟩ := run_perform_bind st made? t hop fun record =>
      ((onlyPrints_printVersion st .model record.name?).exists_run_pure made? · s')
    exact ⟨_, t', s', .model hc hop, hrun⟩
  | endpoint =>
    have hc : p.resources.endpoint? = some c := hc
    rcases hop : (Op.createEndpoint w scope p.directory c).run.run s with ⟨answer, s'⟩
    rw [provisionKind, hc]
    dsimp only
    obtain ⟨t', hrun⟩ := exists_run_provisionEndpoint st t hop
    rw [run_map, hrun]
    cases answer with
    | ok _ => exact ⟨_, t', s', .endpoint hc hop, rfl⟩
    | error _ => exact ⟨_, t', s', .endpoint hc hop, rfl⟩
  | deployment =>
    obtain ⟨d, hd⟩ := Resources.exists_of_deploymentSpec hspec hkind
    rw [hd] at hspec
    rw [provisionKind, hd]
    have hendpoint := run_endpointFor p made? t s
    cases hnamed : made?.or (s.store.get? Failure.endpointKey) with
    | none =>
      rw [hnamed] at hendpoint
      refine ⟨_, t, s, .noEndpoint hspec hnamed, ?_⟩
      show (provisionDeployment w st scope p made? d >>= fun _ => pure made?).run.run (t, s) = _
      rw [provisionDeployment, bind_assoc, run_bind_of_error hendpoint]
      rfl
    | some endpoint =>
      rw [hnamed] at hendpoint
      rcases hop : (Op.deploy w scope p.directory endpoint d (st.clock .deployment)).run.run s
        with ⟨answer, s'⟩
      obtain ⟨t', hrun⟩ := run_perform_bind st made? t hop fun record =>
        ((onlyPrints_deployment st endpoint record).exists_run_pure made? · s')
      refine ⟨_, t', s', .deployment hspec hnamed hop, ?_⟩
      show (provisionDeployment w st scope p made? d >>= fun _ => pure made?).run.run (t, s) = _
      rw [provisionDeployment, bind_assoc, run_bind_of_ok hendpoint, bind_assoc]
      exact hrun
  | flow =>
    have hc : p.resources.flow? = some c := hc
    rcases hop : (Op.createFlow w scope p.directory c (st.clock .flow)).run.run s
      with ⟨answer, s'⟩
    rw [provisionKind, hc]
    obtain ⟨t', hrun⟩ := run_perform_bind st made? t hop fun record =>
      ((onlyPrints_flow st record).exists_run_pure made? · s')
    refine ⟨_, t', s', .flow hc hop, ?_⟩
    show (provisionFlow w st scope p c >>= fun _ => pure made?).run.run (t, s) = _
    rw [provisionFlow, bind_assoc]
    exact hrun

/-- The steps of kinds that the service has attempt them, and end as the attempts do. -/
theorem exists_attempts (w : World σ κ) (st : Setting) (scope : Scope)
    (hspec : p.resources.deploymentSpec p.service = .ok p.deployment?) {kinds : List Kind}
    (hkinds : ∀ kind ∈ kinds, (p.resources.component? kind).isSome)
    (made? : Option String) (t : Transcript) (s : Session σ κ δ) :
    ∃ attempted failure? t' s',
      Attempts w st scope p.service p.directory p.resources made? s kinds attempted failure? s' ∧
      (provisionKinds w st scope p kinds made?).run.run (t, s) =
        (failure?.elim (.ok ()) .error, t', s') := by
  induction kinds generalizing made? t s with
  | nil => exact ⟨[], none, t, s, .done, rfl⟩
  | cons kind rest ih =>
    obtain ⟨failure?, t', s', hattempt, hrun⟩ := exists_attempt w st scope hspec
      (hkinds kind List.mem_cons_self) made? t s
    cases failure? with
    | some e =>
      refine ⟨[kind], some e, t', s', .failed hattempt, ?_⟩
      rw [provisionKinds, run_bind_of_error hrun]
      rfl
    | none =>
      obtain ⟨attempted, failure?, t'', s'', hattempts, hrest⟩ :=
        ih (fun k hk => hkinds k (List.mem_cons_of_mem _ hk)) (madeAfter made? s' kind) t' s'
      refine ⟨kind :: attempted, failure?, t'', s'', .next hattempt hattempts, ?_⟩
      rw [provisionKinds, run_bind_of_ok hrun, hrest]

omit [Disk δ] in
/-- Before its steps a run checks the workspace. -/
theorem exists_run_check (p : Plan) (st : Setting) {base : Scope} {s s' : Session σ κ δ}
    {answer : Except ProvisionError Workspace} (t : Transcript)
    (hscope : Scope.resolve s.store base p.resources.workspace? = .ok scope)
    (hcheck : (Op.ensureWorkspace w scope).run.run s = (answer, s')) :
    ∃ t', (p.check w st base).run.run (t, s) =
      ((failureOf? answer).elim (.ok scope) .error, t', s') := by
  obtain ⟨output, hrun⟩ := run_check st hscope hcheck t
  rw [hrun]
  cases answer with
  | error e =>
    obtain ⟨lines, hexplain⟩ :=
      exists_run_orExplain_error (σ := σ) (κ := κ) (δ := δ) (α := Workspace) st e
    exact ⟨_, run_bind_of_error (hexplain _ s')⟩
  | ok record => exact ⟨_, rfl⟩

end Plan

namespace Attempts

variable [Disk δ] {name directory : String} {r : Resources} {made? : Option String}
  {s s' : Session σ κ δ} {kinds attempted : List Kind} {failure? : Option Failure}

theorem isPrefix (h : Attempts w st scope name directory r made? s kinds attempted failure? s') :
    attempted <+: kinds := by
  induction h with
  | done => exact List.prefix_rfl
  | failed => exact ⟨_, rfl⟩
  | next _ _ ih => exact List.prefix_cons_inj _ |>.2 ih

/-- Without a failure all kinds are attempted. -/
theorem eq_of_none (h : Attempts w st scope name directory r made? s kinds attempted failure? s')
    (hnone : failure? = none) : attempted = kinds := by
  induction h with
  | done => rfl
  | failed => cases hnone
  | next _ _ ih => rw [ih hnone]

end Attempts

/-! ## The run -/

theorem Outcome.endsIn_error (e : Failure) (t : Transcript) (s : Session σ κ δ) :
    (ofJob (.error e, t, s)).EndsIn 1 s.world s.disk s.calls :=
  ⟨rfl, rfl, rfl, rfl⟩

/-- A run whose scope is known. -/
theorem Plan.provisions_run [Disk δ] (p : Plan) {options : Options} {store : Store}
    {base : Scope} {s : σ} {d : δ}
    (hspec : p.resources.deploymentSpec p.service = .ok p.deployment?)
    (hkinds : ∀ kind ∈ p.kinds, (p.resources.component? kind).isSome)
    (hopen : openSession st options p.root d = .ok (store, base))
    (hscope : Scope.resolve store base p.resources.workspace? = .ok scope) :
    Provisions w st scope p.service p.directory p.resources p.kinds ⟨s, d, store, none, []⟩
      (p.run w st options s d).outcome := by
  rcases hcheck : (Op.ensureWorkspace w scope).run.run ⟨s, d, store, none, []⟩ with ⟨answer, s'⟩
  obtain ⟨t, hrun⟩ := p.exists_run_check st default hscope hcheck
  cases answer with
  | error e =>
    rw [run_of_check_error hopen hrun]
    exact .unchecked hcheck (Outcome.endsIn_error _ t s')
  | ok record =>
    obtain ⟨attempted, failure?, t', s'', hattempts, hsteps⟩ :=
      exists_attempts w st scope hspec hkinds none t s'
    rw [run_of_check_ok hopen hrun]
    refine .checked hcheck hattempts hattempts.isPrefix hattempts.eq_of_none ?_
    cases failure? with
    | some e =>
      rw [finish, run_bind_of_error hsteps]
      exact Outcome.endsIn_error e t' s''
    | none =>
      rw [finish, run_bind_of_ok hsteps]
      exact ⟨rfl, rfl, rfl, rfl⟩

section

variable {r : Resources} {only : List Kind}

theorem select_kinds (only : List Kind) (r : Resources) :
    Plan.select only r.kinds = selected r only := by
  unfold Plan.select Resources.kinds selected
  rw [List.filter_filter]
  refine List.filter_congr fun k _ => ?_
  cases only <;> simp [and_comm]

theorem selected_inOrder (order : Kind → Overrides.Order) :
    selected (r.inOrder order) only = selected r only := by
  refine List.filter_congr fun k _ => ?_
  rw [Resources.component?_inOrder, Option.isSome_map]

theorem isSome_of_mem_selected {kind : Kind} (h : kind ∈ selected r only) :
    (r.component? kind).isSome :=
  (of_decide_eq_true (List.mem_filter.1 h).2).1

end

section

variable [Disk δ] {options : Options} {name : String} {only : List Kind} {s : σ} {d : δ}

/-- A run without a plan does nothing. -/
theorem endsIn_of_make_error {e : Failure} (h : Plan.make st name only d = .error e)
    (w? : Except Azure.Failure (World σ κ)) :
    (Invocation.run w? st ⟨options, .provision name only⟩ s d).EndsIn 1 s d [] := by
  have htask : (taskOf st d (.provision name only) : Except Failure (Task σ κ δ ⊕ String)) =
      .error e := by
    rw [taskOf, h]
    rfl
  rw [Invocation.run, htask]
  exact ⟨rfl, rfl, rfl, rfl⟩

/-- A run with nothing to do does nothing, and is not a failure. -/
theorem endsIn_of_kinds_nil {p : Plan} (h : Plan.make st name only d = .ok p)
    (hkinds : p.kinds = []) (w? : Except Azure.Failure (World σ κ)) :
    (Invocation.run w? st ⟨options, .provision name only⟩ s d).EndsIn 0 s d [] := by
  rw [Invocation.run, taskOf_of_plan h, hkinds]
  exact ⟨rfl, rfl, rfl, rfl⟩

/-- A run that provisions a service.  For an unknown service, and for one whose deployment is
incomplete, it ends at once with a failure, and with nothing selected it ends at once
without one; it does nothing then, whoever there is to answer.  Else it checks the
workspace once its scope is known, and attempts the kinds that are selected. -/
theorem provision_attempts {project : Project}
    (hproject : Project.discover st.environment d = .ok project) (options : Options)
    (name : String) (only : List Kind) (s : σ) :
    (project.file.services.get? name = none → ∀ w? : Except Azure.Failure (World σ κ),
      (Invocation.run w? st ⟨options, .provision name only⟩ s d).EndsIn 1 s d []) ∧
    ∀ service, project.file.services.get? name = some service →
      (service.resources.Incomplete → ∀ w? : Except Azure.Failure (World σ κ),
        (Invocation.run w? st ⟨options, .provision name only⟩ s d).EndsIn 1 s d []) ∧
      (¬ service.resources.Incomplete → selected service.resources only = [] →
        ∀ w? : Except Azure.Failure (World σ κ),
          (Invocation.run w? st ⟨options, .provision name only⟩ s d).EndsIn 0 s d []) ∧
      (¬ service.resources.Incomplete → selected service.resources only ≠ [] →
        ∀ (w : World σ κ) (store : Store) (base scope : Scope),
          openSession st options project.root d = .ok (store, base) →
          Scope.resolve store base service.resources.workspace? = .ok scope →
          Provisions w st scope name (project.servicePath service)
            (service.resources.inOrder st.order)
            (selected service.resources only) ⟨s, d, store, none, []⟩
            (Invocation.run (.ok w) st ⟨options, .provision name only⟩ s d)) := by
  refine ⟨fun hnone => ?_, fun service hsome => ?_⟩
  · have hservice : st.service project name = .error (.unknownService name) := by
      rw [Setting.service, Project.service, hnone]
      rfl
    exact endsIn_of_make_error (make_of_unknown st hproject hservice only)
  have hservice : project.service name = .ok service := by
    rw [Project.service, hsome]
  have hservice := st.service_of_ok hservice
  -- The order of overrides changes neither what is incomplete nor what is selected.
  rw [← Resources.incomplete_inOrder st.order, ← selected_inOrder st.order]
  have hmake : ∀ {d?}, (service.resources.inOrder st.order).deploymentSpec name = .ok d? →
      Plan.make st name only d = .ok (planFor project name (service.inOrder st.order) d?
        (selected (service.resources.inOrder st.order) only)) := by
    intro d? hspec
    rw [make_of_deploymentSpec st hproject hservice hspec, select_kinds]
    rfl
  refine ⟨fun hincomplete => ?_, fun hcomplete hnil => ?_, fun hcomplete hne => ?_⟩
  · obtain ⟨e, hspec⟩ := hincomplete.exists_error name
    exact endsIn_of_make_error (make_of_incomplete st hproject hservice hspec only)
  · obtain ⟨d?, hspec⟩ := Resources.exists_deploymentSpec hcomplete name
    exact endsIn_of_kinds_nil (hmake hspec) hnil
  · intro w store base scope hopen hscope
    obtain ⟨d?, hspec⟩ := Resources.exists_deploymentSpec hcomplete name
    let p := planFor project name (service.inOrder st.order) d?
      (selected (service.resources.inOrder st.order) only)
    have hkinds : ∀ kind ∈ selected (service.resources.inOrder st.order) only,
        ((service.resources.inOrder st.order).component? kind).isSome :=
      fun _ => isSome_of_mem_selected
    have hrun : runFor w st options name only s d = p.run w st options s d :=
      runFor_of_ne_nil (hmake hspec) hne
    have houtcome : Invocation.run (.ok w) st ⟨options, .provision name only⟩ s d =
      (p.run w st options s d).outcome := congrArg Run.outcome hrun
    rw [houtcome]
    exact p.provisions_run hspec hkinds hopen hscope

theorem provision_attempts_smallTree :
    let st : Setting := ⟨KeyMap.empty, false, fun _ => 7, default⟩
    let options : Options := ⟨some "sub", some "rg", some "ws", "dev"⟩
    let scope : Scope := ⟨"sub", "rg", "ws"⟩
    let store : Store := .dotenv ⟨"/p/.fleetml/dev/.env", KeyMap.empty, KeyMap.empty⟩
    let only : List Kind := [.flow, .model, .endpoint, .flow]
    Provisions countingWorld st scope "s" "/p/." smallService.resources [.endpoint, .flow]
        ⟨0, smallTree, store, none, []⟩
        (Invocation.run (.ok countingWorld) st ⟨options, .provision "s" only⟩ 0 smallTree) ∧
      (Invocation.run (.ok countingWorld) st ⟨options, .provision "s" [.model]⟩ 0
        smallTree).EndsIn 0 0 smallTree [] ∧
      (Invocation.run (.ok countingWorld) st ⟨options, .provision "t" only⟩ 0
        smallTree).EndsIn 1 0 smallTree [] := by
  intro st options scope store only
  have hproject : Project.discover st.environment smallTree =
      .ok ⟨"/p", ⟨"", KeyMap.ofList [("s", smallService)]⟩⟩ := by decide +kernel
  have hopen : openSession st options "/p" smallTree = .ok (store, scope) := by decide +kernel
  have hcomplete : ¬ smallService.resources.Incomplete := fun h => nomatch h.1
  have hknown := fun only =>
    (provision_attempts (κ := Unit) hproject options "s" only 0).2 smallService (by decide +kernel)
  have hunknown :=
    (provision_attempts (κ := Unit) hproject options "t" only 0).1 (by decide +kernel)
  refine ⟨?_, (hknown [.model]).2.1 hcomplete (by decide) (.ok countingWorld), hunknown _⟩
  exact (hknown only).2.2 hcomplete (by decide) countingWorld store scope scope hopen rfl

end

end Cli

end Provisioner
