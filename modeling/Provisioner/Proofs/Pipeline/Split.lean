import Provisioner.Proofs.Operation.Effects
import Provisioner.Proofs.Pipeline.Reopen
import Provisioner.Proofs.Pipeline.Run
import Provisioner.Proofs.Project.Discovery

/-!
# A run for every kind

To provision a service in one run, or in one run for every kind, is the same up to the order in
which each process goes through overrides.

* `splitRuns` are the runs for one kind after the other, up to the first that fails, and
  `ChecksSucceed` says of each that its workspace check succeeds.
* `SplitInto` compares a run with several: the calls about resources, the steps, the failure
  and what is reported of it, and the disk.
* `Underway` is the invariant: what a run in the middle of its steps and a run that starts
  there have in common.  `splitInto_finish` is the induction over the steps, and
  `splitInto_splitRuns` compares whole runs.
-/

namespace Provisioner.Cli

open Session Store

variable {σ τ κ δ : Type} {free : Prop} [Disk δ]

/-! ## Runs for single kinds -/

/-- The runs of the command for one kind after the other, up to the first that fails.  Every run is
a process, with an order of overrides of its own. -/
def splitRuns (w : World σ κ) (st : Setting) (orders : Kind → Kind → Overrides.Order)
    (options : Options) (service : String) : List Kind → σ → δ → List (Run σ κ δ)
  | [], _, _ => []
  | kind :: rest, s, d =>
    let r := runFor w { st with order := orders kind } options service [kind] s d
    r :: if r.outcome.exitCode = 0 then
      splitRuns w st orders options service rest r.outcome.world r.outcome.disk
    else []

theorem splitRuns_of_failed {w : World σ κ} {st : Setting} {orders : Kind → Kind → Overrides.Order}
    {options : Options} {service : String} {kind : Kind} {s : σ} {d : δ} {r : Run σ κ δ}
    (hrun : runFor w { st with order := orders kind } options service [kind] s d = r)
    (h : r.outcome.exitCode ≠ 0) (rest : List Kind) :
    splitRuns w st orders options service (kind :: rest) s d = [r] := by
  rw [splitRuns, hrun, if_neg h]

/-- The workspace check of a run that starts here succeeds, if the run comes to it. -/
def CheckSucceeds (w : World σ κ) (st : Setting) (options : Options) (root : String)
    (workspace? : Option Template) (s : σ) (d : δ) : Prop :=
  ∀ store base scope, openSession st options root d = .ok (store, base) →
    Scope.resolve store base workspace? = .ok scope →
    ∃ record s', (Op.ensureWorkspace w scope).run.run ⟨s, d, store, none, []⟩ = (.ok record, s')

/-- The workspace check of every one of these runs succeeds. -/
def ChecksSucceed (w : World σ κ) (st : Setting) (orders : Kind → Kind → Overrides.Order)
    (options : Options) (service root : String) (workspace? : Option Template) :
    List Kind → σ → δ → Prop
  | [], _, _ => True
  | kind :: rest, s, d =>
    let r := runFor w { st with order := orders kind } options service [kind] s d
    CheckSucceeds w st options root workspace? s d ∧
      (r.outcome.exitCode = 0 → ChecksSucceed w st orders options service root workspace? rest
        r.outcome.world r.outcome.disk)

/-! ## One run and several -/

/-- The failure of the last of some steps at an override of its component that cannot be filled in
from the environment file on a disk. -/
def StopsLast (st : Setting) (options : Options) (root : String) (r : Resources) (steps : List Kind)
    (disk : δ) (e : Failure) : Prop :=
  ∃ kind c file, steps.getLast? = some kind ∧ r.component? kind = some c ∧
    DotenvFile.openIn st.environment root options.environment disk = .ok file ∧
    StopsAt c.overrides (Store.dotenv file).lookup e

theorem StopsLast.cons {st : Setting} {options : Options} {root : String} {r : Resources}
    {steps : List Kind} {disk : δ} {e : Failure} (kind : Kind)
    (h : StopsLast st options root r steps disk e) :
    StopsLast st options root r (kind :: steps) disk e := by
  obtain ⟨last, c, file, hlast, hc, hfile, hstops⟩ := h
  refine ⟨last, c, file, ?_, hc, hfile, hstops⟩
  rw [List.getLast?_cons, hlast]
  rfl

/-- How failures, with the lines of errors that are reported, compare: they are the same or, if the
order of overrides is free, two for which steps are refused. -/
inductive SameEnd (free : Prop) (Stops : Failure → Prop) :
    Option Failure × List String → Option Failure × List String → Prop
  | same (reported : Option Failure × List String) : SameEnd free Stops reported reported
  | stopped {e e' : Failure} : free → Stops e → Stops e' →
    SameEnd free Stops (some e, [e.render]) (some e', [e'.render])

theorem SameEnd.mono {Stops Stops' : Failure → Prop}
    {reported reported' : Option Failure × List String}
    (h : SameEnd free Stops reported reported') (hstops : ∀ e, Stops e → Stops' e) :
    SameEnd free Stops' reported reported' := by
  cases h with
  | same reported => exact .same reported
  | stopped hfree he he' => exact .stopped hfree (hstops _ he) (hstops _ he')

/-- A run that did, on a disk, what several runs in turn do.  The calls about resources that
it made before are not those of the several runs. -/
structure SplitInto (free : Prop) (Stops : List Kind → δ → Failure → Prop)
    (before : List (Call Unit)) (disk : δ) (whole : Run σ κ δ) (runs : List (Run σ κ δ)) :
    Prop where
  calls : List.Forall₂ (Call.Alike free) (resourceCalls whole.outcome.calls)
    (before ++ runs.flatMap fun r => resourceCalls r.outcome.calls)
  steps : whole.steps = runs.flatMap fun r => r.steps
  reported : SameEnd free (Stops whole.steps whole.outcome.disk)
    (whole.failure?, whole.outcome.transcript.errors)
    (runs.getLast?.bind fun r => r.failure?, runs.flatMap fun r => r.outcome.transcript.errors)
  exitCode : whole.outcome.exitCode = (runs.getLast?.map fun r => r.outcome.exitCode).getD 0
  disk : whole.outcome.disk = (runs.getLast?.map fun r => r.outcome.disk).getD disk

section

variable {Stops : List Kind → δ → Failure → Prop} {before : List (Call Unit)} {disk : δ}
  {whole r : Run σ κ δ} {runs : List (Run σ κ δ)}

omit [Disk δ] in
/-- A run that fails at once is the only one. -/
theorem SplitInto.single
    (hcalls : List.Forall₂ (Call.Alike free) (resourceCalls whole.outcome.calls)
      (before ++ resourceCalls r.outcome.calls)) (hsteps : whole.steps = r.steps)
    (hreported : SameEnd free (Stops whole.steps whole.outcome.disk)
      (whole.failure?, whole.outcome.transcript.errors)
      (r.failure?, r.outcome.transcript.errors))
    (hexit : whole.outcome.exitCode = r.outcome.exitCode)
    (hdisk : whole.outcome.disk = r.outcome.disk) :
    SplitInto free Stops before disk whole [r] where
  calls := by
    rw [List.flatMap_singleton]
    exact hcalls
  steps := by rw [hsteps, List.flatMap_singleton]
  reported := by
    rw [List.flatMap_singleton]
    exact hreported
  exitCode := hexit
  disk := hdisk

omit [Disk δ] in
/-- One more run before the others, for a step that succeeds. -/
theorem SplitInto.cons {kind : Kind} (hsteps : r.steps = [kind]) (hfailure : r.failure? = none)
    (herrors : r.outcome.transcript.errors = []) (hexit : r.outcome.exitCode = 0)
    (hstops : ∀ steps disk e, Stops steps disk e → Stops (kind :: steps) disk e)
    (h : SplitInto free Stops (before ++ resourceCalls r.outcome.calls) r.outcome.disk whole runs) :
    SplitInto free Stops before disk { whole with steps := kind :: whole.steps } (r :: runs) where
  calls := by
    rw [List.flatMap_cons, ← List.append_assoc]
    exact h.calls
  steps := by
    rw [List.flatMap_cons, hsteps, ← h.steps]
    rfl
  reported := by
    have hlast : (r :: runs).getLast?.bind (fun r => r.failure?) =
        runs.getLast?.bind fun r => r.failure? := by
      cases runs with
      | nil => exact hfailure
      | cons next runs => rfl
    rw [List.flatMap_cons, herrors, hlast]
    exact h.reported.mono (hstops _ _)
  exitCode := by
    have hrest := h.exitCode
    cases runs with
    | nil => exact hrest.trans hexit.symm
    | cons next runs => exact hrest
  disk := by
    have hrest := h.disk
    cases runs with
    | nil => exact hrest
    | cons next runs => exact hrest

end

/-! ## The steps -/

/-- A run in the middle of its steps, seen from a run that starts now in the world `s` on a
disk: nothing was reported, only calls like those before were made, and the file is read as the
store. -/
structure Underway (free : Prop) (view : σ → τ) (before : List (Call Unit)) (first : DotenvFile)
    (origin : δ) (made? : Option String) (s : σ) (disk : δ) (ts : Transcript × Session σ κ δ) :
    Prop where
  errors_nil : ts.1.errors = []
  world_eq : view ts.2.world = view s
  disk_eq : ts.2.disk = disk
  client_isSome : ts.2.client?.isSome
  calls : List.Forall₂ (Call.Alike free) (resourceCalls ts.2.calls) before
  exists_store : ∃ file, ts.2.store = .dotenv file ∧ Carried first origin made? file disk

section

variable {view : σ → τ} {first file : DotenvFile} {made? : Option String} {s : σ}
  {origin disk : δ} {before : List (Call Unit)} {output : List String} {s' : Session σ κ δ}
  {ts ts' : Transcript × Session σ κ δ}

/-- A run that has just checked the workspace agrees with the one that is under way. -/
theorem Underway.quiet (h : Underway free view before first origin made? s disk ts)
    (hstore : ts.2.store = .dotenv file)
    (hready : Ready view ⟨s, disk, .dotenv file, none, []⟩ s') (hclient : s'.client?.isSome) :
    Quiet (Agree free view before (.dotenv file) disk) ts (⟨output, []⟩, s') := by
  refine ⟨h.errors_nil, rfl, ?_⟩
  refine ⟨h.world_eq.trans hready.world.symm, hstore, hready.store, h.disk_eq, hready.disk,
    h.client_isSome, hclient, ?_⟩
  rw [hready.calls]
  exact (List.append_nil before).symm ▸ h.calls

theorem Plan.Advanced.errors_right (h : Plan.Advanced free view before first origin made? ts ts') :
    ts'.1.errors = [] := by
  obtain ⟨_, _, -, -, ht', -⟩ := h
  exact ht'

/-- After a step, the run that was made for it has left the world and the disk from which the
next one starts. -/
theorem Underway.of_advanced (h : Plan.Advanced free view before first origin made? ts ts') :
    Underway free view (before ++ resourceCalls ts'.2.calls) first origin made? ts'.2.world
      ts'.2.disk ts := by
  obtain ⟨file, disk, hcarried, ht, ht', hagree⟩ := h
  obtain rfl := hagree.disk_right
  exact ⟨ht, hagree.world, hagree.disk_left, hagree.client_left, hagree.calls, file,
    hagree.store_left, hcarried⟩

end

/-! ### Plans in the order of a process -/

section

variable {st : Setting} {project : Project} {name : String} {service : Service}
  {deployment? : Option DeploymentSpec} {d : δ}

/-- The plan of a service, with overrides in the order of the process. -/
theorem make_inOrder (order : Kind → Overrides.Order)
    (hproject : Project.discover st.environment d = .ok project)
    (hservice : project.service name = .ok service)
    (hdeployment : service.resources.deploymentSpec name = .ok deployment?) (only : List Kind) :
    Plan.make { st with order := order } name only d = .ok ((planFor project name service
      deployment? (Plan.select only service.resources.kinds)).inOrder order) := by
  have hspec : (service.inOrder order).resources.deploymentSpec name =
      .ok (deployment?.map (·.inOrder order)) := by
    show (service.resources.inOrder order).deploymentSpec name = _
    rw [Resources.deploymentSpec_inOrder, hdeployment]
    rfl
  rw [make_of_deploymentSpec { st with order := order } hproject
    (Setting.service_of_ok _ hservice) hspec only]
  show Except.ok (planFor project name (service.inOrder order) _
    (Plan.select only (service.resources.inOrder order).kinds)) = _
  rw [Resources.kinds_inOrder]
  rfl

omit [Disk δ] in
/-- As far as the step of a kind goes, the plans of two processes differ in the order of overrides
alone, whichever kinds they are for. -/
theorem Plan.rearranged_planFor {order order' : Kind → Overrides.Order} {kind : Kind}
    (hdeployment : service.resources.deploymentSpec name = .ok deployment?)
    (horder : free ∨ ∀ c ∈ service.resources.component? kind,
      (order kind).arrange c.overrides = (order' kind).arrange c.overrides)
    (kinds kinds' : List Kind) :
    ((planFor project name service deployment? kinds).inOrder order).Rearranged free kind
      ((planFor project name service deployment? kinds').inOrder order') where
  service := rfl
  directory := rfl
  component := by
    show Option.Rel _ ((service.resources.inOrder order).component? kind)
      ((service.resources.inOrder order').component? kind)
    rw [Resources.component?_inOrder, Resources.component?_inOrder]
    cases hc : service.resources.component? kind with
    | none => exact .none
    | some c => exact .some (Component.rearranged_inOrder (horder.imp_right fun h => h c hc))
  deployment := by
    rintro rfl
    show Option.Rel _ (deployment?.map _) (deployment?.map _)
    cases deployment? with
    | none => exact .none
    | some d =>
      have hc : service.resources.component? .deployment = some d.deployment :=
        Resources.deployment_of_deploymentSpec hdeployment
      exact .some ⟨rfl, rfl,
        Component.rearranged_inOrder (horder.imp_right fun h => h d.deployment hc)⟩

omit [Disk δ] in
/-- Which overrides cannot be filled in does not depend on their order. -/
theorem Plan.StopsAt.of_inOrder {order : Kind → Overrides.Order} {p : Plan} {kind : Kind}
    {lookup : Template.Lookup} {e : Failure} (h : (p.inOrder order).StopsAt kind lookup e) :
    p.StopsAt kind lookup e := by
  obtain ⟨c, hc, source, rfl, key, t, reason, hmem, ht, hsource⟩ := h
  rw [show (p.inOrder order).resources.component? kind = _ from
    Resources.component?_inOrder order p.resources kind] at hc
  obtain ⟨c, hfound, rfl⟩ := Option.map_eq_some_iff.1 hc
  exact ⟨c, hfound, source, rfl, key, t, reason, ((order kind).perm _).mem_iff.1 hmem, ht, hsource⟩

end

/-! ### Run and run -/

section

variable [LawfulDisk δ] {w : World σ κ} {view : σ → τ} {st : Setting}
  {orders : Kind → Kind → Overrides.Order} {options : Options} {project : Project} {name : String}
  {service : Service} {deployment? : Option DeploymentSpec} {first : DotenvFile}
  {before : List (Call Unit)} {base scope : Scope} {made? : Option String} {s : σ} {d disk : δ}
  {ts : Transcript × Session σ κ δ}

variable (hw : w.DependsOnly free view) (hservice : project.service name = .ok service)
  (hdeployment : service.resources.deploymentSpec name = .ok deployment?)
  (hfound : ∀ d', DotenvFile.Written (DotenvFile.filePath project.root options.environment) d d' →
    Project.discover st.environment d' = .ok project)
  (horder : free ∨ ∀ kind, ∀ c ∈ service.resources.component? kind,
    (st.order kind).arrange c.overrides = (orders kind kind).arrange c.overrides)
  (htemplate : ∀ t ∈ service.resources.workspace?, ∀ variableName ∈ t.references,
    variableName ∉ Kind.publishKeys)
  (hopen : DotenvFile.openIn st.environment project.root options.environment d = .ok first)
  (hbase : scopeOf options (.dotenv first) = .ok base)
  (hscope : Scope.resolve (.dotenv first) base service.resources.workspace? = .ok scope)

include hw hservice hdeployment hfound horder htemplate hopen hbase hscope in
/-- The run for one kind comes to the step that the run under way comes to, and the step ends
alike. -/
theorem Underway.step (kinds : List Kind) {kind : Kind} (hkind : kind ∈ service.resources.kinds)
    (h : Underway free view before first d made? s disk ts)
    (hcheck : CheckSucceeds w st options project.root service.resources.workspace? s disk) :
    ∃ ts' file, runFor w { st with order := orders kind } options name [kind] s disk =
        Plan.finish w st scope ((planFor project name service deployment? [kind]).inOrder
          (orders kind)) [kind] none ts' ∧
      DotenvFile.openIn st.environment project.root options.environment disk = .ok file ∧
      EndAlike (fun made? _ => Plan.Advanced free view before first d made?)
        (Told free view before (.dotenv file) disk
          ((planFor project name service deployment? kinds).StopsAt kind
            (Store.dotenv file).lookup))
        ((Plan.provisionKind w st scope ((planFor project name service deployment? kinds).inOrder
          st.order) made? kind).run.run ts)
        ((Plan.provisionKind w st scope ((planFor project name service deployment? [kind]).inOrder
          (orders kind)) none kind).run.run ts') := by
  obtain ⟨file, hstore, hcarried⟩ := h.exists_store
  obtain ⟨henvironment, hpath⟩ := environment_of_openIn hopen
  have hload := hcarried.load
  have hwritten := hcarried.written
  rw [henvironment, hpath] at hload
  rw [hpath] at hwritten
  have hreopen : openSession st options project.root disk = .ok (.dotenv file, base) :=
    hcarried.openSession_eq hopen hbase
  have hresolve : Scope.resolve (.dotenv file) base service.resources.workspace? = .ok scope :=
    (hcarried.resolve_eq htemplate).trans hscope
  have hrun : ∃ output s', (((planFor project name service deployment? [kind]).inOrder
      (orders kind)).check w st base).run.run (default, ⟨s, disk, .dotenv file, none, []⟩) =
        (.ok scope, ⟨output, []⟩, s') ∧
      Ready view ⟨s, disk, .dotenv file, none, []⟩ s' ∧ s'.client?.isSome :=
    Plan.run_check_of_ok hw hresolve (hcheck _ _ _ hreopen hresolve)
  obtain ⟨output, s', hrun, hready, hclient⟩ := hrun
  refine ⟨(⟨output, []⟩, s'), file, ?_, hload, ?_⟩
  · have hmake := make_inOrder (orders kind) (hfound disk hwritten) hservice hdeployment [kind]
    rw [select_singleton hkind (nodup_kinds _)] at hmake
    rw [runFor_of_ne_nil hmake (List.cons_ne_nil _ _), Plan.run_order]
    exact Plan.run_of_check_ok hreopen hrun
  · have hspec : (service.resources.inOrder st.order).deploymentSpec name =
        .ok (deployment?.map (·.inOrder st.order)) := by
      rw [Resources.deploymentSpec_inOrder, hdeployment]
      rfl
    have hplans : ((planFor project name service deployment? kinds).inOrder st.order).Rearranged
        free kind ((planFor project name service deployment? [kind]).inOrder (orders kind)) :=
      Plan.rearranged_planFor hdeployment (horder.imp_right fun h => h kind) kinds [kind]
    refine ((Plan.alike_provisionKind hw hplans hspec hcarried).mono_error
      fun _ _ _ _ htold => ?_) _ _ (h.quiet hstore hready hclient)
    exact htold.mono fun _ => Plan.StopsAt.of_inOrder

include hw hservice hdeployment hfound horder htemplate hopen hbase hscope in
/-- From any point on, a run does what the runs for the kinds that are left do. -/
theorem splitInto_finish {kinds left : List Kind}
    (hleft : ∀ kind ∈ left, kind ∈ service.resources.kinds)
    (h : Underway free view before first d made? s disk ts)
    (hchecks : ChecksSucceed w st orders options name project.root service.resources.workspace?
      left s disk) :
    SplitInto free (StopsLast st options project.root service.resources) before disk
      (Plan.finish w st scope ((planFor project name service deployment? kinds).inOrder st.order)
        left made? ts)
      (splitRuns w st orders options name left s disk) := by
  -- Each run starts where the one before has ended, so only the plan stays the same.
  induction left generalizing made? before s disk ts with
  | nil =>
    refine ⟨?_, rfl, ?_, rfl, h.disk_eq⟩
    · exact (List.append_nil before).symm ▸ h.calls
    · rw [Plan.finish_nil, splitRuns, h.errors_nil]
      exact .same _
  | cons kind left ih =>
    obtain ⟨hcheck, hrest⟩ := hchecks
    obtain ⟨ts', file, hrun, hfile, hends⟩ := Underway.step hw hservice hdeployment hfound horder
      htemplate hopen hbase hscope kinds (hleft kind List.mem_cons_self) h hcheck
    rcases hwhole : (Plan.provisionKind w st scope ((planFor project name service deployment?
      kinds).inOrder st.order) made? kind).run.run ts with ⟨answer, ts₁⟩
    rcases hsingle : (Plan.provisionKind w st scope ((planFor project name service deployment?
      [kind]).inOrder (orders kind)) none kind).run.run ts' with ⟨answer', ts₁'⟩
    rw [hwhole, hsingle] at hends
    cases hends with
    | @ok made₁? made₁?' _ _ hadvanced =>
      rw [Plan.finish_cons_of_ok hsingle, Plan.finish_nil] at hrun
      rw [hrun] at hrest
      rw [splitRuns, hrun, if_pos rfl, Plan.finish_cons_of_ok hwhole]
      refine SplitInto.cons rfl rfl hadvanced.errors_right rfl (fun steps disk e => .cons kind) ?_
      exact ih (fun kind hkind => hleft kind (List.mem_cons_of_mem _ hkind))
        (Underway.of_advanced hadvanced) (hrest rfl)
    | @error e e' _ _ htold =>
      rw [Plan.finish_cons_of_error hsingle] at hrun
      rw [splitRuns_of_failed hrun Nat.one_ne_zero, Plan.finish_cons_of_error hwhole]
      rcases htold with ⟨herrors, rfl, store, disk', hagree⟩ | ⟨hfree, he, he', ht, ht', hagree⟩
      · refine SplitInto.single hagree.calls rfl ?_ rfl ?_
        · show SameEnd _ _ (_, _ ++ _) (_, _ ++ _)
          rw [herrors]
          exact .same _
        · exact hagree.disk_left.trans hagree.disk_right.symm
      · have hstops : ∀ e, (planFor project name service deployment? kinds).StopsAt kind
            (Store.dotenv file).lookup e → StopsLast st options project.root service.resources
              [kind] ts₁.2.disk e := by
          rintro e ⟨c, hc, hstops⟩
          rw [hagree.disk_left]
          exact ⟨kind, c, file, rfl, hc, hfile, hstops⟩
        refine SplitInto.single hagree.calls rfl ?_ rfl ?_
        · show SameEnd _ _ (_, ts₁.1.errors ++ _) (_, ts₁'.1.errors ++ _)
          rw [ht, ht']
          exact .stopped hfree (hstops e he) (hstops e' he')
        · exact hagree.disk_left.trans hagree.disk_right.symm

omit [LawfulDisk δ] in
/-- A run that fails before its steps fails in the same way for the first kind alone. -/
theorem splitInto_of_failed {Stops : List Kind → δ → Failure → Prop} {kind : Kind} {r : Run σ κ δ}
    (hwhole : runFor w st options name [] s d = r)
    (hsingle : runFor w { st with order := orders kind } options name [kind] s d = r)
    (hfailed : r.outcome.exitCode ≠ 0) (rest : List Kind) :
    SplitInto free Stops [] d (runFor w st options name [] s d)
      (splitRuns w st orders options name (kind :: rest) s d) := by
  rw [splitRuns_of_failed hsingle hfailed, hwhole]
  exact .single (List.forall₂_same.2 fun _ _ => .same _) rfl (.same _) rfl rfl

omit [LawfulDisk δ] in
/-- That a deployment is incomplete is found before any session is opened. -/
theorem splitInto_of_incomplete {Stops : List Kind → δ → Failure → Prop} {e : ProjectError}
    (hproject : Project.discover st.environment d = .ok project)
    (hservice : project.service name = .ok service)
    (hincomplete : service.resources.deploymentSpec name = .error e) :
    SplitInto free Stops [] d (runFor w st options name [] s d)
      (splitRuns w st orders options name service.resources.kinds s d) := by
  have hspec : ∀ order, (service.resources.inOrder order).deploymentSpec name = .error e := by
    intro order
    rw [Resources.deploymentSpec_inOrder, hincomplete]
    rfl
  have hfails : ∀ order only, runFor w { st with order := order } options name only s d =
      ⟨.failure (.project e) s d, [], some (.project e)⟩ :=
    fun order only => runFor_of_error (make_of_incomplete { st with order := order } hproject
      (Setting.service_of_ok _ hservice) (hspec order) only)
  obtain ⟨kind, rest, hkinds⟩ :=
    List.exists_cons_of_ne_nil (kinds_ne_nil_of_incomplete hincomplete)
  rw [hkinds]
  exact splitInto_of_failed (hfails st.order []) (hfails (orders kind) [kind]) Nat.one_ne_zero rest

include hw hservice hdeployment hfound horder htemplate in
/-- A run that opens its session comes to the steps in the same way as the run for the first
kind. -/
theorem splitInto_of_openSession {store : Store} {kind : Kind} {rest : List Kind}
    (hkinds : service.resources.kinds = kind :: rest)
    (hopened : openSession st options project.root d = .ok (store, base))
    (hwhole : runFor w st options name [] s d = ((planFor project name service deployment?
      service.resources.kinds).inOrder st.order).run w st options s d)
    (hsingle : runFor w { st with order := orders kind } options name [kind] s d =
      ((planFor project name service deployment? [kind]).inOrder (orders kind)).run w st options s
        d)
    (hchecks : ChecksSucceed w st orders options name project.root service.resources.workspace?
      service.resources.kinds s d) :
    SplitInto free (StopsLast st options project.root service.resources) [] d
      (runFor w st options name [] s d)
      (splitRuns w st orders options name service.resources.kinds s d) := by
  cases hresolve : Scope.resolve store base service.resources.workspace? with
  | error e =>
    have hcheck : ∃ ts, (((planFor project name service deployment?
        service.resources.kinds).inOrder st.order).check w st base).run.run
          (default, ⟨s, d, store, none, []⟩) = (.error (.operation e), ts) :=
      Plan.run_check_of_error hresolve
    obtain ⟨ts, hcheck⟩ := hcheck
    rw [hkinds]
    exact splitInto_of_failed (hwhole.trans (Plan.run_of_check_error hopened hcheck))
      (hsingle.trans (Plan.run_of_check_error hopened hcheck)) Nat.one_ne_zero rest
  | ok scope =>
    obtain ⟨first, rfl, hopen, hbase⟩ := exists_of_openSession hopened
    have hensure : CheckSucceeds w st options project.root service.resources.workspace? s d := by
      rw [hkinds] at hchecks
      exact hchecks.1
    have hcheck : ∃ output s', (((planFor project name service deployment?
        service.resources.kinds).inOrder st.order).check w st base).run.run
          (default, ⟨s, d, .dotenv first, none, []⟩) = (.ok scope, ⟨output, []⟩, s') ∧
        Ready view ⟨s, d, .dotenv first, none, []⟩ s' ∧ s'.client?.isSome :=
      Plan.run_check_of_ok hw hresolve (hensure _ _ _ hopened hresolve)
    obtain ⟨output, s', hcheck, hready, hclient⟩ := hcheck
    have hunderway : Underway free view [] first d none s d ((⟨output, []⟩, s') :
        Transcript × Session σ κ δ) := by
      refine ⟨rfl, hready.world, hready.disk, hclient, ?_, first, hready.store,
        carried_of_openIn hopen⟩
      rw [hready.calls]
      exact .nil
    have hrun : runFor w st options name [] s d = _ :=
      hwhole.trans (Plan.run_of_check_ok hopened hcheck)
    rw [hrun]
    exact splitInto_finish hw hservice hdeployment hfound horder htemplate hopen hbase hresolve
      (fun _ hkind => hkind) hunderway hchecks

end

section

variable [LawfulDisk δ] {w : World σ κ} {view : σ → τ} {st : Setting}
  {orders : Kind → Kind → Overrides.Order} {options : Options} {project : Project} {name : String}
  {service : Service} {s : σ} {d : δ}

/-- Splitting a run does not change its outcome.  The run that provisions all of a service
does the same as the runs for one kind of it after the other, each of which opens the store
again: the same calls about resources, up to the same step with the same failure, and the
same disk in the end.

Every run is a process with an order of overrides of its own.  Where the orders of two runs differ,
the world must not care for it; then the calls may differ in the order of overrides, and so may the
failures of a step of which several overrides cannot be filled in.  The project that is found must
not change when the environment file is written, and the workspace of the service must not depend
on names that the runs publish. -/
theorem splitInto_splitRuns (hw : w.DependsOnly free view)
    (hservice : project.service name = .ok service)
    (hfound : ∀ d', DotenvFile.Written (DotenvFile.filePath project.root options.environment) d d' →
      Project.discover st.environment d' = .ok project)
    (horder : free ∨ ∀ kind, ∀ c ∈ service.resources.component? kind,
      (st.order kind).arrange c.overrides = (orders kind kind).arrange c.overrides)
    (htemplate : ∀ t ∈ service.resources.workspace?, ∀ variableName ∈ t.references,
      variableName ∉ Kind.publishKeys)
    (hchecks : ChecksSucceed w st orders options name project.root service.resources.workspace?
      service.resources.kinds s d) :
    SplitInto free (StopsLast st options project.root service.resources) [] d
      (runFor w st options name [] s d)
      (splitRuns w st orders options name service.resources.kinds s d) := by
  have hproject : Project.discover st.environment d = .ok project := hfound d .not
  cases hdeployment : service.resources.deploymentSpec name with
  | error e => exact splitInto_of_incomplete hproject hservice hdeployment
  | ok deployment? =>
    have hall := make_inOrder st.order hproject hservice hdeployment []
    rw [select_nil] at hall
    cases hkinds : service.resources.kinds with
    | nil =>
      rw [hkinds] at hall
      rw [runFor_of_nil hall rfl]
      exact ⟨.nil, rfl, .same _, rfl, rfl⟩
    | cons kind rest =>
      -- Up to its steps, the whole run is the run for the first kind.
      have hone := make_inOrder (orders kind) hproject hservice hdeployment [kind]
      have hkind : kind ∈ service.resources.kinds := by
        rw [hkinds]
        exact List.mem_cons_self
      rw [select_singleton hkind (nodup_kinds _)] at hone
      have hwhole : runFor w st options name [] s d = _ :=
        runFor_of_ne_nil hall (List.ne_nil_of_mem hkind)
      have hsingle : runFor w { st with order := orders kind } options name [kind] s d = _ :=
        (runFor_of_ne_nil hone (List.cons_ne_nil kind [])).trans (Plan.run_order _ _ _ _)
      rw [← hkinds]
      cases hopened : openSession st options project.root d with
      | error e =>
        rw [hkinds]
        exact splitInto_of_failed (hwhole.trans (Plan.run_of_openSession_error hopened))
          (hsingle.trans (Plan.run_of_openSession_error hopened)) Nat.one_ne_zero rest
      | ok opened =>
        exact splitInto_of_openSession hw hservice hdeployment hfound horder htemplate hkinds
          hopened hwhole hsingle hchecks

end

/-! ## A small project -/

/-- A record that says nothing. -/
def blankRecord : (q : ControlPlane.Query) → q.Record
  | .workspace => ⟨none, none, none, .blank⟩
  | .container .. => ⟨none, none, none, .blank⟩
  | .environmentVersion .. => ⟨none, none, none, .blank⟩
  | .modelVersion .. => ⟨none, none, none, .blank⟩
  | .endpoint _ => ⟨none, none, none, .blank⟩
  | .deployment .. => ⟨none, none, none, .blank⟩

/-- A world that counts the programs that were run.  Endpoints are there once one was. -/
def countingWorld : World Nat Unit where
  cancelled _ := false
  connect _ n := (some (.ok ()), n)
  startTools n := (some (.ok ()), n)
  run _ _ n := (some (.ok default), n + 1)
  read _ _ q n :=
    (some (if q = .endpoint "ep" ∧ n = 0 then .error (.notFound "ep") else .ok (blankRecord q)), n)

theorem dependsOnly_countingWorld (free : Prop) : countingWorld.DependsOnly free id where
  connect _ _ := rfl
  startTools _ := rfl
  workspace _ _ _ := rfl
  cancelled _ := rfl
  run h _ _ _ _ := ⟨rfl, congrArg (· + 1) h⟩
  read h _ _ _ _ _ := by
    obtain rfl : _ = _ := h
    exact ⟨rfl, rfl⟩

/-- A service with an endpoint, and a flow that is named after it. -/
def smallService : Service :=
  ⟨".", { Resources.none with
    endpoint? := some ⟨⟨"ep"⟩, "", .empty⟩
    flow? := some ⟨⟨"$AZUREML_ENDPOINT_NAME"⟩, "", .empty⟩ }⟩

/-- A disk with a project file for that service. -/
def smallTree : FileTree :=
  ⟨[(["p"], .directory), (["p", "fleetml.yaml"], .file (.text
    ("\"services\":\n \"s\":\n  \"config\":\n   \"endpoint\":\n    \"name\": \"ep\"\n"
      ++ "   \"flow\":\n    \"name\": \"$AZUREML_ENDPOINT_NAME\"\n")) false)], ["p"]⟩

theorem checkSucceeds_countingWorld (st : Setting) (options : Options) (root : String)
    (workspace? : Option Template) (n : Nat) (d : δ) :
    CheckSucceeds countingWorld st options root workspace? n d := by
  intro store base scope _ _
  have hname : (scope.workspace.map Char.toLower != scope.workspace.map Char.toLower) = false :=
    bne_self_eq_false _
  let checked : Session Nat Unit δ := ⟨n, d, store, some (),
    [.connect scope.subscription, .startTools, .read () scope .workspace]⟩
  refine ⟨blankRecord .workspace, checked, ?_⟩
  show (do
      if scope.workspace.map Char.toLower != scope.workspace.map Char.toLower then
        throw (.workspaceMismatch scope.workspace scope.workspace)
      return blankRecord .workspace : Op Nat Unit δ Workspace).run.run checked = _
  rw [hname]
  rfl

/-- The order in which overrides are written down, from the last to the first. -/
def reversed : Overrides.Order where
  arrange o := ⟨o.entries.reverse, by
    rw [List.map_reverse]
    exact List.nodup_reverse.2 o.nodup⟩
  perm o := List.reverse_perm o.entries

/-- The same service, with two overrides for its endpoint. -/
def overriddenService : Service :=
  ⟨".", { smallService.resources with
    endpoint? := some ⟨⟨"ep"⟩, "", .ofList [("a", ⟨"1"⟩), ("b", ⟨"2"⟩)]⟩ }⟩

/-- The project of that service. -/
def overriddenProject : Project := ⟨"/p", ⟨"", KeyMap.ofList [("s", overriddenService)]⟩⟩

/-- A disk with the file of that project. -/
def overriddenTree : FileTree :=
  ⟨[(["p"], .directory), (["p", "fleetml.yaml"], .file (.text
    ("\"services\":\n \"s\":\n  \"config\":\n   \"endpoint\":\n    \"name\": \"ep\"\n"
      ++ "    \"overrides\":\n     \"a\": \"1\"\n     \"b\": \"2\"\n"
      ++ "   \"flow\":\n    \"name\": \"$AZUREML_ENDPOINT_NAME\"\n")) false)], ["p"]⟩

theorem discover_overriddenTree :
    Project.discover KeyMap.empty overriddenTree = .ok overriddenProject := by
  decide +kernel

theorem splitInto_splitRuns_overriddenTree :
    let st : Setting := ⟨KeyMap.empty, false, fun _ => 7, default⟩
    let options : Options := ⟨some "sub", some "rg", some "ws", "dev"⟩
    (runFor countingWorld st options "s" [] 0 overriddenTree).steps = [.endpoint, .flow] ∧
      SplitInto True (StopsLast st options overriddenProject.root overriddenService.resources) []
        overriddenTree (runFor countingWorld st options "s" [] 0 overriddenTree)
        (splitRuns countingWorld st (fun _ _ => reversed) options "s"
          overriddenService.resources.kinds 0 overriddenTree) := by
  intro st options
  have hcheck : ∀ n (d : FileTree), CheckSucceeds countingWorld st options overriddenProject.root
      overriddenService.resources.workspace? n d :=
    fun n d => checkSucceeds_countingWorld st options _ _ n d
  have hservice : overriddenProject.service "s" = .ok overriddenService := by decide
  have hfound : ∀ d', DotenvFile.Written (DotenvFile.filePath overriddenProject.root
      options.environment) overriddenTree d' →
      Project.discover st.environment d' = .ok overriddenProject := by
    intro d' hwritten
    have hfind : Project.find st.environment overriddenTree = .ok "/p/fleetml.yaml" := by
      decide +kernel
    rw [← discover_overriddenTree]
    exact Project.discover_of_written hwritten hfind (by decide +kernel) (by decide +kernel)
  have hchecks : ChecksSucceed countingWorld st (fun _ _ => reversed) options "s"
      overriddenProject.root overriddenService.resources.workspace?
      overriddenService.resources.kinds 0 overriddenTree :=
    ⟨hcheck _ _, fun _ => ⟨hcheck _ _, fun _ => trivial⟩⟩
  refine ⟨by decide +kernel, ?_⟩
  exact splitInto_splitRuns (dependsOnly_countingWorld True) hservice hfound (.inl trivial)
    (fun _ ht => nomatch ht) hchecks

/-- A call that is alike in the order of overrides is the same, if this order is not free. -/
theorem eq_of_alike {calls calls' : List (Call Unit)}
    (h : List.Forall₂ (Call.Alike False) calls calls') : calls = calls' := by
  have hsame : List.Forall₂ Eq calls calls' := by
    refine h.imp fun _ _ halike => ?_
    cases halike with
    | same call => rfl
    | run hargs =>
      rcases hargs with rfl | ⟨hfree, -⟩
      · rfl
      · exact hfree.elim
  exact List.forall₂_eq_eq_eq ▸ hsame

/-- The project of the small service. -/
def smallProject : Project := ⟨"/p", ⟨"", KeyMap.ofList [("s", smallService)]⟩⟩

/-- A disk with the file of that project and that of another one. -/
def twoProjects : FileTree :=
  smallTree.put ["p", "other.yaml"] (.file (.text "\"name\": \"other\"\n") false)

/-- Splitting a run can change its outcome.  Another process may go through overrides in another
order, and hand them to the program in it.  And a run may find another project than the one before
it, if the path that names a project file leads nowhere before the environment file is there. -/
theorem not_splitInto_splitRuns :
    let options : Options := ⟨some "sub", some "rg", some "ws", "dev"⟩
    let st : Setting := ⟨KeyMap.empty, false, fun _ => 7, default⟩
    let named : Setting := { st with
      environment := .ofList [("FLEETML_CONFIG_PATH", "/p/.fleetml/dev/../../other.yaml")] }
    countingWorld.DependsOnly False id ∧
      (Project.discover st.environment overriddenTree = .ok overriddenProject ∧
        overriddenProject.service "s" = .ok overriddenService ∧
        overriddenService.resources.workspace? = none ∧
        ChecksSucceed countingWorld st (fun _ _ => reversed) options "s" overriddenProject.root none
          overriddenService.resources.kinds 0 overriddenTree ∧
        ¬ SplitInto False (fun _ _ _ => False) [] overriddenTree
          (runFor countingWorld st options "s" [] 0 overriddenTree)
          (splitRuns countingWorld st (fun _ _ => reversed) options "s"
            overriddenService.resources.kinds 0 overriddenTree)) ∧
      (Project.discover named.environment twoProjects = .ok smallProject ∧
        smallProject.service "s" = .ok smallService ∧
        smallService.resources.workspace? = none ∧
        ChecksSucceed countingWorld named (fun _ => named.order) options "s" smallProject.root none
          smallService.resources.kinds 0 twoProjects ∧
        ¬ SplitInto False (fun _ _ _ => False) [] twoProjects
          (runFor countingWorld named options "s" [] 0 twoProjects)
          (splitRuns countingWorld named (fun _ => named.order) options "s"
            smallService.resources.kinds 0 twoProjects)) := by
  intro options st named
  have hcheck : ∀ (st : Setting) (root : String) n (d : FileTree),
      CheckSucceeds countingWorld st options root none n d :=
    fun st root n d => checkSucceeds_countingWorld st options root none n d
  refine ⟨dependsOnly_countingWorld False, ⟨?_, by decide, rfl, ?_, fun h => ?_⟩,
    ?_, by decide, rfl, ?_, fun h => ?_⟩
  · exact discover_overriddenTree
  · exact ⟨hcheck _ _ _ _, fun _ => ⟨hcheck _ _ _ _, fun _ => trivial⟩⟩
  · exact absurd (congrArg programsRun (eq_of_alike h.calls)) (by decide +kernel)
  · decide +kernel
  · exact ⟨hcheck _ _ _ _, fun _ => ⟨hcheck _ _ _ _, fun _ => trivial⟩⟩
  · exact absurd h.steps (by decide +kernel)

end Provisioner.Cli
