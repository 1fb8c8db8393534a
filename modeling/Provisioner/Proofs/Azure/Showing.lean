import Provisioner.Proofs.Azure.Replies
import Provisioner.Proofs.Operation.Effects

/-!
# What showing a flow says

Whether a flow is there is found out by a process that shows it.  Exit code 0 means that it is,
any other exit code that it is not, and without an exit code nothing is known.

* `Shown` says that the process is run and how it ends, and `OnEvidence` that an operation goes
  by this.
* `createFlow_of_shown` is what the operation does for every end of the process, and
  `createFlow_of_unshown` what it does if the process is not run to an end.
* `onEvidence_iff`: a process that a signal ended counts as one that failed, and the flow is
  created.  That is the one case in which the operation does not go by the evidence.
-/

namespace Provisioner

variable {σ κ δ : Type}

/-- After two exchanges nothing more is run for a flow. -/
theorem Course.program?_flow {scope : Scope} {p : Prepared} {x y : Exchange κ}
    {xs : List (Exchange κ)} {stage : Stage κ} (h : flow scope p (x :: y :: xs) = .call stage) :
    stage.call.program? = none := by
  unfold flow at h
  split at h
  · next hlist => cases hlist
  · next hlist => cases hlist
  · cases h
  · cases h

theorem Flow.Verb.eq_of_name_eq {verb verb' : Flow.Verb} (h : verb.name = verb'.name) :
    verb = verb' := by
  cases verb <;> cases verb' <;> first | rfl | exact absurd h (by decide)

/-- The run that shows a flow does nothing to it. -/
theorem Flow.Verb.name_ne_show (verb : Flow.Verb) : verb.name ≠ "show" := by
  cases verb <;> decide

namespace Azure

variable [Disk δ]

/-- The operation has its client and is not cancelled, so that it runs the process that shows a
flow; how the process ends, and the machine after it. -/
def Shown (m : Machine σ) (p : Provider) (scope : Scope) (name : String)
    (s : Session (Connection σ) ResourceManager δ) (shown : Except IoError Machine.Exit)
    (machine : σ) : Prop :=
  ∃ client opened, Op.Opens (p.world m) .flow name scope s (.ok client, opened) ∧
    m.cancelled opened.world.machine = false ∧
    m.execute p.scripts.interpreter
      (p.scripts.path .promptFlowClient :: Flow.showArguments scope name)
      opened.world.machine = (some shown, machine)

/-- The run that shows a flow. -/
def showing (scope : Scope) (q : Prepared) : Program × Arguments :=
  (.promptFlowClient, Flow.showArguments scope q.name)

/-- What is run after the process that shows a flow has ended. -/
def runsAfter (scope : Scope) (q : Prepared) :
    Except IoError Machine.Exit → List (Program × Arguments)
  | .error _ => []
  | .ok exit =>
    [(.promptFlowClient, Flow.arguments (if exit.isSuccess then .update else .create) scope q)]

/-- An operation goes by the process that shows a flow. -/
structure OnEvidence (shown : Except IoError Machine.Exit) (scope : Scope) (q : Prepared)
    (s : Session σ κ δ) (r : Except ProvisionError Flow × Session σ κ δ) : Prop where
  /-- A flow is created only if the process came to its end with a code that is no success. -/
  create : ∀ runs, Ran runs s r → ∀ rest, (.promptFlowClient, "create" :: rest) ∈ runs →
    ∃ exit code, shown = .ok exit ∧ exit.code? = some code ∧ code ≠ 0
  /-- A flow is updated only if the process came to its end with success. -/
  update : ∀ runs, Ran runs s r → ∀ rest, (.promptFlowClient, "update" :: rest) ∈ runs →
    ∃ exit, shown = .ok exit ∧ exit.code? = some 0
  /-- If it did not come to its end, the operation fails with that, nothing more is run, and
  nothing is published. -/
  unknown : (∀ exit, shown = .ok exit → exit.code? = none) →
    (∃ e, Scripts.judgeRun .promptFlowClient shown = .error e ∧
      r.1 = .error (.toolInvocation .flow q.name e)) ∧
    Ran [showing scope q] s r ∧ r.2.store = s.store ∧ r.2.disk = s.disk

/-! ## What the operation does -/

/-- A process that came to an end is an answer to one who looks whether the run failed. -/
theorem errorOf?_judgeRun (program : Program) (exit : Machine.Exit) :
    Course.errorOf? (fun e => true && e.isFailedRun) (Scripts.judgeRun program (.ok exit)) =
      none := by
  unfold Scripts.judgeRun
  dsimp only
  split <;> rfl

theorem isMiss_judgeRun (program : Program) (arguments : Arguments) (exit : Machine.Exit) :
    (Exchange.run (κ := κ) program arguments (Scripts.judgeRun program (.ok exit))).isMiss =
      !exit.isSuccess := by
  unfold Scripts.judgeRun
  dsimp only
  split
  · next hsuccess =>
    rw [hsuccess]
    rfl
  · next hfailed =>
    rw [Bool.eq_false_iff.2 hfailed]
    rfl

/-- A run that is answered has come to its end on the machine. -/
theorem exists_execute_of_given {m : Machine σ} {p : Provider} {program : Program}
    {arguments : Arguments} {s s' : Connection σ} {x : Exchange ResourceManager}
    (hcall : x.call = .run program arguments) (hgiven : x.Given (p.world m) s s') :
    ∃ shown machine,
      m.execute p.scripts.interpreter (p.scripts.path program :: arguments) s.machine =
        (some shown, machine) := by
  cases x with
  | read => cases hcall
  | run program' arguments' ended =>
    cases hcall
    rcases hexecute : m.execute p.scripts.interpreter (p.scripts.path program :: arguments)
      s.machine with ⟨_ | shown, machine⟩
    · have hrun : (p.world m).run program arguments s = (some ended, s') := hgiven
      simp only [Provider.world, Scripts.run, hexecute, Option.map_none] at hrun
      cases hrun
    · exact ⟨shown, machine, rfl⟩

section

variable {m : Machine σ} {p : Provider} {s : Session (Connection σ) ResourceManager δ}
  {scope : Scope} {q : Prepared}

/-- What is done after the process by an operation that has its client.  If the process could not
be started, the operation fails with that. -/
theorem unfolds_flow_of_execute {shown : Except IoError Machine.Exit} {machine : σ}
    {publication? : Option (List (String × String))}
    {r : Except ProvisionError Flow × Session (Connection σ) ResourceManager δ}
    (h : Course.Unfolds (p.world m) publication? (Course.flow scope q) s r)
    (hgo : m.cancelled s.world.machine = false)
    (hexecute : m.execute p.scripts.interpreter
      (p.scripts.path .promptFlowClient :: Flow.showArguments scope q.name) s.world.machine =
        (some shown, machine)) :
    Ran (showing scope q :: if m.cancelled machine then [] else runsAfter scope q shown) s r ∧
    (∀ e, shown = .error e →
      r.1 = .error (.toolInvocation .flow q.name (.launch .promptFlowClient e.message)) ∧
        r.2.store = s.store ∧ r.2.disk = s.disk) ∧
    (∀ exit, shown = .ok exit → m.cancelled machine = true →
      r.1 = .error (.cancelled .flow q.name)) := by
  let x : Exchange ResourceManager := .run .promptFlowClient (Flow.showArguments scope q.name)
    (Scripts.judgeRun .promptFlowClient shown)
  let world : Connection σ := { s.world with machine := machine }
  have hgiven : x.Given (p.world m) s.world world := by
    show (p.world m).run .promptFlowClient (Flow.showArguments scope q.name) s.world = _
    simp only [Provider.world, Scripts.run, hexecute, Option.map_some]
    rfl
  obtain ⟨hfailed, hnext⟩ := h.of_given (x := x) rfl hgo rfl hgiven
  rw [Course.failure?_run] at hfailed hnext
  cases shown with
  | error e =>
    have hafter : (if m.cancelled machine then [] else runsAfter scope q (.error e)) = [] :=
      ite_self _
    rw [hfailed _ rfl, hafter]
    refine ⟨(Ran.none _ _).of_after, fun e' he => ?_, nofun⟩
    cases he
    exact ⟨rfl, rfl, rfl⟩
  | ok exit =>
    -- Whatever the code is, and without one too, the operation goes on.
    have hrest := hnext (by rw [errorOf?_judgeRun]; rfl)
    refine ⟨?_, nofun, fun _ _ hstop => ?_⟩
    · cases hcancelled : m.cancelled machine with
      | true =>
        rw [hrest.unique (.cancelled rfl (.stopped hcancelled))]
        exact (Ran.none _ _).of_after
      | false =>
        have hran := hrest.ran_program rfl rfl hcancelled
          fun _ _ _ hstage => Course.program?_flow hstage
        have hverb : (if x.isMiss then .create else .update : Flow.Verb) =
            if exit.isSuccess then .update else .create := by
          rw [isMiss_judgeRun]
          cases exit.isSuccess <;> rfl
        rw [hverb] at hran
        exact hran.of_after
    · rw [hrest.unique (.cancelled rfl (.stopped hstop))]

/-- An operation whose process is not run, or is cut short. -/
theorem unshown_of_follows {publication? : Option (List (String × String))}
    {r : Except ProvisionError Flow × Session (Connection σ) ResourceManager δ}
    (h : Follows (p.world m) .flow q.name scope (fun _ => Course.flow scope q) publication? s r)
    (hnone : ∀ shown machine, ¬ Shown m p scope q.name s shown machine) :
    (∃ e, r.1 = .error e) ∧ (Ran [] s r ∨ Ran [showing scope q] s r) ∧
      r.2.store = s.store ∧ r.2.disk = s.disk := by
  cases h with
  | unopened hopens =>
    exact ⟨⟨_, rfl⟩, .inl (hopens.ran (Ran.none _ _)), hopens.frame⟩
  | @opened client opened _ hopens hrest =>
  cases hrest with
  | cancelled hstage hawaits =>
    obtain ⟨hstore, hdisk⟩ := hawaits.frame
    refine ⟨⟨_, rfl⟩, ?_, hstore.trans hopens.frame.1, hdisk.trans hopens.frame.2⟩
    cases hstage
    cases hawaits with
    | stopped => exact .inl (hopens.ran (Ran.none _ _))
    | dropped => exact .inr (hopens.ran ⟨_, rfl, rfl⟩)
  | failed hstage hawaits | next hstage hawaits =>
    -- With an answer the process would have come to its end.
    cases hstage
    cases hawaits with
    | @answered x _ hgo hcall hgiven =>
      obtain ⟨shown, machine, hexecute⟩ := exists_execute_of_given hcall hgiven
      exact absurd ⟨client, opened, hopens, hgo, hexecute⟩ (hnone shown machine)
  | useless hdone | finished hdone => cases hdone

variable {service : String} {c : Component} {now : Int}
  (hq : Flow.prepare s.store s.disk service c now = .ok q)
include hq

/-- What the operation does after the process.  If that could not be started, the operation fails
with that and publishes nothing. -/
theorem createFlow_of_shown {shown : Except IoError Machine.Exit} {machine : σ}
    (hshown : Shown m p scope q.name s shown machine) :
    let r := (Op.createFlow (p.world m) scope service c now).run.run s
    Ran (showing scope q :: if m.cancelled machine then [] else runsAfter scope q shown) s r ∧
      (∀ e, shown = .error e →
        r.1 = .error (.toolInvocation .flow q.name (.launch .promptFlowClient e.message)) ∧
          r.2.store = s.store ∧ r.2.disk = s.disk) ∧
      (∀ exit, shown = .ok exit → m.cancelled machine = true →
        r.1 = .error (.cancelled .flow q.name)) := by
  intro r
  obtain ⟨client, opened, hopens, hgo, hexecute⟩ := hshown
  have hfollows : Follows (p.world m) .flow q.name scope (fun _ => Course.flow scope q)
      (some (Flow.publication q)) s r :=
    (follows_createFlow (p.world m) scope s service c now).2 q hq
  obtain ⟨hstore, hdisk⟩ := hopens.frame
  obtain ⟨hran, hlaunch, hcancelled⟩ :=
    unfolds_flow_of_execute (hfollows.unfolds_of_opens hopens) hgo hexecute
  refine ⟨hopens.ran hran, fun e he => ?_, hcancelled⟩
  obtain ⟨hr, hstore', hdisk'⟩ := hlaunch e he
  exact ⟨hr, hstore'.trans hstore, hdisk'.trans hdisk⟩

/-- If the process is not run, or is cut short, the operation fails and publishes nothing. -/
theorem createFlow_of_unshown
    (hnone : ∀ shown machine, ¬ Shown m p scope q.name s shown machine) :
    let r := (Op.createFlow (p.world m) scope service c now).run.run s
    (∃ e, r.1 = .error e) ∧ (Ran [] s r ∨ Ran [showing scope q] s r) ∧
      r.2.store = s.store ∧ r.2.disk = s.disk :=
  unshown_of_follows ((follows_createFlow (p.world m) scope s service c now).2 q hq) hnone

end

/-! ## When it goes by the evidence -/

/-- What is done to a flow after it was shown is what the process says. -/
theorem exists_of_mem_runsAfter {scope : Scope} {q : Prepared}
    {shown : Except IoError Machine.Exit} {verb : Flow.Verb} {rest : Arguments}
    (h : (.promptFlowClient, verb.name :: rest) ∈ runsAfter scope q shown) :
    ∃ exit, shown = .ok exit ∧ verb = if exit.isSuccess then .update else .create := by
  cases shown with
  | error e => cases h
  | ok exit =>
    have harguments := (Prod.mk.inj (List.mem_singleton.1 h)).2
    exact ⟨exit, rfl, Flow.Verb.eq_of_name_eq (List.cons.inj harguments).1⟩

section

variable {m : Machine σ} {p : Provider} {s : Session (Connection σ) ResourceManager δ}
  {scope : Scope} {service : String} {c : Component} {now : Int} {q : Prepared}
  (hq : Flow.prepare s.store s.disk service c now = .ok q)
include hq

/-- The operation goes by a process that came to an end by itself or could not be started. -/
theorem onEvidence_of_shown {shown : Except IoError Machine.Exit} {machine : σ}
    (hshown : Shown m p scope q.name s shown machine)
    (hended : ¬ ∃ exit, shown = .ok exit ∧ exit.code? = none) :
    OnEvidence shown scope q s ((Op.createFlow (p.world m) scope service c now).run.run s) := by
  obtain ⟨hran, hlaunch, -⟩ := createFlow_of_shown hq hshown
  have hafter : ∀ runs, Ran runs s ((Op.createFlow (p.world m) scope service c now).run.run s) →
      ∀ (verb : Flow.Verb) rest, (.promptFlowClient, verb.name :: rest) ∈ runs →
      ∃ exit, shown = .ok exit ∧ verb = if exit.isSuccess then .update else .create := by
    intro runs hruns verb rest hmem
    rw [hruns.unique hran] at hmem
    rcases List.mem_cons.1 hmem with hshow | hlater
    · exact absurd (List.cons.inj (Prod.mk.inj hshow).2).1 verb.name_ne_show
    · split at hlater
      · cases hlater
      · exact exists_of_mem_runsAfter hlater
  refine ⟨fun runs hruns rest hmem => ?create, fun runs hruns rest hmem => ?update,
    fun hnone => ?unknown⟩
  case create =>
    obtain ⟨exit, rfl, hverb⟩ := hafter runs hruns .create rest hmem
    cases hcode : exit.code? with
    | none => exact absurd ⟨exit, rfl, hcode⟩ hended
    | some code =>
      refine ⟨exit, code, rfl, hcode, ?_⟩
      rintro rfl
      rw [Machine.Exit.isSuccess, hcode] at hverb
      cases hverb
  case update =>
    obtain ⟨exit, rfl, hverb⟩ := hafter runs hruns .update rest hmem
    refine ⟨exit, rfl, ?_⟩
    split at hverb
    · next hsuccess => exact eq_of_beq hsuccess
    · cases hverb
  case unknown =>
    cases shown with
    | ok exit => exact absurd ⟨exit, rfl, hnone exit rfl⟩ hended
    | error e =>
      obtain ⟨hr, hframe⟩ := hlaunch e rfl
      have hruns : (if m.cancelled machine then [] else runsAfter scope q (.error e)) = [] :=
        ite_self _
      rw [hruns] at hran
      exact ⟨⟨_, rfl, hr⟩, hran, hframe⟩

/-- It does not go by a process that a signal ended: it goes on as if the flow were not there. -/
theorem not_onEvidence_of_shown {exit : Machine.Exit} {machine : σ} (hcode : exit.code? = none)
    (hshown : Shown m p scope q.name s (.ok exit) machine) :
    ¬ OnEvidence (.ok exit) scope q s
      ((Op.createFlow (p.world m) scope service c now).run.run s) := by
  intro hevidence
  obtain ⟨hran, -, hcancelled⟩ := createFlow_of_shown hq hshown
  obtain ⟨⟨e, -, hr⟩, hshow, -⟩ := hevidence.unknown fun exit' h => by cases h; exact hcode
  cases hstop : m.cancelled machine with
  | true => cases hr.symm.trans (hcancelled exit rfl hstop)
  | false =>
    rw [hstop] at hran
    cases hshow.unique hran

end

/-- After a process that showed a flow and ended, what the operation runs is what its end says,
unless it is cancelled before.  It goes by the evidence but for a process that a signal ended,
which it takes for one that failed.  Without the end of such a process it does nothing more. -/
theorem onEvidence_iff (m : Machine σ) (p : Provider)
    (s : Session (Connection σ) ResourceManager δ) (scope : Scope) (service : String)
    (c : Component) (now : Int) {q : Prepared}
    (hq : Flow.prepare s.store s.disk service c now = .ok q) :
    let r := (Op.createFlow (p.world m) scope service c now).run.run s
    (∀ shown machine, Shown m p scope q.name s shown machine →
      Ran (showing scope q :: if m.cancelled machine then [] else runsAfter scope q shown) s r ∧
        (OnEvidence shown scope q s r ↔ ¬ ∃ exit, shown = .ok exit ∧ exit.code? = none)) ∧
    ((∀ shown machine, ¬ Shown m p scope q.name s shown machine) →
      (∃ e, r.1 = .error e) ∧ (Ran [] s r ∨ Ran [showing scope q] s r) ∧
        r.2.store = s.store ∧ r.2.disk = s.disk) := by
  intro r
  refine ⟨fun shown machine hshown => ?_, createFlow_of_unshown hq⟩
  refine ⟨(createFlow_of_shown hq hshown).1, fun hevidence => ?_, onEvidence_of_shown hq hshown⟩
  rintro ⟨exit, rfl, hcode⟩
  exact not_onEvidence_of_shown hq hcode hshown hevidence

/-- A machine on which every process ends alike. -/
def endingMachine (ended : Except IoError Machine.Exit) : Machine Unit where
  cancelled _ := false
  now s := (0, s)
  isFile _ _ := true
  execute _ _ s := (some ended, s)
  request _ s := (some (.error ""), s)

/-- An operation on a flow on that machine. -/
def endingFlow (ended : Except IoError Machine.Exit) (scope : Scope)
    (s : Session (Connection Unit) ResourceManager FileTree) :
    Except ProvisionError Flow × Session (Connection Unit) ResourceManager FileTree :=
  (Op.createFlow (publicProvider.world (endingMachine ended)) scope "svc" Course.thing 7).run.run s

/-- A session that has its client. -/
def clientSession : Session (Connection Unit) ResourceManager FileTree :=
  ⟨.new (), Course.definitionTree, .memory ⟨KeyMap.ofList [("NAME", "thing")]⟩,
    some ⟨ResourceManager.publicBase⟩, []⟩

theorem onEvidence_iff_endingMachine :
    let scope : Scope := ⟨"sub", "rg", "ws"⟩
    let q : Prepared := ⟨"thing-7", "svc/thing.yml", []⟩
    let s := clientSession
    let failed : Except IoError Machine.Exit := .ok ⟨some 1, [], []⟩
    let unstarted : Except IoError Machine.Exit := .error .notFound
    Ran [showing scope q, (.promptFlowClient, Flow.arguments .create scope q)] s
        (endingFlow failed scope s) ∧
      OnEvidence failed scope q s (endingFlow failed scope s) ∧
      Ran [showing scope q] s (endingFlow unstarted scope s) ∧
      OnEvidence unstarted scope q s (endingFlow unstarted scope s) := by
  intro scope q s failed unstarted
  have hq : Flow.prepare s.store s.disk "svc" Course.thing 7 = .ok q := by decide +kernel
  have hshown : ∀ ended, Shown (endingMachine ended) publicProvider scope q.name s ended () :=
    fun _ => ⟨_, s, .there rfl rfl, rfl, rfl⟩
  have hall (ended : Except IoError Machine.Exit) :=
    (onEvidence_iff (endingMachine ended) publicProvider s scope "svc" Course.thing 7 hq).1
      ended () (hshown ended)
  have hcode : ¬ ∃ exit, failed = .ok exit ∧ exit.code? = none := by
    rintro ⟨exit, h, hcode⟩
    obtain rfl := Except.ok.inj h
    cases hcode
  exact ⟨(hall failed).1, (hall failed).2.2 hcode, (hall unstarted).1, (hall unstarted).2.2 nofun⟩

/-- A process that a signal ended says nothing about the flow, but the flow is created. -/
theorem not_forall_onEvidence :
    ¬ ∀ shown, OnEvidence shown ⟨"sub", "rg", "ws"⟩ ⟨"thing-7", "svc/thing.yml", []⟩ clientSession
      (endingFlow shown ⟨"sub", "rg", "ws"⟩ clientSession) := by
  intro hall
  have hq : Flow.prepare clientSession.store clientSession.disk "svc" Course.thing 7 =
      .ok ⟨"thing-7", "svc/thing.yml", []⟩ := by decide +kernel
  let killed : Machine.Exit := ⟨none, [], []⟩
  have hshown : Shown (endingMachine (.ok killed)) publicProvider ⟨"sub", "rg", "ws"⟩ "thing-7"
      clientSession (.ok killed) () := ⟨_, clientSession, .there rfl rfl, rfl, rfl⟩
  exact not_onEvidence_of_shown hq rfl hshown (hall (.ok killed))

end Azure

end Provisioner
