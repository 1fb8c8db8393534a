import Provisioner.Proofs.Operation.Cancellation
import Provisioner.Proofs.Store.Batches

/-!
# What an operation leaves behind

Whatever the world answers, and whether or not it cancels, an operation that keeps to a
course leaves one of a few things behind.

* `Store.get?_of_setAll` is what storing pairs does to a later look-up.
* `Stores` says what is in the store and on the disk afterwards: all that the operation
  publishes if it has a result, and nothing new if it failed before it published.
* `Course.Calls` are the calls that a course leads to, up to any of them; `programsRun` and
  `containersRead` pick some of them out, and `Ran` are the programs that an operation ran.
* `Course.Unfolds.of_given` is how an operation goes on whose next call is answered, and
  `Course.Unfolds.ran_program` what it runs if the next call is a run and the last one.
* `follows_createEnvironmentVersion` and its siblings are the operations that make something;
  `Follows.stores` and `Follows.calls` are what each of them leaves behind.
-/

namespace Provisioner

variable {σ κ δ α β : Type}

/-! ## The store -/

/-- In a store of either sort a key holds the value that was stored last under it, or else what
it held before. -/
theorem Store.get?_of_setAll [Disk δ] {pairs : List (String × String)} {store store' : Store}
    {disk disk' : δ} (h : store.setAll pairs disk = (.ok (), store', disk')) (key : String) :
    store'.get? key = (pairs.reverse.lookup key).or (store.get? key) := by
  cases store with
  | memory m =>
    rcases hset : m.setAll pairs with ⟨answer, m'⟩
    have h : (answer, Store.memory m', disk) = (.ok (), store', disk') := by
      rw [← h, Store.setAll, hset]
    cases h
    show m'.values.get? key = _
    rw [Memory.values_of_setAll hset]
    exact KeyMap.get?_insertAll m.values pairs key
  | dotenv file =>
    rcases hset : file.setAll pairs disk with ⟨answer, file', disk''⟩
    have h : (answer, Store.dotenv file', disk'') = (.ok (), store', disk') := by
      rw [← h, Store.setAll, hset]
    cases h
    obtain ⟨-, rfl, -⟩ := DotenvFile.setAll_of_ok hset
    exact DotenvFile.get?_insertAll file pairs key

/-- What an operation has stored when it ends.  If the store itself fails, a part of what is
published may be stored, of which nothing is said. -/
structure Stores [Disk δ] (pairs : List (String × String)) (s : Session σ κ δ)
    (r : Except ProvisionError α × Session σ κ δ) : Prop where
  /-- A result means that all is stored. -/
  ok : ∀ a, r.1 = .ok a → s.store.setAll pairs s.disk = (.ok (), r.2.store, r.2.disk)
  /-- Any other error means that nothing is. -/
  error : ∀ e, r.1 = .error e → (∀ e', e ≠ .store e') →
    r.2.store = s.store ∧ r.2.disk = s.disk

namespace Course

section

variable [Disk δ] {w : World σ κ} {course : Course κ α} {s : Session σ κ δ}
  {r : Except ProvisionError α × Session σ κ δ}

theorem Unfolds.stores {pairs : List (String × String)}
    (h : Unfolds w (some pairs) course s r) : Stores pairs s r := by
  rcases h.exists_conclude with ⟨⟨e, he⟩, hframe⟩ | ⟨a, s', hstore, hdisk, rfl⟩
  · refine ⟨fun a ha => ?_, fun _ _ _ => hframe⟩
    rw [he] at ha
    cases ha
  rcases hset : s'.store.setAll pairs s'.disk with ⟨answer, store, disk⟩
  cases answer with
  | ok _ =>
    rw [conclude_of_ok hset]
    rw [hstore, hdisk] at hset
    exact ⟨fun _ _ => hset, fun _ he => nomatch he⟩
  | error e =>
    rw [conclude_of_error hset]
    refine ⟨fun _ ha => (nomatch ha), fun e' he hother => ?_⟩
    exact absurd (Except.error.inj he).symm (hother e)

/-- A course that publishes nothing leaves the store and the disk alone. -/
theorem Unfolds.frame_of_none (h : Unfolds w none course s r) :
    r.2.store = s.store ∧ r.2.disk = s.disk := by
  rcases h.exists_conclude with ⟨-, hframe⟩ | ⟨a, s', hstore, hdisk, rfl⟩
  · exact hframe
  · exact ⟨hstore, hdisk⟩

end

/-! ## The calls -/

end Course

/-- The program that a call runs, with its arguments. -/
def Call.program? : Call κ → Option (Program × Arguments)
  | .run program arguments => some (program, arguments)
  | _ => none

/-- The container that a call reads. -/
def Call.container? : Call κ → Option (ControlPlane.Family × String)
  | .read _ _ (.container family name) => some (family, name)
  | _ => none

/-- The runs of programs among calls. -/
def programsRun (calls : List (Call κ)) : List (Program × Arguments) :=
  calls.filterMap Call.program?

/-- The programs that an operation ran. -/
def Ran (runs : List (Program × Arguments)) (s : Session σ κ δ)
    (r : Except ProvisionError α × Session σ κ δ) : Prop :=
  ∃ calls, r.2.calls = s.calls ++ calls ∧ programsRun calls = runs

theorem Ran.none (s : Session σ κ δ) (answer : Except ProvisionError α) : Ran [] s (answer, s) :=
  ⟨[], (List.append_nil _).symm, rfl⟩

/-- Exchanges come before what is run after them. -/
theorem Ran.of_after {runs : List (Program × Arguments)} {s : Session σ κ δ}
    {xs : List (Exchange κ)} {world : σ} {r : Except ProvisionError α × Session σ κ δ}
    (h : Ran runs (s.after xs world) r) :
    Ran (programsRun (xs.map Exchange.call) ++ runs) s r := by
  obtain ⟨calls, hcalls, rfl⟩ := h
  refine ⟨xs.map Exchange.call ++ calls, ?_, List.filterMap_append⟩
  rw [hcalls]
  exact List.append_assoc _ _ _

theorem Ran.unique {runs runs' : List (Program × Arguments)} {s : Session σ κ δ}
    {r : Except ProvisionError α × Session σ κ δ} (h : Ran runs s r) (h' : Ran runs' s r) :
    runs = runs' := by
  obtain ⟨calls, hcalls, rfl⟩ := h
  obtain ⟨calls', hcalls', rfl⟩ := h'
  rw [List.append_cancel_left (hcalls.symm.trans hcalls')]

/-- The containers that are read by calls. -/
def containersRead (calls : List (Call κ)) : List (ControlPlane.Family × String) :=
  calls.filterMap Call.container?

namespace Course

/-- The calls that an operation makes that keeps to a course, whatever it is answered, and its
result if it has one.  It may end before each of them, and after it. -/
inductive Calls : Course κ α → List (Call κ) → Option α → Prop
  | stop {course : Course κ α} : Calls course [] none
  | last {course : Course κ α} {stage : Stage κ} : course [] = .call stage →
    Calls course [stage.call] none
  | done {course : Course κ α} {a : α} : course [] = .done (.ok a) → Calls course [] (some a)
  | next {course : Course κ α} {stage : Stage κ} {x : Exchange κ} {calls : List (Call κ)}
    {a? : Option α} : course [] = .call stage → x.call = stage.call →
    Calls (course.after [x]) calls a? → Calls course (stage.call :: calls) a?

/-- An operation ends before a stage, or at it, or goes on. -/
theorem Calls.stage_cases {course : Course κ α} {calls : List (Call κ)} {a? : Option α}
    {stage : Stage κ} (h : course.Calls calls a?) (hstage : course [] = .call stage) :
    calls = [] ∧ a? = none ∨ calls = [stage.call] ∧ a? = none ∨
      ∃ x rest, calls = stage.call :: rest ∧ x.call = stage.call ∧
        (course.after [x]).Calls rest a? := by
  cases h with
  | stop => exact .inl ⟨rfl, rfl⟩
  | last hstage' =>
    cases hstage.symm.trans hstage'
    exact .inr (.inl ⟨rfl, rfl⟩)
  | done hdone => cases hstage.symm.trans hdone
  | next hstage' hcall hrest =>
    cases hstage.symm.trans hstage'
    exact .inr (.inr ⟨_, _, rfl, hcall, hrest⟩)

/-- An operation with a result went through every stage of its course. -/
theorem Calls.of_stage {course : Course κ α} {calls : List (Call κ)} {a : α} {stage : Stage κ}
    (h : course.Calls calls (some a)) (hstage : course [] = .call stage) :
    ∃ x rest, calls = stage.call :: rest ∧ x.call = stage.call ∧
      (course.after [x]).Calls rest (some a) := by
  rcases h.stage_cases hstage with ⟨-, hnone⟩ | ⟨-, hnone⟩ | hrest
  · cases hnone
  · cases hnone
  · exact hrest

/-- At the end of a course nothing more is called. -/
theorem Calls.eq_nil {course : Course κ α} {calls : List (Call κ)} {a? : Option α}
    (h : course.Calls calls a?) (hend : ∀ stage, course [] ≠ .call stage) : calls = [] := by
  cases h with
  | stop | done => rfl
  | last hstage | next hstage => exact absurd hstage (hend _)

theorem Unfolds.calls [Disk δ] {w : World σ κ}
    {publication? : Option (List (String × String))} {course : Course κ α} {s : Session σ κ δ}
    {r : Except ProvisionError α × Session σ κ δ} (h : Unfolds w publication? course s r) :
    ∃ calls, r.2.calls = s.calls ++ calls ∧ Calls course calls r.1.toOption := by
  induction h with
  | cancelled hstage hawaits =>
    cases hawaits with
    | stopped => exact ⟨[], (List.append_nil _).symm, .stop⟩
    | dropped => exact ⟨_, rfl, .last hstage⟩
  | failed hstage hawaits =>
    cases hawaits with
    | answered _ hcall => exact ⟨_, congrArg (_ ++ [·]) hcall, .last hstage⟩
  | next hstage hawaits _ _ ih =>
    cases hawaits with
    | answered _ hcall =>
      obtain ⟨calls, hcalls, hrest⟩ := ih
      refine ⟨_ :: calls, ?_, .next hstage hcall hrest⟩
      rw [hcalls, ← hcall]
      exact List.append_assoc _ _ _
  | useless => exact ⟨[], (List.append_nil _).symm, .stop⟩
  | @finished _ s a hdone =>
    cases publication? with
    | none => exact ⟨[], (List.append_nil _).symm, .done hdone⟩
    | some pairs =>
      rcases hset : s.store.setAll pairs s.disk with ⟨answer, store, disk⟩
      cases answer with
      | ok _ =>
        rw [conclude_of_ok hset]
        exact ⟨[], (List.append_nil _).symm, .done hdone⟩
      | error e =>
        rw [conclude_of_error hset]
        exact ⟨[], (List.append_nil _).symm, .stop⟩

end Course

/-- Calls run no program, if the course asks for no run. -/
theorem Course.Calls.programsRun_eq_nil {course : Course κ α} {calls : List (Call κ)}
    {a? : Option α} (h : course.Calls calls a?)
    (hnone : ∀ xs stage, course xs = .call stage → stage.call.program? = none) :
    programsRun calls = [] := by
  induction h with
  | stop | done => rfl
  | last hstage =>
    have hcall := hnone _ _ hstage
    rw [programsRun, List.filterMap_cons_none hcall]
    rfl
  | next hstage _ _ ih =>
    have hcall := hnone _ _ hstage
    rw [programsRun, List.filterMap_cons_none hcall]
    exact ih fun xs stage hlater => hnone _ stage hlater

/-! ### Opening a client -/

/-- What is picked out of calls is picked out behind the opening of a client, if nothing of the
opening is. -/
theorem filterMap_append_of_opening {opening : List (Call κ)} {subscription : String}
    (h : opening <+: [.connect subscription, .startTools]) {pick : Call κ → Option β}
    (hpick : [.connect subscription, .startTools].filterMap pick = []) (calls : List (Call κ)) :
    (opening ++ calls).filterMap pick = calls.filterMap pick := by
  have hfront := h.filterMap pick
  rw [hpick] at hfront
  rw [List.filterMap_append, List.prefix_nil.1 hfront]
  rfl

/-- Opening a client runs no program and reads no container. -/
theorem programsRun_append_of_opening {opening : List (Call κ)} {subscription : String}
    (h : opening <+: [.connect subscription, .startTools]) (calls : List (Call κ)) :
    programsRun (opening ++ calls) = programsRun calls :=
  filterMap_append_of_opening h rfl calls

theorem containersRead_append_of_opening {opening : List (Call κ)} {subscription : String}
    (h : opening <+: [.connect subscription, .startTools]) (calls : List (Call κ)) :
    containersRead (opening ++ calls) = containersRead calls :=
  filterMap_append_of_opening h rfl calls

/-- Opening a client calls nobody but those who set it up. -/
theorem Op.Opens.calls {w : World σ κ} {kind : Kind} {name : String} {scope : Scope}
    {s : Session σ κ δ} {r : Except ProvisionError κ × Session σ κ δ}
    (h : Op.Opens w kind name scope s r) :
    ∃ opening, r.2.calls = s.calls ++ opening ∧
      opening <+: [.connect scope.subscription, .startTools] := by
  have hnone : s.calls = s.calls ++ [] := (List.append_nil s.calls).symm
  have hconnect : [Call.connect scope.subscription] <+:
      [Call.connect (κ := κ) scope.subscription, .startTools] := ⟨[.startTools], rfl⟩
  cases h with
  | cancelled h =>
    cases h with
    | before => exact ⟨[], hnone, List.nil_prefix⟩
    | connecting => exact ⟨_, rfl, hconnect⟩
    | starting => exact ⟨_, rfl, List.prefix_rfl⟩
  | there => exact ⟨[], hnone, List.nil_prefix⟩
  | unconnected => exact ⟨_, rfl, hconnect⟩
  | unready | opened => exact ⟨_, rfl, List.prefix_rfl⟩

/-- What is run with a client is all that is run. -/
theorem Op.Opens.ran {w : World σ κ} {kind : Kind} {name : String} {scope : Scope}
    {s s' : Session σ κ δ} {client : Except ProvisionError κ}
    {runs : List (Program × Arguments)} {r : Except ProvisionError α × Session σ κ δ}
    (h : Op.Opens w kind name scope s (client, s')) (hran : Ran runs s' r) : Ran runs s r := by
  obtain ⟨opening, hopening, hfront⟩ := h.calls
  obtain ⟨calls, hcalls, rfl⟩ := hran
  rw [hopening, List.append_assoc] at hcalls
  exact ⟨_, hcalls, programsRun_append_of_opening hfront calls⟩

/-! ## Answers that are known -/

namespace Course

variable [Disk δ] {w : World σ κ} {course : Course κ α}
  {publication? : Option (List (String × String))} {s : Session σ κ δ}
  {r : Except ProvisionError α × Session σ κ δ} {stage : Stage κ}

/-- An operation whose next call is answered fails with the answer, or goes on with it. -/
theorem Unfolds.of_given (h : Unfolds w publication? course s r) {x : Exchange κ} {world : σ}
    (hstage : course [] = .call stage) (hgo : w.cancelled s.world = false)
    (hcall : x.call = stage.call) (hgiven : x.Given w s.world world) :
    (∀ e, stage.failure? x = some e → r = (.error e, s.after [x] world)) ∧
      (stage.failure? x = none →
        Unfolds w publication? (course.after [x]) (s.after [x] world) r) := by
  have hanswered : Awaits w stage.call s (some x) (s.after [x] world) :=
    .answered hgo hcall hgiven
  cases h with
  | cancelled hstage' hawaits =>
    cases hstage.symm.trans hstage'
    cases (hanswered.unique hawaits).1
  | failed hstage' hawaits hfailure =>
    cases hstage.symm.trans hstage'
    obtain ⟨hx, rfl⟩ := hanswered.unique hawaits
    cases hx
    refine ⟨fun e he => ?_, fun hnone => ?_⟩
    · cases hfailure.symm.trans he
      rfl
    · cases hfailure.symm.trans hnone
  | next hstage' hawaits hfailure hrest =>
    cases hstage.symm.trans hstage'
    obtain ⟨hx, rfl⟩ := hanswered.unique hawaits
    cases hx
    refine ⟨fun e he => ?_, fun _ => hrest⟩
    cases hfailure.symm.trans he
  | useless hdone | finished hdone => cases hstage.symm.trans hdone

/-- Unless it is cancelled by then, an operation that is to run a program runs it. -/
theorem Unfolds.exists_run (h : Unfolds w publication? course s r) {program : Program}
    {arguments : Arguments} (hstage : course [] = .call stage)
    (hcall : stage.call = .run program arguments) (hgo : w.cancelled s.world = false) :
    ∃ ended calls, r.2.calls = s.calls ++ .run program arguments :: calls ∧
      (course.after [.run program arguments ended]).Calls calls r.1.toOption := by
  rcases hrun : w.run program arguments s.world with ⟨_ | ended, world⟩
  · -- A run that is dropped has been made all the same.
    have hdropped : stage.call.Dropped w s.world world := by
      rw [hcall]
      exact hrun
    rw [h.unique (.cancelled hstage (.dropped hgo hdropped))]
    exact ⟨.error (.unavailable ""), [], by rw [hcall], .stop⟩
  let x : Exchange κ := .run program arguments ended
  have hgiven : x.Given w s.world world := hrun
  obtain ⟨hfailed, hnext⟩ := h.of_given (x := x) hstage hgo hcall.symm hgiven
  refine ⟨ended, ?_⟩
  cases hfailure : stage.failure? x with
  | some e =>
    rw [hfailed e hfailure]
    exact ⟨[], rfl, .stop⟩
  | none =>
    obtain ⟨calls, hcalls, hmade⟩ := (hnext hfailure).calls
    refine ⟨calls, ?_, hmade⟩
    rw [hcalls]
    exact List.append_assoc _ _ _

/-- An operation that asks for no run runs nothing. -/
theorem Unfolds.ran_nothing (h : Unfolds w publication? course s r)
    (hnone : ∀ xs stage, course xs = .call stage → stage.call.program? = none) : Ran [] s r := by
  obtain ⟨calls, hcalls, hmade⟩ := h.calls
  exact ⟨calls, hcalls, hmade.programsRun_eq_nil hnone⟩

/-- Unless it is cancelled by then, an operation that is to run one program runs that one. -/
theorem Unfolds.ran_program (h : Unfolds w publication? course s r) {program : Program}
    {arguments : Arguments} (hstage : course [] = .call stage)
    (hcall : stage.call = .run program arguments) (hgo : w.cancelled s.world = false)
    (hnone : ∀ x xs stage, course (x :: xs) = .call stage → stage.call.program? = none) :
    Ran [(program, arguments)] s r := by
  obtain ⟨ended, calls, hcalls, hmade⟩ := h.exists_run hstage hcall hgo
  have hquiet := hmade.programsRun_eq_nil fun xs stage hlater => hnone _ xs stage hlater
  exact ⟨_, hcalls, congrArg (_ :: ·) hquiet⟩

end Course

/-! ## Operations on a resource -/

namespace Follows

variable [Disk δ] {w : World σ κ} {kind : Kind} {name : String} {scope : Scope}
  {course : κ → Course κ α} {s : Session σ κ δ} {r : Except ProvisionError α × Session σ κ δ}

theorem stores {pairs : List (String × String)}
    (h : Follows w kind name scope course (some pairs) s r) : Stores pairs s r := by
  cases h with
  | unopened hopens => exact ⟨fun _ ha => (nomatch ha), fun _ _ _ => hopens.frame⟩
  | opened hopens hrest =>
    obtain ⟨hstore, hdisk⟩ := hopens.frame
    obtain ⟨hok, herror⟩ := hrest.stores
    rw [hstore, hdisk] at hok herror
    exact ⟨hok, herror⟩

theorem frame_of_none (h : Follows w kind name scope course none s r) :
    r.2.store = s.store ∧ r.2.disk = s.disk := by
  cases h with
  | unopened hopens => exact hopens.frame
  | opened hopens hrest =>
    obtain ⟨hstore, hdisk⟩ := hrest.frame_of_none
    exact ⟨hstore.trans hopens.frame.1, hdisk.trans hopens.frame.2⟩

/-- An operation that has got its client goes on with it. -/
theorem unfolds_of_opens {publication? : Option (List (String × String))} {client : κ}
    {opened : Session σ κ δ} (h : Follows w kind name scope course publication? s r)
    (hopens : Op.Opens w kind name scope s (.ok client, opened)) :
    Course.Unfolds w publication? (course client) opened r := by
  cases h with
  | unopened hopens' => cases hopens.unique hopens'
  | opened hopens' hrest =>
    cases hopens.unique hopens'
    exact hrest

/-- An operation that has a client and is not cancelled goes on with it. -/
theorem unfolds {publication? : Option (List (String × String))} {client : κ}
    (h : Follows w kind name scope course publication? s r) (hgo : w.cancelled s.world = false)
    (hclient : s.client? = some client) :
    Course.Unfolds w publication? (course client) s r :=
  h.unfolds_of_opens (.there hgo hclient)

/-- The calls that an operation makes with its client, if it gets one. -/
inductive Made (course : κ → Course κ α) : List (Call κ) → Option α → Prop
  | unopened : Made course [] none
  | opened {client : κ} {calls : List (Call κ)} {a? : Option α} :
    (course client).Calls calls a? → Made course calls a?

/-- An operation opens its client and then makes the calls of its course. -/
theorem calls {publication? : Option (List (String × String))}
    (h : Follows w kind name scope course publication? s r) :
    ∃ opening calls, r.2.calls = s.calls ++ opening ++ calls ∧
      opening <+: [.connect scope.subscription, .startTools] ∧
      Made course calls r.1.toOption := by
  cases h with
  | unopened hopens =>
    obtain ⟨opening, hcalls, hopening⟩ := hopens.calls
    exact ⟨opening, [], hcalls.trans (List.append_nil _).symm, hopening, .unopened⟩
  | opened hopens hrest =>
    obtain ⟨opening, hfirst, hopening⟩ := hopens.calls
    obtain ⟨calls, hcalls, hmade⟩ := hrest.calls
    rw [hfirst] at hcalls
    exact ⟨opening, calls, hcalls, hopening, .opened hmade⟩

end Follows

section

variable [Disk δ] (w : World σ κ) (scope : Scope) (s : Session σ κ δ) (service : String)

theorem follows_createEnvironmentVersion (c : Component) :
    OnceFilled (EnvironmentVersion.prepare s.store s.disk service c) s
      (fun p => Follows w .environment p.name scope (Course.environment · scope p)
        (some (EnvironmentVersion.publication p)) s)
      ((Op.createEnvironmentVersion w scope service c).run.run s) := by
  refine onceFilled_prepared (EnvironmentVersion.prepare · · service c)
    (.definitionFirst s.store s.disk _ service c) fun p => ?_
  exact follows_connected fun client s' => Course.unfolds_environment w client scope s' p

theorem follows_createModelVersion (c : Component) :
    OnceFilled (ModelVersion.prepare s.store s.disk service c) s
      (fun p => Follows w .model p.name scope (Course.model · scope p)
        (some (ModelVersion.publication p)) s)
      ((Op.createModelVersion w scope service c).run.run s) := by
  refine onceFilled_prepared (ModelVersion.prepare · · service c)
    (.definitionFirst s.store s.disk _ service c) fun p => ?_
  exact follows_connected fun client s' => Course.unfolds_model w client scope s' p

theorem follows_createEndpoint (c : Component) :
    OnceFilled (Endpoint.prepare s.store s.disk service c) s
      (fun p => Follows w .endpoint p.name scope (Course.endpoint · scope p)
        (some (Endpoint.publication p)) s)
      ((Op.createEndpoint w scope service c).run.run s) := by
  refine onceFilled_prepared (Endpoint.prepare · · service c)
    (.nameFirst s.store s.disk _ service c) fun p => ?_
  exact follows_connected fun client s' => Course.unfolds_endpoint w client scope s' p

theorem follows_deploy (parent : String) (d : DeploymentSpec) (now : Int) :
    OnceFilled (Deployment.prepare s.store s.disk service parent d now) s
      (fun p => Follows w .deployment p.name scope (Course.deployment · scope p)
        (some (Deployment.publication p)) s)
      ((Op.deploy w scope service parent d now).run.run s) := by
  refine onceFilled_prepared (Deployment.prepare · · service parent d now)
    (.deployment s.store s.disk service parent d now) fun p => ?_
  exact follows_connected fun client s' => Course.unfolds_deployment w client scope s' p

theorem follows_createFlow (c : Component) (now : Int) :
    OnceFilled (Flow.prepare s.store s.disk service c now) s
      (fun p => Follows w .flow p.name scope (fun _ => Course.flow scope p)
        (some (Flow.publication p)) s)
      ((Op.createFlow w scope service c now).run.run s) := by
  refine onceFilled_prepared (Flow.prepare · · service c now)
    (.flow s.store s.disk service c now) fun p => ?_
  exact follows_connected fun client s' => Course.unfolds_flow w client scope s' p

end

/-! ## Inputs that were filled in -/

section

variable {filled : Except ProvisionError β} {s : Session σ κ δ}
  {good : β → Except ProvisionError α × Session σ κ δ → Prop}

/-- An operation that has a result had good inputs. -/
theorem OnceFilled.exists_of_ok {a : α} {s' : Session σ κ δ}
    (h : OnceFilled filled s good (.ok a, s')) : ∃ p, filled = .ok p ∧ good p (.ok a, s') := by
  cases filled with
  | error e => cases (h.1 e rfl).1
  | ok p => exact ⟨p, rfl, h.2 p rfl⟩

/-- An operation whose inputs are refused does nothing. -/
theorem OnceFilled.refused_or_good {r : Except ProvisionError α × Session σ κ δ}
    (h : OnceFilled filled s good r) :
    (∃ e, filled = .error e ∧ r = (.error e, s)) ∨ ∃ p, filled = .ok p ∧ good p r := by
  cases filled with
  | error e => exact .inl ⟨e, rfl, (h.1 e rfl).1⟩
  | ok p => exact .inr ⟨p, rfl, h.2 p rfl⟩

end

namespace Prepared

variable [Disk δ] {store : Store} {disk : δ} {kind : Kind} {service name : String}
  {template : Template} {c : Component} {p : Prepared}

theorem resolve_of_resolveName (h : resolveName store kind template = .ok name) :
    template.resolve store.lookup = .ok name :=
  eq_ok_of_mapError_eq_ok h

theorem resolve_of_definitionFirst (h : definitionFirst store disk kind service c = .ok p) :
    c.name.resolve store.lookup = .ok p.name := by
  obtain ⟨definition, -, h⟩ := exists_of_bind_eq_ok h
  obtain ⟨name, hname, h⟩ := exists_of_bind_eq_ok h
  obtain ⟨overrides, -, h⟩ := exists_of_bind_eq_ok h
  obtain rfl := Except.ok.inj h
  exact resolve_of_resolveName hname

theorem resolve_of_nameFirst (h : nameFirst store disk kind service c = .ok p) :
    c.name.resolve store.lookup = .ok p.name := by
  obtain ⟨name, hname, h⟩ := exists_of_bind_eq_ok h
  obtain ⟨definition, -, h⟩ := exists_of_bind_eq_ok h
  obtain ⟨overrides, -, h⟩ := exists_of_bind_eq_ok h
  obtain rfl := Except.ok.inj h
  exact resolve_of_resolveName hname

end Prepared

section

variable [Disk δ] {store : Store} {disk : δ} {service : String} {now : Int}

/-- A flow is named after its template and the time. -/
theorem Flow.resolve_of_prepare {c : Component} {p : Prepared}
    (h : prepare store disk service c now = .ok p) :
    ∃ name, c.name.resolve store.lookup = .ok name ∧ p.name = uniqueName name now := by
  obtain ⟨q, hq, h⟩ := exists_of_bind_eq_ok h
  obtain rfl := Except.ok.inj h
  exact ⟨q.name, Prepared.resolve_of_nameFirst hq, rfl⟩

/-- What a deployment is given, and the names that it binds. -/
theorem Deployment.resolve_of_prepare {endpoint : String} {d : DeploymentSpec} {p : Input}
    (h : prepare store disk service endpoint d now = .ok p) :
    p.name = freshName nameStart now ∧ p.endpoint = endpoint ∧
      d.environment.name.resolve store.lookup = .ok p.environment ∧
      d.model.name.resolve store.lookup = .ok p.model := by
  obtain ⟨environment, henvironment, h⟩ := exists_of_bind_eq_ok h
  obtain ⟨model, hmodel, h⟩ := exists_of_bind_eq_ok h
  obtain ⟨definition, -, h⟩ := exists_of_bind_eq_ok h
  obtain ⟨overrides, -, h⟩ := exists_of_bind_eq_ok h
  obtain rfl := Except.ok.inj h
  exact ⟨rfl, rfl, Prepared.resolve_of_resolveName henvironment,
    Prepared.resolve_of_resolveName hmodel⟩

end

end Provisioner
