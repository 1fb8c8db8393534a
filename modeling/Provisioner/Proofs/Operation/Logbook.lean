import Provisioner.Proofs.Operation.Tracking

/-!
# Worlds that keep a logbook

What an operation was answered cannot be read off its calls.  A world with a logbook writes it
down.

* `World.logged` is a world with its logbook.  `Request.run_logged`: operations cannot tell it
  from the world itself.
* `Course.Trace` are the exchanges of an operation that keeps to a course, a call that was dropped
  at the end, and the result; `Follows.traced` says that they are what is in the logbook.
* `Trace.of_stage` and `Trace.stage_cases` take a trace apart.
-/

namespace Provisioner

variable {σ κ δ α : Type}

/-- The state of a world, and all that it has answered about resources and programs. -/
structure Logbook (σ κ : Type) where
  state : σ
  answered : List (Exchange κ)

namespace Logbook

/-- Writes an answer down, if there is one. -/
def note {β : Type} (l : Logbook σ κ) (exchange : β → Exchange κ) (answer : Option β × σ) :
    Option β × Logbook σ κ :=
  (answer.1, ⟨answer.2, l.answered ++ (answer.1.map exchange).toList⟩)

/-- Lets the world move on with nothing to write down. -/
def pass {β : Type} (l : Logbook σ κ) (answer : β × σ) : β × Logbook σ κ :=
  (answer.1, { l with state := answer.2 })

end Logbook

/-- A world that writes its answers down. -/
def World.logged (w : World σ κ) : World (Logbook σ κ) κ where
  cancelled l := w.cancelled l.state
  connect subscription l := l.pass (w.connect subscription l.state)
  startTools l := l.pass (w.startTools l.state)
  run program arguments l := l.note (.run program arguments) (w.run program arguments l.state)
  read client scope query l := l.note (.read client scope query) (w.read client scope query l.state)

/-- A session without its logbook. -/
def Session.unlogged (s : Session (Logbook σ κ) κ δ) : Session σ κ δ :=
  { s with world := s.world.state }

section

variable {w : World σ κ} {l l' : Logbook σ κ}

theorem Logbook.of_note_some {β : Type} {exchange : β → Exchange κ} {answer : Option β × σ} {b : β}
    (h : l.note exchange answer = (some b, l')) :
    answer = (some b, l'.state) ∧ l'.answered = l.answered ++ [exchange b] := by
  obtain ⟨answer?, state⟩ := answer
  cases h
  exact ⟨rfl, rfl⟩

theorem Logbook.of_note_none {β : Type} {exchange : β → Exchange κ} {answer : Option β × σ}
    (h : l.note exchange answer = (none, l')) :
    answer = (none, l'.state) ∧ l'.answered = l.answered := by
  obtain ⟨answer?, state⟩ := answer
  cases h
  exact ⟨rfl, List.append_nil _⟩

theorem Logbook.of_pass {β : Type} {answer : β × σ} {b : β} (h : l.pass answer = (b, l')) :
    answer = (b, l'.state) ∧ l'.answered = l.answered := by
  cases h
  exact ⟨rfl, rfl⟩

theorem Exchange.Given.of_logged {x : Exchange κ} (h : x.Given w.logged l l') :
    x.Given w l.state l'.state ∧ l'.answered = l.answered ++ [x] := by
  cases x with
  | run => exact Logbook.of_note_some h
  | read => exact Logbook.of_note_some h

theorem Call.Dropped.of_logged {call : Call κ} (h : call.Dropped w.logged l l') :
    call.Dropped w l.state l'.state ∧ l'.answered = l.answered := by
  cases call with
  | run => exact Logbook.of_note_none h
  | read => exact Logbook.of_note_none h
  | connect | startTools => exact absurd h id

end

/-! ## The same operations -/

section

variable {w : World σ κ} {s : Session (Logbook σ κ) κ δ}

/-- A world with a logbook answers as it does without. -/
theorem World.tracks_logged (w : World σ κ) : World.Tracks Logbook.state w.logged w where
  cancelled _ := rfl
  connect _ _ := rfl
  startTools _ := rfl
  run _ _ _ := rfl
  read _ _ _ _ := rfl

theorem Op.Opens.unlogged {kind : Kind} {name : String} {scope : Scope}
    {r : Except ProvisionError κ × Session (Logbook σ κ) κ δ}
    (h : Op.Opens w.logged kind name scope s r) :
    Op.Opens w kind name scope s.unlogged (r.1, r.2.unlogged) :=
  h.tracked w.tracks_logged

/-- An operation does the same with a logbook and without. -/
theorem Request.run_logged [Disk δ] (w : World σ κ) (q : Request)
    (s : Session (Logbook σ κ) κ δ) :
    (q.op w).run.run s.unlogged =
      (((q.op w.logged).run.run s).1, ((q.op w.logged).run.run s).2.unlogged) :=
  q.run_tracked w.tracks_logged s

end

/-! ## What is in the logbook -/

namespace Course

/-- The exchanges of an operation that keeps to a course, the call that was dropped at the end, if
one was, and the result, if there is one. -/
inductive Trace : Course κ α → List (Exchange κ) → Option (Call κ) → Option α → Prop
  | stop {course : Course κ α} : Trace course [] none none
  | dropped {course : Course κ α} {stage : Stage κ} : course [] = .call stage →
    Trace course [] (some stage.call) none
  | failed {course : Course κ α} {stage : Stage κ} {x : Exchange κ} : course [] = .call stage →
    x.call = stage.call → Trace course [x] none none
  | done {course : Course κ α} {a : α} : course [] = .done (.ok a) → Trace course [] none (some a)
  | next {course : Course κ α} {stage : Stage κ} {x : Exchange κ} {xs : List (Exchange κ)}
    {last? : Option (Call κ)} {a? : Option α} : course [] = .call stage → x.call = stage.call →
    stage.failure? x = none → Trace (course.after [x]) xs last? a? →
    Trace course (x :: xs) last? a?

/-- What a trace says about the calls. -/
def traceCalls (xs : List (Exchange κ)) (last? : Option (Call κ)) : List (Call κ) :=
  xs.map Exchange.call ++ last?.toList

namespace Trace

variable {course : Course κ α} {xs : List (Exchange κ)} {last? : Option (Call κ)}
  {stage : Stage κ}

/-- An operation with a result went through every stage of its course. -/
theorem of_stage {a : α} (h : course.Trace xs last? (some a)) (hstage : course [] = .call stage) :
    ∃ x rest, xs = x :: rest ∧ x.call = stage.call ∧ stage.failure? x = none ∧
      (course.after [x]).Trace rest last? (some a) := by
  cases h with
  | done hdone => cases hstage.symm.trans hdone
  | next hstage' hcall hnone hrest =>
    cases hstage.symm.trans hstage'
    exact ⟨_, _, rfl, hcall, hnone, hrest⟩

/-- An operation with a result is at the end of its course. -/
theorem of_done {a : α} {result : Except ProvisionError α} (h : course.Trace xs last? (some a))
    (hdone : course [] = .done result) : result = .ok a ∧ xs = [] := by
  cases h with
  | done hdone' =>
    cases hdone.symm.trans hdone'
    exact ⟨rfl, rfl⟩
  | next hstage => cases hdone.symm.trans hstage

/-- No call of an operation with a result was dropped. -/
theorem last?_eq_none {a : α} (h : course.Trace xs last? (some a)) : last? = none := by
  generalize ha : some a = a? at h
  induction h with
  | stop | done => rfl
  | dropped | failed => cases ha
  | next _ _ _ _ ih => exact ih ha

/-- An operation may stop before a stage, or at it, or go on. -/
theorem stage_cases {a? : Option α} (h : course.Trace xs last? a?)
    (hstage : course [] = .call stage) :
    traceCalls xs last? <+: [stage.call] ∨
      ∃ x rest, xs = x :: rest ∧ x.call = stage.call ∧ stage.failure? x = none ∧
        (course.after [x]).Trace rest last? a? := by
  cases h with
  | stop => exact .inl List.nil_prefix
  | dropped hstage' =>
    cases hstage.symm.trans hstage'
    exact .inl List.prefix_rfl
  | @failed _ _ x hstage' hcall =>
    cases hstage.symm.trans hstage'
    have hcalls : traceCalls [x] none = [stage.call] := congrArg ([·]) hcall
    rw [hcalls]
    exact .inl List.prefix_rfl
  | done hdone => cases hstage.symm.trans hdone
  | next hstage' hcall hnone hrest =>
    cases hstage.symm.trans hstage'
    exact .inr ⟨_, _, rfl, hcall, hnone, hrest⟩

end Trace

variable [Disk δ] {w : World σ κ} {course : Course κ α}
  {publication? : Option (List (String × String))} {s : Session (Logbook σ κ) κ δ}
  {r : Except ProvisionError α × Session (Logbook σ κ) κ δ}

theorem world_conclude (publication? : Option (List (String × String))) (a : α)
    (s : Session σ κ δ) :
    (conclude publication? a s).2.world = s.world ∧
      (conclude publication? a s).2.calls = s.calls ∧
      ((conclude publication? a s).1.toOption = some a ∨
        (conclude publication? a s).1.toOption = none) := by
  cases publication? with
  | none => exact ⟨rfl, rfl, .inl rfl⟩
  | some pairs =>
    rcases hset : s.store.setAll pairs s.disk with ⟨_ | _, store, disk⟩
    · rw [conclude_of_error hset]
      exact ⟨rfl, rfl, .inr rfl⟩
    · rw [conclude_of_ok hset]
      exact ⟨rfl, rfl, .inl rfl⟩

theorem Unfolds.traced (h : Unfolds w.logged publication? course s r) :
    ∃ xs last?, r.2.world.answered = s.world.answered ++ xs ∧
      r.2.calls = s.calls ++ traceCalls xs last? ∧ course.Trace xs last? r.1.toOption := by
  induction h with
  | cancelled hstage hawaits =>
    cases hawaits with
    | stopped => exact ⟨[], none, (List.append_nil _).symm, (List.append_nil _).symm, .stop⟩
    | dropped _ hdropped =>
      exact ⟨[], some _, hdropped.of_logged.2.trans (List.append_nil _).symm, rfl, .dropped hstage⟩
  | failed hstage hawaits =>
    cases hawaits with
    | answered _ hcall hgiven =>
      exact ⟨[_], none, hgiven.of_logged.2, rfl, .failed hstage hcall⟩
  | next hstage hawaits hfailure _ ih =>
    cases hawaits with
    | answered _ hcall hgiven =>
      obtain ⟨xs, last?, hanswered, hcalls, hrest⟩ := ih
      refine ⟨_ :: xs, last?, ?_, ?_, .next hstage hcall hfailure hrest⟩
      · rw [hanswered]
        exact (congrArg (· ++ xs) hgiven.of_logged.2).trans (List.append_assoc _ _ _)
      · rw [hcalls]
        exact List.append_assoc _ _ _
  | useless => exact ⟨[], none, (List.append_nil _).symm, (List.append_nil _).symm, .stop⟩
  | @finished course s a hdone =>
    obtain ⟨hworld, hcalls, hresult⟩ := world_conclude publication? a s
    refine ⟨[], none, ?_, ?_, ?_⟩
    · rw [hworld, List.append_nil]
    · rw [hcalls]
      exact (List.append_nil _).symm
    · rcases hresult with hresult | hresult
      · rw [hresult]
        exact .done hdone
      · rw [hresult]
        exact .stop

end Course

/-- The exchanges of an operation with the client that it gets, if it gets one. -/
inductive Follows.Trace (course : κ → Course κ α) :
    List (Exchange κ) → Option (Call κ) → Option α → Prop
  | unopened : Trace course [] none none
  | opened {client : κ} {xs : List (Exchange κ)} {last? : Option (Call κ)} {a? : Option α} :
    (course client).Trace xs last? a? → Trace course xs last? a?

/-- What an operation leaves in its logbook, and among its calls. -/
structure Traced (course : κ → Course κ α) (scope : Scope) (s : Session (Logbook σ κ) κ δ)
    (r : Except ProvisionError α × Session (Logbook σ κ) κ δ) (opening : List (Call κ))
    (xs : List (Exchange κ)) (last? : Option (Call κ)) : Prop where
  opens : opening <+: [.connect scope.subscription, .startTools]
  answered : r.2.world.answered = s.world.answered ++ xs
  calls : r.2.calls = s.calls ++ (opening ++ Course.traceCalls xs last?)
  trace : Follows.Trace course xs last? r.1.toOption

theorem Op.Opens.answered_eq {w : World σ κ} {kind : Kind} {name : String} {scope : Scope}
    {s : Session (Logbook σ κ) κ δ} {r : Except ProvisionError κ × Session (Logbook σ κ) κ δ}
    (h : Op.Opens w.logged kind name scope s r) : r.2.world.answered = s.world.answered := by
  cases h with
  | cancelled h =>
    cases h with
    | before => rfl
    | connecting _ _ hconnect => exact (Logbook.of_pass hconnect).2
    | starting _ _ hconnect htools =>
      exact (Logbook.of_pass htools).2.trans (Logbook.of_pass hconnect).2
  | there => rfl
  | unconnected _ _ hconnect => exact (Logbook.of_pass hconnect).2
  | unready _ _ hconnect htools | opened _ _ hconnect htools =>
    exact (Logbook.of_pass htools).2.trans (Logbook.of_pass hconnect).2

theorem Follows.traced [Disk δ] {w : World σ κ} {kind : Kind} {name : String} {scope : Scope}
    {course : κ → Course κ α} {publication? : Option (List (String × String))}
    {s : Session (Logbook σ κ) κ δ} {r : Except ProvisionError α × Session (Logbook σ κ) κ δ}
    (h : Follows w.logged kind name scope course publication? s r) :
    ∃ opening xs last?, Traced course scope s r opening xs last? := by
  cases h with
  | unopened hopens =>
    obtain ⟨opening, hcalls, hopening⟩ := hopens.calls
    refine ⟨opening, [], none, hopening, ?_, ?_, .unopened⟩
    · rw [hopens.answered_eq, List.append_nil]
    · rw [hcalls]
      exact congrArg (s.calls ++ ·) (List.append_nil _).symm
  | opened hopens hrest =>
    obtain ⟨opening, hfirst, hopening⟩ := hopens.calls
    obtain ⟨xs, last?, hanswered, hcalls, htrace⟩ := hrest.traced
    refine ⟨opening, xs, last?, hopening, ?_, ?_, .opened htrace⟩
    · rw [hanswered, hopens.answered_eq]
    · rw [hcalls, hfirst, List.append_assoc]

end Provisioner
