import Provisioner.Proofs.Operation.Run

/-!
# Courses of operations

Which call an operation makes next follows from the answers to the calls before.  A
`Course` says so, without saying anything of sessions.

* `Exchange` is a call with its answer.  A `Stage` is a call that a course asks for, with
  the resource that it looks at; `Stage.failure?` is the error that an exchange ends in.
* `Course.Unfolds` says what an operation that keeps to a course does, one await after the
  other: it may be cancelled at every one of them, and otherwise goes on, or ends.
* `Unfolds.ask`, `Unfolds.attempt` and `Unfolds.publish`: what a step does keeps to a course,
  if the course asks for the same.
* `Course.Passes` are the exchanges that keep to a course, all of which went well.
  `Course.Ends` says how an operation ends that nobody cancels: at the first failure, on a
  result that cannot be used, or with the store.
-/

namespace Provisioner

variable {σ κ δ α β ε : Type}

/-! ## Exchanges -/

/-- A call to a collaborator, and its answer. -/
inductive Exchange (κ : Type)
  | run (program : Program) (arguments : Arguments)
    (ended : Except Program.Failure Program.Output)
  | read (client : κ) (scope : Scope) (query : ControlPlane.Query)
    (answer : ControlPlane.Answer query)

namespace Exchange

/-- The call. -/
def call : Exchange κ → Call κ
  | .run program arguments _ => .run program arguments
  | .read client scope query _ => .read client scope query

/-- The world gives the answer. -/
def Given (w : World σ κ) (s s' : σ) : Exchange κ → Prop
  | .run program arguments ended => w.run program arguments s = (some ended, s')
  | .read client scope query answer => w.read client scope query s = (some answer, s')

/-- Whether the answer is that there is no such resource, or that the program ran and
failed. -/
def isMiss : Exchange κ → Bool
  | .run _ _ (.error e) => e.isFailedRun
  | .read _ _ _ (.error e) => e.isNotFound
  | _ => false

/-- An answer that is an error, as the error of an operation on a resource. -/
def error? (kind : Kind) (name : String) : Exchange κ → Option ProvisionError
  | .run _ _ (.error e) => some (.toolInvocation kind name e)
  | .read _ _ _ (.error e) => some (.controlPlane kind name e)
  | _ => none

end Exchange

/-! ## Courses -/

/-- A call that is asked for: which resource it looks at, and whether a miss is an answer
like any other. -/
structure Stage (κ : Type) where
  kind : Kind
  name : String
  call : Call κ
  missCounts : Bool

/-- The error that an exchange is for its stage. -/
def Stage.failure? (g : Stage κ) (x : Exchange κ) : Option ProvisionError :=
  if g.missCounts && x.isMiss then none else x.error? g.kind g.name

/-- What comes after exchanges that went well: another call, or the result.  Nothing comes
after exchanges that a course does not lead to. -/
inductive Next (κ α : Type)
  | call (stage : Stage κ)
  | done (result : Except ProvisionError α)
  | astray

/-- What comes next, for every list of exchanges. -/
abbrev Course (κ α : Type) := List (Exchange κ) → Next κ α

/-- A world in which nobody cancels an operation. -/
structure World.NeverCancels (w : World σ κ) : Prop where
  cancelled : ∀ s, w.cancelled s = false
  run : ∀ program arguments s, (w.run program arguments s).1.isSome
  read : ∀ client scope query s, (w.read client scope query s).1.isSome

/-- The session after exchanges that left the world in a state. -/
def Session.after (s : Session σ κ δ) (xs : List (Exchange κ)) (world : σ) : Session σ κ δ :=
  { s with world := world, calls := s.calls ++ xs.map Exchange.call }

theorem Session.after_nil (s : Session σ κ δ) : s.after [] s.world = s := by
  simp only [Session.after, List.map_nil, List.append_nil]

theorem Session.after_after (s : Session σ κ δ) (xs ys : List (Exchange κ)) (world world' : σ) :
    (s.after xs world).after ys world' = s.after (xs ++ ys) world' := by
  simp only [Session.after, List.map_append, List.append_assoc]

/-- The world drops a call, since the operation that makes it is cancelled.  No course asks
for the calls that open a client. -/
def Call.Dropped (w : World σ κ) (s s' : σ) : Call κ → Prop
  | .run program arguments => w.run program arguments s = (none, s')
  | .read client scope query => w.read client scope query s = (none, s')
  | .connect _ | .startTools => False

/-- How the await of a call ends.  It notices that the operation is cancelled, before it makes
the call or while the call is under way, or the call is answered. -/
inductive Awaits (w : World σ κ) (call : Call κ) (s : Session σ κ δ) :
    Option (Exchange κ) → Session σ κ δ → Prop
  | stopped : w.cancelled s.world = true → Awaits w call s none s
  | dropped {world : σ} : w.cancelled s.world = false → call.Dropped w s.world world →
    Awaits w call s none { s with world := world, calls := s.calls ++ [call] }
  | answered {x : Exchange κ} {world : σ} : w.cancelled s.world = false → x.call = call →
    x.Given w s.world world → Awaits w call s (some x) (s.after [x] world)

theorem World.NeverCancels.not_awaits_none {w : World σ κ} (hw : w.NeverCancels)
    {call : Call κ} {s s' : Session σ κ δ} : ¬ Awaits w call s none s' := by
  intro h
  cases h with
  | stopped hstop => exact Bool.noConfusion ((hw.cancelled s.world).symm.trans hstop)
  | dropped _ hdropped =>
    cases call with
    | connect | startTools => exact hdropped
    | run program arguments =>
      have hsome := hw.run program arguments s.world
      rw [show w.run program arguments s.world = _ from hdropped] at hsome
      cases hsome
    | read client scope query =>
      have hsome := hw.read client scope query s.world
      rw [show w.read client scope query s.world = _ from hdropped] at hsome
      cases hsome

namespace Course

/-- What is left of a course after some exchanges. -/
def after (course : Course κ α) (xs : List (Exchange κ)) : Course κ α :=
  fun ys => course (xs ++ ys)

theorem after_nil (course : Course κ α) : course.after [] = course := rfl

theorem after_after (course : Course κ α) (xs ys : List (Exchange κ)) :
    (course.after xs).after ys = course.after (xs ++ ys) := by
  funext zs
  exact congrArg course (List.append_assoc xs ys zs).symm

theorem after_apply_nil (course : Course κ α) (xs : List (Exchange κ)) :
    course.after xs [] = course xs :=
  congrArg course (List.append_nil xs)

/-- The end of an operation that is through: what it publishes is stored, if it publishes
anything. -/
def conclude [Disk δ] (publication? : Option (List (String × String))) (a : α)
    (s : Session σ κ δ) : Except ProvisionError α × Session σ κ δ :=
  match publication? with
  | none => (.ok a, s)
  | some pairs =>
    match s.store.setAll pairs s.disk with
    | (.ok (), store, disk) => (.ok a, { s with store := store, disk := disk })
    | (.error e, store, disk) => (.error (.store e), { s with store := store, disk := disk })

theorem conclude_of_ok [Disk δ] {pairs : List (String × String)} {s : Session σ κ δ}
    {store : Store} {disk : δ} (h : s.store.setAll pairs s.disk = (.ok (), store, disk)) (a : α) :
    conclude (some pairs) a s = (.ok a, { s with store := store, disk := disk }) := by
  rw [conclude, h]

theorem conclude_of_error [Disk δ] {pairs : List (String × String)} {s : Session σ κ δ}
    {store : Store} {disk : δ} {e : Store.Failure}
    (h : s.store.setAll pairs s.disk = (.error e, store, disk)) (a : α) :
    conclude (some pairs) a s = (.error (.store e), { s with store := store, disk := disk }) := by
  rw [conclude, h]

/-- What an operation that keeps to a course does, one await after the other.  One that is
cancelled at an await does nothing any more; what the course publishes is stored only when
all awaits have gone well. -/
inductive Unfolds [Disk δ] (w : World σ κ) (publication? : Option (List (String × String))) :
    Course κ α → Session σ κ δ → Except ProvisionError α × Session σ κ δ → Prop
  | cancelled {course : Course κ α} {s s' : Session σ κ δ} {stage : Stage κ} :
    course [] = .call stage → Awaits w stage.call s none s' →
    Unfolds w publication? course s (.error (.cancelled stage.kind stage.name), s')
  | failed {course : Course κ α} {s s' : Session σ κ δ} {stage : Stage κ} {x : Exchange κ}
    {e : ProvisionError} :
    course [] = .call stage → Awaits w stage.call s (some x) s' → stage.failure? x = some e →
    Unfolds w publication? course s (.error e, s')
  | next {course : Course κ α} {s s' : Session σ κ δ} {stage : Stage κ} {x : Exchange κ}
    {r : Except ProvisionError α × Session σ κ δ} :
    course [] = .call stage → Awaits w stage.call s (some x) s' → stage.failure? x = none →
    Unfolds w publication? (course.after [x]) s' r → Unfolds w publication? course s r
  | useless {course : Course κ α} {s : Session σ κ δ} {e : ProvisionError} :
    course [] = .done (.error e) → Unfolds w publication? course s (.error e, s)
  | finished {course : Course κ α} {s : Session σ κ δ} {a : α} :
    course [] = .done (.ok a) →
    Unfolds w publication? course s (conclude publication? a s)

/-- Exchanges with a world that keep to a course and all went well. -/
inductive Passes (w : World σ κ) (course : Course κ α) (start : σ) :
    List (Exchange κ) → σ → Prop
  | nil : Passes w course start [] start
  | snoc {xs : List (Exchange κ)} {x : Exchange κ} {stage : Stage κ} {s s' : σ} :
    Passes w course start xs s → course xs = .call stage → x.call = stage.call →
    x.Given w s s' → stage.failure? x = none → Passes w course start (xs ++ [x]) s'

/-- How an operation that keeps to a course ends.  After a failure nothing is called any
more and nothing stored; what the course publishes is stored only when all has gone well. -/
inductive Ends [Disk δ] (w : World σ κ) (course : Course κ α)
    (publication : List (String × String)) (s : Session σ κ δ) :
    Except ProvisionError α × Session σ κ δ → Prop
  | failed {xs : List (Exchange κ)} {x : Exchange κ} {stage : Stage κ} {world world' : σ}
    {e : ProvisionError} :
    Passes w course s.world xs world → course xs = .call stage → x.call = stage.call →
    x.Given w world world' → stage.failure? x = some e →
    Ends w course publication s (.error e, s.after (xs ++ [x]) world')
  | useless {xs : List (Exchange κ)} {world : σ} {e : ProvisionError} :
    Passes w course s.world xs world → course xs = .done (.error e) →
    Ends w course publication s (.error e, s.after xs world)
  | published {xs : List (Exchange κ)} {world : σ} {a : α} {store : Store} {disk : δ} :
    Passes w course s.world xs world → course xs = .done (.ok a) →
    s.store.setAll publication s.disk = (.ok (), store, disk) →
    Ends w course publication s
      (.ok a, { s.after xs world with store := store, disk := disk })
  | unpublished {xs : List (Exchange κ)} {world : σ} {a : α} {store : Store} {disk : δ}
    {e : Store.Failure} :
    Passes w course s.world xs world → course xs = .done (.ok a) →
    s.store.setAll publication s.disk = (.error e, store, disk) →
    Ends w course publication s
      (.error (.store e), { s.after xs world with store := store, disk := disk })

/-! ## Keeping to a course -/

/-- The error of an answer, unless it is one of those that are let pass. -/
def errorOf? (pass : ε → Bool) : Except ε β → Option ε
  | .ok _ => none
  | .error e => if pass e then none else some e

theorem failure?_read {kind : Kind} {name : String} {call : Call κ} {missCounts : Bool}
    {client : κ} {scope : Scope} {q : ControlPlane.Query} (answer : ControlPlane.Answer q) :
    (Stage.mk kind name call missCounts).failure? (.read client scope q answer) =
      (errorOf? (fun e => missCounts && e.isNotFound) answer).map (.controlPlane kind name) := by
  cases answer with
  | ok _ => cases missCounts <;> rfl
  | error e => cases missCounts <;> cases e <;> rfl

theorem failure?_run {kind : Kind} {name : String} {call : Call κ} {missCounts : Bool}
    {program : Program} {arguments : Arguments}
    (ended : Except Program.Failure Program.Output) :
    (Stage.mk kind name call missCounts).failure? (.run program arguments ended) =
      (errorOf? (fun e => missCounts && e.isFailedRun) ended).map (.toolInvocation kind name) := by
  cases ended with
  | ok _ => cases missCounts <;> rfl
  | error e => cases missCounts <;> cases e <;> rfl

namespace Unfolds

variable [Disk δ] {w : World σ κ} {course : Course κ α}
  {publication? : Option (List (String × String))} {s : Session σ κ δ} {kind : Kind}
  {name : String} {missCounts : Bool}

/-- An operation that begins with an await keeps to the course if the answer is judged as the
stage has it, and what follows an answer that goes well keeps to the rest of the course. -/
theorem call {γ : Type} {call : Call κ} {answer : σ → Option γ × σ} (exchange : γ → Exchange κ)
    {judge : γ → Except ε β} {wrap : ε → ProvisionError} {next : β → Op σ κ δ α}
    (hstage : course [] = .call ⟨kind, name, call, missCounts⟩)
    (hcall : ∀ c, (exchange c).call = call)
    (hdropped : ∀ x x', answer x = (none, x') → call.Dropped w x x')
    (hgiven : ∀ c x x', answer x = (some c, x') → (exchange c).Given w x x')
    (hjudge : ∀ c, (Stage.mk kind name call missCounts).failure? (exchange c) =
      (errorOf? (fun _ => false) (judge c)).map wrap)
    (hnext : ∀ c b world, judge c = .ok b →
      Unfolds w publication? (course.after [exchange c]) (s.after [exchange c] world)
        ((next b).run.run (s.after [exchange c] world))) :
    Unfolds w publication? course s
      (((do let c ← Op.await w kind name call answer; Op.orFail wrap (judge c)) >>= next).run.run
        s) := by
  rw [bind_assoc]
  cases hgo : w.cancelled s.world with
  | true =>
    rw [run_bind_of_error (Op.run_await_of_cancelled hgo)]
    exact .cancelled hstage (.stopped hgo)
  | false =>
  rcases hanswer : answer s.world with ⟨_ | c, world⟩
  · rw [run_bind_of_error (Op.run_await_of_none hgo hanswer)]
    exact .cancelled hstage (.dropped hgo (hdropped _ _ hanswer))
  have hrun : (Op.await w kind name call answer).run.run s =
      (.ok c, s.after [exchange c] world) := by
    rw [Op.run_await_of_some hgo hanswer, Session.after, ← hcall c]
    rfl
  have hawaits : Awaits w call s (some (exchange c)) (s.after [exchange c] world) :=
    .answered hgo (hcall c) (hgiven c _ _ hanswer)
  have hjudged := Op.run_orFail wrap (judge c) (s.after [exchange c] world)
  have hfailure := hjudge c
  rw [run_bind_of_ok hrun]
  cases hb : judge c with
  | error e =>
    rw [hb] at hjudged hfailure
    rw [run_bind_of_error hjudged]
    exact .failed hstage hawaits hfailure
  | ok b =>
    rw [hb] at hjudged hfailure
    rw [run_bind_of_ok hjudged]
    exact .next hstage hawaits hfailure (hnext c b world hb)

/-- A step that asks the control plane what the course asks for. -/
theorem ask {client : κ} {scope : Scope} {q : ControlPlane.Query}
    {judge : ControlPlane.Answer q → Except ControlPlane.Failure β} {next : β → Op σ κ δ α}
    (hstage : course [] = .call ⟨kind, name, .read client scope q, missCounts⟩)
    (hjudge : ∀ answer, errorOf? (fun _ => false) (judge answer) =
      errorOf? (fun e => missCounts && e.isNotFound) answer)
    (hnext : ∀ answer b world, judge answer = .ok b →
      Unfolds w publication? (course.after [.read client scope q answer])
        (s.after [.read client scope q answer] world)
        ((next b).run.run (s.after [.read client scope q answer] world))) :
    Unfolds w publication? course s
      ((Context.ask ⟨w, client, scope⟩ kind name q judge >>= next).run.run s) := by
  refine call (.read client scope q) hstage (fun _ => rfl) (fun _ _ h => h) (fun _ _ _ h => h)
    (fun answer => ?_) hnext
  rw [failure?_read, hjudge]

/-- A step that runs the program that the course asks for. -/
theorem attempt {client : κ} {scope : Scope} {arguments : Arguments}
    {judge : Except Program.Failure Program.Output → Except Program.Failure β}
    {next : β → Op σ κ δ α}
    (hstage : course [] = .call ⟨kind, name, .run kind.program arguments, missCounts⟩)
    (hjudge : ∀ ended, errorOf? (fun _ => false) (judge ended) =
      errorOf? (fun e => missCounts && e.isFailedRun) ended)
    (hnext : ∀ ended b world, judge ended = .ok b →
      Unfolds w publication? (course.after [.run kind.program arguments ended])
        (s.after [.run kind.program arguments ended] world)
        ((next b).run.run (s.after [.run kind.program arguments ended] world))) :
    Unfolds w publication? course s
      ((Context.attempt ⟨w, client, scope⟩ kind name arguments judge >>= next).run.run s) := by
  refine call (.run kind.program arguments) hstage (fun _ => rfl) (fun _ _ h => h)
    (fun _ _ _ h => h) (fun ended => ?_) hnext
  rw [failure?_run, hjudge]

/-- A step that reads a record. -/
theorem read {client : κ} {scope : Scope} {q : ControlPlane.Query}
    {next : q.Record → Op σ κ δ α}
    (hstage : course [] = .call ⟨kind, name, .read client scope q, false⟩)
    (hnext : ∀ record world,
      Unfolds w publication? (course.after [.read client scope q (.ok record)])
        (s.after [.read client scope q (.ok record)] world)
        ((next record).run.run (s.after [.read client scope q (.ok record)] world))) :
    Unfolds w publication? course s
      ((Context.read ⟨w, client, scope⟩ kind name q >>= next).run.run s) := by
  refine ask hstage (fun answer => ?_) fun answer record world hrecord => ?_
  · cases answer <;> rfl
  · obtain rfl : answer = .ok record := hrecord
    exact hnext record world

/-- A step that runs a program, and does not look at what it prints. -/
theorem invoke {client : κ} {scope : Scope} {arguments : Arguments} {next : PUnit → Op σ κ δ α}
    (hstage : course [] = .call ⟨kind, name, .run kind.program arguments, false⟩)
    (hnext : ∀ output world,
      Unfolds w publication? (course.after [.run kind.program arguments (.ok output)])
        (s.after [.run kind.program arguments (.ok output)] world)
        ((next ⟨⟩).run.run (s.after [.run kind.program arguments (.ok output)] world))) :
    Unfolds w publication? course s
      ((discard (Context.invoke ⟨w, client, scope⟩ kind name arguments) >>= next).run.run s) := by
  rw [run_discard_bind]
  refine attempt hstage (fun ended => ?_) fun ended output world hended => ?_
  · cases ended <;> rfl
  · obtain rfl : ended = .ok output := hended
    exact hnext output world

/-- A step that is through publishes, and returns the result of the course. -/
theorem publish {pairs : List (String × String)} {a : α} (hdone : course [] = .done (.ok a)) :
    Unfolds w (some pairs) course s
      ((do Op.publish pairs; return a : Op σ κ δ α).run.run s) := by
  have hrun := Op.run_publish pairs s
  rcases hset : s.store.setAll pairs s.disk with ⟨answer, store, disk⟩
  rw [hset] at hrun
  have hfinished : Unfolds w (some pairs) course s (conclude (some pairs) a s) := .finished hdone
  cases answer with
  | ok _ =>
    rw [conclude_of_ok hset] at hfinished
    rw [run_bind_of_ok hrun]
    exact hfinished
  | error e =>
    rw [conclude_of_error hset] at hfinished
    rw [run_bind_of_error hrun]
    exact hfinished

/-- An operation whose result cannot be used stops before it publishes. -/
theorem useless_of_error {op : Op σ κ δ β} {next : β → Op σ κ δ α} {e : ProvisionError}
    (hdone : course [] = .done (.error e)) (hrun : op.run.run s = (.error e, s)) :
    Unfolds w publication? course s ((op >>= next).run.run s) := by
  rw [run_bind_of_error hrun]
  exact .useless hdone

/-! ## Operations that nobody cancels -/

/-- An operation that nobody cancels ends as the rest of the course has it after exchanges
that went well. -/
theorem ends_after (hw : w.NeverCancels) {pairs : List (String × String)} {rest : Course κ α}
    {s' : Session σ κ δ} {r : Except ProvisionError α × Session σ κ δ}
    (h : Unfolds w (some pairs) rest s' r) {xs : List (Exchange κ)} {world : σ}
    (hrest : rest = course.after xs) (hs' : s' = s.after xs world)
    (hpasses : Passes w course s.world xs world) : Ends w course pairs s r := by
  induction h generalizing xs world with
  | cancelled _ hawaits => exact absurd hawaits hw.not_awaits_none
  | failed hstage hawaits hfailure =>
    subst hrest hs'
    rw [after_apply_nil] at hstage
    cases hawaits with
    | answered _ hcall hgiven =>
      rw [Session.after_after]
      exact .failed hpasses hstage hcall hgiven hfailure
  | next hstage hawaits hfailure _ ih =>
    subst hrest hs'
    rw [after_apply_nil] at hstage
    cases hawaits with
    | answered _ hcall hgiven =>
      exact ih (after_after course xs _) (Session.after_after s xs _ world _)
        (hpasses.snoc hstage hcall hgiven hfailure)
  | useless hdone =>
    subst hrest hs'
    rw [after_apply_nil] at hdone
    exact .useless hpasses hdone
  | finished hdone =>
    subst hrest hs'
    rw [after_apply_nil] at hdone
    rcases hset : s.store.setAll pairs s.disk with ⟨answer, store, disk⟩
    have hset' : (s.after xs world).store.setAll pairs (s.after xs world).disk =
        (answer, store, disk) := hset
    cases answer with
    | error e =>
      rw [conclude_of_error hset']
      exact .unpublished hpasses hdone hset
    | ok _ =>
      rw [conclude_of_ok hset']
      exact .published hpasses hdone hset

theorem ends (hw : w.NeverCancels) {pairs : List (String × String)}
    {r : Except ProvisionError α × Session σ κ δ}
    (h : Unfolds w (some pairs) course (s.after [] s.world) r) : Ends w course pairs s r :=
  h.ends_after hw (after_nil course).symm rfl .nil

end Unfolds

namespace Ends

variable [Disk δ] {w : World σ κ} {course : Course κ α} {publication : List (String × String)}
  {s : Session σ κ δ}

/-- An operation whose inputs are good keeps to the course of its step. -/
theorem prepared (hw : w.NeverCancels) {client : κ} (hclient : s.client? = some client)
    {fill : Store → δ → Except ProvisionError β} {p : β} (hfill : fill s.store s.disk = .ok p)
    {kind : Kind} {name : β → String} {scope : Scope} {body : β → Context σ κ → Op σ κ δ α}
    (hends : Ends w course publication s
      ((body p ⟨w, client, scope⟩).run.run (s.after [] s.world))) :
    Ends w course publication s
      ((do let p ← Op.prepared fill; Op.connected w kind (name p) scope (body p)).run.run s) := by
  rw [Op.run_prepared_connected hfill (hw.cancelled s.world) hclient]
  rw [s.after_nil] at hends
  exact hends

end Ends

end Course

end Provisioner
