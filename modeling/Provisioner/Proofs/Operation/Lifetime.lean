import Provisioner.Proofs.Operation.Identity

/-!
# The lifetime of an orchestrator

An orchestrator starts without a client.  An operation that finds none tries to open one, and the
first that succeeds opens it for all operations that come after.

* `Event` is a call with what came of it.  `World.recorded` is a world that writes all of them
  down, in order; operations cannot tell it from the world itself (`Request.run_recorded`).
* `Opening` are the ways in which an attempt to open a client goes, and what it is reported as.
* `Request.Proceeds` says what one operation does about the client, and `Request.proceeds` that
  every operation does so.
* `Lifetime` is any sequence of operations of one orchestrator, and `Chronicle` what it leaves on
  record: attempts that failed, one that succeeded, and the work done with its client.
* `opened_once` is what holds at every point of a lifetime.
-/

namespace Provisioner

variable {σ κ δ α : Type}

/-! ## Events -/

/-- A call with its answer; one that was dropped has none. -/
inductive Event (κ : Type)
  | connect (subscription : String) (answer? : Option (Except ControlPlane.Failure κ))
  | startTools (answer? : Option (Except Program.Failure Unit))
  | run (program : Program) (arguments : Arguments)
    (answer? : Option (Except Program.Failure Program.Output))
  | read (client : κ) (scope : Scope) (query : ControlPlane.Query)
    (answer? : Option (ControlPlane.Answer query))

namespace Event

/-- The call. -/
def call : Event κ → Call κ
  | .connect subscription _ => .connect subscription
  | .startTools _ => .startTools
  | .run program arguments _ => .run program arguments
  | .read client scope query _ => .read client scope query

end Event

/-- A run of a program, or a question to the control plane. -/
def Call.IsWork : Call κ → Prop
  | .connect _ | .startTools => False
  | .run .. | .read .. => True

/-- Work that is done with a client: a question goes through this client. -/
def Call.Uses (client : κ) : Call κ → Prop
  | .connect _ | .startTools => False
  | .run .. => True
  | .read asked .. => asked = client

/-- The state of a world, and everything that it was asked. -/
structure Transcript (σ κ : Type) where
  state : σ
  events : List (Event κ)

/-- Writes a call down, answered or not. -/
def Transcript.note {β : Type} (l : Transcript σ κ) (event : Option β → Event κ)
    (answer : Option β × σ) : Option β × Transcript σ κ :=
  (answer.1, ⟨answer.2, l.events ++ [event answer.1]⟩)

/-- A world that writes down everything that it is asked. -/
def World.recorded (w : World σ κ) : World (Transcript σ κ) κ where
  cancelled l := w.cancelled l.state
  connect subscription l := l.note (.connect subscription) (w.connect subscription l.state)
  startTools l := l.note .startTools (w.startTools l.state)
  run program arguments l := l.note (.run program arguments) (w.run program arguments l.state)
  read client scope query l := l.note (.read client scope query) (w.read client scope query l.state)

theorem World.tracks_recorded (w : World σ κ) : World.Tracks Transcript.state w.recorded w where
  cancelled _ := rfl
  connect _ _ := rfl
  startTools _ := rfl
  run _ _ _ := rfl
  read _ _ _ _ := rfl

/-- An operation does the same on record as off it. -/
theorem Request.run_recorded [Disk δ] (w : World σ κ) (q : Request)
    (s : Session (Transcript σ κ) κ δ) :
    (q.op w).run.run (s.seen Transcript.state) =
      (((q.op w.recorded).run.run s).1, ((q.op w.recorded).run.run s).2.seen Transcript.state) :=
  q.run_tracked w.tracks_recorded s

theorem Transcript.events_of_note {β : Type} {l l' : Transcript σ κ} {event : Option β → Event κ}
    {answer : Option β × σ} {b? : Option β} (h : l.note event answer = (b?, l')) :
    l'.events = l.events ++ [event b?] := by
  cases h
  rfl

/-! ## What is added to a record -/

/-- Some events happened between two points of a session.  All of them are calls of the session,
and are on record. -/
structure Session.Adds (s : Session (Transcript σ κ) κ δ) (more : List (Event κ))
    (s' : Session (Transcript σ κ) κ δ) : Prop where
  events : s'.world.events = s.world.events ++ more
  calls : s'.calls = s.calls ++ more.map Event.call

namespace Session.Adds

variable {s s' s'' : Session (Transcript σ κ) κ δ} {events more : List (Event κ)}

theorem none (s : Session (Transcript σ κ) κ δ) : s.Adds [] s :=
  ⟨(List.append_nil _).symm, (List.append_nil _).symm⟩

theorem trans (h : s.Adds events s') (h' : s'.Adds more s'') : s.Adds (events ++ more) s'' where
  events := by rw [h'.events, h.events, List.append_assoc]
  calls := by rw [h'.calls, h.calls, List.map_append, List.append_assoc]

end Session.Adds

section

variable {w : World σ κ} {l l' : Transcript σ κ}

theorem Exchange.Given.recorded {x : Exchange κ} (h : x.Given w.recorded l l') :
    ∃ e : Event κ, e.call = x.call ∧ l'.events = l.events ++ [e] := by
  cases x with
  | run => exact ⟨_, rfl, Transcript.events_of_note h⟩
  | read => exact ⟨_, rfl, Transcript.events_of_note h⟩

theorem Call.Dropped.recorded {call : Call κ} (h : call.Dropped w.recorded l l') :
    ∃ e : Event κ, e.call = call ∧ l'.events = l.events ++ [e] := by
  cases call with
  | connect | startTools => exact absurd h id
  | run => exact ⟨_, rfl, Transcript.events_of_note h⟩
  | read => exact ⟨_, rfl, Transcript.events_of_note h⟩

/-- An await makes its call once at most, and leaves the client alone. -/
theorem Awaits.recorded {call : Call κ} {x? : Option (Exchange κ)}
    {s s' : Session (Transcript σ κ) κ δ} (h : Awaits w.recorded call s x? s') :
    ∃ events, s.Adds events s' ∧ s'.client? = s.client? ∧ ∀ e ∈ events, e.call = call := by
  cases h with
  | stopped => exact ⟨[], .none s, rfl, fun e he => absurd he List.not_mem_nil⟩
  | dropped _ hdropped =>
    obtain ⟨e, hcall, hevents⟩ := hdropped.recorded
    refine ⟨[e], ⟨hevents, ?_⟩, rfl, fun e' he' => ?_⟩
    · rw [List.map_singleton, hcall]
    · rw [List.mem_singleton.1 he', hcall]
  | answered _ hx hgiven =>
    obtain ⟨e, hcall, hevents⟩ := hgiven.recorded
    refine ⟨[e], ⟨hevents, ?_⟩, rfl, fun e' he' => ?_⟩
    · rw [List.map_singleton, hcall]
      rfl
    · rw [List.mem_singleton.1 he', hcall, hx]

namespace Course

variable [Disk δ]

theorem client?_conclude (publication? : Option (List (String × String))) (a : α)
    (s : Session σ κ δ) : (conclude publication? a s).2.client? = s.client? := by
  cases publication? with
  | none => rfl
  | some pairs =>
    rcases hset : s.store.setAll pairs s.disk with ⟨_ | _, store, disk⟩
    · rw [conclude_of_error hset]
    · rw [conclude_of_ok hset]

/-- An operation that keeps to a course makes the calls that the course asks for, and no others;
the client stays. -/
theorem Unfolds.recorded {course : Course κ α} {publication? : Option (List (String × String))}
    {s : Session (Transcript σ κ) κ δ} {r : Except ProvisionError α × Session (Transcript σ κ) κ δ}
    (h : Unfolds w.recorded publication? course s r) {P : Call κ → Prop} (hasks : course.Asks P) :
    ∃ work, s.Adds work r.2 ∧ r.2.client? = s.client? ∧ ∀ e ∈ work, P e.call := by
  induction h with
  | cancelled hstage hawaits | failed hstage hawaits =>
    obtain ⟨events, hadds, hclient, hcall⟩ := hawaits.recorded
    refine ⟨events, hadds, hclient, fun e he => ?_⟩
    rw [hcall e he]
    exact hasks _ _ hstage
  | @next course s s' stage x r hstage hawaits _ _ ih =>
    obtain ⟨events, hadds, hclient, hcall⟩ := hawaits.recorded
    obtain ⟨work, hadds', hclient', hwork⟩ := ih fun xs stage' => hasks ([x] ++ xs) stage'
    refine ⟨events ++ work, hadds.trans hadds', hclient'.trans hclient, fun e he => ?_⟩
    rcases List.mem_append.1 he with he | he
    · rw [hcall e he]
      exact hasks _ _ hstage
    · exact hwork e he
  | useless => exact ⟨[], .none _, rfl, fun e he => absurd he List.not_mem_nil⟩
  | @finished course s a hdone =>
    obtain ⟨hworld, hcalls, -⟩ := world_conclude publication? a s
    have hclient := client?_conclude publication? a s
    refine ⟨[], ⟨?_, ?_⟩, hclient, fun e he => absurd he List.not_mem_nil⟩
    · rw [hworld, List.append_nil]
    · rw [hcalls]
      exact (List.append_nil _).symm

end Course

end

/-! ## Opening a client -/

/-- What is on record of an attempt in which both calls succeeded. -/
def Event.connected (subscription : String) (client : κ) : List (Event κ) :=
  [.connect subscription (some (.ok client)), .startTools (some (.ok ()))]

/-- How an attempt to open a client goes, and what the operation that makes it gets: the client,
or the error that it is reported as.  The programs are made ready only after the control plane
has connected. -/
inductive Opening (kind : Kind) (name subscription : String) :
    List (Event κ) → Except ProvisionError κ → Prop
  | connecting : Opening kind name subscription [.connect subscription none]
    (.error (.cancelled kind name))
  | unconnected (e : ControlPlane.Failure) : Opening kind name subscription
    [.connect subscription (some (.error e))] (.error (.controlPlaneInit e))
  | starting (client : κ) : Opening kind name subscription
    [.connect subscription (some (.ok client)), .startTools none] (.error (.cancelled kind name))
  | unready (client : κ) (e : Program.Failure) : Opening kind name subscription
    [.connect subscription (some (.ok client)), .startTools (some (.error e))]
    (.error (.toolInit e))
  | done (client : κ) :
    Opening kind name subscription (Event.connected subscription client) (.ok client)

/-- How an operation waits for its client. -/
inductive Op.Waits (w : World σ κ) (kind : Kind) (name subscription : String)
    (s : Session (Transcript σ κ) κ δ) :
    Except ProvisionError κ → Session (Transcript σ κ) κ δ → Prop
  | stopped : w.cancelled s.world.state = true →
    Waits w kind name subscription s (.error (.cancelled kind name)) s
  | there {client : κ} : s.client? = some client →
    Waits w kind name subscription s (.ok client) s
  | tried {opening : List (Event κ)} {answer : Except ProvisionError κ}
    {s' : Session (Transcript σ κ) κ δ} : s.client? = none →
    Opening kind name subscription opening answer → s.Adds opening s' →
    s'.client? = answer.toOption → Waits w kind name subscription s answer s'

theorem Op.Opens.recorded {w : World σ κ} {kind : Kind} {name : String} {scope : Scope}
    {s : Session (Transcript σ κ) κ δ} {r : Except ProvisionError κ × Session (Transcript σ κ) κ δ}
    (h : Op.Opens w.recorded kind name scope s r) :
    Op.Waits w kind name scope.subscription s r.1 r.2 := by
  have hboth {l l' : Transcript σ κ} {a? b?}
      (hconnect : w.recorded.connect scope.subscription s.world = (a?, l))
      (htools : w.recorded.startTools l = (b?, l')) :
      l'.events = s.world.events ++ [.connect scope.subscription a?, .startTools b?] := by
    rw [Transcript.events_of_note htools, Transcript.events_of_note hconnect, List.append_assoc]
    rfl
  cases h with
  | cancelled h =>
    cases h with
    | before hstop => exact .stopped hstop
    | connecting _ hnone hconnect =>
      exact .tried hnone .connecting ⟨Transcript.events_of_note hconnect, rfl⟩ hnone
    | starting _ hnone hconnect htools =>
      exact .tried hnone (.starting _) ⟨hboth hconnect htools, rfl⟩ hnone
  | there _ hsome => exact .there hsome
  | unconnected _ hnone hconnect =>
    exact .tried hnone (.unconnected _) ⟨Transcript.events_of_note hconnect, rfl⟩ hnone
  | unready _ hnone hconnect htools =>
    exact .tried hnone (.unready _ _) ⟨hboth hconnect htools, rfl⟩ hnone
  | opened _ hnone hconnect htools =>
    exact .tried hnone (.done _) ⟨hboth hconnect htools, rfl⟩ rfl

/-! ## One operation -/

namespace Course

variable {client : κ} {scope : Scope}

theorem uses_environment (p : Prepared) :
    (environment client scope p).Asks (Call.Uses client) := by
  intro xs stage hstage
  rcases call_of_environment hstage with ⟨-, hcall⟩ | ⟨x, -, hcall⟩ | ⟨x, y, -, hcall⟩ <;>
    rw [hcall]
  · rfl
  · trivial
  · rfl

theorem uses_model (p : Prepared) : (model client scope p).Asks (Call.Uses client) := by
  intro xs stage hstage
  rcases call_of_model hstage with ⟨-, hcall⟩ | ⟨x, -, hcall⟩ | ⟨x, y, -, hcall⟩ <;> rw [hcall]
  · trivial
  · rfl
  · rfl

theorem uses_endpoint (p : Prepared) : (endpoint client scope p).Asks (Call.Uses client) := by
  intro xs stage hstage
  rcases call_of_endpoint hstage with hcall | ⟨x, -, -, hcall⟩ <;> rw [hcall]
  · rfl
  · trivial

theorem uses_deployment (p : Deployment.Input) :
    (deployment client scope p).Asks (Call.Uses client) := by
  intro xs stage hstage
  rcases call_of_deployment hstage with
    ⟨-, hcall⟩ | ⟨e, -, hcall⟩ | ⟨e, m, -, hcall⟩ | ⟨e, m, y, -, hcall⟩ <;> rw [hcall]
  · rfl
  · rfl
  · trivial
  · rfl

theorem uses_flow (p : Prepared) : (flow scope p).Asks (Call.Uses client) := by
  intro xs stage hstage
  rcases call_of_flow hstage with ⟨-, hcall⟩ | ⟨x, verb, -, hcall⟩ <;> rw [hcall] <;> trivial

end Course

namespace Request

/-- All that an operation asks for, it asks for with its client. -/
theorem uses_course (q : Request) (p : q.Input) (client : κ) :
    (q.course p client).Asks (Call.Uses client) := by
  cases q with
  | environment => exact Course.uses_environment p
  | model => exact Course.uses_model p
  | endpoint => exact Course.uses_endpoint p
  | deployment => exact Course.uses_deployment p
  | flow => exact Course.uses_flow p
  | workspace | endpointRecord =>
    intro xs stage hstage
    first
      | rw [(Course.call_of_workspace hstage).2]
      | rw [(Course.call_of_endpointRecord hstage).2]
    rfl

variable [Disk δ]

/-- What an operation does about the client of its session, and what it leaves on record. -/
inductive Proceeds (w : World σ κ) (q : Request) (s : Session (Transcript σ κ) κ δ) :
    Except ProvisionError q.Record × Session (Transcript σ κ) κ δ → Prop
  /-- Its inputs are refused, and it does nothing. -/
  | refused {e : ProvisionError} : q.fill s.store s.disk = .error e → Proceeds w q s (.error e, s)
  /-- It is cancelled before it does anything. -/
  | stopped {p : q.Input} : q.fill s.store s.disk = .ok p → w.cancelled s.world.state = true →
    Proceeds w q s (.error (.cancelled q.kind (q.name p)), s)
  /-- There is no client, and it fails to open one; the next operation may try again. -/
  | failed {p : q.Input} {opening : List (Event κ)} {e : ProvisionError}
    {s' : Session (Transcript σ κ) κ δ} : q.fill s.store s.disk = .ok p → s.client? = none →
    Opening q.kind (q.name p) q.scope.subscription opening (.error e) → s.Adds opening s' →
    s'.OpensNext → Proceeds w q s (.error e, s')
  /-- There is no client, and it opens one and works with it. -/
  | opened {client : κ} {work : List (Event κ)}
    {r : Except ProvisionError q.Record × Session (Transcript σ κ) κ δ} : s.client? = none →
    s.Adds (Event.connected q.scope.subscription client ++ work) r.2 → r.2.client? = some client →
    (∀ e ∈ work, e.call.Uses client) → Proceeds w q s r
  /-- It works with the client that is there. -/
  | reused {client : κ} {work : List (Event κ)}
    {r : Except ProvisionError q.Record × Session (Transcript σ κ) κ δ} : s.client? = some client →
    s.Adds work r.2 → r.2.client? = some client → (∀ e ∈ work, e.call.Uses client) →
    Proceeds w q s r

/-- Every operation does one of these things. -/
theorem proceeds (w : World σ κ) (q : Request) (s : Session (Transcript σ κ) κ δ) :
    q.Proceeds w s ((q.op w.recorded).run.run s) := by
  rcases (q.follows w.recorded s).refused_or_good with ⟨e, hfill, hr⟩ | ⟨p, hfill, hfollows⟩
  · rw [hr]
    exact .refused hfill
  generalize (q.op w.recorded).run.run s = r at hfollows
  cases hfollows with
  | unopened hopens =>
    cases hopens.recorded with
    | stopped hstop => exact .stopped hfill hstop
    | tried hnone hopening hadds hclient =>
      exact .failed hfill hnone hopening hadds (Session.opensNext_of_none hclient)
  | @opened client s' r hopens hrest =>
    obtain ⟨work, hadds, hsame, hwork⟩ := hrest.recorded (q.uses_course p client)
    cases hopens.recorded with
    | there hsome => exact .reused hsome hadds (hsame.trans hsome) hwork
    | tried hnone hopening hopened hclient =>
      cases hopening
      exact .opened hnone (hopened.trans hadds) (hsame.trans hclient) hwork

end Request

/-! ## Any sequence of operations -/

/-- What may become of one orchestrator, with what it was asked for so far.  It is new at first.
Every operation begins with what the ones before have left behind; between two operations the
world, the store and the disk may change, but nobody else gets hold of its client. -/
inductive Lifetime [Disk δ] (w : World σ κ) : List Request → Session (Transcript σ κ) κ δ → Prop
  | new (state : σ) (disk : δ) (store : Store) :
    Lifetime w [] ⟨⟨state, []⟩, disk, store, none, []⟩
  | operate {qs : List Request} {s : Session (Transcript σ κ) κ δ} (q : Request) :
    Lifetime w qs s → Lifetime w (qs ++ [q]) ((q.op w.recorded).run.run s).2
  | elsewhere {qs : List Request} {s : Session (Transcript σ κ) κ δ} (state : σ) (disk : δ)
    (store : Store) : Lifetime w qs s →
    Lifetime w qs
      { s with world := { s.world with state := state }, disk := disk, store := store }

/-- Attempts to open a client, all of which failed. -/
inductive Unopened : List (Event κ) → Prop
  | nil : Unopened []
  | snoc {events opening : List (Event κ)} {kind : Kind} {name subscription : String}
    {e : ProvisionError} : Unopened events →
    Opening kind name subscription opening (.error e) → Unopened (events ++ opening)

/-- What is on record of an orchestrator that was asked for these things.  Without a client there
are failed attempts only.  With one, there are failed attempts, the one that opened it for one of
the requests, and work that is done with it. -/
inductive Chronicle (qs : List Request) : Option κ → List (Event κ) → Prop
  | unopened {events : List (Event κ)} : Unopened events → Chronicle qs none events
  | opened {earlier work : List (Event κ)} {q : Request} {client : κ} : Unopened earlier →
    q ∈ qs → (∀ e ∈ work, e.call.Uses client) →
    Chronicle qs (some client) (earlier ++ (Event.connected q.scope.subscription client ++ work))

/-- One operation more. -/
theorem Request.Proceeds.chronicle [Disk δ] {w : World σ κ} {qs : List Request} {q : Request}
    {s : Session (Transcript σ κ) κ δ}
    {r : Except ProvisionError q.Record × Session (Transcript σ κ) κ δ}
    (h : q.Proceeds w s r) (hs : Chronicle qs s.client? s.world.events) :
    Chronicle (qs ++ [q]) r.2.client? r.2.world.events := by
  have hsame : Chronicle (qs ++ [q]) s.client? s.world.events := by
    generalize s.client? = client?, s.world.events = events at hs
    cases hs with
    | unopened hunopened => exact .unopened hunopened
    | opened hearlier hq hwork => exact .opened hearlier (List.mem_append_left _ hq) hwork
  cases h with
  | refused | stopped => exact hsame
  | failed _ hnone hopening hadds hnext =>
    rw [hnone] at hs
    rw [hnext.1, hadds.events]
    cases hs with
    | unopened hunopened => exact .unopened (hunopened.snoc hopening)
  | opened hnone hadds hclient hwork =>
    rw [hnone] at hs
    rw [hclient, hadds.events]
    cases hs with
    | unopened hunopened =>
      exact .opened hunopened (List.mem_append_right _ List.mem_cons_self) hwork
  | @reused client work _ hsome hadds hclient hwork =>
    rw [hsome] at hsame
    rw [hclient, hadds.events]
    generalize s.world.events = events at hsame
    cases hsame with
    | @opened earlier before opener _ hearlier hq hbefore =>
      rw [List.append_assoc, List.append_assoc]
      refine .opened hearlier hq fun e he => ?_
      exact (List.mem_append.1 he).elim (hbefore e) (hwork e)

theorem Lifetime.chronicle [Disk δ] {w : World σ κ} {qs : List Request}
    {s : Session (Transcript σ κ) κ δ} (h : Lifetime w qs s) :
    Chronicle qs s.client? s.world.events := by
  induction h with
  | new => exact .unopened .nil
  | operate q _ ih => exact (q.proceeds w _).chronicle ih
  | elsewhere _ _ _ _ ih => exact ih

/-- Every operation adds to the calls of a session what it adds to the record. -/
theorem Request.Proceeds.exists_adds [Disk δ] {w : World σ κ} {q : Request}
    {s : Session (Transcript σ κ) κ δ}
    {r : Except ProvisionError q.Record × Session (Transcript σ κ) κ δ}
    (h : q.Proceeds w s r) : ∃ events, s.Adds events r.2 := by
  cases h with
  | refused | stopped => exact ⟨[], .none s⟩
  | failed _ _ _ hadds _ => exact ⟨_, hadds⟩
  | opened _ hadds => exact ⟨_, hadds⟩
  | reused _ hadds => exact ⟨_, hadds⟩

theorem Lifetime.calls_eq [Disk δ] {w : World σ κ} {qs : List Request}
    {s : Session (Transcript σ κ) κ δ} (h : Lifetime w qs s) :
    s.world.events.map Event.call = s.calls := by
  induction h with
  | new => rfl
  | @operate qs s q _ ih =>
    obtain ⟨events, hadds⟩ := (q.proceeds w s).exists_adds
    rw [hadds.events, hadds.calls, List.map_append, ih]
  | elsewhere _ _ _ _ ih => exact ih

/-! ## What is on record -/

/-- Some attempt had both calls succeed: the control plane connected for this subscription, with
this client, and then the programs were ready. -/
def Opened (subscription : String) (client : κ) (events : List (Event κ)) : Prop :=
  ∃ earlier later, events = earlier ++ (Event.connected subscription client ++ later)

/-- The record of an orchestrator, and the client that it has. -/
structure Orderly (client? : Option κ) (events : List (Event κ)) : Prop where
  /-- Nothing is asked of the control plane, and no program run, before some attempt had both
  calls succeed; and then it is done with the client of this attempt. -/
  work : ∀ before e after, events = before ++ e :: after → e.call.IsWork →
    ∃ subscription client, Opened subscription client before ∧ e.call.Uses client
  /-- After such an attempt there is only work, all with its client, which is kept. -/
  afterwards : ∀ before subscription client after,
    events = before ++ (Event.connected subscription client ++ after) →
    client? = some client ∧ ∀ e ∈ after, e.call.Uses client
  /-- The programs are made ready only right after the control plane has connected. -/
  startTools : ∀ before answer? after, events = before ++ .startTools answer? :: after →
    ∃ earlier subscription client, before = earlier ++ [.connect subscription (some (.ok client))]
  /-- There is a client only if some attempt had both calls succeed. -/
  client : ∀ client, client? = some client → ∃ subscription, Opened subscription client events

/-- An attempt that failed did not make the programs ready. -/
theorem Opening.notMem_of_error {kind : Kind} {name subscription : String}
    {opening : List (Event κ)} {e : ProvisionError}
    (h : Opening kind name subscription opening (.error e)) :
    .startTools (some (.ok ())) ∉ opening := by
  cases h <;> simp

theorem Event.not_isWork_of_mem_connected (subscription : String) (client : κ) :
    ∀ e ∈ Event.connected subscription client, ¬ e.call.IsWork := by
  simp [Event.connected, Event.call, Call.IsWork]

theorem Opening.not_isWork {kind : Kind} {name subscription : String}
    {opening : List (Event κ)} {answer : Except ProvisionError κ}
    (h : Opening kind name subscription opening answer) : ∀ e ∈ opening, ¬ e.call.IsWork := by
  cases h with
  | done client => exact Event.not_isWork_of_mem_connected subscription client
  | _ => simp [Event.call, Call.IsWork]

namespace Unopened

variable {events : List (Event κ)}

theorem notMem (h : Unopened events) : .startTools (some (.ok ())) ∉ events := by
  induction h with
  | nil => exact List.not_mem_nil
  | snoc _ hopening ih => exact fun he => (List.mem_append.1 he).elim ih hopening.notMem_of_error

theorem not_isWork (h : Unopened events) : ∀ e ∈ events, ¬ e.call.IsWork := by
  induction h with
  | nil => exact fun e he => absurd he List.not_mem_nil
  | snoc _ hopening ih =>
    intro e he
    exact (List.mem_append.1 he).elim (ih e) (hopening.not_isWork e)

end Unopened

/-! ### The programs are made ready after the control plane has connected -/

/-- Whenever the programs are made ready, the control plane has just connected. -/
def StartsConnected (events : List (Event κ)) : Prop :=
  ∀ before answer? after, events = before ++ .startTools answer? :: after →
    ∃ earlier subscription client, before = earlier ++ [.connect subscription (some (.ok client))]

namespace StartsConnected

theorem append {events more : List (Event κ)} (h : StartsConnected events)
    (h' : StartsConnected more) : StartsConnected (events ++ more) := by
  intro before answer? after hsplit
  rcases List.append_eq_append_iff.1 hsplit with ⟨front, rfl, hmore⟩ | ⟨back, hevents, hback⟩
  · obtain ⟨earlier, subscription, client, rfl⟩ := h' front answer? after hmore
    exact ⟨events ++ earlier, subscription, client, (List.append_assoc _ _ _).symm⟩
  · cases back with
    | nil =>
      obtain ⟨earlier, subscription, client, hnil⟩ := h' [] answer? after hback.symm
      exact absurd hnil (by simp)
    | cons e back =>
      obtain rfl : .startTools answer? = e := (List.cons.inj hback).1
      exact h before answer? back hevents

theorem of_notMem {events : List (Event κ)} (h : ∀ answer?, .startTools answer? ∉ events) :
    StartsConnected events := by
  rintro before answer? after rfl
  exact absurd (List.mem_append_right _ List.mem_cons_self) (h answer?)

/-- Two calls: the first connects, the second makes the programs ready. -/
theorem pair (subscription : String) (client : κ) (ready? : Option (Except Program.Failure Unit)) :
    StartsConnected [.connect subscription (some (.ok client)), .startTools ready?] := by
  intro before answer? after hsplit
  rcases before with _ | ⟨first, _ | ⟨second, rest⟩⟩
  · cases hsplit
  · cases hsplit
    exact ⟨[], subscription, client, rfl⟩
  · simp at hsplit

end StartsConnected

theorem Opening.startsConnected {kind : Kind} {name subscription : String}
    {opening : List (Event κ)} {answer : Except ProvisionError κ}
    (h : Opening kind name subscription opening answer) : StartsConnected opening := by
  cases h with
  | connecting | unconnected => exact .of_notMem (by simp)
  | starting | unready | done => exact .pair _ _ _

theorem Unopened.startsConnected {events : List (Event κ)} (h : Unopened events) :
    StartsConnected events := by
  induction h with
  | nil => exact .of_notMem fun _ => List.not_mem_nil
  | snoc _ hopening ih => exact ih.append hopening.startsConnected

/-! ### Order -/

/-- An element that is not in the front of a list is behind it. -/
theorem exists_of_append_eq_of_notMem {front back before after : List α} {a : α}
    (h : front ++ back = before ++ a :: after) (ha : a ∉ front) :
    ∃ middle, before = front ++ middle ∧ back = middle ++ a :: after := by
  rcases List.append_eq_append_iff.1 h with hback | ⟨rest, rfl, hrest⟩
  · exact hback
  · cases rest with
    | nil => exact ⟨[], by simp, hrest.symm⟩
    | cons b rest =>
      obtain rfl : a = b := (List.cons.inj hrest).1
      exact absurd (List.mem_append_right _ List.mem_cons_self) ha

/-- Where the programs got ready only once, there is one place for an attempt that succeeded. -/
theorem Event.connected_inj {before before' after after' : List (Event κ)}
    {subscription subscription' : String} {client client' : κ}
    (hbefore : .startTools (some (.ok ())) ∉ before) (hafter : .startTools (some (.ok ())) ∉ after)
    (h : before ++ (Event.connected subscription client ++ after) =
      before' ++ (Event.connected subscription' client' ++ after')) :
    subscription = subscription' ∧ client = client' ∧ after = after' := by
  have hready : .startTools (some (.ok ())) ∉
      before ++ [.connect subscription (some (.ok client))] := by
    simp [hbefore]
  have hsplit : (before ++ [.connect subscription (some (.ok client))]) ++
        .startTools (some (.ok ())) :: after =
      (before' ++ [.connect subscription' (some (.ok client'))]) ++
        .startTools (some (.ok ())) :: after' := by
    simpa [Event.connected] using h
  obtain ⟨hconnect, -, hafter⟩ := (List.append_cons_inj_of_notMem hready hafter).1 hsplit
  cases (List.append_inj' hconnect rfl).2
  exact ⟨rfl, rfl, hafter⟩

namespace Chronicle

variable {qs : List Request} {client? : Option κ} {events : List (Event κ)}

theorem startsConnected (h : Chronicle qs client? events) : StartsConnected events := by
  cases h with
  | unopened hunopened => exact hunopened.startsConnected
  | opened hearlier _ hwork =>
    refine hearlier.startsConnected.append (.append (.pair _ _ _) (.of_notMem ?_))
    exact fun answer? he => hwork _ he

/-- Work is done with the client of an attempt that succeeded before, for one of the requests. -/
theorem exists_opened_of_isWork (h : Chronicle qs client? events) {before after : List (Event κ)}
    {e : Event κ} (hsplit : events = before ++ e :: after) (he : e.call.IsWork) :
    ∃ q ∈ qs, ∃ client, Opened q.scope.subscription client before ∧ e.call.Uses client := by
  cases h with
  | unopened hunopened =>
    rw [hsplit] at hunopened
    exact absurd he (hunopened.not_isWork e (List.mem_append_right _ List.mem_cons_self))
  | @opened earlier work q client hearlier hq hwork =>
    have hconnected := Event.not_isWork_of_mem_connected q.scope.subscription client
    rw [← List.append_assoc] at hsplit
    obtain ⟨middle, rfl, rfl⟩ := exists_of_append_eq_of_notMem hsplit fun hmem =>
      (List.mem_append.1 hmem).elim (hearlier.not_isWork e · he) (hconnected e · he)
    refine ⟨q, hq, client, ⟨earlier, middle, List.append_assoc _ _ _⟩, hwork e ?_⟩
    exact List.mem_append_right _ List.mem_cons_self

/-- After an attempt that succeeded there is no other one. -/
theorem of_opened (h : Chronicle qs client? events) {before after : List (Event κ)}
    {subscription : String} {client : κ}
    (hsplit : events = before ++ (Event.connected subscription client ++ after)) :
    client? = some client ∧ ∀ e ∈ after, e.call.Uses client := by
  cases h with
  | unopened hunopened =>
    rw [hsplit] at hunopened
    exact absurd (by simp [Event.connected]) hunopened.notMem
  | opened hearlier _ hwork =>
    obtain ⟨-, rfl, rfl⟩ := Event.connected_inj hearlier.notMem (hwork _) hsplit
    exact ⟨rfl, hwork⟩

/-- Only one attempt succeeded. -/
theorem subscription_eq (h : Chronicle qs client? events)
    {before before' after after' : List (Event κ)} {subscription subscription' : String}
    {client client' : κ}
    (hsplit : events = before ++ (Event.connected subscription client ++ after))
    (hsplit' : events = before' ++ (Event.connected subscription' client' ++ after')) :
    subscription = subscription' := by
  cases h with
  | unopened hunopened =>
    rw [hsplit] at hunopened
    exact absurd (by simp [Event.connected]) hunopened.notMem
  | opened hearlier _ hwork =>
    have hfirst := Event.connected_inj hearlier.notMem (hwork _) hsplit
    have hsecond := Event.connected_inj hearlier.notMem (hwork _) hsplit'
    exact hfirst.1.symm.trans hsecond.1

theorem orderly (h : Chronicle qs client? events) : Orderly client? events where
  work before e after hsplit he := by
    obtain ⟨q, -, client, hopened, huses⟩ := h.exists_opened_of_isWork hsplit he
    exact ⟨q.scope.subscription, client, hopened, huses⟩
  afterwards before subscription client after hsplit := h.of_opened hsplit
  startTools := h.startsConnected
  client client hclient := by
    subst hclient
    cases h with
    | opened => exact ⟨_, _, _, rfl⟩

end Chronicle

/-- Whatever an orchestrator is asked for, and however the attempts to open a client go: its work
is done with the client of the one attempt that succeeded, after which no other is made.  An
attempt that fails is reported as what it is, and the next operation may try again. -/
theorem opened_once [Disk δ] {w : World σ κ} {qs : List Request}
    {s : Session (Transcript σ κ) κ δ} (h : Lifetime w qs s) :
    s.world.events.map Event.call = s.calls ∧ Orderly s.client? s.world.events ∧
      (s.client? = none → s.OpensNext) ∧
      ∀ q : Request, q.Proceeds w s ((q.op w.recorded).run.run s) :=
  ⟨h.calls_eq, h.chronicle.orderly, Session.opensNext_of_none, fun q => q.proceeds w s⟩

/-- A world that has to be asked four times: it does not connect, then the programs are not ready,
and then the operation is cancelled. -/
def reluctantWorld : World Nat Unit where
  cancelled _ := false
  connect _ n := (match n with
    | 0 => some (.error (.transport "refused"))
    | 3 => none
    | _ => some (.ok ()), n + 1)
  startTools n := (some (if n = 2 then .error (.unavailable "no tools") else .ok ()), n + 1)
  run _ _ n := (some (.ok default), n + 1)
  read _ _ q n := (some (.ok q.sample), n + 1)

theorem opened_once_reluctantWorld :
    let w := reluctantWorld
    let scope : Scope := ⟨"sub", "rg", "ws"⟩
    let q : Request := .endpointRecord scope "ep"
    let new : Session (Transcript Nat Unit) Unit FileTree :=
      ⟨⟨0, []⟩, FileTree.empty, .memory ⟨KeyMap.empty⟩, none, []⟩
    let first := (q.op w.recorded).run.run new
    let second := (q.op w.recorded).run.run first.2
    let third := (q.op w.recorded).run.run second.2
    let fourth := (q.op w.recorded).run.run third.2
    let fifth := (q.op w.recorded).run.run fourth.2
    first.1 = .error (.controlPlaneInit (.transport "refused")) ∧
      second.1 = .error (.toolInit (.unavailable "no tools")) ∧
      third.1 = .error (.cancelled .endpoint "ep") ∧
      fifth.2.client? = some () ∧ fifth.2.calls.length = 8 ∧
      fifth.2.world.events.map Event.call = fifth.2.calls ∧
      Orderly fifth.2.client? fifth.2.world.events ∧
      (fifth.2.client? = none → fifth.2.OpensNext) ∧
      ∀ q : Request, q.Proceeds w fifth.2 ((q.op w.recorded).run.run fifth.2) := by
  intro w scope q new first second third fourth fifth
  have hnew : Lifetime w [] new := .new 0 FileTree.empty (.memory ⟨KeyMap.empty⟩)
  have hfifth : Lifetime w [q, q, q, q, q] fifth.2 :=
    ((((hnew.operate q).operate q).operate q).operate q).operate q
  exact ⟨rfl, rfl, rfl, by decide +kernel, by decide +kernel, opened_once hfifth⟩

end Provisioner
