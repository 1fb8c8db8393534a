import Provisioner.Proofs.Operation.Request

/-!
# Worlds that keep more than they show

A world may carry more in its state than operations can tell: a book of what it answered, for
one.  Operations do the same in such a world as in the one that it shows.

* `World.Tracks` says that one world answers as another does, seen through a view of its states.
* `Op.Opens.tracked`, `Course.Unfolds.tracked` and `Follows.tracked` carry what an operation does
  over to the world that is shown.
* `Request.run_tracked` says that every operation does the same in both.
-/

namespace Provisioner

variable {σ τ κ δ α : Type}

/-- A world that answers as another does: whatever it is asked, its answer is that of the other in
the state that can be seen. -/
structure World.Tracks (view : τ → σ) (v : World τ κ) (w : World σ κ) : Prop where
  cancelled : ∀ t, w.cancelled (view t) = v.cancelled t
  connect : ∀ subscription t,
    w.connect subscription (view t) = (v.connect subscription t).map id view
  startTools : ∀ t, w.startTools (view t) = (v.startTools t).map id view
  run : ∀ program arguments t,
    w.run program arguments (view t) = (v.run program arguments t).map id view
  read : ∀ client scope query t,
    w.read client scope query (view t) = (v.read client scope query t).map id view

/-- A session with as much of its world as can be seen. -/
def Session.seen (view : τ → σ) (s : Session τ κ δ) : Session σ κ δ :=
  { s with world := view s.world }

section

variable {view : τ → σ} {v : World τ κ} {w : World σ κ} {t t' : τ} {s s' : Session τ κ δ}

namespace World.Tracks

theorem connect_eq (hw : World.Tracks view v w) {subscription : String}
    {answer? : Option (Except ControlPlane.Failure κ)}
    (h : v.connect subscription t = (answer?, t')) :
    w.connect subscription (view t) = (answer?, view t') := by
  rw [hw.connect, h]
  rfl

theorem startTools_eq (hw : World.Tracks view v w)
    {answer? : Option (Except Program.Failure Unit)} (h : v.startTools t = (answer?, t')) :
    w.startTools (view t) = (answer?, view t') := by
  rw [hw.startTools, h]
  rfl

theorem goes (hw : World.Tracks view v w) (h : v.cancelled t = false) :
    w.cancelled (view t) = false :=
  (hw.cancelled t).trans h

theorem stops (hw : World.Tracks view v w) (h : v.cancelled t = true) :
    w.cancelled (view t) = true :=
  (hw.cancelled t).trans h

end World.Tracks

/-! ## Calls -/

theorem Exchange.Given.tracked {x : Exchange κ} (h : x.Given v t t')
    (hw : World.Tracks view v w) : x.Given w (view t) (view t') := by
  cases x with
  | run program arguments ended =>
    have hrun : v.run program arguments t = (some ended, t') := h
    show w.run program arguments (view t) = _
    rw [hw.run, hrun]
    rfl
  | read client scope query answer =>
    have hread : v.read client scope query t = (some answer, t') := h
    show w.read client scope query (view t) = _
    rw [hw.read, hread]
    rfl

theorem Call.Dropped.tracked {call : Call κ} (h : call.Dropped v t t')
    (hw : World.Tracks view v w) : call.Dropped w (view t) (view t') := by
  cases call with
  | connect | startTools => exact h
  | run program arguments =>
    have hrun : v.run program arguments t = (none, t') := h
    show w.run program arguments (view t) = _
    rw [hw.run, hrun]
    rfl
  | read client scope query =>
    have hread : v.read client scope query t = (none, t') := h
    show w.read client scope query (view t) = _
    rw [hw.read, hread]
    rfl

theorem Awaits.tracked {call : Call κ} {x? : Option (Exchange κ)} (h : Awaits v call s x? s')
    (hw : World.Tracks view v w) : Awaits w call (s.seen view) x? (s'.seen view) := by
  cases h with
  | stopped hstop => exact .stopped (hw.stops hstop)
  | dropped hgo hdropped => exact .dropped (hw.goes hgo) (hdropped.tracked hw)
  | answered hgo hcall hgiven => exact .answered (hw.goes hgo) hcall (hgiven.tracked hw)

/-! ## Opening a client -/

theorem Op.Interrupted.tracked {scope : Scope} (h : Op.Interrupted v scope s s')
    (hw : World.Tracks view v w) : Op.Interrupted w scope (s.seen view) (s'.seen view) := by
  cases h with
  | before hstop => exact .before (hw.stops hstop)
  | connecting hgo hnone hconnect =>
    exact .connecting (hw.goes hgo) hnone (hw.connect_eq hconnect)
  | starting hgo hnone hconnect htools =>
    exact .starting (hw.goes hgo) hnone (hw.connect_eq hconnect) (hw.startTools_eq htools)

theorem Op.Opens.tracked {kind : Kind} {name : String} {scope : Scope}
    {r : Except ProvisionError κ × Session τ κ δ} (h : Op.Opens v kind name scope s r)
    (hw : World.Tracks view v w) :
    Op.Opens w kind name scope (s.seen view) (r.1, r.2.seen view) := by
  cases h with
  | cancelled h => exact .cancelled (h.tracked hw)
  | there hgo hsome => exact .there (hw.goes hgo) hsome
  | unconnected hgo hnone hconnect =>
    exact .unconnected (hw.goes hgo) hnone (hw.connect_eq hconnect)
  | unready hgo hnone hconnect htools =>
    exact .unready (hw.goes hgo) hnone (hw.connect_eq hconnect) (hw.startTools_eq htools)
  | opened hgo hnone hconnect htools =>
    exact .opened (hw.goes hgo) hnone (hw.connect_eq hconnect) (hw.startTools_eq htools)

/-! ## Operations -/

variable [Disk δ]

/-- Storing does not look at the world. -/
theorem Course.seen_conclude (publication? : Option (List (String × String))) (a : α)
    (s : Session τ κ δ) :
    conclude publication? a (s.seen view) =
      ((conclude publication? a s).1, (conclude publication? a s).2.seen view) := by
  cases publication? with
  | none => rfl
  | some pairs =>
    rcases hset : s.store.setAll pairs s.disk with ⟨_ | _, store, disk⟩
    · rw [conclude_of_error hset]
      exact conclude_of_error (s := s.seen view) hset a
    · rw [conclude_of_ok hset]
      exact conclude_of_ok (s := s.seen view) hset a

theorem Course.Unfolds.tracked {course : Course κ α}
    {publication? : Option (List (String × String))}
    {r : Except ProvisionError α × Session τ κ δ} (h : Unfolds v publication? course s r)
    (hw : World.Tracks view v w) :
    Unfolds w publication? course (s.seen view) (r.1, r.2.seen view) := by
  induction h with
  | cancelled hstage hawaits => exact .cancelled hstage (hawaits.tracked hw)
  | failed hstage hawaits hfailure => exact .failed hstage (hawaits.tracked hw) hfailure
  | next hstage hawaits hfailure _ ih => exact .next hstage (hawaits.tracked hw) hfailure ih
  | useless hdone => exact .useless hdone
  | finished hdone =>
    rw [← Course.seen_conclude]
    exact .finished hdone

theorem Follows.tracked {kind : Kind} {name : String} {scope : Scope} {course : κ → Course κ α}
    {publication? : Option (List (String × String))}
    {r : Except ProvisionError α × Session τ κ δ}
    (h : Follows v kind name scope course publication? s r) (hw : World.Tracks view v w) :
    Follows w kind name scope course publication? (s.seen view) (r.1, r.2.seen view) := by
  cases h with
  | unopened hopens => exact .unopened (hopens.tracked hw)
  | opened hopens hrest => exact .opened (hopens.tracked hw) (hrest.tracked hw)

/-- An operation does the same in a world that keeps more as in the one that it shows. -/
theorem Request.run_tracked (hw : World.Tracks view v w) (q : Request) (s : Session τ κ δ) :
    (q.op w).run.run (s.seen view) =
      (((q.op v).run.run s).1, ((q.op v).run.run s).2.seen view) := by
  have hshown := q.follows w (s.seen view)
  have hkept := q.follows v s
  cases hfill : q.fill s.store s.disk with
  | error e =>
    rw [(hshown.1 e hfill).1, (hkept.1 e hfill).1]
  | ok p => exact (hshown.2 p hfill).unique ((hkept.2 p hfill).tracked hw)

end

end Provisioner
