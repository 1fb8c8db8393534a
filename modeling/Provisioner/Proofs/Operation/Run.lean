import Provisioner.Orchestrator
import Provisioner.Proofs.Basic

/-!
# Runs of operations

What the parts of an operation answer in a session, and the session they leave behind.

* `Op.run_await_of_some` makes one call that is answered.
* `Op.run_publish` stores what a step publishes.
* `Op.run_prepared` and `Op.run_connected` are what comes before the first call.
-/

namespace Provisioner

variable {σ κ δ α β ε : Type}

namespace Op

/-! ## Answers -/

theorem run_orFail (wrap : ε → ProvisionError) (answer : Except ε α) (s : Session σ κ δ) :
    (orFail wrap answer).run.run s = (answer.mapError wrap, s) := by
  cases answer <;> rfl

theorem run_orFail_id (answer : Except ProvisionError α) (s : Session σ κ δ) :
    (orFail id answer).run.run s = (answer, s) := by
  cases answer <;> rfl

/-! ## Calls -/

theorem run_perform (call : Call κ) (answer : σ → Option α × σ) (s : Session σ κ δ) :
    (perform call answer).run.run s =
      (.ok (answer s.world).1,
        { s with world := (answer s.world).2, calls := s.calls ++ [call] }) := rfl

theorem run_checkCancelled (w : World σ κ) (kind : Kind) (name : String) (s : Session σ κ δ) :
    (checkCancelled w kind name).run.run s =
      (if w.cancelled s.world then .error (.cancelled kind name) else .ok (), s) := by
  show (if w.cancelled s.world then (throw _ : Op σ κ δ Unit) else pure ()).run.run s = _
  split <;> rfl

theorem run_checkCancelled_of_true {w : World σ κ} {kind : Kind} {name : String}
    {s : Session σ κ δ} (hstop : w.cancelled s.world = true) :
    (checkCancelled w kind name).run.run s = (.error (.cancelled kind name), s) := by
  rw [run_checkCancelled, hstop]
  rfl

theorem run_checkCancelled_of_false {w : World σ κ} {kind : Kind} {name : String}
    {s : Session σ κ δ} (hgo : w.cancelled s.world = false) :
    (checkCancelled w kind name).run.run s = (.ok (), s) := by
  rw [run_checkCancelled, hgo]
  rfl

/-- A call that is not given up, and is answered. -/
theorem run_await_of_some {w : World σ κ} {kind : Kind} {name : String} {call : Call κ}
    {answer : σ → Option α × σ} {s : Session σ κ δ} {a : α} {world : σ}
    (hgo : w.cancelled s.world = false) (h : answer s.world = (some a, world)) :
    (await w kind name call answer).run.run s =
      (.ok a, { s with world := world, calls := s.calls ++ [call] }) := by
  rw [await, run_bind_of_ok (run_checkCancelled_of_false hgo),
    run_bind_of_ok (run_perform call answer s), h]
  rfl

theorem run_await_of_cancelled {w : World σ κ} {kind : Kind} {name : String} {call : Call κ}
    {answer : σ → Option α × σ} {s : Session σ κ δ} (hstop : w.cancelled s.world = true) :
    (await w kind name call answer).run.run s = (.error (.cancelled kind name), s) := by
  rw [await, run_bind_of_error (run_checkCancelled_of_true hstop)]

/-- A call that is dropped while it is under way. -/
theorem run_await_of_none {w : World σ κ} {kind : Kind} {name : String} {call : Call κ}
    {answer : σ → Option α × σ} {s : Session σ κ δ} {world : σ}
    (hgo : w.cancelled s.world = false) (h : answer s.world = (none, world)) :
    (await w kind name call answer).run.run s =
      (.error (.cancelled kind name), { s with world := world, calls := s.calls ++ [call] }) := by
  rw [await, run_bind_of_ok (run_checkCancelled_of_false hgo),
    run_bind_of_ok (run_perform call answer s), h]
  rfl

/-- Publishing stores the pairs in the store of the session. -/
theorem run_publish [Disk δ] (pairs : List (String × String)) (s : Session σ κ δ) :
    (publish pairs).run.run s =
      ((s.store.setAll pairs s.disk).1.mapError .store,
        { s with store := (s.store.setAll pairs s.disk).2.1,
                 disk := (s.store.setAll pairs s.disk).2.2 }) := by
  exact run_orFail .store (s.store.setAll pairs s.disk).1
    { s with store := (s.store.setAll pairs s.disk).2.1,
             disk := (s.store.setAll pairs s.disk).2.2 }

/-! ## Before the first call -/

theorem run_prepared (fill : Store → δ → Except ProvisionError α) (s : Session σ κ δ) :
    (prepared fill).run.run s = (fill s.store s.disk, s) :=
  run_orFail_id (fill s.store s.disk) s

theorem run_get_bind (next : Session σ κ δ → Op σ κ δ α) (s : Session σ κ δ) :
    (get >>= next).run.run s = (next s).run.run s := rfl

theorem run_client_of_cancelled {w : World σ κ} {kind : Kind} {name : String} {scope : Scope}
    {s : Session σ κ δ} (hstop : w.cancelled s.world = true) :
    (Op.client w kind name scope).run.run s = (.error (.cancelled kind name), s) := by
  rw [Op.client, run_bind_of_error (run_checkCancelled_of_true hstop)]

/-- A session that has a client does not make another one. -/
theorem run_client_of_some {w : World σ κ} {kind : Kind} {name : String} {scope : Scope}
    {s : Session σ κ δ} {client : κ} (hgo : w.cancelled s.world = false)
    (h : s.client? = some client) :
    (Op.client w kind name scope).run.run s = (.ok client, s) := by
  rw [Op.client, run_bind_of_ok (run_checkCancelled_of_false hgo), run_get_bind, h]
  rfl

theorem run_client_of_none {w : World σ κ} {kind : Kind} {name : String} {scope : Scope}
    {s : Session σ κ δ} (hgo : w.cancelled s.world = false) (h : s.client? = none) :
    (Op.client w kind name scope).run.run s = (openClient w kind name scope).run.run s := by
  rw [Op.client, run_bind_of_ok (run_checkCancelled_of_false hgo), run_get_bind, h]

theorem run_connected_of_some {w : World σ κ} {kind : Kind} {name : String} {scope : Scope}
    {body : Context σ κ → Op σ κ δ α} {s : Session σ κ δ} {client : κ}
    (hgo : w.cancelled s.world = false) (h : s.client? = some client) :
    (connected w kind name scope body).run.run s = (body ⟨w, client, scope⟩).run.run s := by
  rw [connected, run_bind_of_ok (run_client_of_some hgo h)]

theorem run_connected_of_cancelled {w : World σ κ} {kind : Kind} {name : String}
    {scope : Scope} {body : Context σ κ → Op σ κ δ α} {s : Session σ κ δ}
    (hstop : w.cancelled s.world = true) :
    (connected w kind name scope body).run.run s = (.error (.cancelled kind name), s) := by
  rw [connected, run_bind_of_error (run_client_of_cancelled hstop)]

/-- An operation whose inputs are good goes on to its step. -/
theorem run_prepared_connected {w : World σ κ} {kind : Kind} {name : β → String}
    {scope : Scope} {fill : Store → δ → Except ProvisionError β}
    {body : β → Context σ κ → Op σ κ δ α} {s : Session σ κ δ} {client : κ} {p : β}
    (hfill : fill s.store s.disk = .ok p) (hgo : w.cancelled s.world = false)
    (h : s.client? = some client) :
    (do let p ← prepared fill; connected w kind (name p) scope (body p)).run.run s =
      (body p ⟨w, client, scope⟩).run.run s := by
  have hprepared : (prepared fill : Op σ κ δ β).run.run s = (.ok p, s) := by
    rw [run_prepared, hfill]
  rw [run_bind_of_ok hprepared, run_connected_of_some hgo h]

end Op

end Provisioner
