import Provisioner.Proofs.Operation.Run

/-!
# Opening a client

Every operation waits for the client of its session, and the first one opens it.

* `Op.Opens` is how this await ends, and `Op.Interrupted` are the ways in which it is cancelled.
  `Op.opens_client` says that it always ends so, and `Op.Opens.run_client` that it ends in no
  other way.
* `Session.OpensNext` are the sessions in which the next operation opens a client:
  `Session.opensNext_of_none`.
-/

namespace Provisioner

variable {σ κ δ : Type}

/-- A session whose next operation opens a client, whichever operation it is: none is left
from the calls before. -/
def Session.OpensNext (s : Session σ κ δ) : Prop :=
  s.client? = none ∧
    ∀ (α : Type) (w : World σ κ) (kind : Kind) (name : String) (scope : Scope)
      (body : Context σ κ → Op σ κ δ α) (client : κ) (start world world' : σ),
      w.cancelled start = false →
      w.connect scope.subscription start = (some (.ok client), world) →
      w.startTools world = (some (.ok ()), world') →
      (Op.connected w kind name scope body).run.run { s with world := start } =
        (body ⟨w, client, scope⟩).run.run
          { s with world := world', client? := some client,
                   calls := s.calls ++ [.connect scope.subscription, .startTools] }

namespace Op

/-- The ways in which the await of a client is cancelled: before it does anything, while it
connects, or while it makes the programs ready. -/
inductive Interrupted (w : World σ κ) (scope : Scope) (s : Session σ κ δ) :
    Session σ κ δ → Prop
  | before : w.cancelled s.world = true → Interrupted w scope s s
  | connecting {world : σ} : w.cancelled s.world = false → s.client? = none →
    w.connect scope.subscription s.world = (none, world) →
    Interrupted w scope s
      { s with world := world, calls := s.calls ++ [.connect scope.subscription] }
  | starting {client : κ} {world world' : σ} : w.cancelled s.world = false → s.client? = none →
    w.connect scope.subscription s.world = (some (.ok client), world) →
    w.startTools world = (none, world') →
    Interrupted w scope s
      { s with world := world', calls := s.calls ++ [.connect scope.subscription, .startTools] }

/-- How the await of a client ends.  A client is kept only if it connected and the programs
are ready. -/
inductive Opens (w : World σ κ) (kind : Kind) (name : String) (scope : Scope)
    (s : Session σ κ δ) : Except ProvisionError κ × Session σ κ δ → Prop
  | cancelled {s' : Session σ κ δ} : Interrupted w scope s s' →
    Opens w kind name scope s (.error (.cancelled kind name), s')
  | there {client : κ} : w.cancelled s.world = false → s.client? = some client →
    Opens w kind name scope s (.ok client, s)
  | unconnected {e : ControlPlane.Failure} {world : σ} : w.cancelled s.world = false →
    s.client? = none → w.connect scope.subscription s.world = (some (.error e), world) →
    Opens w kind name scope s (.error (.controlPlaneInit e),
      { s with world := world, calls := s.calls ++ [.connect scope.subscription] })
  | unready {client : κ} {e : Program.Failure} {world world' : σ} :
    w.cancelled s.world = false → s.client? = none →
    w.connect scope.subscription s.world = (some (.ok client), world) →
    w.startTools world = (some (.error e), world') →
    Opens w kind name scope s (.error (.toolInit e),
      { s with world := world', calls := s.calls ++ [.connect scope.subscription, .startTools] })
  | opened {client : κ} {world world' : σ} : w.cancelled s.world = false → s.client? = none →
    w.connect scope.subscription s.world = (some (.ok client), world) →
    w.startTools world = (some (.ok ()), world') →
    Opens w kind name scope s (.ok client,
      { s with world := world', client? := some client,
               calls := s.calls ++ [.connect scope.subscription, .startTools] })

variable {w : World σ κ} {kind : Kind} {name : String} {scope : Scope} {s s' : Session σ κ δ}

/-- What is left to do after the programs were started. -/
theorem run_openClient_of_connected {client : κ} {ready? : Option (Except Program.Failure Unit)}
    {world world' : σ}
    (hconnect : w.connect scope.subscription s.world = (some (.ok client), world))
    (htools : w.startTools world = (ready?, world')) :
    (openClient w kind name scope).run.run s =
      (do
        orFail .toolInit (← orCancelled kind name ready?)
        modify fun s => { s with client? := some client }
        return client : Op σ κ δ κ).run.run
        { s with world := world',
                 calls := s.calls ++ [.connect scope.subscription, .startTools] } := by
  have hcalls : s.calls ++ [.connect scope.subscription, .startTools] =
      s.calls ++ [.connect scope.subscription] ++ [.startTools] := by
    rw [List.append_assoc]
    rfl
  rw [hcalls, openClient, run_bind_of_ok (run_perform _ _ s), hconnect]
  show (do
    let ready ← orCancelled kind name (← perform .startTools w.startTools)
    orFail .toolInit ready
    modify fun s => { s with client? := some client }
    return client : Op σ κ δ κ).run.run
    { s with world := world, calls := s.calls ++ [.connect scope.subscription] } = _
  rw [run_bind_of_ok (run_perform _ _ _), htools]

theorem Opens.run_client {r : Except ProvisionError κ × Session σ κ δ}
    (h : Opens w kind name scope s r) : (client w kind name scope).run.run s = r := by
  cases h with
  | cancelled h =>
    cases h with
    | before hstop => exact run_client_of_cancelled hstop
    | connecting hgo hnone hconnect =>
      rw [run_client_of_none hgo hnone, openClient, run_bind_of_ok (run_perform _ _ s), hconnect]
      rfl
    | starting hgo hnone hconnect htools =>
      rw [run_client_of_none hgo hnone, run_openClient_of_connected hconnect htools]
      rfl
  | there hgo hsome => exact run_client_of_some hgo hsome
  | unconnected hgo hnone hconnect =>
    rw [run_client_of_none hgo hnone, openClient, run_bind_of_ok (run_perform _ _ s), hconnect]
    rfl
  | unready hgo hnone hconnect htools =>
    rw [run_client_of_none hgo hnone, run_openClient_of_connected hconnect htools]
    rfl
  | opened hgo hnone hconnect htools =>
    rw [run_client_of_none hgo hnone, run_openClient_of_connected hconnect htools]
    rfl

theorem exists_opens (w : World σ κ) (kind : Kind) (name : String) (scope : Scope)
    (s : Session σ κ δ) : ∃ r, Opens w kind name scope s r := by
  cases hgo : w.cancelled s.world with
  | true => exact ⟨_, .cancelled (.before hgo)⟩
  | false =>
  cases hclient : s.client? with
  | some client => exact ⟨_, .there hgo hclient⟩
  | none =>
  rcases hconnect : w.connect scope.subscription s.world with ⟨_ | _ | client, world⟩
  · exact ⟨_, .cancelled (.connecting hgo hclient hconnect)⟩
  · exact ⟨_, .unconnected hgo hclient hconnect⟩
  rcases htools : w.startTools world with ⟨_ | _ | ready, world'⟩
  · exact ⟨_, .cancelled (.starting hgo hclient hconnect htools)⟩
  · exact ⟨_, .unready hgo hclient hconnect htools⟩
  · exact ⟨_, .opened hgo hclient hconnect htools⟩

theorem opens_client (w : World σ κ) (kind : Kind) (name : String) (scope : Scope)
    (s : Session σ κ δ) :
    Opens w kind name scope s ((client w kind name scope).run.run s) := by
  obtain ⟨r, h⟩ := exists_opens w kind name scope s
  rw [h.run_client]
  exact h

theorem Opens.unique {r r' : Except ProvisionError κ × Session σ κ δ}
    (h : Opens w kind name scope s r) (h' : Opens w kind name scope s r') : r = r' :=
  h.run_client.symm.trans h'.run_client

/-- Waiting for a client leaves the store and the disk alone. -/
theorem Opens.frame {r : Except ProvisionError κ × Session σ κ δ}
    (h : Opens w kind name scope s r) : r.2.store = s.store ∧ r.2.disk = s.disk := by
  cases h with
  | cancelled h => cases h <;> exact ⟨rfl, rfl⟩
  | _ => exact ⟨rfl, rfl⟩

/-- An interrupted await does not change whether there is a client. -/
theorem Interrupted.client?_eq (h : Interrupted w scope s s') : s'.client? = s.client? := by
  cases h <;> rfl

end Op

theorem Session.opensNext_of_none {s : Session σ κ δ} (hnone : s.client? = none) :
    s.OpensNext := by
  refine ⟨hnone, fun α w kind name scope body client start world world' hgo hconnect htools => ?_⟩
  have hopened : Op.Opens w kind name scope { s with world := start } _ :=
    .opened hgo hnone hconnect htools
  rw [Op.connected, run_bind_of_ok hopened.run_client]

end Provisioner
