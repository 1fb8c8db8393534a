import Provisioner.Proofs.Operation.Agreement
import Provisioner.Proofs.Operation.Opening

/-!
# Checking the workspace

Every run connects and checks the workspace before it does anything else.

* `Op.Idle` are the operations that do nothing that counts, however they end.
* `Op.ready_of_ensureWorkspace`: a check that succeeds leaves a client behind, and is idle.
-/

namespace Provisioner

variable {σ τ κ δ α β : Type}

/-- Two states of a session between which nothing happened that counts: the world shows the
same, nothing was stored, no calls about resources were made, and no client was lost. -/
structure Session.Ready (view : σ → τ) (s s' : Session σ κ δ) : Prop where
  world : view s'.world = view s.world
  store : s'.store = s.store
  disk : s'.disk = s.disk
  client : s.client?.isSome → s'.client?.isSome
  calls : resourceCalls s'.calls = resourceCalls s.calls

theorem Session.Ready.trans {view : σ → τ} {s s' s'' : Session σ κ δ} (h : Ready view s s')
    (h' : Ready view s' s'') : Ready view s s'' :=
  ⟨h'.world.trans h.world, h'.store.trans h.store, h'.disk.trans h.disk,
    fun hclient => h'.client (h.client hclient), h'.calls.trans h.calls⟩

namespace Op

open Session (Ready)

/-- An operation that does nothing that counts, however it ends. -/
def Idle (view : σ → τ) (op : Op σ κ δ α) : Prop :=
  ∀ s, Ready view s (op.run.run s).2

variable {free : Prop} {w : World σ κ} {view : σ → τ} (hw : w.DependsOnly free view)

theorem idle_of_eq {op : Op σ κ δ α} (h : ∀ s, (op.run.run s).2 = s) : Idle view op := by
  intro s
  rw [h]
  exact ⟨rfl, rfl, rfl, id, rfl⟩

theorem Idle.ready {op : Op σ κ δ α} (hop : Idle view op) {s s' : Session σ κ δ}
    {answer : Except ProvisionError α} (h : op.run.run s = (answer, s')) : Ready view s s' := by
  have hready := hop s
  rw [h] at hready
  exact hready

theorem Idle.bind {op : Op σ κ δ α} {next : α → Op σ κ δ β} (hop : Idle view op)
    (hnext : ∀ a, Idle view (next a)) : Idle view (op >>= next) := by
  intro s
  have hfirst := hop s
  rw [run_bind]
  generalize op.run.run s = r at hfirst ⊢
  obtain ⟨answer, s'⟩ := r
  cases answer with
  | error e => exact hfirst
  | ok a =>
    exact hfirst.trans (hnext a s')

theorem idle_pure (a : α) : Idle view (pure a : Op σ κ δ α) :=
  idle_of_eq fun _ => rfl

theorem idle_throw (e : ProvisionError) : Idle view (throw e : Op σ κ δ α) :=
  idle_of_eq fun _ => rfl

theorem idle_orFail {ε : Type} (wrap : ε → ProvisionError) (answer : Except ε α) :
    Idle view (orFail wrap answer : Op σ κ δ α) :=
  idle_of_eq fun s => by rw [run_orFail]

theorem idle_orCancelled (kind : Kind) (name : String) (answer : Option α) :
    Idle view (orCancelled kind name answer : Op σ κ δ α) := by
  cases answer with
  | some a => exact idle_pure a
  | none => exact idle_throw _

theorem idle_checkCancelled (w : World σ κ) (kind : Kind) (name : String) :
    Idle view (checkCancelled w kind name : Op σ κ δ Unit) :=
  idle_of_eq fun s => by rw [run_checkCancelled]

/-- A call that does not count, and that the world does not show. -/
theorem idle_perform {call : Call κ} {answer : σ → Option α × σ}
    (hcall : call.resource? = none) (hanswer : ∀ x, view (answer x).2 = view x) :
    Idle view (perform call answer : Op σ κ δ (Option α)) := by
  intro s
  rw [run_perform]
  refine ⟨hanswer s.world, rfl, rfl, id, ?_⟩
  rw [resourceCalls_append]
  simp only [resourceCalls, List.filterMap_cons, hcall, List.filterMap_nil, List.append_nil]

include hw

theorem idle_openClient (kind : Kind) (name : String) (scope : Scope) :
    Idle view (openClient w kind name scope : Op σ κ δ κ) := by
  refine (idle_perform rfl (hw.connect _)).bind fun _ => ?_
  refine (idle_orCancelled kind name _).bind fun _ => ?_
  refine (idle_orFail _ _).bind fun client => ?_
  refine (idle_perform rfl hw.startTools).bind fun _ => ?_
  refine (idle_orCancelled kind name _).bind fun _ => ?_
  refine (idle_orFail _ _).bind fun _ => ?_
  exact fun s => ⟨rfl, rfl, rfl, fun _ => rfl, rfl⟩

theorem idle_client (kind : Kind) (name : String) (scope : Scope) :
    Idle view (client w kind name scope : Op σ κ δ κ) := by
  intro s
  cases hgo : w.cancelled s.world with
  | true =>
    rw [run_client_of_cancelled hgo]
    exact ⟨rfl, rfl, rfl, id, rfl⟩
  | false =>
    cases hclient : s.client? with
    | some client =>
      rw [run_client_of_some hgo hclient]
      exact ⟨rfl, rfl, rfl, id, rfl⟩
    | none =>
      rw [run_client_of_none hgo hclient]
      exact idle_openClient hw kind name scope s

omit hw

theorem isSome_of_client {kind : Kind} {name : String} {scope : Scope} {client : κ}
    {s s' : Session σ κ δ} (h : (Op.client w kind name scope).run.run s = (.ok client, s')) :
    s'.client?.isSome := by
  have hopens := opens_client w kind name scope s
  rw [h] at hopens
  cases hopens with
  | there _ hsome =>
    rw [hsome]
    rfl
  | opened => rfl

include hw

/-- A workspace check that succeeds leaves a client, and does nothing else that counts. -/
theorem ready_of_ensureWorkspace {scope : Scope} {record : Workspace} {s s' : Session σ κ δ}
    (h : (ensureWorkspace w scope).run.run s = (.ok record, s')) :
    Ready view s s' ∧ s'.client?.isSome := by
  obtain ⟨client, s₁, hclient, hrest⟩ := exists_of_run_bind_eq_ok h
  obtain ⟨found, s₂, hfound, hrest⟩ := exists_of_run_bind_eq_ok hrest
  have hopened : Ready view s s₁ := (idle_client hw _ _ scope).ready hclient
  have hread : Ready view s₁ s₂ := by
    have hidle : Idle view (Context.read ⟨w, client, scope⟩ .workspace scope.workspace
        .workspace : Op σ κ δ Workspace) := by
      refine Idle.bind ?_ fun answer => idle_orFail _ _
      refine (idle_checkCancelled w _ _).bind fun _ => ?_
      refine (idle_perform (by rfl) (hw.workspace client scope)).bind fun _ => ?_
      exact idle_orCancelled _ _ _
    exact hidle.ready hfound
  have hlast : s₂ = s' := by
    dsimp only at hrest
    split at hrest
    · cases hrest
    · exact congrArg Prod.snd hrest
  rw [← hlast]
  exact ⟨hopened.trans hread, hread.client (isSome_of_client hclient)⟩

end Op

end Provisioner
