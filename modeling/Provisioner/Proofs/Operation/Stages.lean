import Provisioner.Proofs.Operation.Logbook

/-!
# What courses ask for

Which calls a course asks for, and after which exchanges.

* `Course.call_of_environment` and its siblings take a stage of a course apart.
* `Course.Asks` says something of every call that a course asks for, and `Trace.forall_calls`
  that it then holds of every call that is made.
-/

namespace Provisioner.Course

variable {κ α : Type} {client : κ} {scope : Scope} {xs : List (Exchange κ)} {stage : Stage κ}

/-! ## Stages -/

theorem call_of_environment {p : Prepared} (h : environment client scope p xs = .call stage) :
    (xs = [] ∧ stage.call = .read client scope (.container .environment p.name)) ∨
      (∃ x, xs = [x] ∧
        stage.call = .run .mlClient (EnvironmentVersion.arguments scope p x.proposed)) ∨
      ∃ x y, xs = [x, y] ∧
        stage.call = .read client scope (.environmentVersion p.name x.proposed) := by
  unfold environment at h
  split at h <;> cases h
  · exact .inl ⟨rfl, rfl⟩
  · exact .inr (.inl ⟨_, rfl, rfl⟩)
  · exact .inr (.inr ⟨_, _, rfl, rfl⟩)

theorem call_of_model {p : Prepared} (h : model client scope p xs = .call stage) :
    (xs = [] ∧ stage.call = .run .mlClient (ModelVersion.arguments scope p)) ∨
      (∃ x, xs = [x] ∧ stage.call = .read client scope (.container .model p.name)) ∨
      ∃ x y, xs = [x, y] ∧
        stage.call = .read client scope (.modelVersion p.name (y.latest p.name).version) := by
  unfold model at h
  split at h <;> cases h
  · exact .inl ⟨rfl, rfl⟩
  · exact .inr (.inl ⟨_, rfl, rfl⟩)
  · exact .inr (.inr ⟨_, _, rfl, rfl⟩)

/-- The step of an endpoint only reads it, but for one run right after it was not found. -/
theorem call_of_endpoint {p : Prepared} (h : endpoint client scope p xs = .call stage) :
    stage.call = .read client scope (.endpoint p.name) ∨
      ∃ x, xs = [x] ∧ x.isMiss = true ∧
        stage.call = .run .mlClient (Endpoint.arguments scope p) := by
  unfold endpoint at h
  split at h
  · cases h
    exact .inl rfl
  · next x =>
    split at h
    · next hmiss =>
      cases h
      exact .inr ⟨x, rfl, hmiss, rfl⟩
    · cases h
      exact .inl rfl
  · cases h
    exact .inl rfl
  · cases h
  · cases h
  · cases h

theorem call_of_deployment {p : Deployment.Input}
    (h : deployment client scope p xs = .call stage) :
    (xs = [] ∧ stage.call = .read client scope (.container .environment p.environment)) ∨
      (∃ e, xs = [e] ∧ stage.call = .read client scope (.container .model p.model)) ∨
      (∃ e m, xs = [e, m] ∧ stage.call = .run .mlClient
        (Deployment.arguments scope p (e.latest p.environment) (m.latest p.model))) ∨
      ∃ e m y, xs = [e, m, y] ∧
        stage.call = .read client scope (.deployment p.endpoint p.name) := by
  unfold deployment at h
  split at h <;> cases h
  · exact .inl ⟨rfl, rfl⟩
  · exact .inr (.inl ⟨_, rfl, rfl⟩)
  · exact .inr (.inr (.inl ⟨_, _, rfl, rfl⟩))
  · exact .inr (.inr (.inr ⟨_, _, _, rfl, rfl⟩))

theorem call_of_flow {p : Prepared} (h : flow scope p xs = .call stage) :
    (xs = [] ∧ stage.call = .run .promptFlowClient (Flow.showArguments scope p.name)) ∨
      ∃ x verb, xs = [x] ∧
        stage.call = .run .promptFlowClient (Flow.arguments verb scope p) := by
  unfold flow at h
  split at h <;> cases h
  · exact .inl ⟨rfl, rfl⟩
  · exact .inr ⟨_, _, rfl, rfl⟩

theorem call_of_workspace (h : workspace client scope xs = .call stage) :
    xs = [] ∧ stage.call = .read client scope .workspace := by
  unfold workspace at h
  split at h
  · cases h
    exact ⟨rfl, rfl⟩
  · dsimp only at h
    split at h <;> cases h
  · cases h

theorem call_of_endpointRecord {name : String}
    (h : endpointRecord client scope name xs = .call stage) :
    xs = [] ∧ stage.call = .read client scope (.endpoint name) := by
  unfold endpointRecord at h
  split at h <;> cases h
  exact ⟨rfl, rfl⟩

/-! ## All calls -/

/-- Every call that a course asks for is such a call. -/
def Asks (P : Call κ → Prop) (course : Course κ α) : Prop :=
  ∀ xs stage, course xs = .call stage → P stage.call

theorem Asks.mono {P Q : Call κ → Prop} {course : Course κ α} (h : course.Asks P)
    (himp : ∀ call, P call → Q call) : course.Asks Q :=
  fun xs stage hstage => himp _ (h xs stage hstage)

/-- Then every call that is made is one. -/
theorem Trace.forall_calls {P : Call κ → Prop} {course : Course κ α} {last? : Option (Call κ)}
    {a? : Option α} (h : course.Trace xs last? a?) (hasks : course.Asks P) :
    ∀ call ∈ traceCalls xs last?, P call := by
  induction h with
  | stop | done => exact fun call hmem => absurd hmem List.not_mem_nil
  | @dropped course stage hstage =>
    intro call hmem
    obtain rfl := List.mem_singleton.1 hmem
    exact hasks _ _ hstage
  | @failed course stage x hstage hcall =>
    intro call hmem
    obtain rfl := List.mem_singleton.1 hmem
    rw [hcall]
    exact hasks _ _ hstage
  | @next course stage x xs last? a? hstage hcall _ _ ih =>
    intro call hmem
    rcases List.mem_cons.1 hmem with rfl | hmem
    · rw [hcall]
      exact hasks _ _ hstage
    · exact ih (fun ys stage' => hasks ([x] ++ ys) stage') call hmem

end Provisioner.Course
