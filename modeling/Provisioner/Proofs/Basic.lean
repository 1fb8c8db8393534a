/-!
# Steps that may fail

What a success or a failure of several steps in turn says about the steps, and how
their results are compared.  `run_bind` is the same for steps that change a state.
-/

namespace Provisioner

variable {ε ε' α β : Type}

theorem bind_of_ok {first : Except ε α} {a : α} (h : first = .ok a)
    (second : α → Except ε β) : first >>= second = second a := by
  rw [h]
  rfl

theorem exists_of_bind_eq_ok {first : Except ε α} {second : α → Except ε β} {b : β}
    (h : first >>= second = .ok b) : ∃ a, first = .ok a ∧ second a = .ok b := by
  cases first with
  | error e => cases h
  | ok a => exact ⟨a, rfl, h⟩

theorem exists_of_bind_eq_error {first : Except ε α} {second : α → Except ε β} {e : ε}
    (h : first >>= second = .error e) :
    first = .error e ∨ ∃ a, first = .ok a ∧ second a = .error e := by
  cases first with
  | error e' => exact .inl (congrArg Except.error (Except.error.inj h))
  | ok a => exact .inr ⟨a, rfl, h⟩

theorem exists_of_map_eq_ok {first : Except ε α} {f : α → β} {b : β}
    (h : first.map f = .ok b) : ∃ a, first = .ok a ∧ f a = b := by
  cases first with
  | error e => cases h
  | ok a => exact ⟨a, rfl, Except.ok.inj h⟩

theorem mapError_of_ok {first : Except ε α} {a : α} (h : first = .ok a) (f : ε → ε') :
    first.mapError f = .ok a := by
  rw [h]
  rfl

theorem eq_ok_of_mapError_eq_ok {first : Except ε α} {f : ε → ε'} {a : α}
    (h : first.mapError f = .ok a) : first = .ok a := by
  cases first with
  | error e => cases h
  | ok b => exact congrArg Except.ok (Except.ok.inj h)

theorem exists_of_mapError_eq_error {first : Except ε α} {f : ε → ε'} {e' : ε'}
    (h : first.mapError f = .error e') : ∃ e, first = .error e ∧ f e = e' := by
  cases first with
  | error e => exact ⟨e, rfl, Except.error.inj h⟩
  | ok a => cases h

theorem exists_ok_of_isSome {S : Type} {r : Except ε α × S} (h : r.1.toOption.isSome = true) :
    ∃ a s, r = (.ok a, s) := by
  obtain ⟨_ | a, s⟩ := r
  · cases h
  · exact ⟨a, s, rfl⟩

/-- Results of runs on given inputs can be checked. -/
instance decidableEqExcept [DecidableEq ε] [DecidableEq α] : DecidableEq (Except ε α)
  | .ok a, .ok b => decidable_of_iff (a = b) ⟨congrArg _, Except.ok.inj⟩
  | .error e, .error e' => decidable_of_iff (e = e') ⟨congrArg _, Except.error.inj⟩
  | .ok _, .error _ => isFalse nofun
  | .error _, .ok _ => isFalse nofun

/-! ## Steps that change a state -/

section

variable {S : Type}

theorem run_bind (first : ExceptT ε (StateM S) α) (second : α → ExceptT ε (StateM S) β)
    (s : S) :
    (first >>= second).run.run s =
      match first.run.run s with
      | (.ok a, s') => (second a).run.run s'
      | (.error e, s') => (.error e, s') := by
  show (ExceptT.bindCont second (first.run.run s).1).run (first.run.run s).2 = _
  rcases first.run.run s with ⟨answer, s'⟩
  cases answer <;> rfl

theorem run_bind_of_ok {first : ExceptT ε (StateM S) α} {second : α → ExceptT ε (StateM S) β}
    {s s' : S} {a : α} (h : first.run.run s = (.ok a, s')) :
    (first >>= second).run.run s = (second a).run.run s' := by
  rw [run_bind, h]

theorem run_bind_of_error {first : ExceptT ε (StateM S) α}
    {second : α → ExceptT ε (StateM S) β} {s s' : S} {e : ε}
    (h : first.run.run s = (.error e, s')) : (first >>= second).run.run s = (.error e, s') := by
  rw [run_bind, h]

theorem exists_of_run_bind_eq_ok {first : ExceptT ε (StateM S) α}
    {second : α → ExceptT ε (StateM S) β} {s s'' : S} {b : β}
    (h : (first >>= second).run.run s = (.ok b, s'')) :
    ∃ a s', first.run.run s = (.ok a, s') ∧ (second a).run.run s' = (.ok b, s'') := by
  rw [run_bind] at h
  generalize first.run.run s = r at h
  obtain ⟨answer, s'⟩ := r
  cases answer with
  | ok a => exact ⟨a, s', rfl, h⟩
  | error e => cases h

theorem run_map (f : α → β) (step : ExceptT ε (StateM S) α) (s : S) :
    (f <$> step).run.run s = ((step.run.run s).1.map f, (step.run.run s).2) := by
  rw [ExceptT.run_map, StateT.run_map]
  rfl

/-- A step whose answer does not matter. -/
theorem run_discard_bind (first : ExceptT ε (StateM S) α)
    (second : PUnit → ExceptT ε (StateM S) β) (s : S) :
    (discard first >>= second).run.run s = (first >>= fun _ => second ⟨⟩).run.run s := by
  have hdiscard : (discard first).run.run s = _ := run_map (fun _ => PUnit.unit) first s
  rw [run_bind, run_bind, hdiscard]
  rcases first.run.run s with ⟨answer, s'⟩
  cases answer <;> rfl

end

end Provisioner
