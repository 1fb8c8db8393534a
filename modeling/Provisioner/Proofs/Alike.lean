import Provisioner.Proofs.Basic

/-!
# Two runs side by side

`Alike P first first' Q E` says that two steps which are begun in states that `P` relates
end alike: both with an answer, and then `Q` relates answers and states, or both with an
error, and then `E` relates errors and states.

The rules follow the steps: `Alike.bind` for one step after another, `Alike.pure` and
`Alike.throw` for the ends.  `Same` is for answers that are equal, and for errors.
-/

namespace Provisioner

variable {ε S S' α α' β β' : Type}

/-- Two results that are alike, with their states. -/
inductive EndAlike (Q : α → α' → S → S' → Prop) (E : ε → ε → S → S' → Prop) :
    Except ε α × S → Except ε α' × S' → Prop
  | ok {a : α} {a' : α'} {s : S} {s' : S'} : Q a a' s s' → EndAlike Q E (.ok a, s) (.ok a', s')
  | error {e e' : ε} {s : S} {s' : S'} : E e e' s s' →
    EndAlike Q E (.error e, s) (.error e', s')

/-- Two steps that end alike when they are begun alike. -/
def Alike (P : S → S' → Prop) (first : ExceptT ε (StateM S) α)
    (first' : ExceptT ε (StateM S') α') (Q : α → α' → S → S' → Prop)
    (E : ε → ε → S → S' → Prop) : Prop :=
  ∀ s s', P s s' → EndAlike Q E (first.run.run s) (first'.run.run s')

/-- The same answer, in related states. -/
def Same (P : S → S' → Prop) (a a' : α) (s : S) (s' : S') : Prop := a = a' ∧ P s s'

namespace Alike

variable {P P' : S → S' → Prop} {E E' : ε → ε → S → S' → Prop}

theorem pure {a : α} {a' : α'} {Q : α → α' → S → S' → Prop}
    (h : ∀ s s', P s s' → Q a a' s s') :
    Alike P (pure a : ExceptT ε (StateM S) α) (pure a') Q E :=
  fun s s' hs => .ok (h s s' hs)

theorem throw {e e' : ε} {Q : α → α' → S → S' → Prop} (h : ∀ s s', P s s' → E e e' s s') :
    Alike P (throw e : ExceptT ε (StateM S) α) (throw e') Q E :=
  fun s s' hs => .error (h s s' hs)

theorem bind {first : ExceptT ε (StateM S) α} {first' : ExceptT ε (StateM S') α'}
    {second : α → ExceptT ε (StateM S) β} {second' : α' → ExceptT ε (StateM S') β'}
    {Q : α → α' → S → S' → Prop} {R : β → β' → S → S' → Prop}
    (hfirst : Alike P first first' Q E)
    (hsecond : ∀ a a', Alike (Q a a') (second a) (second' a') R E) :
    Alike P (first >>= second) (first' >>= second') R E := by
  intro s s' hs
  rw [run_bind, run_bind]
  have hends := hfirst s s' hs
  generalize first.run.run s = r at hends ⊢
  generalize first'.run.run s' = r' at hends ⊢
  cases hends with
  | ok hQ => exact hsecond _ _ _ _ hQ
  | error hE => exact .error hE

/-- One step after another that has given the same answer. -/
theorem bind_same {first : ExceptT ε (StateM S) α} {first' : ExceptT ε (StateM S') α}
    {second : α → ExceptT ε (StateM S) β} {second' : α → ExceptT ε (StateM S') β'}
    {R : β → β' → S → S' → Prop} (hfirst : Alike P first first' (Same P') E)
    (hsecond : ∀ a, Alike P' (second a) (second' a) R E) :
    Alike P (first >>= second) (first' >>= second') R E := by
  refine hfirst.bind fun a a' s s' hs => ?_
  obtain ⟨rfl, hs⟩ := hs
  exact hsecond a s s' hs

/-- One step after another whose answer does not matter. -/
theorem bind_discard {first : ExceptT ε (StateM S) α} {first' : ExceptT ε (StateM S') α}
    {second : PUnit → ExceptT ε (StateM S) β} {second' : PUnit → ExceptT ε (StateM S') β'}
    {R : β → β' → S → S' → Prop} (hfirst : Alike P first first' (Same P') E)
    (hsecond : Alike P' (second ⟨⟩) (second' ⟨⟩) R E) :
    Alike P (discard first >>= second) (discard first' >>= second') R E := by
  intro s s' hs
  rw [run_discard_bind, run_discard_bind]
  exact hfirst.bind_same (fun _ => hsecond) s s' hs

theorem map {first : ExceptT ε (StateM S) α} {first' : ExceptT ε (StateM S') α'} {f : α → β}
    {f' : α' → β'} {R : β → β' → S → S' → Prop}
    (hfirst : Alike P first first' (fun a a' => R (f a) (f' a')) E) :
    Alike P (f <$> first) (f' <$> first') R E := by
  intro s s' hs
  rw [run_map, run_map]
  have hends := hfirst s s' hs
  generalize first.run.run s = r at hends ⊢
  generalize first'.run.run s' = r' at hends ⊢
  cases hends with
  | ok hQ => exact .ok hQ
  | error hE => exact .error hE

theorem mono {first : ExceptT ε (StateM S) α} {first' : ExceptT ε (StateM S') α'}
    {Q R : α → α' → S → S' → Prop} (h : Alike P first first' Q E)
    (hQ : ∀ a a' s s', Q a a' s s' → R a a' s s')
    (hE : ∀ e e' s s', E e e' s s' → E' e e' s s') :
    Alike P first first' R E' := by
  intro s s' hs
  have hends := h s s' hs
  generalize first.run.run s = r at hends ⊢
  generalize first'.run.run s' = r' at hends ⊢
  cases hends with
  | ok h => exact .ok (hQ _ _ _ _ h)
  | error h => exact .error (hE _ _ _ _ h)

theorem mono_error {first : ExceptT ε (StateM S) α} {first' : ExceptT ε (StateM S') α'}
    {Q : α → α' → S → S' → Prop} (h : Alike P first first' Q E)
    (hE : ∀ e e' s s', E e e' s s' → E' e e' s s') : Alike P first first' Q E' :=
  h.mono (fun _ _ _ _ => id) hE

end Alike

end Provisioner
