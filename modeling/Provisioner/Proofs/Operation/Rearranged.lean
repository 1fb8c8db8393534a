import Provisioner.Orchestrator
import Provisioner.Proofs.Basic
import Provisioner.Proofs.Override.Order

/-!
# Overrides in another order

Every process goes through overrides in an order of its own.  The order decides in which order the
arguments for them stand, and which one is reported if several cannot be filled in, but nothing
else.

* `Arguments.Rearranged` says of two vectors that they differ in the order of the overrides at their
  ends alone, and `Component.Rearranged` the same of components.  `Component.rearranged_inOrder`
  compares the orders of two processes.
* `Overrides.Refuses` says of an error that it is that of an override that cannot be filled in.
* `FillAlike` compares how two processes fill the inputs of a step in: `fillAlike_resolveOverrides`
  for the overrides, and one lemma for every way to prepare a step.
-/

namespace Provisioner

variable {α β γ δ : Type} {free : Prop}

/-! ## Inputs in another order -/

/-- The same overrides, and in the same order unless this is free. -/
def Overrides.Rearranged (free : Prop) (o o' : Overrides) : Prop :=
  o = o' ∨ free ∧ o.entries.Perm o'.entries

/-- The same argument vectors or, if the order of overrides is free, vectors up to some overrides
that end both of them and set the same fields to the same values, each once. -/
def Arguments.Rearranged (free : Prop) (args args' : Arguments) : Prop :=
  args = args' ∨ free ∧ ∃ front values values', args = front ++ Overrides.setAll values ∧
    args' = front ++ Overrides.setAll values' ∧ values.Perm values' ∧
    (values.map Prod.fst).Nodup

theorem Arguments.Rearranged.refl (args : Arguments) : Rearranged free args args :=
  .inl rfl

/-- The arguments before them do not count. -/
theorem Arguments.Rearranged.append {args args' : Arguments} (h : Rearranged free args args')
    (front : Arguments) : Rearranged free (front ++ args) (front ++ args') := by
  rcases h with rfl | ⟨hfree, more, values, values', rfl, rfl, hperm, hnodup⟩
  · exact .refl _
  · exact .inr ⟨hfree, front ++ more, values, values', (List.append_assoc _ _ _).symm,
      (List.append_assoc _ _ _).symm, hperm, hnodup⟩

/-- Components that differ in the order of their overrides alone. -/
def Component.Rearranged (free : Prop) (c c' : Component) : Prop :=
  ∃ overrides, c' = { c with overrides := overrides } ∧ c.overrides.Rearranged free overrides

/-- Two processes have the same component, each in its own order. -/
theorem Component.rearranged_inOrder {order order' : Overrides.Order} {c : Component}
    (h : free ∨ order.arrange c.overrides = order'.arrange c.overrides) :
    (c.inOrder order).Rearranged free (c.inOrder order') := by
  refine ⟨order'.arrange c.overrides, rfl, ?_⟩
  rcases h with hfree | hsame
  · exact .inr ⟨hfree, (order.perm _).trans (order'.perm _).symm⟩
  · exact .inl hsame

/-- Deployments that differ in the order of overrides alone. -/
structure DeploymentSpec.Rearranged (free : Prop) (d d' : DeploymentSpec) : Prop where
  environment : d'.environment.name = d.environment.name
  model : d'.model.name = d.model.name
  deployment : d.deployment.Rearranged free d'.deployment

/-- Inputs that differ in the order of overrides alone. -/
def Prepared.Rearranged (free : Prop) (p p' : Prepared) : Prop :=
  ∃ overrides, p' = { p with overrides := overrides } ∧ p.overrides.Rearranged free overrides

/-- The same for the inputs of a deployment. -/
def Deployment.Input.Rearranged (free : Prop) (p p' : Deployment.Input) : Prop :=
  ∃ overrides, p' = { p with overrides := overrides } ∧ p.overrides.Rearranged free overrides

/-! ## Filling in -/

/-- The error of an override that cannot be filled in. -/
def Overrides.Refuses (overrides : Overrides) (lookup : Template.Lookup) (e : ProvisionError) :
    Prop :=
  ∃ key t source, (key, t) ∈ overrides.entries ∧ t.resolve lookup = .error source ∧
    e = .ofOverride ⟨key, source⟩

/-- What comes of filling inputs in twice: inputs that are alike, the same error or, if the order of
overrides is free, two errors for which inputs are refused. -/
inductive FillAlike (free : Prop) (Like : α → β → Prop) (Refused : ProvisionError → Prop) :
    Except ProvisionError α → Except ProvisionError β → Prop
  | ok {a : α} {b : β} : Like a b → FillAlike free Like Refused (.ok a) (.ok b)
  | same (e : ProvisionError) : FillAlike free Like Refused (.error e) (.error e)
  | refused {e e' : ProvisionError} : free → Refused e → Refused e' →
    FillAlike free Like Refused (.error e) (.error e')

namespace FillAlike

variable {Like : α → α → Prop} {Like' : β → β → Prop} {Refused : ProvisionError → Prop}

theorem bind {filled filled' : Except ProvisionError α} {f f' : α → Except ProvisionError β}
    (h : FillAlike free Like Refused filled filled')
    (hnext : ∀ a a', Like a a' → FillAlike free Like' Refused (f a) (f' a')) :
    FillAlike free Like' Refused (filled >>= f) (filled' >>= f') := by
  cases h with
  | ok hlike => exact hnext _ _ hlike
  | same e => exact .same e
  | refused hfree he he' => exact .refused hfree he he'

/-- What is filled in without overrides is filled in alike. -/
theorem bind_same (filled : Except ProvisionError α) {f f' : α → Except ProvisionError β}
    (hnext : ∀ a, FillAlike free Like' Refused (f a) (f' a)) :
    FillAlike free Like' Refused (filled >>= f) (filled >>= f') := by
  cases filled with
  | ok a => exact hnext a
  | error e => exact .same e

end FillAlike

section

variable [Disk δ] (store : Store) (disk : δ) (kind : Kind) (service : String)

namespace Prepared

/-- Overrides in another order are filled in to rearranged arguments, or both orders come to one
that cannot be filled in. -/
theorem fillAlike_resolveOverrides {overrides overrides' : Overrides}
    (h : overrides.Rearranged free overrides') :
    FillAlike free (Arguments.Rearranged free) (overrides.Refuses store.lookup)
      (resolveOverrides store overrides) (resolveOverrides store overrides') := by
  rcases h with rfl | ⟨hfree, hperm⟩
  · cases resolveOverrides store overrides with
    | ok filled => exact .ok (.refl filled)
    | error e => exact .same e
  cases hfill : overrides.arguments store.lookup with
  | ok filled =>
    obtain ⟨values, hvalues, rfl⟩ := Overrides.exists_filled hfill
    obtain ⟨values', hvalues', hsame⟩ := hvalues.exists_perm hperm.symm
    have hfill' : overrides'.arguments store.lookup = .ok (Overrides.setAll values') :=
      Overrides.applyTo_of_filled hvalues' []
    rw [resolveOverrides, resolveOverrides, hfill, hfill']
    refine .ok (.inr ⟨hfree, [], values, values', rfl, rfl, hsame.symm, ?_⟩)
    rw [hvalues.keys_eq]
    exact overrides.nodup
  | error e =>
    obtain ⟨t, hmem, ht⟩ := Overrides.exists_of_error hfill
    obtain ⟨e', hfill'⟩ := Overrides.exists_error (hperm.mem_iff.1 hmem) ht
    obtain ⟨t', hmem', ht'⟩ := Overrides.exists_of_error hfill'
    rw [resolveOverrides, resolveOverrides, hfill, hfill']
    exact .refused hfree ⟨e.key, t, e.source, hmem, ht, rfl⟩
      ⟨e'.key, t', e'.source, hperm.mem_iff.2 hmem', ht', rfl⟩

variable {c c' : Component}

theorem fillAlike_definitionFirst (h : c.Rearranged free c') :
    FillAlike free (Rearranged free) (c.overrides.Refuses store.lookup)
      (definitionFirst store disk kind service c) (definitionFirst store disk kind service c') := by
  obtain ⟨overrides, rfl, hperm⟩ := h
  refine .bind_same _ fun definition => .bind_same _ fun name => ?_
  refine (fillAlike_resolveOverrides store hperm).bind fun filled filled' hfilled => ?_
  exact .ok ⟨filled', rfl, hfilled⟩

theorem fillAlike_nameFirst (h : c.Rearranged free c') :
    FillAlike free (Rearranged free) (c.overrides.Refuses store.lookup)
      (nameFirst store disk kind service c) (nameFirst store disk kind service c') := by
  obtain ⟨overrides, rfl, hperm⟩ := h
  refine .bind_same _ fun name => .bind_same _ fun definition => ?_
  refine (fillAlike_resolveOverrides store hperm).bind fun filled filled' hfilled => ?_
  exact .ok ⟨filled', rfl, hfilled⟩

end Prepared

theorem Flow.fillAlike_prepare {c c' : Component} (h : c.Rearranged free c') (now : Int) :
    FillAlike free (Prepared.Rearranged free) (c.overrides.Refuses store.lookup)
      (prepare store disk service c now) (prepare store disk service c' now) := by
  refine (Prepared.fillAlike_nameFirst store disk .flow service h).bind ?_
  rintro p _ ⟨overrides, rfl, hfilled⟩
  exact .ok ⟨overrides, rfl, hfilled⟩

theorem Deployment.fillAlike_prepare {d d' : DeploymentSpec} (h : d.Rearranged free d')
    (endpoint : String) (now : Int) :
    FillAlike free (Input.Rearranged free) (d.deployment.overrides.Refuses store.lookup)
      (prepare store disk service endpoint d now) (prepare store disk service endpoint d' now) := by
  obtain ⟨overrides, hdeployment, hperm⟩ := h.deployment
  rw [prepare, prepare, h.environment, h.model, hdeployment]
  refine .bind_same _ fun environment => .bind_same _ fun model => .bind_same _ fun definition => ?_
  refine (Prepared.fillAlike_resolveOverrides store hperm).bind fun filled filled' hfilled => ?_
  exact .ok ⟨filled', rfl, hfilled⟩

end

end Provisioner
