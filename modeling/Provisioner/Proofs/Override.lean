import Mathlib.Data.List.Forall2
import Mathlib.Data.List.Nodup
import Provisioner.Component
import Provisioner.Proofs.KeyMap

/-!
# Filling overrides in

Overrides have each key once.  They are filled in one after the other, up to the first that fails.

* `Overrides.mem_entries_iff` finds overrides by their keys, and `Overrides.ofList_entries` puts
  them together again.
* `Overrides.Filled` is a list of overrides with the values that they are filled in with.
* `Overrides.exists_filled` and `Overrides.exists_of_error` are what a success and a failure
  say about the overrides, and `Overrides.exists_error` says that one that fails is enough.
-/

namespace Provisioner.Overrides

variable {lookup : Template.Lookup} {entries : List (String × Template)} {args filled : List String}

/-! ## Overrides by their keys -/

section

variable {o o' : Overrides}

theorem eq_of_entries (h : o.entries = o'.entries) : o = o' := by
  obtain ⟨es, _⟩ := o
  obtain ⟨ds, _⟩ := o'
  obtain rfl : es = ds := h
  rfl

theorem eq_empty_of_isEmpty (h : o.isEmpty = true) : o = empty :=
  eq_of_entries (List.isEmpty_iff.1 h)

/-- A new key goes to the end. -/
theorem insertEntry_of_notMem {key : String} (t : Template)
    (h : key ∉ entries.map Prod.fst) : insertEntry key t entries = entries ++ [(key, t)] := by
  induction entries with
  | nil => rfl
  | cons e rest ih =>
    rw [insertEntry, if_neg (List.ne_of_not_mem_cons h), ih (List.not_mem_of_not_mem_cons h)]
    rfl

/-- New keys go to the end as they are. -/
theorem entries_foldl_insert {pairs : List (String × Template)}
    (h : ((o.entries ++ pairs).map Prod.fst).Nodup) :
    (pairs.foldl (fun o p => o.insert p.1 p.2) o).entries = o.entries ++ pairs := by
  induction pairs generalizing o with
  | nil => exact (List.append_nil _).symm
  | cons p pairs ih =>
    have hnew : p.1 ∉ o.entries.map Prod.fst := by
      rw [List.map_append, List.nodup_append] at h
      exact fun hmem => h.2.2 _ hmem _ List.mem_cons_self rfl
    have hinsert : (o.insert p.1 p.2).entries = o.entries ++ [p] := insertEntry_of_notMem p.2 hnew
    rw [List.foldl_cons, ih] <;> rw [hinsert, List.append_assoc]
    · rfl
    · exact h

/-- Overrides are those of their own entries. -/
theorem ofList_entries (o : Overrides) : ofList o.entries = o :=
  eq_of_entries (entries_foldl_insert (o := empty) o.nodup)

theorem mem_of_get? {key : String} {t : Template} (h : o.get? key = some t) :
    (key, t) ∈ o.entries := by
  obtain ⟨before, after, heq, -⟩ := List.lookup_eq_some_iff.1 h
  rw [heq]
  exact List.mem_append_right _ List.mem_cons_self

theorem get?_of_mem {e : String × Template} (h : e ∈ o.entries) : o.get? e.1 = some e.2 := by
  have hkeys : (o.entries.reverse.map Prod.fst).Nodup := by
    rw [List.map_reverse, List.nodup_reverse]
    exact o.nodup
  have hlookup := KeyMap.lookup_reverse_of_mem hkeys (List.mem_reverse.2 h)
  rwa [List.reverse_reverse] at hlookup

/-- An override is there if its key has its template. -/
theorem mem_entries_iff {e : String × Template} : e ∈ o.entries ↔ o.get? e.1 = some e.2 :=
  ⟨get?_of_mem, mem_of_get?⟩

theorem notMem_of_get?_eq_none {key : String} (h : o.get? key = none) :
    key ∉ o.entries.map Prod.fst := by
  intro hmem
  obtain ⟨e, he, rfl⟩ := List.mem_map.1 hmem
  cases h.symm.trans (get?_of_mem he)

end

/-! ## Filling in -/

/-- Overrides with their values: every key with what its template is filled in with. -/
def Filled (lookup : Template.Lookup) (entries : List (String × Template))
    (values : List (String × String)) : Prop :=
  List.Forall₂ (fun e v => e.1 = v.1 ∧ e.2.resolve lookup = .ok v.2) entries values

/-- The arguments of pairs of a key and its value. -/
def setAll (values : List (String × String)) : List String :=
  values.flatMap fun v => setArguments v.1 v.2

theorem exists_filled_of_applyTo (h : applyTo lookup entries args = .ok filled) :
    ∃ values, Filled lookup entries values ∧ filled = args ++ setAll values := by
  induction entries generalizing args with
  | nil =>
    obtain rfl := Except.ok.inj h
    exact ⟨[], .nil, (List.append_nil args).symm⟩
  | cons e rest ih =>
    obtain ⟨key, t⟩ := e
    rw [applyTo] at h
    cases ht : t.resolve lookup with
    | error e =>
      rw [ht] at h
      cases h
    | ok value =>
      rw [ht] at h
      obtain ⟨values, hvalues, rfl⟩ := ih h
      exact ⟨(key, value) :: values, .cons ⟨rfl, ht⟩ hvalues, List.append_assoc _ _ _⟩

theorem exists_of_applyTo_error {e : OverrideError} (h : applyTo lookup entries args = .error e) :
    ∃ t, (e.key, t) ∈ entries ∧ t.resolve lookup = .error e.source := by
  induction entries generalizing args with
  | nil => cases h
  | cons d rest ih =>
    obtain ⟨key, t⟩ := d
    rw [applyTo] at h
    cases ht : t.resolve lookup with
    | error source =>
      rw [ht] at h
      obtain rfl := Except.error.inj h
      exact ⟨t, List.mem_cons_self, ht⟩
    | ok value =>
      rw [ht] at h
      obtain ⟨t', hmem, ht'⟩ := ih h
      exact ⟨t', List.mem_cons_of_mem _ hmem, ht'⟩

theorem applyTo_ne_ok {key : String} {t : Template} {source : TemplateError}
    (hmem : (key, t) ∈ entries) (ht : t.resolve lookup = .error source) :
    applyTo lookup entries args ≠ .ok filled := by
  intro h
  obtain ⟨values, hvalues, -⟩ := exists_filled_of_applyTo h
  obtain ⟨i, hi, hentry⟩ := List.mem_iff_getElem.1 hmem
  have hvalue := (List.forall₂_iff_get.1 hvalues).2 i hi
    ((List.Forall₂.length_eq hvalues) ▸ hi)
  rw [List.get_eq_getElem, hentry] at hvalue
  cases ht.symm.trans hvalue.2

/-! ## All overrides of a component -/

variable {overrides : Overrides}

theorem exists_filled (h : overrides.arguments lookup = .ok filled) :
    ∃ values, Filled lookup overrides.entries values ∧ filled = setAll values :=
  exists_filled_of_applyTo h

theorem exists_of_error {e : OverrideError} (h : overrides.arguments lookup = .error e) :
    ∃ t, (e.key, t) ∈ overrides.entries ∧ t.resolve lookup = .error e.source :=
  exists_of_applyTo_error h

theorem exists_error {key : String} {t : Template} {source : TemplateError}
    (hmem : (key, t) ∈ overrides.entries) (ht : t.resolve lookup = .error source) :
    ∃ e, overrides.arguments lookup = .error e := by
  cases h : overrides.arguments lookup with
  | error e => exact ⟨e, rfl⟩
  | ok filled => exact absurd h (applyTo_ne_ok hmem ht)

/-- Overrides that are filled in keep their keys. -/
theorem Filled.keys_eq {values : List (String × String)} (h : Filled lookup entries values) :
    values.map Prod.fst = entries.map Prod.fst := by
  induction h with
  | nil => rfl
  | cons hentry _ ih => rw [List.map_cons, List.map_cons, ih, hentry.1]

end Provisioner.Overrides
