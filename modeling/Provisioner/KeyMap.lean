/-!
# Maps with text keys

Overrides, tags, stored values and unknown record members are maps from texts.
A `KeyMap` keeps its entries in increasing order of the keys, each key once, so
that two maps with the same entries are equal and print alike.

* `insert` adds an entry or replaces the one with the same key.
* `get?` looks a key up; `get?_insert_self` and `get?_insert_ne` say what an
  insertion does to it.
* `ext_get?` says that a map is known by what its keys hold.
-/

namespace Provisioner

/-- A map from texts, as its entries in increasing order of the keys. -/
structure KeyMap (α : Type) where
  entries : List (String × α)
  sorted : entries.Pairwise (fun a b => a.1 < b.1)
deriving DecidableEq, Repr

namespace KeyMap

variable {α : Type}

/-- The map without entries. -/
def empty : KeyMap α := ⟨[], .nil⟩

instance : EmptyCollection (KeyMap α) := ⟨empty⟩
instance : Inhabited (KeyMap α) := ⟨empty⟩

/-- Whether the map has no entry. -/
def isEmpty (m : KeyMap α) : Bool := m.entries.isEmpty

/-! ## Entry lists -/

/-- The entry list with `key` bound to `value`: a new entry at its place in the
order, or the old one replaced. -/
def insertEntry (key : String) (value : α) : List (String × α) → List (String × α)
  | [] => [(key, value)]
  | (k, v) :: rest =>
    if key = k then (key, value) :: rest
    else if key < k then (key, value) :: (k, v) :: rest
    else (k, v) :: insertEntry key value rest

/-- The value under `key` in an entry list. -/
def lookupEntry (key : String) : List (String × α) → Option α
  | [] => none
  | (k, v) :: rest => if key = k then some v else lookupEntry key rest

/-- Of two different keys one is below the other. -/
theorem lt_of_not_lt {a b : String} (hne : a ≠ b) (h : ¬ a < b) : b < a :=
  Classical.byContradiction fun h' =>
    hne (String.le_antisymm (String.not_lt.mp h') (String.not_lt.mp h))

/-- An entry of the list after an insertion is the new one or was there before. -/
theorem mem_insertEntry {key : String} {value : α} {e : String × α} {es : List (String × α)}
    (h : e ∈ insertEntry key value es) : e = (key, value) ∨ e ∈ es := by
  induction es with
  | nil => simpa [insertEntry] using h
  | cons d rest ih =>
    rw [insertEntry] at h
    split at h
    · rcases List.mem_cons.1 h with h | h
      · exact .inl h
      · exact .inr (List.mem_cons_of_mem _ h)
    · split at h
      · exact List.mem_cons.1 h
      · rcases List.mem_cons.1 h with h | h
        · exact .inr (h ▸ List.mem_cons_self)
        · exact (ih h).imp id (List.mem_cons_of_mem _)

/-- An insertion keeps the order. -/
theorem insertEntry_sorted (key : String) (value : α) {es : List (String × α)}
    (h : es.Pairwise (fun a b => a.1 < b.1)) :
    (insertEntry key value es).Pairwise (fun a b => a.1 < b.1) := by
  induction es with
  | nil => simp [insertEntry]
  | cons d rest ih =>
    obtain ⟨hd, hrest⟩ := List.pairwise_cons.1 h
    rw [insertEntry]
    split
    · rename_i heq
      exact .cons (fun e he => heq ▸ hd e he) hrest
    · split
      · rename_i hlt
        refine .cons (fun e he => ?_) h
        rcases List.mem_cons.1 he with rfl | he
        · exact hlt
        · exact String.lt_trans hlt (hd e he)
      · rename_i hne hlt
        refine .cons (fun e he => ?_) (ih hrest)
        rcases mem_insertEntry he with rfl | he
        · exact lt_of_not_lt hne hlt
        · exact hd e he

theorem lookupEntry_insertEntry_self (key : String) (value : α) (es : List (String × α)) :
    lookupEntry key (insertEntry key value es) = some value := by
  induction es with
  | nil => simp [insertEntry, lookupEntry]
  | cons e rest ih =>
    rw [insertEntry]
    split
    · simp [lookupEntry]
    · split
      · simp [lookupEntry]
      · simp_all [lookupEntry]

theorem lookupEntry_insertEntry_ne {key other : String} (h : other ≠ key) (value : α)
    (es : List (String × α)) :
    lookupEntry other (insertEntry key value es) = lookupEntry other es := by
  induction es with
  | nil => simp [insertEntry, lookupEntry, h]
  | cons e rest ih =>
    rw [insertEntry]
    split
    · simp_all [lookupEntry]
    · split
      · simp [lookupEntry, h]
      · simp_all [lookupEntry]

/-- Keys below all entries are not found. -/
theorem lookupEntry_eq_none {key : String} {es : List (String × α)}
    (h : ∀ e ∈ es, key < e.1) : lookupEntry key es = none := by
  induction es with
  | nil => rfl
  | cons e rest ih =>
    have hne : key ≠ e.1 := fun heq => String.lt_irrefl _ (heq ▸ h e List.mem_cons_self)
    simp [lookupEntry, hne, ih fun d hd => h d (List.mem_cons_of_mem _ hd)]

/-- Ordered entry lists are known by what is found in them. -/
theorem eq_of_lookupEntry {es ds : List (String × α)}
    (hes : es.Pairwise (fun a b => a.1 < b.1)) (hds : ds.Pairwise (fun a b => a.1 < b.1))
    (h : ∀ key, lookupEntry key es = lookupEntry key ds) : es = ds := by
  induction es generalizing ds with
  | nil =>
    cases ds with
    | nil => rfl
    | cons d rest => simpa [lookupEntry] using h d.1
  | cons e rest ih =>
    obtain ⟨he, hrest⟩ := List.pairwise_cons.1 hes
    cases ds with
    | nil => simpa [lookupEntry] using h e.1
    | cons d more =>
      obtain ⟨hd, hmore⟩ := List.pairwise_cons.1 hds
      have hkey : e.1 = d.1 := by
        refine Classical.byContradiction fun hne => ?_
        by_cases hlt : e.1 < d.1
        · have hnone : lookupEntry e.1 more = none :=
            lookupEntry_eq_none fun x hx => String.lt_trans hlt (hd x hx)
          simpa [lookupEntry, hne, hnone] using h e.1
        · have hgt := lt_of_not_lt hne hlt
          have hnone : lookupEntry d.1 rest = none :=
            lookupEntry_eq_none fun x hx => String.lt_trans hgt (he x hx)
          simpa [lookupEntry, Ne.symm hne, hnone] using h d.1
      have hvalue : e.2 = d.2 := by simpa [lookupEntry, hkey] using h e.1
      have htail : rest = more := by
        refine ih hrest hmore fun key => ?_
        by_cases hk : key = e.1
        · rw [lookupEntry_eq_none (hk ▸ he), lookupEntry_eq_none (hk ▸ hkey ▸ hd)]
        · simpa [lookupEntry, hk, hkey ▸ hk] using h key
      rw [htail, Prod.ext hkey hvalue]

/-! ## Maps -/

/-- The map with `key` bound to `value`. -/
def insert (m : KeyMap α) (key : String) (value : α) : KeyMap α :=
  ⟨insertEntry key value m.entries, insertEntry_sorted key value m.sorted⟩

/-- The value under `key`. -/
def get? (m : KeyMap α) (key : String) : Option α :=
  lookupEntry key m.entries

/-- The map with every pair inserted in turn, so that a later pair wins. -/
def insertAll (m : KeyMap α) (pairs : List (String × α)) : KeyMap α :=
  pairs.foldl (fun m p => m.insert p.1 p.2) m

/-- The map of a list of pairs; of two pairs with one key the later wins. -/
def ofList (pairs : List (String × α)) : KeyMap α :=
  insertAll empty pairs

/-- An inserted key holds the inserted value. -/
theorem get?_insert_self (m : KeyMap α) (key : String) (value : α) :
    (m.insert key value).get? key = some value :=
  lookupEntry_insertEntry_self key value m.entries

/-- An insertion leaves every other key as it was. -/
theorem get?_insert_ne (m : KeyMap α) {key other : String} (h : other ≠ key) (value : α) :
    (m.insert key value).get? other = m.get? other :=
  lookupEntry_insertEntry_ne h value m.entries

/-- Two maps whose keys hold the same are equal. -/
theorem ext_get? {m n : KeyMap α} (h : ∀ key, m.get? key = n.get? key) : m = n := by
  obtain ⟨es, hes⟩ := m
  obtain ⟨ds, hds⟩ := n
  obtain rfl : es = ds := eq_of_lookupEntry hes hds h
  rfl

end KeyMap

end Provisioner
