import Provisioner.KeyMap

/-!
# Insertions into maps

What a map holds after several insertions.

* `get?_insertAll`: a key holds the value of the last pair with that key, or
  else what it held before.
* `ofList_entries`: a map is the map of its own entries.
* `mem_entries_insertAll`: nothing else comes into a map.
-/

namespace Provisioner.KeyMap

variable {α : Type}

theorem get?_insert (m : KeyMap α) (key other : String) (value : α) :
    (m.insert key value).get? other = if other = key then some value else m.get? other := by
  by_cases h : other = key
  · rw [if_pos h, h]
    exact get?_insert_self m key value
  · rw [if_neg h]
    exact get?_insert_ne m h value

@[simp] theorem insertAll_nil (m : KeyMap α) : m.insertAll [] = m := rfl

@[simp] theorem insertAll_cons (m : KeyMap α) (p : String × α) (pairs : List (String × α)) :
    m.insertAll (p :: pairs) = (m.insert p.1 p.2).insertAll pairs := rfl

theorem insertAll_append (m : KeyMap α) (first second : List (String × α)) :
    m.insertAll (first ++ second) = (m.insertAll first).insertAll second :=
  List.foldl_append

/-- After insertions in turn a key holds the value of the last pair with that key; a key
without a pair holds what it held before. -/
theorem get?_insertAll (m : KeyMap α) (pairs : List (String × α)) (key : String) :
    (m.insertAll pairs).get? key = (pairs.reverse.lookup key).or (m.get? key) := by
  induction pairs generalizing m with
  | nil => rfl
  | cons p pairs ih =>
    rw [insertAll_cons, ih, get?_insert, List.reverse_cons, List.lookup_append]
    obtain ⟨k, value⟩ := p
    by_cases h : key = k
    · simp [h]
    · have hne : (key == k) = false := beq_eq_false_iff_ne.2 h
      simp [h, List.lookup_cons, hne]

/-- Pairs without a key say nothing about it. -/
theorem lookup_reverse_eq_none {pairs : List (String × α)} {key : String}
    (h : key ∉ pairs.map Prod.fst) : pairs.reverse.lookup key = none := by
  rw [List.lookup_eq_none_iff]
  intro p hp
  have hne : key ≠ p.1 := fun heq => h (heq ▸ List.mem_map_of_mem (List.mem_reverse.1 hp))
  exact bne_iff_ne.2 hne

/-- A pair whose key no other pair has says what its key holds. -/
theorem lookup_reverse_of_mem {pairs : List (String × α)} (hkeys : (pairs.map Prod.fst).Nodup)
    {p : String × α} (hp : p ∈ pairs) : pairs.reverse.lookup p.1 = some p.2 := by
  obtain ⟨before, after, rfl⟩ := List.append_of_mem hp
  rw [List.map_append, List.map_cons, List.nodup_append] at hkeys
  have hafter : p.1 ∉ after.map Prod.fst := (List.nodup_cons.1 hkeys.2.1).1
  have hown : [p].lookup p.1 = some p.2 := List.lookup_cons_self
  rw [List.reverse_append, List.reverse_cons, List.lookup_append, List.lookup_append,
    lookup_reverse_eq_none hafter, hown]
  rfl

/-- An entry of a map after an insertion is the new one or was there before. -/
theorem mem_entries_insert {m : KeyMap α} {key : String} {value : α} {e : String × α}
    (h : e ∈ (m.insert key value).entries) : e = (key, value) ∨ e ∈ m.entries :=
  mem_insertEntry h

/-- An entry of a map after insertions is one of the pairs or was there before. -/
theorem mem_entries_insertAll {m : KeyMap α} {pairs : List (String × α)} {e : String × α}
    (h : e ∈ (m.insertAll pairs).entries) : e ∈ pairs ∨ e ∈ m.entries := by
  induction pairs generalizing m with
  | nil => exact .inr h
  | cons p pairs ih =>
    rcases ih h with hp | hm
    · exact .inl (List.mem_cons_of_mem _ hp)
    · rcases mem_entries_insert hm with rfl | hm
      · exact .inl List.mem_cons_self
      · exact .inr hm

theorem mem_of_mem_ofList {pairs : List (String × α)} {e : String × α}
    (h : e ∈ (ofList pairs).entries) : e ∈ pairs :=
  (mem_entries_insertAll h).resolve_right List.not_mem_nil

/-- A key above all others goes to the end. -/
theorem insertEntry_of_lt {key : String} (value : α) {es : List (String × α)}
    (h : ∀ e ∈ es, e.1 < key) : insertEntry key value es = es ++ [(key, value)] := by
  induction es with
  | nil => rfl
  | cons e rest ih =>
    have hlt : e.1 < key := h e List.mem_cons_self
    have hne : key ≠ e.1 := fun heq => String.lt_irrefl _ (heq ▸ hlt)
    have hnot : ¬ key < e.1 := String.lt_asymm hlt
    rw [insertEntry, if_neg hne, if_neg hnot, ih fun d hd => h d (List.mem_cons_of_mem _ hd)]
    rfl

/-- Pairs in increasing order above all keys of a map go to its end as they are. -/
theorem entries_insertAll_of_sorted {m : KeyMap α} {pairs : List (String × α)}
    (h : (m.entries ++ pairs).Pairwise (fun a b => a.1 < b.1)) :
    (m.insertAll pairs).entries = m.entries ++ pairs := by
  induction pairs generalizing m with
  | nil => simp
  | cons p pairs ih =>
    have hlt : ∀ e ∈ m.entries, e.1 < p.1 := fun e he =>
      (List.pairwise_append.1 h).2.2 e he p List.mem_cons_self
    have hinsert : (m.insert p.1 p.2).entries = m.entries ++ [p] := insertEntry_of_lt p.2 hlt
    rw [insertAll_cons, ih] <;> rw [hinsert, List.append_assoc]
    · rfl
    · exact h

theorem eq_of_entries {m n : KeyMap α} (h : m.entries = n.entries) : m = n := by
  obtain ⟨es, _⟩ := m
  obtain ⟨ds, _⟩ := n
  obtain rfl : es = ds := h
  rfl

/-- Insertions go with a change of the values. -/
theorem insertEntry_map {β : Type} (f : α → β) (key : String) (value : α)
    (es : List (String × α)) :
    insertEntry key (f value) (es.map fun e => (e.1, f e.2)) =
      (insertEntry key value es).map fun e => (e.1, f e.2) := by
  induction es with
  | nil => rfl
  | cons e rest ih =>
    rw [List.map_cons, insertEntry, insertEntry, ih]
    split
    · rfl
    · split <;> rfl

theorem entries_insertAll_map {β : Type} (f : α → β) (m : KeyMap α) {n : KeyMap β}
    (h : n.entries = m.entries.map fun e => (e.1, f e.2)) (pairs : List (String × α)) :
    (n.insertAll (pairs.map fun e => (e.1, f e.2))).entries =
      (m.insertAll pairs).entries.map fun e => (e.1, f e.2) := by
  induction pairs generalizing m n with
  | nil => exact h
  | cons p pairs ih =>
    refine ih (m.insert p.1 p.2) ?_
    show insertEntry p.1 (f p.2) n.entries = _
    rw [h]
    exact insertEntry_map f p.1 p.2 m.entries

/-- A map is known by its values under a function that keeps them apart. -/
theorem eq_of_map_entries {β : Type} {f : α → β} (hf : ∀ a b, f a = f b → a = b)
    {m n : KeyMap α}
    (h : m.entries.map (fun e => (e.1, f e.2)) = n.entries.map fun e => (e.1, f e.2)) : m = n := by
  refine eq_of_entries ((List.map_inj_right fun d e hde => ?_).1 h)
  obtain ⟨hkey, hvalue⟩ := Prod.mk.inj hde
  exact Prod.ext hkey (hf _ _ hvalue)

/-- A map is the map of its own entries. -/
theorem ofList_entries (m : KeyMap α) : ofList m.entries = m :=
  eq_of_entries (entries_insertAll_of_sorted (m := empty) m.sorted)

theorem keys_nodup (m : KeyMap α) : (m.entries.map Prod.fst).Nodup :=
  List.pairwise_map.2 (m.sorted.imp String.ne_of_lt)

/-- The entries of a map say what its keys hold. -/
theorem lookup_reverse_entries (m : KeyMap α) (key : String) :
    m.entries.reverse.lookup key = m.get? key := by
  have hget : (ofList m.entries).get? key = _ := get?_insertAll empty m.entries key
  rw [ofList_entries] at hget
  rw [hget]
  exact (Option.or_none ..).symm

theorem get?_of_mem {m : KeyMap α} {e : String × α} (h : e ∈ m.entries) :
    m.get? e.1 = some e.2 :=
  (m.lookup_reverse_entries e.1).symm.trans (lookup_reverse_of_mem m.keys_nodup h)

end Provisioner.KeyMap
