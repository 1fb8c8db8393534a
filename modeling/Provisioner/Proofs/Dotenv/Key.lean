import Provisioner.Dotenv
import Provisioner.Store.Failure
import Provisioner.Proofs.KeyMap

/-!
# Keys of environment files

`IsKey` says which texts a line of an environment file can bind.  Reading a file gives
such keys alone, and every key that a store accepts is one of them.

* `isKey_of_readKey`, `keys_of_parse`: what is read from a file is a key.
* `State.next_key`: a character of a key leaves the reader of lines outside
  quotes.
-/

namespace Provisioner.Dotenv

/-- The texts that a line can bind: a letter or `_`, and then letters, digits, `_` and
dots. -/
def IsKey (key : String) : Prop :=
  (∃ c rest, key.toList = c :: rest ∧ isKeyStart c = true) ∧
    ∀ c ∈ key.toList, isKeyChar c = true

/-- Maps whose keys can all be bound. -/
def HasKeys (values : KeyMap String) : Prop :=
  ∀ e ∈ values.entries, IsKey e.1

/-! ## Characters of keys -/

theorem isKeyChar_of_isKeyStart {c : Char} (h : isKeyStart c = true) : isKeyChar c = true := by
  simp only [isKeyStart, isKeyChar, Char.isAlphanum, Bool.or_eq_true] at h ⊢
  rcases h with h | h
  · exact .inl (.inl (.inl h))
  · exact .inl (.inr h)

/-- The code points of the characters of keys. -/
theorem toNat_of_isKeyChar {c : Char} (h : isKeyChar c = true) :
    (65 ≤ c.toNat ∧ c.toNat ≤ 90) ∨ (97 ≤ c.toNat ∧ c.toNat ≤ 122) ∨
      (48 ≤ c.toNat ∧ c.toNat ≤ 57) ∨ c.toNat = 95 ∨ c.toNat = 46 := by
  rw [isKeyChar, Bool.or_eq_true, Bool.or_eq_true, beq_iff_eq, beq_iff_eq] at h
  rcases h with (h | rfl) | rfl
  · have h : (c.isUpper || c.isLower || c.isDigit) = true := h
    rw [Bool.or_eq_true, Bool.or_eq_true] at h
    rcases h with (h | h) | h
    · have h : c.val ≥ 'A'.val ∧ c.val ≤ 'Z'.val := of_decide_eq_true h
      exact .inl (by simpa [UInt32.le_iff_toNat_le] using h)
    · have h : (decide (c.val ≥ 'a'.val) && decide (c.val ≤ 'z'.val)) = true := h
      exact .inr (.inl (by simpa [UInt32.le_iff_toNat_le] using h))
    · exact .inr (.inr (.inl (by simpa [Char.isDigit, UInt32.le_iff_toNat_le] using h)))
  · decide
  · decide

/-- No character of a key is blank. -/
theorem isBlank_of_isKeyChar {c : Char} (h : isKeyChar c = true) : Text.isBlank c = false := by
  have hc := toNat_of_isKeyChar h
  simp only [Text.isBlank, Bool.or_eq_false_iff, Bool.and_eq_false_iff, decide_eq_false_iff_not,
    beq_eq_false_iff_ne]
  omega

/-- A character that no key holds is none of the characters of a key. -/
theorem ne_of_isKeyChar {c d : Char} (h : isKeyChar c = true) (hd : isKeyChar d = false) :
    c ≠ d := by
  rintro rfl
  rw [h] at hd
  cases hd

/-- A character of a key leaves the reader of lines outside quotes. -/
theorem Line.State.next_key {c : Char} (h : isKeyChar c = true) :
    Line.State.next .plain c = .plain := by
  have hescape : c ≠ '\\' := ne_of_isKeyChar h (by decide)
  have hdouble : c ≠ '"' := ne_of_isKeyChar h (by decide)
  have hsingle : c ≠ '\'' := ne_of_isKeyChar h (by decide)
  simp [next, outside, isBlank_of_isKeyChar h, hescape, hdouble, hsingle]

/-! ## Where keys come from -/

/-- A store's keys can be bound. -/
theorem isKey_of_storeKey {key : String} (h : Store.isKey key = true) : IsKey key := by
  unfold Store.isKey at h
  split at h
  · cases h
  · rename_i c rest hkey
    obtain ⟨hc, hrest⟩ := Bool.and_eq_true_iff.1 h
    have hstart : isKeyStart c = true := hc
    refine ⟨⟨c, rest, hkey, hstart⟩, ?_⟩
    rw [hkey]
    intro d hd
    rcases List.mem_cons.1 hd with rfl | hd
    · exact isKeyChar_of_isKeyStart hstart
    · have := List.all_eq_true.1 hrest d hd
      simp only [isKeyChar, this, Bool.true_or]

theorem Rest.isKey_of_key? {r after : Rest} {key : String} (h : r.key? = some (key, after)) :
    IsKey key := by
  unfold Rest.key? at h
  split at h
  · cases h
  · rename_i c rest hchars
    split at h
    · rename_i hstart
      obtain ⟨rfl, -⟩ := Prod.mk.inj (Option.some.inj h)
      have hc : isKeyChar c = true := isKeyChar_of_isKeyStart hstart
      refine ⟨⟨c, rest.takeWhile isKeyChar, ?_, hstart⟩, ?_⟩
      · simp [hchars, hc]
      · simpa using fun d hd => List.all_eq_true.1 List.all_takeWhile d hd
    · cases h

/-- What is read as a key of a line can be bound. -/
theorem isKey_of_readKey {r after : Rest} {key : String} (h : readKey r = .ok (key, after)) :
    IsKey key := by
  unfold readKey at h
  split at h
  · cases h
  · rename_i first rest hfirst
    split at h
    · obtain ⟨rfl, -⟩ := Prod.mk.inj (Except.ok.inj h)
      exact Rest.isKey_of_key? hfirst
    · split at h
      · split at h
        · cases h
        · rename_i second more hsecond
          split at h
          · obtain ⟨rfl, -⟩ := Prod.mk.inj (Except.ok.inj h)
            exact Rest.isKey_of_key? hsecond
          · cases h
      · cases h

theorem isKey_of_readLine {lookup : String → String} {line : List Char} {key value : String}
    (h : readLine lookup line = .ok (some (key, value))) : IsKey key := by
  unfold readLine at h
  dsimp only at h
  split at h
  · cases h
  · split at h
    · cases h
    · rename_i read after hread
      have hkey : IsKey read := isKey_of_readKey hread
      split at h
      · obtain ⟨rfl, -⟩ := Prod.mk.inj (Option.some.inj (Except.ok.inj h))
        exact hkey
      · split at h
        · obtain ⟨rfl, -⟩ := Prod.mk.inj (Option.some.inj (Except.ok.inj h))
          exact hkey
        · cases h

theorem hasKeys_empty : HasKeys KeyMap.empty := fun _ h => nomatch h

theorem HasKeys.insertAll {values : KeyMap String} {pairs : List (String × String)}
    (hvalues : HasKeys values) (hpairs : ∀ p ∈ pairs, IsKey p.1) :
    HasKeys (values.insertAll pairs) := by
  intro e he
  rcases KeyMap.mem_entries_insertAll he with he | he
  · exact hpairs e he
  · exact hvalues e he

theorem hasKeys_of_readLines {environment : KeyMap String}
    {lines : List (Except Failure (List Char))} {values result : KeyMap String}
    (hvalues : HasKeys values) (h : readLines environment lines values = .ok result) :
    HasKeys result := by
  induction lines generalizing values with
  | nil =>
    obtain rfl : values = result := Except.ok.inj h
    exact hvalues
  | cons line rest ih =>
    cases line with
    | error e => cases h
    | ok line =>
      rw [readLines] at h
      split at h
      · cases h
      · exact ih hvalues h
      · rename_i key value hline
        have hkey : IsKey key := isKey_of_readLine hline
        have hinserted : HasKeys (values.insertAll [(key, value)]) :=
          hvalues.insertAll fun p hp => List.mem_singleton.1 hp ▸ hkey
        exact ih hinserted h

/-- What is read from a file is bound under keys. -/
theorem hasKeys_of_parse {environment : KeyMap String} {content : Content}
    {values : KeyMap String} (h : parse environment content = .ok values) : HasKeys values :=
  hasKeys_of_readLines hasKeys_empty h

end Provisioner.Dotenv
