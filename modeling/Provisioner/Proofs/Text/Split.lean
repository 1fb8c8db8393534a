import Provisioner.Text.Split

/-!
# Splitting and joining

Parts without separators are the ones that the text made of them is split into.

* `split_append_cons` and `split_append` split at one separator.
* `split_join`: parts that are joined are split again into the same parts.
-/

namespace Provisioner.Text

variable {isBreak : Char → Bool} {part : List Char}

theorem split_cons_of_not {c : Char} (hc : isBreak c = false) {rest : List Char}
    {more : List (List Char)} (h : split isBreak rest = part :: more) :
    split isBreak (c :: rest) = (c :: part) :: more := by
  rw [split, hc, h]
  rfl

theorem split_of_none (h : ∀ c ∈ part, isBreak c = false) : split isBreak part = [part] := by
  induction part with
  | nil => rfl
  | cons c part ih =>
    exact split_cons_of_not (h c List.mem_cons_self)
      (ih fun d hd => h d (List.mem_cons_of_mem _ hd))

/-- The first part ends at the first separator. -/
theorem split_append_cons (h : ∀ c ∈ part, isBreak c = false) {b : Char} (hb : isBreak b = true)
    (rest : List Char) : split isBreak (part ++ b :: rest) = part :: split isBreak rest := by
  induction part with
  | nil => rw [List.nil_append, split, if_pos hb]
  | cons c part ih =>
    exact split_cons_of_not (h c List.mem_cons_self)
      (ih fun d hd => h d (List.mem_cons_of_mem _ hd))

/-- A separator divides the parts into those before and those behind it. -/
theorem split_append {b : Char} (hb : isBreak b = true) (before after : List Char) :
    split isBreak (before ++ b :: after) = split isBreak before ++ split isBreak after := by
  induction before with
  | nil => exact split_append_cons (List.forall_mem_nil _) hb after
  | cons c before ih =>
    cases hc : isBreak c with
    | true =>
      rw [List.cons_append, split, if_pos hc, split, if_pos hc, ih, List.cons_append]
    | false =>
      obtain ⟨first, more, hfirst⟩ := List.exists_cons_of_ne_nil (split_ne_nil isBreak before)
      rw [hfirst, List.cons_append] at ih
      rw [List.cons_append, split_cons_of_not hc ih, split_cons_of_not hc hfirst, List.cons_append]

/-- There is no separator within a part. -/
theorem not_isBreak_of_mem_split {cs : List Char} (h : part ∈ split isBreak cs) :
    ∀ c ∈ part, isBreak c = false := by
  induction cs generalizing part with
  | nil =>
    obtain rfl := List.mem_singleton.1 h
    exact fun c hc => absurd hc List.not_mem_nil
  | cons c rest ih =>
    obtain ⟨first, more, hrest⟩ := List.exists_cons_of_ne_nil (split_ne_nil isBreak rest)
    have hmem : ∀ p ∈ first :: more, ∀ d ∈ p, isBreak d = false :=
      fun p hp => ih (hrest ▸ hp)
    cases hc : isBreak c with
    | true =>
      rw [split, if_pos hc, hrest] at h
      rcases List.mem_cons.1 h with rfl | h
      · exact fun d hd => absurd hd List.not_mem_nil
      · exact hmem part h
    | false =>
      rw [split_cons_of_not hc hrest] at h
      rcases List.mem_cons.1 h with rfl | h
      · rintro d hd
        rcases List.mem_cons.1 hd with rfl | hd
        · exact hc
        · exact hmem first List.mem_cons_self d hd
      · exact hmem part (List.mem_cons_of_mem _ h)

/-- Parts that are joined are split again into the same parts. -/
theorem split_join {separator : Char} {parts : List (List Char)} (hne : parts ≠ [])
    (h : ∀ part ∈ parts, separator ∉ part) :
    split (· == separator) (join separator parts) = parts := by
  have hplain : ∀ part ∈ parts, ∀ c ∈ part, (c == separator) = false :=
    fun part hpart c hc => beq_eq_false_iff_ne.2 fun heq => h part hpart (heq ▸ hc)
  induction parts with
  | nil => exact absurd rfl hne
  | cons part more ih =>
    cases more with
    | nil => exact split_of_none (hplain part List.mem_cons_self)
    | cons next rest =>
      rw [join, split_append_cons (hplain part List.mem_cons_self) (beq_self_eq_true separator)]
      rw [ih (List.cons_ne_nil _ _) (fun p hp => h p (List.mem_cons_of_mem _ hp))
        fun p hp => hplain p (List.mem_cons_of_mem _ hp)]

end Provisioner.Text
