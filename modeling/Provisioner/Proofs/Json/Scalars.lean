import Provisioner.Json.Document

/-!
# Reading numbers and texts that were written

`Number.render` and `quote` write the parts of a document that hold no other parts.  Here they
are read again, with any other text behind them.

* `Number.IsInteger` are the numbers that are written as they were read: integers of 64 bits.
* `Closes` says of the text behind a number that the number does not go on in it.
* `readNumber_render` reads a number, `readString_quote` a text.
-/

namespace Provisioner.Json

/-- An integer of 64 bits, signed or unsigned.  A zero with a minus sign is kept as a decimal. -/
def Number.IsInteger : Number → Prop
  | .whole n => -0x8000000000000000 ≤ n ∧ n < 0x10000000000000000
  | .decimal negative digits exponent => negative = true ∧ digits = 0 ∧ exponent = 0

instance Number.decidableIsInteger : (n : Number) → Decidable n.IsInteger
  | .whole _ => inferInstanceAs (Decidable (_ ∧ _))
  | .decimal .. => inferInstanceAs (Decidable (_ ∧ _ ∧ _))

/-! ## Digits -/

theorem isDigit_toDigits {n : Nat} : ∀ c ∈ Nat.toDigits 10 n, c.isDigit = true :=
  fun _ hc => Nat.isDigit_of_mem_toDigits (by decide) (by decide) hc

theorem digitsValue_toDigits (n : Nat) : digitsValue (Nat.toDigits 10 n) = n := by
  have hvalue : ∀ ds : List Char, digitsValue ds = Nat.ofDigitChars 10 ds 0 := by
    intro ds
    rw [Nat.ofDigitChars_eq_foldl]
    exact congrArg (List.foldl · 0 ds) (funext fun n => funext fun c => by rw [Nat.mul_comm]; rfl)
  rw [hvalue, Nat.ofDigitChars_toDigits (by decide) (by decide)]

/-- No number but zero is written with a zero before all other digits. -/
theorem head?_toDigits_ne {n : Nat} (h : n ≠ 0) : (Nat.toDigits 10 n).head? ≠ some '0' := by
  induction n using Nat.strongRecOn with
  | ind n ih =>
    by_cases hlt : n < 10
    · rw [Nat.toDigits_of_lt_base hlt, List.head?_cons]
      exact fun heq => h (Nat.digitChar_eq_zero.1 (Option.some.inj heq))
    · have hpos : n / 10 ≠ 0 := by omega
      rw [Nat.toDigits_of_base_le (by decide) (by omega), List.head?_append,
        Option.or_of_isSome (List.isSome_head?.2 Nat.toDigits_ne_nil)]
      exact ih _ (by omega) hpos

theorem toDigits_eq_cons (n : Nat) : ∃ d ds, Nat.toDigits 10 n = d :: ds ∧ d.isDigit = true ∧
    (d = '0' → ds = []) := by
  cases hdigits : Nat.toDigits 10 n with
  | nil => exact absurd hdigits Nat.toDigits_ne_nil
  | cons d ds =>
    refine ⟨d, ds, rfl, isDigit_toDigits d (hdigits ▸ List.mem_cons_self), ?_⟩
    rintro rfl
    by_cases hzero : n = 0
    · rw [hzero, Nat.toDigits_zero] at hdigits
      exact (List.cons.inj hdigits).2.symm
    · exact absurd (by rw [hdigits]; rfl) (head?_toDigits_ne hzero)

/-! ## Numbers -/

/-- A text in which a number before it does not go on. -/
def Closes (rest : List Char) : Prop :=
  ∀ c ∈ rest.head?, c.isDigit = false ∧ c ≠ '.' ∧ c ≠ 'e' ∧ c ≠ 'E'

theorem closes_nil : Closes [] := nofun

theorem closes_cons {c : Char} (h : c = ',' ∨ c = ']' ∨ c = '\x7d') (rest : List Char) :
    Closes (c :: rest) := by
  rintro d hd
  obtain rfl := Option.some.inj hd
  rcases h with rfl | rfl | rfl <;> decide

theorem takeWhile_toDigits (n : Nat) {rest : List Char}
    (h : ∀ c ∈ rest.head?, c.isDigit = false) :
    (Nat.toDigits 10 n ++ rest).takeWhile Char.isDigit = Nat.toDigits 10 n := by
  rw [List.takeWhile_append_of_pos isDigit_toDigits]
  cases rest with
  | nil => simp
  | cons c rest => simp [h c rfl]

theorem dropWhile_toDigits (n : Nat) {rest : List Char}
    (h : ∀ c ∈ rest.head?, c.isDigit = false) :
    (Nat.toDigits 10 n ++ rest).dropWhile Char.isDigit = rest := by
  rw [List.dropWhile_append_of_pos isDigit_toDigits]
  cases rest with
  | nil => rfl
  | cons c rest => simp [h c rfl]

theorem exceedsDouble_eq_false {n : Nat} (h : n < 0x10000000000000000) :
    exceedsDouble n 0 = false := by
  have hlength : n.repr.length ≤ 20 := (Nat.length_repr_le_iff (by decide)).2 (by omega)
  rw [exceedsDouble]
  split
  · rfl
  · rw [if_pos]
    rw [Nat.toString_eq_repr]
    omega

/-- The digits of a number, and something else behind them. -/
theorem readNumber_toDigits (start : Nat) (negative : Bool) {n : Nat} {rest : List Char}
    (hn : n < 0x10000000000000000) (hrest : Closes rest) (offset : Nat) :
    ∃ stop, readNumber start negative (Nat.toDigits 10 n ++ rest) offset =
      (.scalar start stop (.num (integerScalar negative n)), some ⟨rest, stop⟩) := by
  refine ⟨offset + (Nat.toDigits 10 n).length, ?_⟩
  have hno : ∀ c ∈ rest.head?, c.isDigit = false := fun c hc => (hrest c hc).1
  have htake := takeWhile_toDigits n hno
  have hdrop := dropWhile_toDigits n hno
  obtain ⟨d, ds, hdigits, hd, hzero⟩ := toDigits_eq_cons n
  have hlead : ¬ (d = '0' ∧ (ds ++ rest).head?.any Char.isDigit = true) := by
    rintro ⟨hd0, hany⟩
    rw [hzero hd0, List.nil_append, Option.any_eq_true] at hany
    obtain ⟨c, hc, hdigit⟩ := hany
    exact Bool.false_ne_true ((hno c hc).symm.trans hdigit)
  rw [hdigits, List.cons_append] at htake hdrop
  have hvalue : digitsValue (d :: ds) = n := hdigits ▸ digitsValue_toDigits n
  rw [hdigits, List.cons_append]
  simp only [readNumber, hd, hlead, htake, hdrop, hvalue, exceedsDouble_eq_false hn, Bool.not_true,
    Bool.false_eq_true, ↓reduceIte]
  cases rest with
  | nil => rfl
  | cons c rest =>
    obtain ⟨-, hpoint, he, hE⟩ := hrest c rfl
    have hletter : ¬ (c = 'e' ∨ c = 'E') := fun h => h.elim he hE
    split
    · next heq => exact absurd (List.cons.inj heq).1 hpoint
    · next heq =>
      obtain ⟨rfl, rfl⟩ := List.cons.inj heq
      exact if_neg hletter
    · next heq => exact absurd heq (List.cons_ne_nil _ _)

/-- A zero with a minus sign is written with an exponent. -/
theorem readNumber_negativeZero (start : Nat) {rest : List Char} (hrest : Closes rest)
    (offset : Nat) :
    ∃ stop, readNumber start true ('0' :: 'e' :: '0' :: rest) offset =
      (.scalar start stop (.num (.decimal true 0 0)), some ⟨rest, stop⟩) := by
  have htake : ('0' :: rest).takeWhile Char.isDigit = ['0'] := by
    simpa using takeWhile_toDigits 0 fun c hc => (hrest c hc).1
  have hdrop : ('0' :: rest).dropWhile Char.isDigit = rest := by
    simpa using dropWhile_toDigits 0 fun c hc => (hrest c hc).1
  refine ⟨offset + 1 + 1 + 1, ?_⟩
  simp [readNumber, readExponent, htake, hdrop, exceedsDouble, digitsValue]

/-- The three forms that an integer is written in. -/
theorem Number.IsInteger.cases {n : Number} (h : n.IsInteger) :
    (∃ m : Nat, n = .whole m ∧ n.render = Nat.toDigits 10 m ∧ m < 0x10000000000000000) ∨
      (∃ m : Nat, n = .whole (-m) ∧ n.render = '-' :: Nat.toDigits 10 m ∧ m ≠ 0 ∧
        m ≤ 0x8000000000000000) ∨
      n = .decimal true 0 0 ∧ n.render = ['-', '0', 'e', '0'] := by
  cases n with
  | decimal negative digits exponent =>
    obtain ⟨rfl, rfl, rfl⟩ := h
    exact .inr (.inr ⟨rfl, by decide⟩)
  | whole value =>
    obtain ⟨hlow, hhigh⟩ := h
    cases value with
    | ofNat m =>
      have hhigh : (m : Int) < 0x10000000000000000 := hhigh
      exact .inl ⟨m, rfl, Nat.toList_repr, by omega⟩
    | negSucc m =>
      refine .inr (.inl ⟨m + 1, rfl, ?_, by omega, by omega⟩)
      have htext : toString (Int.negSucc m) = "-" ++ (m + 1).repr := rfl
      rw [Number.render, htext, String.toList_append, Nat.toList_repr]
      rfl

/-- A number is read by its digits; a minus sign before them has been taken then. -/
theorem Number.IsInteger.readNumber_render {n : Number} (h : n.IsInteger) (start : Nat) :
    (∃ cs, n.render = '-' :: cs ∧ ∀ rest offset, Closes rest →
      ∃ stop, readNumber start true (cs ++ rest) offset =
        (.scalar start stop (.num n), some ⟨rest, stop⟩)) ∨
    (∃ d ds, n.render = d :: ds ∧ d.isDigit = true) ∧ ∀ rest offset, Closes rest →
      ∃ stop, readNumber start false (n.render ++ rest) offset =
        (.scalar start stop (.num n), some ⟨rest, stop⟩) := by
  rcases h.cases with ⟨m, rfl, hrender, hm⟩ | ⟨m, rfl, hrender, hpos, hm⟩ | ⟨rfl, hrender⟩
  · right
    obtain ⟨d, ds, hdigits, hd, -⟩ := toDigits_eq_cons m
    refine ⟨⟨d, ds, hrender.trans hdigits, hd⟩, fun rest offset hrest => ?_⟩
    have hscalar : integerScalar false m = .whole m := by
      rw [integerScalar, if_neg Bool.false_ne_true, if_neg (by omega)]
    rw [hrender, ← hscalar]
    exact readNumber_toDigits start false hm hrest offset
  · left
    refine ⟨_, hrender, fun rest offset hrest => ?_⟩
    have hscalar : integerScalar true m = .whole (-m) := by
      rw [integerScalar, if_pos rfl, if_neg (by omega)]
    rw [← hscalar]
    exact readNumber_toDigits start true (by omega) hrest offset
  · left
    exact ⟨_, hrender, fun rest offset hrest => readNumber_negativeZero start hrest offset⟩

/-! ## Texts -/

theorem hexValue?_hexDigit {n : Nat} (h : n < 16) : hexValue? (hexDigit n) = some n := by
  revert n
  decide

/-- The forms that a character is written in: as itself, after a backslash, or by its number. -/
theorem quoteChar_cases (c : Char) :
    (∃ e, quoteChar c = ['\\', e] ∧ e ≠ 'u' ∧ simpleEscape? e = some c) ∨
      (c.toNat < 0x20 ∧ quoteChar c =
        ['\\', 'u', '0', '0', hexDigit (c.toNat / 16), hexDigit (c.toNat % 16)]) ∨
      (quoteChar c = [c] ∧ c ≠ '"' ∧ c ≠ '\\' ∧ ¬ c.toNat < 0x20) := by
  unfold quoteChar
  split
  · next h => exact .inl ⟨'"', rfl, by decide, by rw [h]; decide⟩
  split
  · next h => exact .inl ⟨'\\', rfl, by decide, by rw [h]; decide⟩
  split
  · next h => exact .inl ⟨'n', rfl, by decide, by rw [h]; decide⟩
  split
  · next h => exact .inl ⟨'r', rfl, by decide, by rw [h]; decide⟩
  split
  · next h => exact .inl ⟨'t', rfl, by decide, by rw [h]; decide⟩
  split
  · next h => exact .inl ⟨'b', rfl, by decide, by rw [← Char.ofNat_toNat c, h]; decide⟩
  split
  · next h => exact .inl ⟨'f', rfl, by decide, by rw [← Char.ofNat_toNat c, h]; decide⟩
  split
  · next h => exact .inr (.inl ⟨h, rfl⟩)
  · next hquote hslash _ _ _ _ _ hcontrol => exact .inr (.inr ⟨rfl, hquote, hslash, hcontrol⟩)

theorem unicodeEscape_control {c : Char} (h : c.toNat < 0x20) (rest : List Char) (n : Nat) :
    unicodeEscape ('0' :: '0' :: hexDigit (c.toNat / 16) :: hexDigit (c.toNat % 16) :: rest) n =
      .char c 4 := by
  have hcode : hexFour? ('0' :: '0' :: hexDigit (c.toNat / 16) :: hexDigit (c.toNat % 16) :: rest) =
      some c.toNat := by
    have hzero : hexValue? '0' = some 0 := rfl
    simp only [hexFour?, hzero, hexValue?_hexDigit (n := c.toNat / 16) (by omega),
      hexValue?_hexDigit (n := c.toNat % 16) (by omega), Option.bind_eq_bind, Option.bind_some,
      Option.pure_def, Option.some.injEq]
    omega
  rw [unicodeEscape, hcode]
  simp only
  rw [if_neg (by omega), if_neg (by omega), Char.ofNat_toNat]

/-- A character is read as it was written. -/
theorem readString_quoteChar (acc : List Char) (fault? : Option Fault) (n : Nat) (c : Char)
    (rest : List Char) :
    ∃ n', readString acc fault? n (quoteChar c ++ rest) = readString (c :: acc) fault? n' rest := by
  rcases quoteChar_cases c with ⟨e, hquote, he, hsimple⟩ | ⟨hcontrol, hquote⟩ |
    ⟨hquote, hne, hslash, hcontrol⟩
  · refine ⟨n + 2, ?_⟩
    rw [hquote, List.cons_append, List.cons_append, List.nil_append, readString.eq_def]
    simp [he, hsimple]
  · refine ⟨n + 2 + 4, ?_⟩
    rw [hquote]
    simp only [List.cons_append, List.nil_append]
    rw [readString.eq_def]
    simp [unicodeEscape_control hcontrol]
  · refine ⟨n + c.utf8Size, ?_⟩
    rw [hquote, List.cons_append, List.nil_append, readString.eq_def]
    simp [hne, hslash, hcontrol]

/-- A text is read up to the quote behind it. -/
theorem readString_quote (s : List Char) (acc : List Char) (fault? : Option Fault) (n : Nat)
    (rest : List Char) :
    ∃ n', readString acc fault? n (s.flatMap quoteChar ++ '"' :: rest) =
      .closed (String.ofList (acc.reverse ++ s)) fault? ⟨rest, n'⟩ := by
  induction s generalizing acc n with
  | nil =>
    refine ⟨n + 1, ?_⟩
    rw [List.append_nil, List.flatMap_nil, List.nil_append, readString.eq_def]
    simp
  | cons c s ih =>
    obtain ⟨n', hchar⟩ := readString_quoteChar acc fault? n c (s.flatMap quoteChar ++ '"' :: rest)
    obtain ⟨n'', hrest⟩ := ih (c :: acc) n'
    refine ⟨n'', ?_⟩
    rw [List.flatMap_cons, List.append_assoc, hchar, hrest, List.reverse_cons, List.append_assoc]
    rfl

theorem quote_append (s : String) (rest : List Char) :
    quote s ++ rest = '"' :: (s.toList.flatMap quoteChar ++ '"' :: rest) := by
  simp [quote]

/-- A text between quotes is read up to the quote behind it. -/
theorem readString_text (s : String) (n : Nat) (rest : List Char) :
    ∃ n', readString [] none n (s.toList.flatMap quoteChar ++ '"' :: rest) =
      .closed s none ⟨rest, n'⟩ := by
  obtain ⟨n', hread⟩ := readString_quote s.toList [] none n rest
  rw [List.reverse_nil, List.nil_append, String.ofList_toList] at hread
  exact ⟨n', hread⟩

end Provisioner.Json
