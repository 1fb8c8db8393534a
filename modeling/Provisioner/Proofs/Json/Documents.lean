import Provisioner.Proofs.Json.Scalars

/-!
# Reading documents that were written

`Json.render` writes a value, and `Document.ofText` makes a tree of what was written.

* `Tree.Says` says that a tree is that of a value, wherever in a text its parts stand.
* `Fits` says of a value that its numbers are integers, and how deep it may nest: a container that
  lies inside 127 others cannot be read.
* `readValue_renderChars` reads a value inside a document, and `ofText_render` a whole document.
-/

namespace Provisioner.Json

/-! ## Trees of values -/

mutual

/-- A tree without faults that is the tree of a value. -/
inductive Tree.Says : Tree → Json → Prop
  | null {start stop : Nat} : Says (.scalar start stop .null) .null
  | bool {start stop : Nat} (b : Bool) : Says (.scalar start stop (.bool b)) (.bool b)
  | num {start stop : Nat} (n : Number) : Says (.scalar start stop (.num n)) (.num n)
  | str {start stop : Nat} (s : String) : Says (.scalar start stop (.str s)) (.str s)
  | arr {start stop : Nat} {ts : List Tree} {vs : List Json} (h : SaysItems ts vs) :
    Says (.arr start stop ts none) (.arr vs)
  | obj {start stop : Nat} {ts : List (Key × Tree)} {ms : List (String × Json)}
    (h : SaysMembers ts ms) : Says (.obj start stop ts none) (.obj ms)

/-- The trees of the items of an array. -/
inductive Tree.SaysItems : List Tree → List Json → Prop
  | nil : SaysItems [] []
  | cons {t : Tree} {v : Json} {ts : List Tree} {vs : List Json} (h : Says t v)
    (hrest : SaysItems ts vs) : SaysItems (t :: ts) (v :: vs)

/-- The trees of the members of an object. -/
inductive Tree.SaysMembers : List (Key × Tree) → List (String × Json) → Prop
  | nil : SaysMembers [] []
  | cons {name : String} {stop : Nat} {t : Tree} {v : Json} {ts : List (Key × Tree)}
    {ms : List (String × Json)} (h : Says t v) (hrest : SaysMembers ts ms) :
    SaysMembers ((⟨name, none, stop⟩, t) :: ts) ((name, v) :: ms)

end

/-- A value whose numbers are integers, with room for no more than so many containers inside
each other. -/
inductive Fits : Nat → Json → Prop
  | null {room : Nat} : Fits room .null
  | bool {room : Nat} (b : Bool) : Fits room (.bool b)
  | num {room : Nat} {n : Number} (h : n.IsInteger) : Fits room (.num n)
  | str {room : Nat} (s : String) : Fits room (.str s)
  | arr {room : Nat} {items : List Json} (h : ∀ v ∈ items, Fits room v) :
    Fits (room + 1) (.arr items)
  | obj {room : Nat} {members : List (String × Json)} (h : ∀ m ∈ members, Fits room m.2) :
    Fits (room + 1) (.obj members)

theorem Fits.mono {room more : Nat} {v : Json} (h : Fits room v) (hle : room ≤ more) :
    Fits more v := by
  induction h generalizing more with
  | null => exact .null
  | bool b => exact .bool b
  | num h => exact .num h
  | str s => exact .str s
  | arr h ih =>
    obtain ⟨more, rfl⟩ := Nat.exists_eq_add_one_of_ne_zero (Nat.ne_zero_of_lt hle)
    exact .arr fun v hv => ih v hv (Nat.le_of_succ_le_succ hle)
  | obj h ih =>
    obtain ⟨more, rfl⟩ := Nat.exists_eq_add_one_of_ne_zero (Nat.ne_zero_of_lt hle)
    exact .obj fun m hm => ih m hm (Nat.le_of_succ_le_succ hle)

/-! ## Places in the text -/

/-- A character that begins a value or a name. -/
def Opens (c : Char) : Prop :=
  c ≠ ' ' ∧ c ≠ '\n' ∧ c ≠ '\t' ∧ c ≠ '\r' ∧ c ≠ ']'

instance decidableOpens (c : Char) : Decidable (Opens c) :=
  inferInstanceAs (Decidable (c ≠ ' ' ∧ c ≠ '\n' ∧ c ≠ '\t' ∧ c ≠ '\r' ∧ c ≠ ']'))

theorem skipSpace_of_ne {c : Char} (h : c ≠ ' ' ∧ c ≠ '\n' ∧ c ≠ '\t' ∧ c ≠ '\r')
    (rest : List Char) (n : Nat) : Cursor.skipSpace ⟨c :: rest, n⟩ = ⟨c :: rest, n⟩ := by
  simp [Cursor.skipSpace, Cursor.skipSpace.go, h]

theorem readWord_append (start : Nat) (value : Scalar) (word rest : List Char) (n : Nat) :
    readWord start value word (word ++ rest) n =
      (.scalar start (n + word.length) value, some ⟨rest, n + word.length⟩) := by
  induction word generalizing n with
  | nil => rfl
  | cons w word ih =>
    rw [List.cons_append, readWord, if_pos rfl, ih, List.length_cons, Nat.add_assoc, Nat.add_comm 1]

/-- The items of an array behind its first one. -/
def laterItems : List Json → List Char
  | [] => [']']
  | v :: vs => ',' :: renderItems (v :: vs)

/-- The members of an object behind its first one. -/
def laterMembers : List (String × Json) → List Char
  | [] => ['\x7d']
  | m :: ms => ',' :: renderMembers (m :: ms)

theorem renderItems_cons (v : Json) (vs : List Json) :
    renderItems (v :: vs) = renderChars v ++ laterItems vs := by
  cases vs <;> simp [renderItems, laterItems]

theorem renderMembers_cons (k : String) (v : Json) (ms : List (String × Json)) :
    renderMembers ((k, v) :: ms) = quote k ++ ':' :: (renderChars v ++ laterMembers ms) := by
  cases ms <;> simp [renderMembers, laterMembers]

/-- A value begins with none of the characters that end one, and with no space. -/
theorem exists_opens_renderChars {v : Json} {room : Nat} (h : Fits room v) :
    ∃ c cs, renderChars v = c :: cs ∧ Opens c := by
  cases h with
  | null => exact ⟨_, _, rfl, by decide⟩
  | bool b => cases b <;> exact ⟨_, _, rfl, by decide⟩
  | str s => exact ⟨_, _, rfl, by decide⟩
  | arr h => exact ⟨_, _, rfl, by decide⟩
  | obj h => exact ⟨_, _, rfl, by decide⟩
  | num h =>
    rcases h.readNumber_render 0 with ⟨cs, hrender, -⟩ | ⟨⟨d, ds, hrender, hd⟩, -⟩
    · exact ⟨_, _, hrender, by decide⟩
    · refine ⟨_, _, hrender, ?_⟩
      refine ⟨?_, ?_, ?_, ?_, ?_⟩ <;> rintro rfl <;> exact absurd hd (by decide)

theorem exists_opens_append {v : Json} {room : Nat} (h : Fits room v) (rest : List Char) :
    ∃ c cs, renderChars v ++ rest = c :: cs ∧ Opens c := by
  obtain ⟨c, cs, hopen, hc⟩ := exists_opens_renderChars h
  exact ⟨c, cs ++ rest, by rw [hopen, List.cons_append], hc⟩

/-! ## Items and members -/

section

variable {depth fuel n : Nat} {cs : List Char} {t : Tree} {after last : Cursor}

theorem readItems_first {ts : List Tree} (hcs : ∃ c rest, cs = c :: rest ∧ Opens c)
    (hitem : readValue depth fuel ⟨cs, n⟩ = (t, some after))
    (hrest : readItems depth false fuel after = (ts, none, some last)) :
    readItems depth true (fuel + 1) ⟨cs, n⟩ = (t :: ts, none, some last) := by
  obtain ⟨c, rest, rfl, h⟩ := hcs
  rw [readItems, skipSpace_of_ne ⟨h.1, h.2.1, h.2.2.1, h.2.2.2.1⟩]
  simp only [h.2.2.2.2, ↓reduceIte, hitem, hrest]

theorem readItems_later {ts : List Tree} (hcs : ∃ c rest, cs = c :: rest ∧ Opens c)
    (hitem : readValue depth fuel ⟨cs, n + 1⟩ = (t, some after))
    (hrest : readItems depth false fuel after = (ts, none, some last)) :
    readItems depth false (fuel + 1) ⟨',' :: cs, n⟩ = (t :: ts, none, some last) := by
  obtain ⟨c, rest, rfl, h⟩ := hcs
  have hcomma : Cursor.skipSpace ⟨',' :: c :: rest, n⟩ = ⟨',' :: c :: rest, n⟩ :=
    skipSpace_of_ne (by decide) _ n
  rw [readItems, hcomma]
  simp only [skipSpace_of_ne ⟨h.1, h.2.1, h.2.2.1, h.2.2.2.1⟩, h.2.2.2.2, Char.reduceEq,
    Bool.false_eq_true, ↓reduceIte, hitem, hrest]

theorem readItems_end (first : Bool) (rest : List Char) :
    readItems depth first (fuel + 1) ⟨']' :: rest, n⟩ = ([], none, some ⟨rest, n + 1⟩) := by
  rw [readItems, skipSpace_of_ne (by decide)]
  simp only [↓reduceIte]

variable {name : String} {m : Nat}

theorem readMembers_first {ts : List (Key × Tree)} {rest : List Char}
    (hname : readString [] none (n + 1) cs = .closed name none ⟨':' :: rest, m⟩)
    (hmember : readValue depth fuel ⟨rest, m + 1⟩ = (t, some after))
    (hrest : readMembers depth false fuel after = (ts, none, some last)) :
    readMembers depth true (fuel + 1) ⟨'"' :: cs, n⟩ =
      ((⟨name, none, m⟩, t) :: ts, none, some last) := by
  have hcolon : Cursor.skipSpace ⟨':' :: rest, m⟩ = ⟨':' :: rest, m⟩ :=
    skipSpace_of_ne (by decide) rest m
  rw [readMembers, skipSpace_of_ne (by decide)]
  simp only [Char.reduceEq, ↓reduceIte, List.drop_one, List.tail_cons, hname, hcolon, hmember,
    hrest]

theorem readMembers_later {ts : List (Key × Tree)} {rest : List Char}
    (hname : readString [] none (n + 1 + 1) cs = .closed name none ⟨':' :: rest, m⟩)
    (hmember : readValue depth fuel ⟨rest, m + 1⟩ = (t, some after))
    (hrest : readMembers depth false fuel after = (ts, none, some last)) :
    readMembers depth false (fuel + 1) ⟨',' :: '"' :: cs, n⟩ =
      ((⟨name, none, m⟩, t) :: ts, none, some last) := by
  have hcolon : Cursor.skipSpace ⟨':' :: rest, m⟩ = ⟨':' :: rest, m⟩ :=
    skipSpace_of_ne (by decide) rest m
  have hquote : Cursor.skipSpace ⟨'"' :: cs, n + 1⟩ = ⟨'"' :: cs, n + 1⟩ :=
    skipSpace_of_ne (by decide) cs (n + 1)
  rw [readMembers, skipSpace_of_ne (by decide)]
  simp only [Char.reduceEq, Bool.false_eq_true, ↓reduceIte, hquote, List.drop_one, List.tail_cons,
    hname, hcolon, hmember, hrest]

theorem readMembers_end (first : Bool) (rest : List Char) :
    readMembers depth first (fuel + 1) ⟨'\x7d' :: rest, n⟩ = ([], none, some ⟨rest, n + 1⟩) := by
  rw [readMembers, skipSpace_of_ne (by decide)]
  simp only [↓reduceIte]

end

/-! ## Values -/

theorem closes_laterItems (vs : List Json) (rest : List Char) : Closes (laterItems vs ++ rest) := by
  cases vs with
  | nil => exact closes_cons (.inr (.inl rfl)) _
  | cons => exact closes_cons (.inl rfl) _

theorem closes_laterMembers (ms : List (String × Json)) (rest : List Char) :
    Closes (laterMembers ms ++ rest) := by
  cases ms with
  | nil => exact closes_cons (.inr (.inr rfl)) _
  | cons => exact closes_cons (.inl rfl) _

/-- A number is read as it was written. -/
theorem readValue_num {n : Number} (h : n.IsInteger) (depth fuel offset : Nat) {rest : List Char}
    (hrest : Closes rest) : ∃ t last, readValue depth (fuel + 1) ⟨n.render ++ rest, offset⟩ =
      (t, some ⟨rest, last⟩) ∧ t.Says (.num n) := by
  obtain ⟨c, cs, hopen, hc⟩ := exists_opens_renderChars (.num h : Fits 0 (.num n))
  have hspace : Cursor.skipSpace ⟨n.render ++ rest, offset⟩ = ⟨n.render ++ rest, offset⟩ := by
    rw [show n.render = c :: cs from hopen]
    exact skipSpace_of_ne ⟨hc.1, hc.2.1, hc.2.2.1, hc.2.2.2.1⟩ _ _
  rcases h.readNumber_render offset with ⟨cs, hrender, hread⟩ | ⟨⟨d, ds, hrender, hd⟩, hread⟩
  · obtain ⟨last, hread⟩ := hread rest (offset + 1) hrest
    refine ⟨.scalar offset last (.num n), last, ?_, .num n⟩
    rw [readValue, hspace]
    simp [hrender, hread]
  · obtain ⟨last, hread⟩ := hread rest offset hrest
    refine ⟨.scalar offset last (.num n), last, ?_, .num n⟩
    have hletter : d ≠ 'n' ∧ d ≠ 't' ∧ d ≠ 'f' ∧ d ≠ '-' := by
      refine ⟨?_, ?_, ?_, ?_⟩ <;> rintro rfl <;> exact absurd hd (by decide)
    rw [hrender] at hread
    rw [readValue, hspace]
    simp only [hrender, List.cons_append, hletter, hd, ↓reduceIte]
    exact hread

theorem readValue_word {c : Char} {word : List Char} {value : Scalar}
    (hword : (c, word, value) ∈ [('n', ['u', 'l', 'l'], .null), ('t', ['r', 'u', 'e'], .bool true),
      ('f', ['a', 'l', 's', 'e'], .bool false)]) (depth fuel : Nat) (rest : List Char) (n : Nat) :
    ∃ last, readValue depth (fuel + 1) ⟨c :: (word ++ rest), n⟩ =
      (.scalar n last value, some ⟨rest, last⟩) := by
  refine ⟨n + 1 + word.length, ?_⟩
  have hread := readWord_append n value word rest (n + 1)
  simp only [List.mem_cons, Prod.mk.injEq, List.not_mem_nil, or_false] at hword
  rcases hword with ⟨rfl, rfl, rfl⟩ | ⟨rfl, rfl, rfl⟩ | ⟨rfl, rfl, rfl⟩ <;>
    rw [readValue, skipSpace_of_ne (by decide)] <;> exact hread

theorem readValue_str (s : String) (depth fuel : Nat) (rest : List Char) (n : Nat) :
    ∃ last, readValue depth (fuel + 1) ⟨quote s ++ rest, n⟩ =
      (.scalar n last (.str s), some ⟨rest, last⟩) := by
  obtain ⟨last, hread⟩ := readString_text s (n + 1) rest
  refine ⟨last, ?_⟩
  rw [quote_append, readValue, skipSpace_of_ne (by decide)]
  simp only [Char.reduceEq, ↓reduceIte, hread]
  rfl

theorem readValue_arr {depth fuel n : Nat} {cs rest : List Char} {ts : List Tree} {last : Nat}
    (hdepth : depth < 127)
    (hitems : readItems (depth + 1) true fuel ⟨cs, n + 1⟩ = (ts, none, some ⟨rest, last⟩)) :
    readValue depth (fuel + 1) ⟨'[' :: cs, n⟩ = (.arr n last ts none, some ⟨rest, last⟩) := by
  rw [readValue, skipSpace_of_ne (by decide)]
  simp [hitems, readValue.guardDepth, readValue.stopOf, hdepth]

theorem readValue_obj {depth fuel n : Nat} {cs rest : List Char} {ts : List (Key × Tree)}
    {last : Nat} (hdepth : depth < 127)
    (hmembers : readMembers (depth + 1) true fuel ⟨cs, n + 1⟩ = (ts, none, some ⟨rest, last⟩)) :
    readValue depth (fuel + 1) ⟨'\x7b' :: cs, n⟩ = (.obj n last ts none, some ⟨rest, last⟩) := by
  rw [readValue, skipSpace_of_ne (by decide)]
  simp [hmembers, readValue.guardDepth, readValue.stopOf, hdepth]

theorem renderChars_ne_nil {v : Json} {room : Nat} (h : Fits room v) : renderChars v ≠ [] := by
  obtain ⟨c, cs, hopen, -⟩ := exists_opens_renderChars h
  exact hopen ▸ List.cons_ne_nil c cs

mutual

/-- A value is read as it was written.  The length of the text bounds the calls. -/
theorem readValue_renderChars (v : Json) {room : Nat} (depth fuel : Nat) (h : Fits room v)
    (hdepth : depth + room ≤ 127) (hfuel : 2 * (renderChars v).length ≤ fuel) {rest : List Char}
    (hrest : Closes rest) (n : Nat) : ∃ t last, readValue depth fuel ⟨renderChars v ++ rest, n⟩ =
      (t, some ⟨rest, last⟩) ∧ t.Says v := by
  have hlength := List.length_pos_iff.2 (renderChars_ne_nil h)
  obtain ⟨fuel, rfl⟩ : ∃ more, fuel = more + 1 := ⟨fuel - 1, by omega⟩
  cases v with
  | null =>
    obtain ⟨last, hread⟩ := readValue_word List.mem_cons_self depth fuel rest n
    exact ⟨_, _, hread, .null⟩
  | bool b =>
    cases b with
    | true =>
      obtain ⟨last, hread⟩ :=
        readValue_word (List.mem_cons_of_mem _ List.mem_cons_self) depth fuel rest n
      exact ⟨_, _, hread, .bool true⟩
    | false =>
      obtain ⟨last, hread⟩ := readValue_word
        (List.mem_cons_of_mem _ (List.mem_cons_of_mem _ List.mem_cons_self)) depth fuel rest n
      exact ⟨_, _, hread, .bool false⟩
  | num number =>
    cases h with
    | num h => exact readValue_num h depth fuel n hrest
  | str s =>
    obtain ⟨last, hread⟩ := readValue_str s depth fuel rest n
    exact ⟨_, _, hread, .str s⟩
  | arr items =>
    cases h with
    | arr h =>
    cases items with
    | nil =>
      obtain ⟨fuel, rfl⟩ : ∃ more, fuel = more + 1 := ⟨fuel - 1, by omega⟩
      exact ⟨_, _, readValue_arr (by omega) (readItems_end true rest), .arr .nil⟩
    | cons v vs =>
      have htext : renderChars (.arr (v :: vs)) = '[' :: (renderChars v ++ laterItems vs) :=
        congrArg ('[' :: ·) (renderItems_cons v vs)
      have hv := h v List.mem_cons_self
      rw [htext, List.length_cons, List.length_append] at hfuel
      obtain ⟨fuel, rfl⟩ : ∃ more, fuel = more + 1 := ⟨fuel - 1, by omega⟩
      obtain ⟨t, mid, hitem, ht⟩ := readValue_renderChars v (depth + 1) fuel hv (by omega)
        (by omega) (closes_laterItems vs rest) (n + 1)
      obtain ⟨ts, last, hitems, hts⟩ := readItems_laterItems vs (depth + 1) fuel
        (fun w hw => h w (List.mem_cons_of_mem _ hw)) (by omega) (by omega) rest mid
      have hread :=
        readValue_arr (by omega) (readItems_first (exists_opens_append hv _) hitem hitems)
      rw [htext, List.cons_append, List.append_assoc]
      exact ⟨_, _, hread, .arr (.cons ht hts)⟩
  | obj members =>
    cases h with
    | obj h =>
    cases members with
    | nil =>
      obtain ⟨fuel, rfl⟩ : ∃ more, fuel = more + 1 := ⟨fuel - 1, by omega⟩
      exact ⟨_, _, readValue_obj (by omega) (readMembers_end true rest), .obj .nil⟩
    | cons member ms =>
      obtain ⟨k, v⟩ := member
      have htext : renderChars (.obj ((k, v) :: ms)) =
          '\x7b' :: (quote k ++ ':' :: (renderChars v ++ laterMembers ms)) :=
        congrArg ('\x7b' :: ·) (renderMembers_cons k v ms)
      rw [htext, List.length_cons, List.length_append, List.length_cons,
        List.length_append] at hfuel
      obtain ⟨fuel, rfl⟩ : ∃ more, fuel = more + 1 := ⟨fuel - 1, by omega⟩
      obtain ⟨stop, hname⟩ := readString_text k (n + 1 + 1)
        (':' :: (renderChars v ++ (laterMembers ms ++ rest)))
      obtain ⟨t, mid, hmember, ht⟩ := readValue_renderChars v (depth + 1) fuel
        (h (k, v) List.mem_cons_self) (by omega) (by omega) (closes_laterMembers ms rest) (stop + 1)
      obtain ⟨ts, last, hmembers, hts⟩ := readMembers_laterMembers ms (depth + 1) fuel
        (fun m hm => h m (List.mem_cons_of_mem _ hm)) (by omega) (by omega) rest mid
      have hread := readValue_obj (by omega) (readMembers_first hname hmember hmembers)
      have happend : renderChars (.obj ((k, v) :: ms)) ++ rest = '\x7b' :: '"' ::
          (k.toList.flatMap quoteChar ++ '"' :: ':' ::
            (renderChars v ++ (laterMembers ms ++ rest))) := by
        simp [htext, quote]
      rw [happend]
      exact ⟨_, _, hread, .obj (.cons ht hts)⟩

/-- The items of an array behind its first one are read as they were written. -/
theorem readItems_laterItems (vs : List Json) {room : Nat} (depth fuel : Nat)
    (h : ∀ v ∈ vs, Fits room v) (hdepth : depth + room ≤ 127)
    (hfuel : 2 * (laterItems vs).length ≤ fuel) (rest : List Char) (n : Nat) :
    ∃ ts last, readItems depth false fuel ⟨laterItems vs ++ rest, n⟩ =
      (ts, none, some ⟨rest, last⟩) ∧ Tree.SaysItems ts vs := by
  obtain ⟨fuel, rfl⟩ : ∃ more, fuel = more + 1 :=
    ⟨fuel - 1, by cases vs <;> simp only [laterItems, List.length_cons] at hfuel <;> omega⟩
  cases vs with
  | nil => exact ⟨_, _, readItems_end false rest, .nil⟩
  | cons v vs =>
    have htext : laterItems (v :: vs) = ',' :: (renderChars v ++ laterItems vs) :=
      congrArg (',' :: ·) (renderItems_cons v vs)
    have hv := h v List.mem_cons_self
    rw [htext, List.length_cons, List.length_append] at hfuel
    obtain ⟨t, mid, hitem, ht⟩ := readValue_renderChars v depth fuel hv hdepth (by omega)
      (closes_laterItems vs rest) (n + 1)
    obtain ⟨ts, last, hitems, hts⟩ := readItems_laterItems vs depth fuel
      (fun w hw => h w (List.mem_cons_of_mem _ hw)) hdepth (by omega) rest mid
    rw [htext, List.cons_append, List.append_assoc]
    exact ⟨_, _, readItems_later (exists_opens_append hv _) hitem hitems, .cons ht hts⟩

/-- The members of an object behind its first one are read as they were written. -/
theorem readMembers_laterMembers (ms : List (String × Json)) {room : Nat} (depth fuel : Nat)
    (h : ∀ m ∈ ms, Fits room m.2) (hdepth : depth + room ≤ 127)
    (hfuel : 2 * (laterMembers ms).length ≤ fuel) (rest : List Char) (n : Nat) :
    ∃ ts last, readMembers depth false fuel ⟨laterMembers ms ++ rest, n⟩ =
      (ts, none, some ⟨rest, last⟩) ∧ Tree.SaysMembers ts ms := by
  obtain ⟨fuel, rfl⟩ : ∃ more, fuel = more + 1 :=
    ⟨fuel - 1, by cases ms <;> simp only [laterMembers, List.length_cons] at hfuel <;> omega⟩
  cases ms with
  | nil => exact ⟨_, _, readMembers_end false rest, .nil⟩
  | cons member ms =>
    obtain ⟨k, v⟩ := member
    have htext : laterMembers ((k, v) :: ms) =
        ',' :: (quote k ++ ':' :: (renderChars v ++ laterMembers ms)) :=
      congrArg (',' :: ·) (renderMembers_cons k v ms)
    rw [htext, List.length_cons, List.length_append, List.length_cons, List.length_append] at hfuel
    obtain ⟨stop, hname⟩ := readString_text k (n + 1 + 1)
      (':' :: (renderChars v ++ (laterMembers ms ++ rest)))
    obtain ⟨t, mid, hmember, ht⟩ := readValue_renderChars v depth fuel
      (h (k, v) List.mem_cons_self) hdepth (by omega) (closes_laterMembers ms rest) (stop + 1)
    obtain ⟨ts, last, hmembers, hts⟩ := readMembers_laterMembers ms depth fuel
      (fun m hm => h m (List.mem_cons_of_mem _ hm)) hdepth (by omega) rest mid
    have hread := readMembers_later hname hmember hmembers
    have happend : laterMembers ((k, v) :: ms) ++ rest = ',' :: '"' ::
        (k.toList.flatMap quoteChar ++ '"' :: ':' ::
          (renderChars v ++ (laterMembers ms ++ rest))) := by
      simp [htext, quote]
    rw [happend]
    exact ⟨_, _, hread, .cons ht hts⟩

end

/-- A document that was written is read without a fault. -/
theorem ofText_render {v : Json} (h : Fits 127 v) :
    ∃ t, Document.ofText v.render = ⟨t, none⟩ ∧ t.Says v := by
  obtain ⟨t, last, hread, ht⟩ := readValue_renderChars v 0 (2 * (renderChars v).length + 2) h
    (by omega) (by omega) closes_nil 0
  refine ⟨t, ?_, ht⟩
  rw [List.append_nil] at hread
  rw [Document.ofText, render, String.toList_ofList]
  simp only [hread]
  rfl

end Provisioner.Json
