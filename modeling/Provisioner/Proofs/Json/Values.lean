import Mathlib.Data.List.Forall2
import Provisioner.Proofs.Basic
import Provisioner.Proofs.Json.Documents
import Provisioner.Proofs.KeyMap

/-!
# Values that were read

What is known of a value that was read from a text: it can be written again, and what is read then
is the value itself.

* `Tree.numbers` are the numbers of a tree, those of members that are skipped among them.
* `Tree.Fits` is a tree as it comes out of a text all of whose numbers are integers;
  `fits_ofText` says that it does.
* `Ordered` says that the members of every object are in the order of a map.
* `Tree.Fits.value` and `Tree.ordered_value` are what a value is like that was read, and
  `Tree.Says.value` reads it again.
-/

namespace Provisioner.Json

/-! ## Trees that come out of a text -/

mutual

/-- The numbers of a tree. -/
def Tree.numbers : Tree → List Number
  | .scalar _ _ (.num n) => [n]
  | .scalar .. => []
  | .arr _ _ items _ => numbersOfItems items
  | .obj _ _ members _ => numbersOfMembers members
  | .unreadable _ inner => inner.numbers
  | .broken .. => []

/-- The numbers of the items of an array. -/
def Tree.numbersOfItems : List Tree → List Number
  | [] => []
  | t :: ts => t.numbers ++ numbersOfItems ts

/-- The numbers of the members of an object. -/
def Tree.numbersOfMembers : List (Key × Tree) → List Number
  | [] => []
  | (_, t) :: ts => t.numbers ++ numbersOfMembers ts

end

/-- A tree whose numbers are all integers. -/
def Tree.HasIntegers (t : Tree) : Prop :=
  ∀ n ∈ t.numbers, n.IsInteger

/-- A tree whose numbers are integers, as far as it can be read, with room for no more than so many
containers inside each other. -/
inductive Tree.Fits : Nat → Tree → Prop
  | scalar {room start stop : Nat} {v : Scalar} (h : ∀ n, v = .num n → n.IsInteger) :
    Fits room (.scalar start stop v)
  | arr {room start stop : Nat} {items : List Tree} {tail? : Option Fault}
    (h : ∀ t ∈ items, Fits room t) : Fits (room + 1) (.arr start stop items tail?)
  | obj {room start stop : Nat} {members : List (Key × Tree)} {tail? : Option Fault}
    (h : ∀ m ∈ members, Fits room m.2) : Fits (room + 1) (.obj start stop members tail?)
  | unreadable {room : Nat} {fault : Fault} {inner : Tree} : Fits room (.unreadable fault inner)
  | broken {room : Nat} {reading skipping : Fault} : Fits room (.broken reading skipping)

theorem Tree.mem_numbersOfItems {items : List Tree} {t : Tree} (ht : t ∈ items) {n : Number}
    (hn : n ∈ t.numbers) : n ∈ numbersOfItems items := by
  induction items with
  | nil => cases ht
  | cons u items ih =>
    rw [numbersOfItems, List.mem_append]
    rcases List.mem_cons.1 ht with rfl | ht
    · exact .inl hn
    · exact .inr (ih ht)

theorem Tree.mem_numbersOfMembers {members : List (Key × Tree)} {m : Key × Tree}
    (hm : m ∈ members) {n : Number} (hn : n ∈ m.2.numbers) : n ∈ numbersOfMembers members := by
  induction members with
  | nil => cases hm
  | cons u members ih =>
    obtain ⟨k, t⟩ := u
    rw [numbersOfMembers, List.mem_append]
    rcases List.mem_cons.1 hm with rfl | hm
    · exact .inl hn
    · exact .inr (ih hm)

/-- A tree that is no container, or one that cannot be read. -/
inductive Tree.IsLeaf : Tree → Prop
  | scalar {start stop : Nat} {v : Scalar} : IsLeaf (.scalar start stop v)
  | unreadable {fault : Fault} {inner : Tree} : IsLeaf (.unreadable fault inner)
  | broken {reading skipping : Fault} : IsLeaf (.broken reading skipping)

theorem Tree.IsLeaf.fits {t : Tree} (h : t.IsLeaf) (hnumbers : t.HasIntegers) (room : Nat) :
    t.Fits room := by
  cases h with
  | unreadable => exact .unreadable
  | broken => exact .broken
  | scalar =>
    refine .scalar fun n hn => ?_
    subst hn
    exact hnumbers n List.mem_cons_self

theorem isLeaf_stopAt (f : Fault) : (stopAt f).1.IsLeaf := .broken

theorem isLeaf_readWord (start : Nat) (value : Scalar) (word cs : List Char) (n : Nat) :
    (readWord start value word cs n).1.IsLeaf := by
  induction word generalizing cs n with
  | nil => exact .scalar
  | cons w word ih =>
    cases cs with
    | nil => exact .broken
    | cons c cs =>
      rw [readWord]
      split
      · exact ih cs (n + 1)
      · exact .broken

theorem isLeaf_readExponent (start : Nat) (negative : Bool) (digits fraction : Nat)
    (cs : List Char) (n : Nat) :
    (readExponent start negative digits fraction cs n).1.IsLeaf := by
  unfold readExponent
  dsimp only
  repeat' split
  all_goals first | exact .scalar | exact .unreadable | exact .broken

theorem isLeaf_readAfterFraction (start : Nat) (negative : Bool) (digits fraction : Nat)
    (cs : List Char) (n : Nat) :
    (readAfterFraction start negative digits fraction cs n).1.IsLeaf := by
  unfold readAfterFraction
  repeat' split
  all_goals first | exact isLeaf_readExponent .. | exact .scalar

theorem isLeaf_readNumber (start : Nat) (negative : Bool) (cs : List Char) (n : Nat) :
    (readNumber start negative cs n).1.IsLeaf := by
  unfold readNumber
  dsimp only
  repeat' split
  all_goals
    first
    | exact isLeaf_readExponent ..
    | exact isLeaf_readAfterFraction ..
    | exact .scalar
    | exact .unreadable
    | exact .broken

theorem fits_guardDepth {depth start : Nat} {t : Tree} {after? : Option Cursor}
    (h : t.HasIntegers → depth < 127 → t.Fits (127 - depth)) :
    (readValue.guardDepth depth start (t, after?)).1.HasIntegers →
      (readValue.guardDepth depth start (t, after?)).1.Fits (127 - depth) := by
  unfold readValue.guardDepth
  split
  · next hdepth => exact fun hnumbers => h hnumbers hdepth
  · exact fun _ => .unreadable

/-- A container that is not too deep leaves room for what is in it. -/
theorem fits_arr {depth start stop : Nat} {items : List Tree} {tail? : Option Fault}
    (h : ∀ t ∈ items, t.HasIntegers → t.Fits (127 - (depth + 1)))
    (hnumbers : (Tree.arr start stop items tail?).HasIntegers) (hdepth : depth < 127) :
    (Tree.arr start stop items tail?).Fits (127 - depth) := by
  have hroom : 127 - depth = 127 - (depth + 1) + 1 := by omega
  rw [hroom]
  exact .arr fun t ht => h t ht fun n hn => hnumbers n (Tree.mem_numbersOfItems ht hn)

theorem fits_obj {depth start stop : Nat} {members : List (Key × Tree)} {tail? : Option Fault}
    (h : ∀ m ∈ members, m.2.HasIntegers → m.2.Fits (127 - (depth + 1)))
    (hnumbers : (Tree.obj start stop members tail?).HasIntegers) (hdepth : depth < 127) :
    (Tree.obj start stop members tail?).Fits (127 - depth) := by
  have hroom : 127 - depth = 127 - (depth + 1) + 1 := by omega
  rw [hroom]
  exact .obj fun m hm => h m hm fun n hn => hnumbers n (Tree.mem_numbersOfMembers hm hn)

/-- A part of a container and the parts behind it. -/
theorem forall_mem_cons_read {β : Type} {P : β → Prop} {r : Reading} (part : Tree → β)
    {readRest : Cursor → List β × Option Fault × Option Cursor} (hr : P (part r.1))
    (hrest : ∀ after, ∀ b ∈ (readRest after).1, P b) :
    ∀ b ∈ (match r with
      | (t, none) => ([part t], none, none)
      | (t, some after) =>
        let (bs, tail?, after?) := readRest after
        (part t :: bs, tail?, after?) : List β × Option Fault × Option Cursor).1, P b := by
  obtain ⟨t, _ | after⟩ := r
  · exact List.forall_mem_singleton.2 hr
  · exact List.forall_mem_cons.2 ⟨hr, hrest after⟩

section

variable {depth fuel : Nat}

theorem fits_readValue
    (hitems : ∀ c, ∀ t ∈ (readItems (depth + 1) true fuel c).1, t.HasIntegers →
      t.Fits (127 - (depth + 1)))
    (hmembers : ∀ c, ∀ m ∈ (readMembers (depth + 1) true fuel c).1, m.2.HasIntegers →
      m.2.Fits (127 - (depth + 1))) (c : Cursor) :
    (readValue depth (fuel + 1) c).1.HasIntegers →
      (readValue depth (fuel + 1) c).1.Fits (127 - depth) := by
  rw [readValue]
  dsimp only
  split
  · exact fun h => (isLeaf_stopAt _).fits h _
  split
  · exact fun h => (isLeaf_readWord ..).fits h _
  split
  · exact fun h => (isLeaf_readWord ..).fits h _
  split
  · exact fun h => (isLeaf_readWord ..).fits h _
  split
  · exact fun h => (isLeaf_readNumber ..).fits h _
  split
  · exact fun h => (isLeaf_readNumber ..).fits h _
  split
  · split
    · exact fun h => (isLeaf_stopAt _).fits h _
    · split
      · exact fun h => Tree.IsLeaf.scalar.fits h _
      · exact fun _ => .unreadable
  split
  · exact fits_guardDepth (fits_arr (hitems _))
  split
  · exact fits_guardDepth (fits_obj (hmembers _))
  · exact fun h => (isLeaf_stopAt _).fits h _

variable (hvalue : ∀ c, (readValue depth fuel c).1.HasIntegers →
  (readValue depth fuel c).1.Fits (127 - depth))

include hvalue

theorem fits_readItems
    (hlater : ∀ c, ∀ t ∈ (readItems depth false fuel c).1, t.HasIntegers → t.Fits (127 - depth))
    (first : Bool) (c : Cursor) :
    ∀ t ∈ (readItems depth first (fuel + 1) c).1, t.HasIntegers → t.Fits (127 - depth) := by
  have hitem := fun c => forall_mem_cons_read (fun t => t) (hvalue c) hlater
  rw [readItems]
  dsimp only
  split
  · exact List.forall_mem_nil _
  split
  · exact List.forall_mem_nil _
  split
  · exact hitem _
  split
  · split
    · exact List.forall_mem_nil _
    · split
      · exact List.forall_mem_nil _
      · exact hitem _
  · exact List.forall_mem_nil _

theorem fits_readMembers
    (hlater : ∀ c, ∀ m ∈ (readMembers depth false fuel c).1, m.2.HasIntegers →
      m.2.Fits (127 - depth)) (first : Bool) (c : Cursor) :
    ∀ m ∈ (readMembers depth first (fuel + 1) c).1, m.2.HasIntegers →
      m.2.Fits (127 - depth) := by
  have hmember := fun k c => forall_mem_cons_read (fun t => (k, t)) (hvalue c) hlater
  have hbroken : ∀ (k : Key) (f : Fault), ∀ m ∈ [(k, (stopAt f).1)], m.2.HasIntegers →
      m.2.Fits (127 - depth) :=
    fun k f => List.forall_mem_singleton.2 fun h => (isLeaf_stopAt f).fits h _
  rw [readMembers]
  dsimp only
  repeat' first | exact List.forall_mem_nil _ | exact hmember _ _ | exact hbroken _ _ | split

end

/-- What is read inside so many containers leaves room for the others. -/
theorem fits_read (fuel : Nat) :
    (∀ depth c, (readValue depth fuel c).1.HasIntegers →
      (readValue depth fuel c).1.Fits (127 - depth)) ∧
    (∀ depth first c, ∀ t ∈ (readItems depth first fuel c).1, t.HasIntegers →
      t.Fits (127 - depth)) ∧
    ∀ depth first c, ∀ m ∈ (readMembers depth first fuel c).1, m.2.HasIntegers →
      m.2.Fits (127 - depth) := by
  -- The three readers call each other, each time with one call less to go.
  induction fuel with
  | zero =>
    refine ⟨fun depth c h => ?_, fun depth first c => ?_, fun depth first c => ?_⟩
    · rw [readValue] at h ⊢
      exact (isLeaf_stopAt _).fits h _
    · rw [readItems]
      exact List.forall_mem_nil _
    · rw [readMembers]
      exact List.forall_mem_nil _
  | succ fuel ih =>
    obtain ⟨ihValue, ihItems, ihMembers⟩ := ih
    exact ⟨fun depth => fits_readValue (ihItems (depth + 1) true) (ihMembers (depth + 1) true),
      fun depth => fits_readItems (ihValue depth) (ihItems depth false),
      fun depth => fits_readMembers (ihValue depth) (ihMembers depth false)⟩

/-- A text whose numbers are all integers gives a tree with room for 127 containers. -/
theorem fits_ofText {text : String} (h : (Document.ofText text).root.HasIntegers) :
    (Document.ofText text).root.Fits 127 := by
  have hroot : (Document.ofText text).root =
      (readValue 0 (2 * text.toList.length + 2) ⟨text.toList, 0⟩).1 := by
    unfold Document.ofText
    dsimp only
    rcases readValue 0 (2 * text.toList.length + 2) ⟨text.toList, 0⟩ with ⟨root, _ | after⟩
    · rfl
    · dsimp only
      split <;> rfl
  rw [hroot] at h ⊢
  exact (fits_read _).1 0 _ h

/-- What is decoded from a text is decoded from its tree. -/
theorem decode_of_decodeText {α : Type} {decode : Tree → Except Fault α} {text : String} {a : α}
    (h : decodeText decode text = .ok a) : decode (Document.ofText text).root = .ok a := by
  obtain ⟨b, hdecode, h⟩ := exists_of_bind_eq_ok h
  obtain ⟨⟨⟩, -, h⟩ := exists_of_bind_eq_ok h
  exact Except.ok.inj h ▸ hdecode

/-! ## Values of trees -/

/-- A value in which the members of every object are in the order of a map. -/
inductive Ordered : Json → Prop
  | null : Ordered .null
  | bool (b : Bool) : Ordered (.bool b)
  | num (n : Number) : Ordered (.num n)
  | str (s : String) : Ordered (.str s)
  | arr {items : List Json} (h : ∀ v ∈ items, Ordered v) : Ordered (.arr items)
  | obj {members : List (String × Json)} (hkeys : members.Pairwise (fun a b => a.1 < b.1))
    (h : ∀ m ∈ members, Ordered m.2) : Ordered (.obj members)

namespace Tree

theorem valueItems_eq_ok {items : List Tree} {vs : List Json} (h : valueItems items = .ok vs) :
    List.Forall₂ (fun t v => t.value = .ok v) items vs := by
  induction items generalizing vs with
  | nil =>
    obtain rfl := Except.ok.inj h
    exact .nil
  | cons t items ih =>
    obtain ⟨v, hv, h⟩ := exists_of_bind_eq_ok h
    obtain ⟨ws, hws, h⟩ := exists_of_bind_eq_ok h
    obtain rfl := Except.ok.inj h
    exact .cons hv (ih hws)

theorem unlessFault_eq_ok {fault? : Option Fault} (h : unlessFault fault? = .ok ()) :
    fault? = none := by
  cases fault? with
  | none => rfl
  | some f => cases h

theorem valueMembers_eq_ok {members : List (Key × Tree)} {ms : List (String × Json)}
    (h : valueMembers members = .ok ms) :
    List.Forall₂ (fun m w => m.1.fault? = none ∧ m.1.name = w.1 ∧ m.2.value = .ok w.2)
      members ms := by
  induction members generalizing ms with
  | nil =>
    obtain rfl := Except.ok.inj h
    exact .nil
  | cons m members ih =>
    obtain ⟨k, t⟩ := m
    obtain ⟨⟨⟩, hk, h⟩ := exists_of_bind_eq_ok h
    obtain ⟨v, hv, h⟩ := exists_of_bind_eq_ok h
    obtain ⟨ws, hws, h⟩ := exists_of_bind_eq_ok h
    obtain rfl := Except.ok.inj h
    exact .cons ⟨unlessFault_eq_ok hk, rfl, hv⟩ (ih hws)

theorem value_arr_eq_ok {start stop : Nat} {items : List Tree} {tail? : Option Fault} {v : Json}
    (h : (Tree.arr start stop items tail?).value = .ok v) :
    ∃ vs, valueItems items = .ok vs ∧ tail? = none ∧ v = .arr vs := by
  obtain ⟨vs, hvs, h⟩ := exists_of_bind_eq_ok h
  obtain ⟨⟨⟩, htail, h⟩ := exists_of_bind_eq_ok h
  exact ⟨vs, hvs, unlessFault_eq_ok htail, (Except.ok.inj h).symm⟩

theorem value_obj_eq_ok {start stop : Nat} {members : List (Key × Tree)} {tail? : Option Fault}
    {v : Json} (h : (Tree.obj start stop members tail?).value = .ok v) :
    ∃ ms, valueMembers members = .ok ms ∧ tail? = none ∧ v = .ofMap (KeyMap.ofList ms) := by
  obtain ⟨ms, hms, h⟩ := exists_of_bind_eq_ok h
  obtain ⟨⟨⟩, htail, h⟩ := exists_of_bind_eq_ok h
  exact ⟨ms, hms, unlessFault_eq_ok htail, (Except.ok.inj h).symm⟩

theorem exists_of_mem_forall₂ {α β : Type} {R : α → β → Prop} {as : List α} {bs : List β}
    (h : List.Forall₂ R as bs) {b : β} (hb : b ∈ bs) : ∃ a ∈ as, R a b := by
  induction h with
  | nil => cases hb
  | @cons a c as bs hR _ ih =>
    rcases List.mem_cons.1 hb with rfl | hb
    · exact ⟨a, List.mem_cons_self, hR⟩
    · obtain ⟨a', ha, hR'⟩ := ih hb
      exact ⟨a', List.mem_cons_of_mem a ha, hR'⟩

/-- A value that is read fits where its tree does. -/
theorem Fits.value {room : Nat} {t : Tree} {v : Json} (h : t.Fits room) (hv : t.value = .ok v) :
    v.Fits room := by
  induction h generalizing v with
  | @scalar _ _ _ s h =>
    cases s with
    | null => exact Except.ok.inj hv ▸ .null
    | bool b => exact Except.ok.inj hv ▸ .bool b
    | num n => exact Except.ok.inj hv ▸ .num (h n rfl)
    | str text => exact Except.ok.inj hv ▸ .str text
  | arr h ih =>
    obtain ⟨vs, hvs, -, rfl⟩ := value_arr_eq_ok hv
    refine .arr fun v hmem => ?_
    obtain ⟨t, ht, hv⟩ := exists_of_mem_forall₂ (valueItems_eq_ok hvs) hmem
    exact ih t ht hv
  | obj h ih =>
    obtain ⟨ms, hms, -, rfl⟩ := value_obj_eq_ok hv
    refine .obj fun m hmem => ?_
    obtain ⟨w, hw, -, -, hv⟩ :=
      exists_of_mem_forall₂ (valueMembers_eq_ok hms) (KeyMap.mem_of_mem_ofList hmem)
    exact ih w hw hv
  | unreadable => cases hv
  | broken => cases hv

mutual

/-- The objects of a value that is read are in order. -/
theorem ordered_value (t : Tree) {v : Json} (h : t.value = .ok v) : v.Ordered := by
  cases t with
  | scalar start stop s =>
    cases s with
    | null => exact Except.ok.inj h ▸ .null
    | bool b => exact Except.ok.inj h ▸ .bool b
    | num n => exact Except.ok.inj h ▸ .num n
    | str text => exact Except.ok.inj h ▸ .str text
  | arr start stop items tail? =>
    obtain ⟨vs, hvs, -, rfl⟩ := value_arr_eq_ok h
    exact .arr (ordered_valueItems items hvs)
  | obj start stop members tail? =>
    obtain ⟨ms, hms, -, rfl⟩ := value_obj_eq_ok h
    exact .obj (KeyMap.ofList ms).sorted fun m hm =>
      ordered_valueMembers members hms m (KeyMap.mem_of_mem_ofList hm)
  | unreadable fault inner => cases h
  | broken reading skipping => cases h

theorem ordered_valueItems (items : List Tree) {vs : List Json} (h : valueItems items = .ok vs) :
    ∀ v ∈ vs, v.Ordered := by
  cases items with
  | nil =>
    obtain rfl := Except.ok.inj h
    exact List.forall_mem_nil _
  | cons t items =>
    obtain ⟨v, hv, h⟩ := exists_of_bind_eq_ok h
    obtain ⟨ws, hws, h⟩ := exists_of_bind_eq_ok h
    obtain rfl := Except.ok.inj h
    exact List.forall_mem_cons.2 ⟨ordered_value t hv, ordered_valueItems items hws⟩

theorem ordered_valueMembers (members : List (Key × Tree)) {ms : List (String × Json)}
    (h : valueMembers members = .ok ms) : ∀ m ∈ ms, m.2.Ordered := by
  cases members with
  | nil =>
    obtain rfl := Except.ok.inj h
    exact List.forall_mem_nil _
  | cons m members =>
    obtain ⟨k, t⟩ := m
    obtain ⟨⟨⟩, hk, h⟩ := exists_of_bind_eq_ok h
    obtain ⟨v, hv, h⟩ := exists_of_bind_eq_ok h
    obtain ⟨ws, hws, h⟩ := exists_of_bind_eq_ok h
    obtain rfl := Except.ok.inj h
    exact List.forall_mem_cons.2 ⟨ordered_value t hv, ordered_valueMembers members hws⟩

end

mutual

/-- The value of the tree of an ordered value is that value. -/
theorem Says.value (v : Json) {t : Tree} (h : t.Says v) (hordered : v.Ordered) :
    t.value = .ok v := by
  cases h with
  | null => rfl
  | bool b => rfl
  | num n => rfl
  | str s => rfl
  | arr h =>
    cases hordered with
    | arr hordered =>
    rw [Tree.value, h.valueItems _ hordered]
    rfl
  | obj h =>
    cases hordered with
    | obj hkeys hordered =>
    rw [Tree.value, h.valueMembers _ hordered]
    exact congrArg (fun m => Except.ok (Json.ofMap m)) (KeyMap.ofList_entries ⟨_, hkeys⟩)

theorem SaysItems.valueItems (vs : List Json) {ts : List Tree} (h : SaysItems ts vs)
    (hordered : ∀ v ∈ vs, v.Ordered) : Tree.valueItems ts = .ok vs := by
  cases h with
  | nil => rfl
  | cons h hrest =>
    rw [Tree.valueItems, h.value _ (hordered _ List.mem_cons_self),
      hrest.valueItems _ fun v hv => hordered v (List.mem_cons_of_mem _ hv)]
    rfl

theorem SaysMembers.valueMembers (ms : List (String × Json)) {ts : List (Key × Tree)}
    (h : SaysMembers ts ms) (hordered : ∀ m ∈ ms, m.2.Ordered) :
    Tree.valueMembers ts = .ok ms := by
  cases h with
  | nil => rfl
  | cons h hrest =>
    rw [Tree.valueMembers, h.value _ (hordered _ List.mem_cons_self),
      hrest.valueMembers _ fun m hm => hordered m (List.mem_cons_of_mem _ hm)]
    rfl

end

end Tree

end Provisioner.Json
