import Mathlib.Data.List.Nodup
import Provisioner.Json.Shape
import Provisioner.Proofs.Json.Values

/-!
# Reading records that were written

What a reader finds in the tree of a value, for simple values, maps and records.

* `Reads` says that a reader finds something in every tree of a value, and `Returns` also that the
  value can be written and read.
* `Writes` says how a field is written into a record, or left out of it, and `Fills` says so of all
  fields in turn; `Shape.returns_of_fills` reads the record.
* `Shape.read_invariant`: what holds at first and is kept by every field holds of the record.
* `Returns.decodeText` reads a whole text that was written.
-/

namespace Provisioner.Json

variable {α β ρ : Type}

/-- A reader finds something in every tree of a value. -/
def Reads (read : Tree → Except Fault α) (v : Json) (a : α) : Prop :=
  ∀ t, t.Says v → read t = .ok a

/-! ## Simple values -/

theorem reads_value {v : Json} (h : v.Ordered) : Reads Tree.value v v :=
  fun _ ht => ht.value v h

theorem reads_text (expected s : String) : Reads (readText expected) (.str s) s := by
  rintro _ ⟨⟩
  rfl

theorem Reads.map {read : Tree → Except Fault α} {v : Json} {a : α} (h : Reads read v a)
    (f : α → β) : Reads (fun t => (read t).map f) v (f a) := by
  intro t ht
  show (read t).map f = .ok (f a)
  rw [h t ht]
  rfl

theorem reads_optional_null (read : Tree → Except Fault α) :
    Reads (readOptional read) .null none := by
  rintro _ ⟨⟩
  rfl

theorem Reads.optional {read : Tree → Except Fault α} {v : Json} {a : α} (h : Reads read v a)
    (hv : v ≠ .null) : Reads (readOptional read) v (some a) := by
  intro t ht
  have hread : readOptional read t = (read t).map some := by
    unfold readOptional
    split
    · cases ht
      exact absurd rfl hv
    · rfl
  rw [hread, h t ht]
  rfl

theorem readEach_of_says {read : Tree → Except Fault α} {encode : α → Json}
    {es : List (String × α)} {ts : List (Key × Tree)}
    (h : Tree.SaysMembers ts (es.map fun e => (e.1, encode e.2)))
    (hread : ∀ e ∈ es, Reads read (encode e.2) e.2) : readEach read ts = .ok es := by
  induction es generalizing ts with
  | nil =>
    cases h
    rfl
  | cons e es ih =>
    cases h with
    | cons h hrest =>
    have hvalue := hread e List.mem_cons_self _ h
    rw [readEach, hvalue, ih hrest fun e he => hread e (List.mem_cons_of_mem _ he)]
    rfl

/-- Pairs are read from the object of them. -/
theorem reads_pairs {read : Tree → Except Fault α} {encode : α → Json} {es : List (String × α)}
    (h : ∀ e ∈ es, Reads read (encode e.2) e.2) :
    Reads (readPairs read) (.obj (es.map fun e => (e.1, encode e.2))) es := by
  intro t ht
  cases ht with
  | obj ht =>
    rw [readPairs, readEach_of_says ht h]
    rfl

/-- A map is read from the object of its entries. -/
theorem reads_map {read : Tree → Except Fault α} {encode : α → Json} {m : KeyMap α}
    (h : ∀ e ∈ m.entries, Reads read (encode e.2) e.2) :
    Reads (readMap read) (.obj (m.entries.map fun e => (e.1, encode e.2))) m := by
  have hpairs := (reads_pairs h).map KeyMap.ofList
  rwa [KeyMap.ofList_entries] at hpairs

/-! ## Values that come back -/

/-- A value that fits into a text and gives something back to a reader. -/
structure Returns (room : Nat) (read : Tree → Except Fault α) (v : Json) (a : α) : Prop where
  fits : v.Fits room
  reads : Reads read v a

namespace Returns

variable {room : Nat} {read : Tree → Except Fault α} {v : Json} {a : α}

theorem mono (h : Returns room read v a) {more : Nat} (hle : room ≤ more) : Returns more read v a :=
  ⟨h.fits.mono hle, h.reads⟩

theorem text (room : Nat) (expected s : String) : Returns room (readText expected) (.str s) s :=
  ⟨.str s, reads_text expected s⟩

theorem map (h : Returns room read v a) (f : α → β) :
    Returns room (fun t => (read t).map f) v (f a) :=
  ⟨h.fits, h.reads.map f⟩

theorem optional (h : Returns room read v a) (hv : v ≠ .null) :
    Returns room (readOptional read) v (some a) :=
  ⟨h.fits, h.reads.optional hv⟩

theorem pairs (encode : α → Json) {es : List (String × α)}
    (h : ∀ e ∈ es, Returns room read (encode e.2) e.2) :
    Returns (room + 1) (readPairs read) (.obj (es.map fun e => (e.1, encode e.2))) es :=
  ⟨.obj (List.forall_mem_map.2 fun e he => (h e he).fits), reads_pairs fun e he => (h e he).reads⟩

theorem entries (encode : α → Json) {m : KeyMap α}
    (h : ∀ e ∈ m.entries, Returns room read (encode e.2) e.2) :
    Returns (room + 1) (readMap read) (.obj (m.entries.map fun e => (e.1, encode e.2))) m :=
  ⟨(pairs encode h).fits, reads_map fun e he => (h e he).reads⟩

/-- A document that was written gives back what it was written for. -/
theorem decodeText (h : Returns 127 read v a) : decodeText read v.render = .ok a := by
  obtain ⟨t, hdocument, ht⟩ := ofText_render h.fits
  rw [Json.decodeText, hdocument]
  show (read t >>= fun a => pure a) = .ok a
  rw [h.reads t ht]
  rfl

end Returns

/-! ## Records -/

/-- Reads a value, and stores what was found. -/
theorem Reads.store {read : Tree → Except Fault α} {v : Json} {a : α} (h : Reads read v a)
    (set : α → ρ) : Reads (fun t => do return set (← read t)) v (set a) := by
  intro t ht
  show (read t >>= fun a => pure (set a)) = .ok (set a)
  rw [h t ht]
  rfl

theorem Returns.store {room : Nat} {read : Tree → Except Fault α} {v : Json} {a : α}
    (h : Returns room read v a) (set : α → ρ) :
    Returns room (fun t => do return set (← read t)) v (set a) :=
  ⟨h.fits, h.reads.store set⟩

/-- How a field is written: it is left out, or it is given with a value that takes a record to
another. -/
inductive Writes (room : Nat) (f : Field ρ) (r : ρ) : List (String × Json) → ρ → Prop
  | left (h : f.required = false) : Writes room f r [] r
  | given {v : Json} {r' : ρ} (h : Returns room (f.read · r) v r') :
    Writes room f r [(f.name, v)] r'

/-- How several fields are written in turn. -/
inductive Fills (room : Nat) : List (Field ρ) → List (String × Json) → ρ → ρ → Prop
  | nil {r : ρ} : Fills room [] [] r r
  | cons {f : Field ρ} {fs : List (Field ρ)} {ms ms' : List (String × Json)} {r r' r'' : ρ}
    (h : Writes room f r ms r') (hrest : Fills room fs ms' r' r'') :
    Fills room (f :: fs) (ms ++ ms') r r''

theorem Fills.fits {room : Nat} {fs : List (Field ρ)} {ms : List (String × Json)} {r r' : ρ}
    (h : Fills room fs ms r r') : ∀ m ∈ ms, m.2.Fits room := by
  induction h with
  | nil => exact List.forall_mem_nil _
  | cons h _ ih =>
    cases h with
    | left => exact ih
    | given h => exact List.forall_mem_cons.2 ⟨h.fits, ih⟩

namespace Shape

/-- A shape whose fields have different names. -/
def Distinct (s : Shape ρ) : Prop :=
  (s.fields.map Field.name).Nodup

instance decidableDistinct (s : Shape ρ) : Decidable s.Distinct :=
  inferInstanceAs (Decidable (s.fields.map Field.name).Nodup)

theorem field?_eq_some {s : Shape ρ} {name : String} {f : Field ρ} (h : s.field? name = some f) :
    f ∈ s.fields ∧ f.name = name := by
  have hname := List.find?_some h
  exact ⟨List.mem_of_find?_eq_some h, eq_of_beq hname⟩

theorem field?_eq_none {s : Shape ρ} {name : String} :
    s.field? name = none ↔ name ∉ s.fields.map Field.name := by
  simp [field?, List.mem_map]

theorem Distinct.field? {s : Shape ρ} (hs : s.Distinct) {f : Field ρ} (hf : f ∈ s.fields) :
    s.field? f.name = some f := by
  cases hfound : s.field? f.name with
  | none => exact absurd (List.mem_map_of_mem hf) (field?_eq_none.1 hfound)
  | some g =>
    obtain ⟨hg, hname⟩ := field?_eq_some hfound
    rw [List.inj_on_of_nodup_map hs hg hf hname]

theorem checkMissing_eq_ok {s : Shape ρ} {seen : List String} (stop : Nat)
    (h : ∀ f ∈ s.fields, f.required = true → f.name ∈ seen) :
    s.checkMissing seen stop = .ok () := by
  have hnone : s.missing? seen = none := by
    rw [missing?, Option.map_eq_none_iff, List.find?_eq_none]
    intro f hf
    cases hrequired : f.required with
    | false => simp
    | true => simp [h f hf hrequired]
  rw [checkMissing, hnone]

section

variable {s : Shape ρ} {other : Key → Tree → ρ → Except Fault ρ} {name : String} {stop : Nat}
  {t : Tree} {rest : List (Key × Tree)} {seen : List String} {r r' : ρ}

theorem readFields_known {f : Field ρ} (hf : s.field? name = some f) (hseen : name ∉ seen)
    (hread : f.read t r = .ok r') :
    s.readFields other ((⟨name, none, stop⟩, t) :: rest) seen r =
      s.readFields other rest (name :: seen) r' := by
  obtain ⟨-, rfl⟩ := field?_eq_some hf
  have hnot : seen.contains f.name = false := by simpa using hseen
  rw [readFields]
  simp only [hf, hnot]
  rw [hread]
  rfl

theorem readFields_unknown (hf : s.field? name = none)
    (hread : other ⟨name, none, stop⟩ t r = .ok r') :
    s.readFields other ((⟨name, none, stop⟩, t) :: rest) seen r =
      s.readFields other rest seen r' := by
  rw [readFields]
  simp only [hf]
  rw [hread]
  rfl

end

/-- Fields that were written in turn are read in turn, and what comes behind them after that. -/
theorem readFields_of_fills {room : Nat} {s : Shape ρ} (hs : s.Distinct)
    (other : Key → Tree → ρ → Except Fault ρ) {fs : List (Field ρ)} {ms : List (String × Json)}
    {r r' : ρ} (h : Fills room fs ms r r') (before : List (Field ρ))
    (hfields : s.fields = before ++ fs) {seen : List String}
    (hseen : ∀ name ∈ seen, name ∈ before.map Field.name)
    (hrequired : ∀ f ∈ before, f.required = true → f.name ∈ seen) {ts : List (Key × Tree)}
    (hts : Tree.SaysMembers ts ms) :
    ∃ seen', s.readFields other ts seen r = .ok (r', seen') ∧
      ∀ f ∈ s.fields, f.required = true → f.name ∈ seen' := by
  -- `before` are the fields whose turn is over; a name that was seen is one of theirs, so that no
  -- field comes twice.
  induction h generalizing before seen ts with
  | nil =>
    cases hts
    rw [List.append_nil] at hfields
    exact ⟨seen, rfl, hfields ▸ hrequired⟩
  | @cons f fs ms ms' r r' r'' hwrites hrest ih =>
    have hmem : f ∈ s.fields := hfields ▸ List.mem_append_right before List.mem_cons_self
    have hnext : s.fields = (before ++ [f]) ++ fs := by
      rw [hfields, List.append_assoc]
      rfl
    cases hwrites with
    | left hleft =>
      refine ih (before ++ [f]) hnext (fun name hname => ?_) (fun g hg hgrequired => ?_) hts
      · rw [List.map_append]
        exact List.mem_append_left _ (hseen name hname)
      · rcases List.mem_append.1 hg with hg | hg
        · exact hrequired g hg hgrequired
        · rw [List.mem_singleton.1 hg, hleft] at hgrequired
          cases hgrequired
    | given hreads =>
      cases hts with
      | cons ht hts =>
      have hnot : f.name ∉ seen := by
        intro hin
        have hnodup := hs
        rw [Distinct, hfields, List.map_append] at hnodup
        exact List.disjoint_of_nodup_append hnodup (hseen _ hin) List.mem_cons_self
      rw [readFields_known (hs.field? hmem) hnot (hreads.reads _ ht)]
      refine ih (before ++ [f]) hnext (fun name hname => ?_) (fun g hg hgrequired => ?_) hts
      · rw [List.map_append]
        rcases List.mem_cons.1 hname with rfl | hname
        · exact List.mem_append_right _ List.mem_cons_self
        · exact List.mem_append_left _ (hseen name hname)
      · rcases List.mem_append.1 hg with hg | hg
        · exact List.mem_cons_of_mem _ (hrequired g hg hgrequired)
        · rw [List.mem_singleton.1 hg]
          exact List.mem_cons_self

/-- A record is read from the object of its fields. -/
theorem returns_of_fills {room : Nat} {s : Shape ρ} (hs : s.Distinct)
    {ms : List (String × Json)} {r : ρ} (h : Fills room s.fields ms s.initial r) :
    Returns (room + 1) s.read (.obj ms) r := by
  refine ⟨.obj h.fits, fun t ht => ?_⟩
  cases ht with
  | @obj start stop ts _ hts =>
  obtain ⟨seen, hread, hseen⟩ := readFields_of_fills hs (fun _ t r => do t.skip; return r) h [] rfl
    (List.forall_mem_nil _) (List.forall_mem_nil _) hts
  rw [Shape.read, hread]
  show (s.checkMissing seen stop >>= fun _ => pure r) = .ok r
  rw [checkMissing_eq_ok stop hseen]
  rfl

/-! ## What every field keeps -/

section

variable {s : Shape ρ} {room : Nat} (Inv : ρ → Prop)

theorem readFields_invariant {other : Key → Tree → ρ → Except Fault ρ}
    (hfield : ∀ f ∈ s.fields, ∀ t : Tree, t.Fits room → ∀ r r', f.read t r = .ok r' →
      Inv r → Inv r')
    (hother : ∀ k t r r', other k t r = .ok r' → Inv r → Inv r')
    {members : List (Key × Tree)} (hmembers : ∀ m ∈ members, m.2.Fits room)
    {seen seen' : List String} {r r' : ρ}
    (h : s.readFields other members seen r = .ok (r', seen')) (hr : Inv r) : Inv r' := by
  induction members generalizing seen r with
  | nil =>
    obtain ⟨rfl, -⟩ := Prod.mk.inj (Except.ok.inj h)
    exact hr
  | cons m members ih =>
    obtain ⟨k, t⟩ := m
    have hrest := fun m hm => hmembers m (List.mem_cons_of_mem _ hm)
    obtain ⟨⟨⟩, -, h⟩ := exists_of_bind_eq_ok h
    split at h
    · obtain ⟨r₁, hother₁, h⟩ := exists_of_bind_eq_ok h
      exact ih hrest h (hother k t r r₁ hother₁ hr)
    · next f hf =>
      split at h
      · cases h
      · obtain ⟨r₁, hread, h⟩ := exists_of_bind_eq_ok h
        have hfits : t.Fits room := hmembers (k, t) List.mem_cons_self
        exact ih hrest h (hfield f (field?_eq_some hf).1 t hfits r r₁ hread hr)

theorem readItems_invariant {stop : Nat} {tail? : Option Fault} {fs : List (Field ρ)}
    (hfield : ∀ f ∈ fs, ∀ t : Tree, t.Fits room → ∀ r r', f.read t r = .ok r' → Inv r → Inv r')
    {items : List Tree} (hitems : ∀ t ∈ items, t.Fits room) {count : Nat} {r r' : ρ}
    (h : s.readItems stop tail? fs items count r = .ok r') (hr : Inv r) : Inv r' := by
  induction fs generalizing items count r with
  | nil =>
    cases items with
    | nil =>
      obtain ⟨⟨⟩, -, h⟩ := exists_of_bind_eq_ok h
      exact Except.ok.inj h ▸ hr
    | cons t items => cases h
  | cons f fs ih =>
    have hrest := fun g hg => hfield g (List.mem_cons_of_mem _ hg)
    cases items with
    | nil =>
      obtain ⟨⟨⟩, -, h⟩ := exists_of_bind_eq_ok h
      split at h
      · cases h
      · exact ih hrest (List.forall_mem_nil _) h hr
    | cons t items =>
      obtain ⟨r₁, hread, h⟩ := exists_of_bind_eq_ok h
      exact ih hrest (fun u hu => hitems u (List.mem_cons_of_mem _ hu)) h
        (hfield f List.mem_cons_self t (hitems t List.mem_cons_self) r r₁ hread hr)

/-- What holds of the record from which reading starts, and is kept by every field, holds of the
record that is read. -/
theorem read_invariant (hinitial : Inv s.initial)
    (hfield : ∀ f ∈ s.fields, ∀ t : Tree, t.Fits room → ∀ r r', f.read t r = .ok r' →
      Inv r → Inv r')
    {t : Tree} (ht : t.Fits (room + 1)) {r : ρ} (h : s.read t = .ok r) : Inv r := by
  cases ht with
  | scalar => cases h
  | arr hitems => exact readItems_invariant Inv hfield hitems h hinitial
  | obj hmembers =>
    obtain ⟨⟨r', seen⟩, hread, h⟩ := exists_of_bind_eq_ok h
    obtain ⟨⟨⟩, -, h⟩ := exists_of_bind_eq_ok h
    obtain ⟨⟨⟩, -, h⟩ := exists_of_bind_eq_ok h
    obtain rfl := Except.ok.inj h
    refine readFields_invariant Inv hfield (fun k t r r' hskip hr => ?_) hmembers hread hinitial
    obtain ⟨⟨⟩, -, hskip⟩ := exists_of_bind_eq_ok hskip
    exact Except.ok.inj hskip ▸ hr
  | @unreadable _ _ inner => cases inner <;> cases h
  | broken => cases h

end

end Shape

end Provisioner.Json
