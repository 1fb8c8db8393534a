import Provisioner.Proofs.Json.Records

/-!
# Records that keep what they do not know

A record that keeps the members of unknown names is written with its fields first and what it keeps
after them.

* `Faithful` says of a reader that the value of a tree is found again in what it reads.
* `OpenRecord` is a record type of this sort: its shape, what is written for its fields, what it
  keeps, and the laws between them.
* `OpenRecord.Holds` says what a record holds of the members that were read so far: `holds_field`
  and `holds_other` read one member more, `holds_readFields` reads several.
* `OpenRecord.keeps_of_decode` says that nothing of an object is lost, and `returns_of_decode` that
  what was decoded comes back from its own encoding.
-/

namespace Provisioner.Json

variable {α ρ : Type}

/-! ## Readers that lose nothing -/

/-- What a reader finds in a tree is all there is: its encoding is the value of the tree, and it is
found in every tree of that value. -/
structure Faithful (read : Tree → Except Fault α) (encode : α → Json) : Prop where
  value : ∀ {t a}, read t = .ok a → t.value = .ok (encode a)
  reads : ∀ {t a}, read t = .ok a → Reads read (encode a) a

theorem faithful_readText (expected : String) : Faithful (readText expected) .str := by
  have hread : ∀ {t s}, readText expected t = .ok s →
      ∃ start stop, t = .scalar start stop (.str s) := by
    intro t s h
    unfold readText at h
    split at h
    · obtain rfl := Except.ok.inj h
      exact ⟨_, _, rfl⟩
    · cases h
  refine ⟨fun h => ?_, fun _ => reads_text expected _⟩
  obtain ⟨start, stop, rfl⟩ := hread h
  rfl

theorem readInt_eq_ok {low high : Int} {expected : String} {t : Tree} {n : Int}
    (h : readInt low high expected t = .ok n) :
    (∃ start stop, t = .scalar start stop (.num (.whole n))) ∧ low ≤ n ∧ n ≤ high := by
  unfold readInt at h
  split at h
  · split at h
    · next hbounds =>
      obtain rfl := Except.ok.inj h
      exact ⟨⟨_, _, rfl⟩, hbounds⟩
    · cases h
  · cases h

theorem faithful_readUInt32 : Faithful readUInt32 (fun n => .int n) := by
  have hread : ∀ {t n}, readUInt32 t = .ok n →
      (∃ start stop, t = .scalar start stop (.num (.whole n))) ∧ (n : Int) ≤ 0xFFFFFFFF := by
    intro t n h
    obtain ⟨i, hi, rfl⟩ := exists_of_map_eq_ok h
    obtain ⟨ht, hlow, hhigh⟩ := readInt_eq_ok hi
    rw [Int.toNat_of_nonneg hlow]
    exact ⟨ht, hhigh⟩
  refine ⟨fun h => ?_, fun h => ?_⟩
  · obtain ⟨⟨start, stop, rfl⟩, -⟩ := hread h
    rfl
  · obtain ⟨-, hhigh⟩ := hread h
    rintro _ ⟨⟩
    rw [readUInt32, readInt, if_pos ⟨Int.natCast_nonneg _, hhigh⟩]
    rfl

theorem readEach_eq_ok {read : Tree → Except Fault α} {encode : α → Json}
    (hread : Faithful read encode) {members : List (Key × Tree)} {es : List (String × α)}
    (h : readEach read members = .ok es) :
    Tree.valueMembers members = .ok (es.map fun e => (e.1, encode e.2)) ∧
      ∀ e ∈ es, Reads read (encode e.2) e.2 := by
  induction members generalizing es with
  | nil =>
    obtain rfl := Except.ok.inj h
    exact ⟨rfl, List.forall_mem_nil _⟩
  | cons member members ih =>
    obtain ⟨k, t⟩ := member
    obtain ⟨⟨⟩, hk, h⟩ := exists_of_bind_eq_ok h
    obtain ⟨a, ha, h⟩ := exists_of_bind_eq_ok h
    obtain ⟨es', hes', h⟩ := exists_of_bind_eq_ok h
    obtain rfl := Except.ok.inj h
    obtain ⟨hvalue, hreads⟩ := ih hes'
    refine ⟨?_, List.forall_mem_cons.2 ⟨hread.reads ha, hreads⟩⟩
    rw [Tree.valueMembers, hk, hread.value ha, hvalue]
    rfl

theorem Faithful.readMap {read : Tree → Except Fault α} {encode : α → Json}
    (hread : Faithful read encode) :
    Faithful (readMap read) fun m => .obj (m.entries.map fun e => (e.1, encode e.2)) := by
  have hmap : ∀ {t m}, Json.readMap read t = .ok m →
      ∃ start stop members es, t = .obj start stop members none ∧
        readEach read members = .ok es ∧ m = KeyMap.ofList es := by
    intro t m h
    obtain ⟨es, hpairs, rfl⟩ := exists_of_map_eq_ok h
    unfold Json.readPairs at hpairs
    split at hpairs
    · obtain ⟨es', hes, hpairs⟩ := exists_of_bind_eq_ok hpairs
      obtain ⟨⟨⟩, htail, hpairs⟩ := exists_of_bind_eq_ok hpairs
      obtain rfl := Except.ok.inj hpairs
      obtain rfl := Tree.unlessFault_eq_ok htail
      exact ⟨_, _, _, _, rfl, hes, rfl⟩
    · cases hpairs
    · cases hpairs
  refine ⟨fun h => ?_, fun h => reads_map ?_⟩
  · obtain ⟨start, stop, members, es, rfl, hes, rfl⟩ := hmap h
    rw [Tree.value, (readEach_eq_ok hread hes).1]
    exact congrArg (fun ms => Except.ok (Json.obj ms))
      (KeyMap.entries_insertAll_map encode KeyMap.empty rfl es)
  · obtain ⟨start, stop, members, es, rfl, hes, rfl⟩ := hmap h
    exact fun e he => (readEach_eq_ok hread hes).2 e (KeyMap.mem_of_mem_ofList he)

theorem Faithful.readOptional {read : Tree → Except Fault α} {encode : α → Json}
    {encodeOption : Option α → Json} (hread : Faithful read encode)
    (hnone : encodeOption none = .null) (hsome : ∀ a, encodeOption (some a) = encode a)
    (hne : ∀ a, encode a ≠ .null) : Faithful (readOptional read) encodeOption := by
  have hoption : ∀ {t o}, Json.readOptional read t = .ok o →
      (o = none ∧ ∃ start stop, t = .scalar start stop .null) ∨
        ∃ a, o = some a ∧ read t = .ok a := by
    intro t o h
    unfold Json.readOptional at h
    split at h
    · exact .inl ⟨(Except.ok.inj h).symm, _, _, rfl⟩
    · obtain ⟨a, ha, rfl⟩ := exists_of_map_eq_ok h
      exact .inr ⟨a, rfl, ha⟩
  refine ⟨fun h => ?_, fun h => ?_⟩
  · obtain ⟨rfl, start, stop, rfl⟩ | ⟨a, rfl, ha⟩ := hoption h
    · rw [hnone]
      rfl
    · rw [hsome]
      exact hread.value ha
  · obtain ⟨rfl, -⟩ | ⟨a, rfl, ha⟩ := hoption h
    · rw [hnone]
      exact reads_optional_null read
    · rw [hsome]
      exact (hread.reads ha).optional (hne a)

/-! ## Members of objects -/

theorem member?_obj (name : String) (ms : List (String × Json)) :
    (Json.obj ms).member? name = ms.reverse.lookup name := by
  show (ms.reverse.find? fun m => m.1 == name).map Prod.snd = _
  induction ms.reverse with
  | nil => rfl
  | cons m rest ih =>
    rw [List.find?_cons, List.lookup_cons, ← ih, BEq.comm]
    cases name == m.1 <;> rfl

theorem member?_append (name : String) (ms ms' : List (String × Json)) :
    (Json.obj (ms ++ ms')).member? name =
      ((Json.obj ms').member? name).or ((Json.obj ms).member? name) := by
  simp only [member?_obj, List.reverse_append, List.lookup_append]

theorem member?_append_singleton (name k : String) (v : Json) (ms : List (String × Json)) :
    (Json.obj (ms ++ [(k, v)])).member? name =
      if name = k then some v else (Json.obj ms).member? name := by
  rw [member?_append, member?_obj, List.reverse_singleton, List.lookup_cons]
  by_cases h : name = k
  · simp [h]
  · simp [h, beq_eq_false_iff_ne.2 h]

theorem mem_of_member? {name : String} {v : Json} {ms : List (String × Json)}
    (h : (Json.obj ms).member? name = some v) : (name, v) ∈ ms := by
  obtain ⟨m, hm, rfl⟩ := Option.map_eq_some_iff.1 h
  have hname := List.find?_some hm
  obtain rfl : m.1 = name := eq_of_beq hname
  exact List.mem_reverse.1 (List.mem_of_find?_eq_some hm)

theorem member?_entries (name : String) (m : KeyMap Json) :
    (Json.obj m.entries).member? name = m.get? name :=
  (member?_obj name m.entries).trans (m.lookup_reverse_entries name)

/-- The value of a member, and null if there is none. -/
def given (ms : List (String × Json)) (name : String) : Json :=
  ((Json.obj ms).member? name).getD .null

theorem given_append_singleton (name k : String) (v : Json) (ms : List (String × Json)) :
    given (ms ++ [(k, v)]) name = if name = k then v else given ms name := by
  rw [given, member?_append_singleton]
  split <;> rfl

/-- The tree of an object that can be read, with the values of its members as they stand. -/
def Tree.Lists (t : Tree) (ms : List (String × Json)) : Prop :=
  ∃ start stop members, t = .obj start stop members none ∧ Tree.valueMembers members = .ok ms

theorem Tree.Lists.ordered {t : Tree} {ms : List (String × Json)} (h : t.Lists ms) :
    ∀ m ∈ ms, m.2.Ordered := by
  obtain ⟨_, _, members, -, hms⟩ := h
  exact ordered_valueMembers members hms

/-! ## Records -/

/-- A field that can be read from every tree of a value. -/
def Field.Accepts (f : Field ρ) (v : Json) : Prop :=
  ∀ t, t.Says v → ∀ r, ∃ r', f.read t r = .ok r'

/-- A field that has its value at a place among what is written for the fields of a record. -/
structure Field.Stores (known : ρ → List (String × Json)) (extra : ρ → KeyMap Json) (place : Nat)
    (f : Field ρ) : Prop where
  accepts_null : f.Accepts .null
  read : ∀ {t r r'}, f.read t r = .ok r' → ∃ v, t.value = .ok v ∧ f.Accepts v ∧
    known r' = (known r).set place (f.name, v) ∧ extra r' = extra r

/-- Fields that have their values one after the other, from a place on. -/
inductive StoresAll (known : ρ → List (String × Json)) (extra : ρ → KeyMap Json) :
    Nat → List (Field ρ) → Prop
  | nil {place : Nat} : StoresAll known extra place []
  | cons {place : Nat} {f : Field ρ} {fs : List (Field ρ)} (h : f.Stores known extra place)
    (hrest : StoresAll known extra (place + 1) fs) : StoresAll known extra place (f :: fs)

section

variable {known : ρ → List (String × Json)} {extra : ρ → KeyMap Json} {place : Nat}

theorem StoresAll.of_getElem? {fs : List (Field ρ)} (h : StoresAll known extra place fs) {i : Nat}
    {f : Field ρ} (hf : fs[i]? = some f) : f.Stores known extra (place + i) := by
  induction h generalizing i with
  | nil => cases hf
  | cons h hrest ih =>
    cases i with
    | zero => exact Option.some.inj hf ▸ h
    | succ i =>
      rw [Nat.add_comm i 1, ← Nat.add_assoc]
      exact ih hf

/-- A field for a value that may be null. -/
theorem Faithful.stores {read : Tree → Except Fault α} {encode : Option α → Json} {name : String}
    {required : Bool} {set : Option α → ρ → ρ} (hread : Faithful (Json.readOptional read) encode)
    (hknown : ∀ a r, known (set a r) = (known r).set place (name, encode a) := by intros; rfl)
    (hextra : ∀ a r, extra (set a r) = extra r := by intros; rfl) :
    Field.Stores known extra place
      ⟨name, required, fun t r => do return set (← Json.readOptional read t) r⟩ where
  accepts_null t ht r := ⟨_, (reads_optional_null read).store (set · r) t ht⟩
  read h := by
    obtain ⟨a, ha, h⟩ := exists_of_bind_eq_ok h
    obtain rfl := Except.ok.inj h
    exact ⟨encode a, hread.value ha, fun t ht r => ⟨_, (hread.reads ha).store (set · r) t ht⟩,
      hknown a _, hextra a _⟩

end

/-- A type of records that keep the members of unknown names: what is written for the fields of a
record, and what it keeps. -/
structure OpenRecord (ρ : Type) where
  shape : Shape ρ
  keep : String → Json → ρ → ρ
  known : ρ → List (String × Json)
  extra : ρ → KeyMap Json
  distinct : shape.Distinct
  optional : ∀ f ∈ shape.fields, f.required = false
  known_initial : known shape.initial = shape.fields.map fun f => (f.name, .null)
  extra_initial : extra shape.initial = .empty
  stores : StoresAll known extra 0 shape.fields
  known_keep : ∀ name v r, known (keep name v r) = known r
  extra_keep : ∀ name v r, extra (keep name v r) = (extra r).insert name v
  ext : ∀ {r r'}, known r = known r' → extra r = extra r' → r = r'

namespace OpenRecord

/-- The names of the fields. -/
def names (L : OpenRecord ρ) : List String :=
  L.shape.fields.map Field.name

theorem mem_names {L : OpenRecord ρ} {f : Field ρ} (hf : f ∈ L.shape.fields) : f.name ∈ L.names :=
  List.mem_map_of_mem hf

/-- Reads a record. -/
def decode (L : OpenRecord ρ) (t : Tree) : Except Fault ρ :=
  L.shape.readOpen L.keep t

/-- The JSON form of a record. -/
def encode (L : OpenRecord ρ) (r : ρ) : Json :=
  .obj (L.known r ++ (L.extra r).entries)

theorem checkMissing_eq_ok (L : OpenRecord ρ) (seen : List String) (stop : Nat) :
    L.shape.checkMissing seen stop = .ok () :=
  Shape.checkMissing_eq_ok stop fun f hf hrequired =>
    absurd hrequired (Bool.eq_false_iff.1 (L.optional f hf))

variable {L : OpenRecord ρ} {ms : List (String × Json)} {r r' : ρ}

/-- An object is read when its members are. -/
theorem decode_obj {start stop : Nat} {members : List (Key × Tree)} {seen : List String}
    (h : L.shape.readFields (fun k t r => do return L.keep k.name (← t.value) r)
      members [] L.shape.initial = .ok (r, seen)) :
    L.decode (.obj start stop members none) = .ok r := by
  rw [decode, Shape.readOpen, h]
  show (L.shape.checkMissing seen stop >>= fun _ => pure r) = .ok r
  rw [L.checkMissing_eq_ok]
  rfl

/-- What a record holds after those members were read. -/
structure Holds (L : OpenRecord ρ) (ms : List (String × Json)) (r : ρ) : Prop where
  known : L.known r = L.shape.fields.map fun f => (f.name, given ms f.name)
  accepts : ∀ f ∈ L.shape.fields, f.Accepts (given ms f.name)
  extra : ∀ name, (L.extra r).get? name =
    if name ∈ L.names then none else (Json.obj ms).member? name

theorem holds_initial (L : OpenRecord ρ) : L.Holds [] L.shape.initial where
  known := L.known_initial
  accepts f hf := by
    obtain ⟨i, hi⟩ := List.mem_iff_getElem?.1 hf
    exact (L.stores.of_getElem? hi).accepts_null
  extra name := by
    rw [L.extra_initial]
    exact (ite_self none).symm

/-- Of entries with different names the one at a place is replaced by its name. -/
theorem set_map_eq_map {fs : List (Field ρ)} (hnodup : (fs.map Field.name).Nodup) {i : Nat}
    {f : Field ρ} (hi : fs[i]? = some f) (value : String → Json) (v : Json) :
    (fs.map fun g => (g.name, value g.name)).set i (f.name, v) =
      fs.map fun g => (g.name, if g.name = f.name then v else value g.name) := by
  induction fs generalizing i with
  | nil => cases hi
  | cons g fs ih =>
    obtain ⟨hnot, hnodup⟩ := List.nodup_cons.1 hnodup
    cases i with
    | zero =>
      obtain rfl := Option.some.inj hi
      rw [List.map_cons, List.set_cons_zero, List.map_cons, if_pos rfl]
      refine congrArg _ (List.map_congr_left fun f hf => ?_)
      have hne : f.name ≠ g.name := fun heq => hnot (heq ▸ List.mem_map_of_mem hf)
      rw [if_neg hne]
    | succ i =>
      have hf : f ∈ fs := List.mem_of_getElem? hi
      have hne : g.name ≠ f.name := fun heq => hnot (heq ▸ List.mem_map_of_mem hf)
      rw [List.map_cons, List.set_cons_succ, List.map_cons, if_neg hne, ih hnodup hi]

theorem holds_field (h : L.Holds ms r) {f : Field ρ} (hf : f ∈ L.shape.fields) {t : Tree}
    (hread : f.read t r = .ok r') :
    ∃ v, t.value = .ok v ∧ L.Holds (ms ++ [(f.name, v)]) r' := by
  obtain ⟨i, hi⟩ := List.mem_iff_getElem?.1 hf
  obtain ⟨v, hv, haccepts, hknown, hextra⟩ := (L.stores.of_getElem? hi).read hread
  refine ⟨v, hv, ?_, fun g hg => ?_, fun name => ?_⟩
  · rw [hknown, h.known, Nat.zero_add, set_map_eq_map L.distinct hi]
    simp only [given_append_singleton]
  · rw [given_append_singleton]
    split
    · next heq =>
      obtain rfl : g = f := List.inj_on_of_nodup_map L.distinct hg hf heq
      exact haccepts
    · exact h.accepts g hg
  · rw [hextra, h.extra, member?_append_singleton]
    by_cases hname : name ∈ L.names
    · rw [if_pos hname, if_pos hname]
    · have hne : name ≠ f.name := fun heq => hname (heq ▸ mem_names hf)
      rw [if_neg hname, if_neg hname, if_neg hne]

theorem holds_other (h : L.Holds ms r) {name : String} (hname : name ∉ L.names) (v : Json) :
    L.Holds (ms ++ [(name, v)]) (L.keep name v r) := by
  have hne : ∀ f ∈ L.shape.fields, f.name ≠ name :=
    fun f hf heq => hname (heq ▸ mem_names hf)
  refine ⟨?_, fun f hf => ?_, fun other => ?_⟩
  · rw [L.known_keep, h.known]
    refine List.map_congr_left fun f hf => ?_
    rw [given_append_singleton, if_neg (hne f hf)]
  · rw [given_append_singleton, if_neg (hne f hf)]
    exact h.accepts f hf
  · rw [L.extra_keep, KeyMap.get?_insert, h.extra, member?_append_singleton]
    by_cases heq : other = name
    · rw [if_pos heq, if_pos heq, if_neg (heq ▸ hname)]
    · rw [if_neg heq, if_neg heq]

/-- Reading members goes on from what a record holds. -/
theorem holds_readFields {members : List (Key × Tree)} {seen seen' : List String}
    (hread : L.shape.readFields (fun k t r => do return L.keep k.name (← t.value) r)
      members seen r = .ok (r', seen')) (h : L.Holds ms r) :
    ∃ ms', Tree.valueMembers members = .ok ms' ∧ L.Holds (ms ++ ms') r' := by
  induction members generalizing seen r ms with
  | nil =>
    obtain ⟨rfl, -⟩ := Prod.mk.inj (Except.ok.inj hread)
    exact ⟨[], rfl, (List.append_nil ms).symm ▸ h⟩
  | cons member members ih =>
    obtain ⟨k, t⟩ := member
    obtain ⟨⟨⟩, hk, hread⟩ := exists_of_bind_eq_ok hread
    -- What one member does to the record, whether it is a field or not.
    obtain ⟨v, r₁, seen₁, hv, hr₁, hread⟩ : ∃ v r₁ seen₁, t.value = .ok v ∧
        L.Holds (ms ++ [(k.name, v)]) r₁ ∧ L.shape.readFields
          (fun k t r => do return L.keep k.name (← t.value) r) members seen₁ r₁ =
            .ok (r', seen') := by
      split at hread
      · next hnone =>
        obtain ⟨r₁, hother, hread⟩ := exists_of_bind_eq_ok hread
        obtain ⟨v, hv, hother⟩ := exists_of_bind_eq_ok hother
        obtain rfl := Except.ok.inj hother
        exact ⟨v, _, _, hv, holds_other h (Shape.field?_eq_none.1 hnone) v, hread⟩
      · next f hsome =>
        obtain ⟨hf, hname⟩ := Shape.field?_eq_some hsome
        split at hread
        · cases hread
        · obtain ⟨r₁, hfield, hread⟩ := exists_of_bind_eq_ok hread
          obtain ⟨v, hv, hr₁⟩ := holds_field h hf hfield
          exact ⟨v, r₁, _, hv, hname ▸ hr₁, hread⟩
    obtain ⟨ms', hms', hr'⟩ := ih hread hr₁
    refine ⟨(k.name, v) :: ms', ?_, List.append_cons ms _ ms' ▸ hr'⟩
    rw [Tree.valueMembers, hk, hv, hms']
    rfl

/-- A record that was decoded holds what its object lists. -/
theorem exists_holds_of_decode {t : Tree} (h : L.decode t = .ok r) :
    ∃ ms, t.Lists ms ∧ L.Holds ms r := by
  unfold decode Shape.readOpen at h
  split at h
  · obtain ⟨⟨r', seen⟩, hread, h⟩ := exists_of_bind_eq_ok h
    obtain ⟨⟨⟩, htail, h⟩ := exists_of_bind_eq_ok h
    obtain ⟨⟨⟩, -, h⟩ := exists_of_bind_eq_ok h
    obtain rfl := Except.ok.inj h
    obtain rfl := Tree.unlessFault_eq_ok htail
    obtain ⟨ms, hms, hholds⟩ := holds_readFields hread (holds_initial L)
    exact ⟨ms, ⟨_, _, _, rfl, hms⟩, hholds⟩
  · cases h
  · cases h

/-! ## What becomes of the members -/

/-- The members of a record that holds what was read, in the order in which they are written. -/
theorem Holds.keys (h : L.Holds ms r) :
    (L.known r ++ (L.extra r).entries).map Prod.fst =
      L.names ++ (L.extra r).entries.map Prod.fst := by
  rw [List.map_append, h.known, List.map_map]
  rfl

theorem Holds.keys_nodup (h : L.Holds ms r) :
    ((L.known r ++ (L.extra r).entries).map Prod.fst).Nodup := by
  rw [h.keys]
  refine List.nodup_append.2 ⟨L.distinct, (L.extra r).keys_nodup, fun name hname key hkey heq => ?_⟩
  subst heq
  obtain ⟨e, he, rfl⟩ := List.mem_map.1 hkey
  have hget : (L.extra r).get? e.1 = some e.2 := KeyMap.get?_of_mem he
  rw [h.extra, if_pos hname] at hget
  cases hget

/-- The members that are written: the fields with what was given for them, and all others. -/
theorem Holds.member? (h : L.Holds ms r) (name : String) :
    (L.encode r).member? name =
      if name ∈ L.names then some (given ms name) else (Json.obj ms).member? name := by
  rw [encode, member?_append, member?_entries, h.extra]
  by_cases hname : name ∈ L.names
  · have hmem : (name, given ms name) ∈ L.known r := by
      obtain ⟨f, hf, rfl⟩ := List.mem_map.1 hname
      rw [h.known]
      exact List.mem_map_of_mem hf
    have hnodup : ((L.known r).map Prod.fst).Nodup := by
      rw [h.known, List.map_map]
      exact L.distinct
    rw [if_pos hname, if_pos hname, Option.none_or, member?_obj]
    exact KeyMap.lookup_reverse_of_mem hnodup hmem
  · have hnone : (Json.obj (L.known r)).member? name = none := by
      rw [member?_obj, h.known]
      refine KeyMap.lookup_reverse_eq_none ?_
      rwa [List.map_map]
    rw [if_neg hname, if_neg hname, hnone, Option.or_none]

theorem Holds.member?_of_mem (h : L.Holds ms r) {m : String × Json}
    (hm : m ∈ L.known r ++ (L.extra r).entries) : (L.encode r).member? m.1 = some m.2 :=
  (member?_obj ..).trans (KeyMap.lookup_reverse_of_mem h.keys_nodup hm)

/-- A member that is written is null or was read. -/
theorem Holds.eq_null_or_mem (h : L.Holds ms r) {m : String × Json}
    (hm : m ∈ L.known r ++ (L.extra r).entries) : m.2 = .null ∨ m ∈ ms := by
  have hmember := h.member?_of_mem hm
  rw [h.member?] at hmember
  split at hmember
  · have hgiven : given ms m.1 = m.2 := Option.some.inj hmember
    cases hfound : (Json.obj ms).member? m.1 with
    | none => exact .inl (by rw [← hgiven, given, hfound]; rfl)
    | some v =>
      rw [given, hfound] at hgiven
      exact .inr (mem_of_member? (hfound.trans (congrArg some hgiven)))
  · exact .inr (mem_of_member? hmember)

theorem Holds.ordered (h : L.Holds ms r) (hms : ∀ m ∈ ms, m.2.Ordered) :
    ∀ m ∈ L.known r ++ (L.extra r).entries, m.2.Ordered := by
  intro m hm
  rcases h.eq_null_or_mem hm with hnull | hmem
  · exact hnull ▸ .null
  · exact hms m hmem

end OpenRecord

/-- What becomes of the members of an object when it is read and written again: a field has the
value that was given last, or null; every other member has the value that was given last; and no
name comes twice, nor does one inside the values. -/
structure KeepsMembers (names : List String) (ms : List (String × Json)) (encoded : Json) :
    Prop where
  field : ∀ name ∈ names, encoded.member? name = some (given ms name)
  other : ∀ name, name ∉ names → encoded.member? name = (Json.obj ms).member? name
  nodup : (encoded.members.map Prod.fst).Nodup
  ordered : ∀ m ∈ encoded.members, m.2.Ordered

namespace OpenRecord

variable {L : OpenRecord ρ} {t : Tree} {r : ρ}

/-- Nothing of an object is lost when it is decoded. -/
theorem keeps_of_decode (h : L.decode t = .ok r) :
    ∃ ms, t.Lists ms ∧ KeepsMembers L.names ms (L.encode r) := by
  obtain ⟨ms, hlists, hr⟩ := exists_holds_of_decode h
  refine ⟨ms, hlists, fun name hname => ?_, fun name hname => ?_, hr.keys_nodup,
    hr.ordered hlists.ordered⟩
  · rw [hr.member?, if_pos hname]
  · rw [hr.member?, if_neg hname]

theorem fits_of_decode {room : Nat} (ht : t.Fits (room + 1)) (h : L.decode t = .ok r) :
    (L.encode r).Fits (room + 1) := by
  obtain ⟨ms, ⟨_, _, members, rfl, hms⟩, hr⟩ := exists_holds_of_decode h
  cases ht with
  | obj ht =>
  refine .obj fun m hm => ?_
  rcases hr.eq_null_or_mem hm with hnull | hmem
  · exact hnull ▸ .null
  · obtain ⟨w, hw, -, -, hv⟩ := Tree.exists_of_mem_forall₂ (Tree.valueMembers_eq_ok hms) hmem
    exact (ht w hw).value hv

/-! ## Reading again what was decoded -/

/-- Members with different names are read if the fields among them are accepted and the others are
in order. -/
theorem exists_readFields_of_accepts {ms : List (String × Json)} {members : List (Key × Tree)}
    (hts : Tree.SaysMembers members ms) (hnodup : (ms.map Prod.fst).Nodup)
    (hms : ∀ m ∈ ms, m.2.Ordered ∧ ∀ f ∈ L.shape.fields, f.name = m.1 → f.Accepts m.2)
    {seen : List String} (hseen : ∀ m ∈ ms, m.1 ∉ seen) (r : ρ) :
    ∃ r' seen', L.shape.readFields (fun k t r => do return L.keep k.name (← t.value) r)
      members seen r = .ok (r', seen') := by
  induction ms generalizing members seen r with
  | nil =>
    cases hts
    exact ⟨r, seen, rfl⟩
  | cons m ms ih =>
    obtain ⟨name, v⟩ := m
    obtain ⟨hnot, hnodup⟩ := List.nodup_cons.1 hnodup
    obtain ⟨⟨hordered, haccepts⟩, hms⟩ := List.forall_mem_cons.1 hms
    obtain ⟨hname, hseen⟩ := List.forall_mem_cons.1 hseen
    cases hts with
    | cons ht hts =>
    cases hfield : L.shape.field? name with
    | none =>
      have hother : (do return L.keep name (← Tree.value _) r : Except Fault ρ) = _ :=
        (reads_value hordered).store (L.keep name · r) _ ht
      rw [Shape.readFields_unknown hfield hother]
      exact ih hts hnodup hms hseen _
    | some f =>
      obtain ⟨hf, hfname⟩ := Shape.field?_eq_some hfield
      obtain ⟨r', hread⟩ := haccepts f hf hfname _ ht r
      rw [Shape.readFields_known hfield hname hread]
      refine ih hts hnodup hms (fun m hm hin => ?_) r'
      rcases List.mem_cons.1 hin with heq | hin
      · exact hnot (List.mem_map.2 ⟨m, hm, heq⟩)
      · exact hseen m hm hin

/-- Two records that hold the same members, read or written, are the same. -/
theorem Holds.eq_of_encoded {ms : List (String × Json)} {r' : ρ} (h : L.Holds ms r)
    (h' : L.Holds (L.known r ++ (L.extra r).entries) r') : r' = r := by
  have hmember : ∀ name, (Json.obj (L.known r ++ (L.extra r).entries)).member? name = _ := h.member?
  refine L.ext (h'.known.trans (Eq.trans ?_ h.known.symm)) (KeyMap.ext_get? fun name => ?_)
  · refine List.map_congr_left fun f hf => ?_
    rw [given, hmember, if_pos (mem_names hf)]
    rfl
  · rw [h'.extra, h.extra, hmember]
    split <;> rfl

/-- The members that are written are accepted when they are read. -/
theorem Holds.accepts_encoded {ms : List (String × Json)} (h : L.Holds ms r) {m : String × Json}
    (hm : m ∈ L.known r ++ (L.extra r).entries) {f : Field ρ} (hf : f ∈ L.shape.fields)
    (hname : f.name = m.1) : f.Accepts m.2 := by
  have hmember := h.member?_of_mem hm
  rw [← hname, h.member?, if_pos (mem_names hf)] at hmember
  exact Option.some.inj hmember ▸ h.accepts f hf

theorem reads_of_decode (h : L.decode t = .ok r) : Reads L.decode (L.encode r) r := by
  intro u hu
  obtain ⟨ms, hlists, hr⟩ := exists_holds_of_decode h
  have hordered := hr.ordered hlists.ordered
  cases hu with
  | @obj start stop members _ hts =>
  obtain ⟨r', seen', hread⟩ := exists_readFields_of_accepts hts hr.keys_nodup
    (fun m hm => ⟨hordered m hm, fun f hf hname => hr.accepts_encoded hm hf hname⟩)
    (fun _ _ => List.not_mem_nil) L.shape.initial
  -- What is read now holds the members that were written, and so what the record holds.
  obtain ⟨ms', hms', hr'⟩ := holds_readFields hread (holds_initial L)
  obtain rfl := Except.ok.inj (hms'.symm.trans (hts.valueMembers _ hordered))
  obtain rfl := hr.eq_of_encoded hr'
  exact decode_obj hread

/-- A record that was decoded comes back from its own encoding. -/
theorem returns_of_decode {room : Nat} (ht : t.Fits (room + 1)) (h : L.decode t = .ok r) :
    Returns (room + 1) L.decode (L.encode r) r :=
  ⟨fits_of_decode ht h, reads_of_decode h⟩

theorem returns_initial (L : OpenRecord ρ) (room : Nat) :
    Returns (room + 1) L.decode (L.encode L.shape.initial) L.shape.initial :=
  returns_of_decode (t := .obj 0 0 [] none) (.obj (List.forall_mem_nil _)) (decode_obj rfl)

end OpenRecord

end Provisioner.Json
