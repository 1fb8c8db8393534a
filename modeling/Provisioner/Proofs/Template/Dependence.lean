import Provisioner.Proofs.Template.Unclosed

/-!
# What a template depends on

Only the variables that a template refers to decide what becomes of it.  They are the names that a
scan meets in references; a name in the text of a malformed reference is not among them.

* `RefersTo` says which variables these are.
* `resolveChars_of_agree`: sources that agree on them lead to one result, and to one error.
* `exists_resolveChars_iff` says which of them need a value.  What the value is does not matter,
  and it may be empty.
* `resolve_of_references`: more variables with a value never make a template fail.
-/

namespace Provisioner.Template

/-- A variable that a reference among what is met names, as `$N`, `${N}` or `${N:-d}`. -/
def Names (sights : List Sight) (name : String) : Prop :=
  isName name.toList = true ∧
    ∃ fallback?, Sight.piece (.reference name.toList fallback?) ∈ sights

/-- A variable that a reference in a template names. -/
def RefersTo (t : Template) (name : String) : Prop :=
  ∃ sights, Skims t.text.toList sights ∧ Names sights name

theorem names_ofList {sights : List Sight} {name : List Char} {fallback? : Option (List Char)}
    (hname : isName name = true) (h : Sight.piece (.reference name fallback?) ∈ sights) :
    Names sights (String.ofList name) := by
  rw [Names, String.toList_ofList]
  exact ⟨hname, fallback?, h⟩

theorem Names.cons {sights : List Sight} {name : String} (h : Names sights name) (s : Sight) :
    Names (s :: sights) name := by
  obtain ⟨hname, fallback?, hmem⟩ := h
  exact ⟨hname, fallback?, List.mem_cons_of_mem s hmem⟩

variable {template : String} {lookup lookup' : Lookup}

/-! ## Sources that agree -/

theorem Stands.of_agree {p : Piece} {answer : Except TemplateError (List Char)}
    (h : Stands template lookup p answer)
    (hagree : ∀ name, Names [.piece p] name → lookup name = lookup' name) :
    Stands template lookup' p answer := by
  have hsame : ∀ {name : List Char} {fallback? : Option (List Char)}, isName name = true →
      p = .reference name fallback? →
      lookup (String.ofList name) = lookup' (String.ofList name) := by
    rintro name fallback? hname rfl
    exact hagree _ (names_ofList hname List.mem_cons_self)
  cases h with
  | copy => exact .copy
  | dollar => exact .dollar
  | malformed hname => exact .malformed hname
  | value hname hvalue => exact .value hname (hsame hname rfl ▸ hvalue)
  | unresolved hname hvalue => exact .unresolved hname (hsame hname rfl ▸ hvalue)
  | present hname hvalue hne => exact .present hname (hsame hname rfl ▸ hvalue) hne
  | fallback hname hvalue => exact .fallback hname (hsame hname rfl ▸ hvalue)

/-- Sources that agree on the variables that are met fill in alike, and fail alike. -/
theorem resolveChars_of_agree {cs : List Char} {sights : List Sight} (h : Skims cs sights)
    (hagree : ∀ name, Names sights name → lookup name = lookup' name) :
    resolveChars template lookup cs = resolveChars template lookup' cs := by
  induction h with
  | nil => rw [resolveChars_nil, resolveChars_nil]
  | @piece cs rest p sights hreads _ ih =>
    obtain ⟨answer, hstands⟩ := exists_stands template lookup p
    have hstands' : Stands template lookup' p answer := by
      refine hstands.of_agree fun name hname => hagree name ?_
      obtain ⟨hname, fallback?, hmem⟩ := hname
      exact ⟨hname, fallback?, List.mem_singleton.1 hmem ▸ List.mem_cons_self⟩
    rw [resolveChars_of_reads hreads hstands, resolveChars_of_reads hreads hstands',
      ih fun name hname => hagree name (hname.cons _)]
  | @opening rest sights hopen _ ih =>
    by_cases hmarks : (split ('\x7b' :: rest)).marks = []
    · rw [resolveChars_of_unclosed_last hopen hmarks, resolveChars_of_unclosed_last hopen hmarks]
    · rw [resolveChars_of_unclosed hopen hmarks, resolveChars_of_unclosed hopen hmarks,
        ih fun name hname => hagree name (hname.cons _)]

/-! ## Which variables need a value -/

/-- Only a reference can fail: by its name, or without a fallback by a variable that is unset. -/
theorem exists_shows_iff (template : String) (lookup : Lookup) (s : Sight) :
    (∃ text, Shows template lookup s text) ↔
      ∀ name fallback?, s = .piece (.reference name fallback?) →
        isName name = true ∧ (fallback? = none → (lookup (String.ofList name)).isSome) := by
  constructor
  · rintro ⟨text, hshows⟩ name fallback? rfl
    cases hshows with
    | piece hstands =>
    cases hstands with
    | value hname hvalue => exact ⟨hname, fun _ => Option.isSome_of_mem hvalue⟩
    | present hname => exact ⟨hname, nofun⟩
    | fallback hname => exact ⟨hname, nofun⟩
  · intro hgood
    cases s with
    | opening => exact ⟨_, .opening⟩
    | piece p =>
      obtain ⟨answer, hstands⟩ := exists_stands template lookup p
      cases hstands with
      | malformed hname => cases hname.symm.trans (hgood _ _ rfl).1
      | unresolved _ hnone =>
        have hsome := (hgood _ _ rfl).2 rfl
        rw [hnone] at hsome
        cases hsome
      | copy => exact ⟨_, .piece .copy⟩
      | dollar => exact ⟨_, .piece .dollar⟩
      | value hname hvalue => exact ⟨_, .piece (.value hname hvalue)⟩
      | present hname hvalue hne => exact ⟨_, .piece (.present hname hvalue hne)⟩
      | fallback hname hvalue => exact ⟨_, .piece (.fallback hname hvalue)⟩

theorem exists_texts_iff (template : String) (lookup : Lookup) (sights : List Sight) :
    (∃ texts, List.Forall₂ (Shows template lookup) sights texts) ↔
      ∀ s ∈ sights, ∃ text, Shows template lookup s text := by
  refine ⟨fun ⟨texts, htexts⟩ s hs => exists_shows_of_mem htexts hs, fun h => ?_⟩
  induction sights with
  | nil => exact ⟨[], .nil⟩
  | cons s sights ih =>
    obtain ⟨⟨text, hshows⟩, hsights⟩ := List.forall_mem_cons.1 h
    obtain ⟨texts, htexts⟩ := ih hsights
    exact ⟨text :: texts, .cons hshows htexts⟩

/-- A template can be filled in if its openings are sheltered, every reference names a variable,
and the variables of the references without a fallback have values. -/
theorem exists_resolveChars_iff {cs : List Char} {sights : List Sight} (h : Skims cs sights) :
    (∃ out, resolveChars template lookup cs = .ok out) ↔
      Sheltered sights ∧ ∀ name fallback?, Sight.piece (.reference name fallback?) ∈ sights →
        isName name = true ∧ (fallback? = none → (lookup (String.ofList name)).isSome) := by
  have hok : (∃ out, resolveChars template lookup cs = .ok out) ↔
      Sheltered sights ∧ ∃ texts, List.Forall₂ (Shows template lookup) sights texts := by
    simp only [resolveChars_eq_ok_iff h]
    exact ⟨fun ⟨_, hshelter, texts, htexts, _⟩ => ⟨hshelter, texts, htexts⟩,
      fun ⟨hshelter, texts, htexts⟩ => ⟨_, hshelter, texts, htexts, rfl⟩⟩
  rw [hok, exists_texts_iff]
  simp only [exists_shows_iff]
  refine and_congr_right fun _ => ⟨?_, ?_⟩
  · intro hgood name fallback? hmem
    exact hgood _ hmem name fallback? rfl
  · rintro hgood s hs name fallback? rfl
    exact hgood name fallback? hs

/-! ## Templates -/

/-- A template has one result under all sources that agree on the variables it refers to, errors
included.  If it can be filled in, it still can be when more of these variables have values. -/
theorem resolve_of_references (t : Template) (lookup lookup' : Lookup) :
    ((∀ name, t.RefersTo name → lookup name = lookup' name) →
      t.resolve lookup = t.resolve lookup') ∧
    ((∀ name value, t.RefersTo name → lookup name = some value → lookup' name = some value) →
      (∃ out, t.resolve lookup = .ok out) → ∃ out, t.resolve lookup' = .ok out) := by
  obtain ⟨sights, hskims⟩ := exists_skims t.text.toList
  refine ⟨fun hagree => ?agree, fun hextends => ?more⟩
  case agree =>
    rw [resolve, resolve, resolveChars_of_agree hskims fun name hname =>
      hagree name ⟨sights, hskims, hname⟩]
  case more =>
    rintro ⟨out, hout⟩
    obtain ⟨hshelter, hgood⟩ :=
      (exists_resolveChars_iff hskims).1 ⟨_, resolve_eq_ok_iff.1 hout⟩
    have hgood' : ∀ name fallback?, Sight.piece (.reference name fallback?) ∈ sights →
        isName name = true ∧ (fallback? = none → (lookup' (String.ofList name)).isSome) := by
      intro name fallback? hmem
      obtain ⟨hname, hvalue⟩ := hgood name fallback? hmem
      refine ⟨hname, fun hnone => ?_⟩
      obtain ⟨value, hsome⟩ := Option.isSome_iff_exists.1 (hvalue hnone)
      rw [hextends _ value ⟨sights, hskims, names_ofList hname hmem⟩ hsome]
      rfl
    obtain ⟨filled, hfilled⟩ := (exists_resolveChars_iff hskims).2 ⟨hshelter, hgood'⟩
    refine ⟨String.ofList filled, resolve_eq_ok_iff.2 ?_⟩
    rw [hfilled, String.toList_ofList]

/-- A template with a variable that has to be set and one that does not, under sources that agree
on both, and under one in which the second variable has a value as well. -/
theorem resolve_of_references_optional :
    let t : Template := ⟨"$A-$\x7bB:-b\x7d"⟩
    let lookup : Lookup := fun name => if name = "A" then some "1" else none
    let other : Lookup := fun name => if name = "A" then some "1" else
      if name = "B" then none else some "2"
    let more : Lookup := fun name => if name = "A" then some "1" else some "2"
    t.resolve lookup = t.resolve other ∧ (∃ out, t.resolve more = .ok out) ∧
      t.resolve lookup ≠ t.resolve more := by
  intro t lookup other more
  let sights : List Sight :=
    [.piece (.reference ['A'] none), .piece (.copy '-'), .piece (.reference ['B'] (some ['b']))]
  have hskims : Skims t.text.toList sights := by
    have htext : t.text.toList = ['$', 'A', '-', '$', '\x7b', 'B', ':', '-', 'b', '\x7d'] := by
      decide
    rw [htext]
    have hend : ∀ c ∈ ['-', '$', '\x7b', 'B', ':', '-', 'b', '\x7d'].head?,
        isNameChar c = false := by
      rintro c ⟨⟩
      rfl
    refine .piece (@Reads.bare ['A'] _ rfl hend) (.piece (.copy (by decide)) (.piece ?_ .nil))
    exact @Reads.braced ['B', ':', '-', 'b'] [] _ _ (by decide) (.cut rfl (by decide))
  have hrefers : ∀ name, t.RefersTo name → name = "A" ∨ name = "B" := by
    rintro name ⟨sights', hskims', -, fallback?, hmem⟩
    obtain rfl := hskims'.unique hskims
    simp only [sights, List.mem_cons, Sight.piece.injEq, Piece.reference.injEq, reduceCtorEq,
      List.not_mem_nil, or_false, false_or] at hmem
    rcases hmem with ⟨hA, -⟩ | ⟨hB, -⟩
    · exact .inl (String.toList_inj.1 hA)
    · exact .inr (String.toList_inj.1 hB)
  have hlookup : t.resolve lookup = .ok "1-b" := by decide +kernel
  have hagree : ∀ name, t.RefersTo name → lookup name = other name := by
    intro name hname
    rcases hrefers name hname with rfl | rfl <;> rfl
  have hextends : ∀ name value, t.RefersTo name → lookup name = some value →
      more name = some value := by
    intro name value hname hvalue
    rcases hrefers name hname with rfl | rfl
    · exact hvalue
    · cases hvalue
  exact ⟨(resolve_of_references t lookup other).1 hagree,
    (resolve_of_references t lookup more).2 hextends ⟨_, hlookup⟩, by decide +kernel⟩

end Provisioner.Template
