import Provisioner.Proofs.Template.Unclosed

/-!
# What is left of references

The text that a template is filled in with can hold a `${NAME}` again, for fallbacks are copied as
they are, and a reference ends at its first closing brace.  It comes from nowhere else, unless the
template escapes a `$` or a value brings a `$` or a closing brace with it.

* `InFallback` says of a place in the texts of what is met that it is at a `$` of a fallback.
* `placeholder_in_fallback`: every `${…}` of the result begins at such a place.
* `not_forall_without_placeholder`: there can be one.
-/

namespace Provisioner.Template

/-- A source of values without `$` and without closing braces. -/
def PlainValues (lookup : Lookup) : Prop :=
  ∀ name value, lookup name = some value → '$' ∉ value.toList ∧ '\x7d' ∉ value.toList

/-- The place after some characters of the texts of what is met is at a `$` of a fallback that
stands in for its variable. -/
inductive InFallback (lookup : Lookup) : List Sight → List (List Char) → List Char → Prop
  | here {name front back : List Char} {sights : List Sight} {texts : List (List Char)} :
    (lookup (String.ofList name) = none ∨ lookup (String.ofList name) = some "") →
    InFallback lookup (.piece (.reference name (some (front ++ '$' :: back))) :: sights)
      ((front ++ '$' :: back) :: texts) front
  | later {s : Sight} {sights : List Sight} {text before : List Char} {texts : List (List Char)} :
    InFallback lookup sights texts before →
    InFallback lookup (s :: sights) (text :: texts) (text ++ before)

theorem Reads.isSuffix {cs rest : List Char} {p : Piece} (h : Reads cs p rest) : rest <:+ cs := by
  cases h with
  | @copy c => exact ⟨[c], rfl⟩
  | dollar => exact ⟨['$', '$'], rfl⟩
  | @braced body => exact ⟨'$' :: '\x7b' :: (body ++ ['\x7d']), by simp⟩
  | @bare name => exact ⟨'$' :: name, rfl⟩
  | lone => exact ⟨['$'], rfl⟩

section

variable {template : String} {lookup : Lookup} {cs rest text : List Char} {p : Piece}
  {sights : List Sight} {texts : List (List Char)}

/-- A piece in which no brace is closed puts none in its place. -/
theorem Reads.notMem_closing (h : Reads cs p rest) (hcs : '\x7d' ∉ cs)
    (hvalues : PlainValues lookup) (hstands : Stands template lookup p (.ok text)) :
    '\x7d' ∉ text := by
  cases hstands with
  | copy =>
    cases h with
    | copy => exact fun hmem => hcs (List.mem_singleton.1 hmem ▸ List.mem_cons_self)
    | lone => decide
  | dollar => decide
  | value _ hvalue => exact (hvalues _ _ hvalue).2
  | present _ hvalue => exact (hvalues _ _ hvalue).2
  | fallback =>
    cases h with
    | braced => exact absurd (by simp) hcs

theorem Skims.notMem_closing (h : Skims cs sights) (hcs : '\x7d' ∉ cs)
    (hvalues : PlainValues lookup) (htexts : List.Forall₂ (Shows template lookup) sights texts) :
    '\x7d' ∉ texts.flatten := by
  induction h generalizing texts with
  | nil =>
    cases htexts
    exact List.not_mem_nil
  | piece hreads _ ih =>
    cases htexts with
    | cons hhere hfurther =>
    cases hhere with
    | piece hstands =>
    rw [List.flatten_cons, List.mem_append, not_or]
    exact ⟨hreads.notMem_closing hcs hvalues hstands,
      ih (fun hmem => hcs (hreads.isSuffix.subset hmem)) hfurther⟩
  | opening _ _ ih =>
    cases htexts with
    | cons hhere hfurther =>
    cases hhere
    rw [List.flatten_cons, List.mem_append, not_or]
    exact ⟨by decide, ih (fun hmem => hcs (List.mem_cons_of_mem _ hmem)) hfurther⟩

/-- What stands behind a `$` that is copied alone does not begin with an opening brace. -/
theorem head?_of_lone (h : Reads cs (.copy '$') rest) (hskims : Skims rest sights)
    (htexts : List.Forall₂ (Shows template lookup) sights texts) :
    texts.flatten.head? ≠ some '\x7b' := by
  cases h with
  | copy hc => exact absurd rfl hc
  | lone hrest =>
  cases hskims with
  | nil =>
    cases htexts
    nofun
  | @piece _ _ p _ hreads =>
    cases rest with
    | nil => cases hreads
    | cons c tail =>
      obtain ⟨hdollar, hbrace, -⟩ := hrest c rfl
      obtain ⟨rfl, rfl⟩ := hreads.copy_of_ne hdollar
      cases htexts with
      | cons hhere =>
      cases hhere with
      | piece hstands =>
      cases hstands
      exact fun hhead => hbrace (Option.some.inj hhead)
  | opening => exact absurd rfl (hrest _ rfl).1

/-- A place in two texts, one behind the other, at which a character stands. -/
theorem append_eq_append_cons {first second before after : List Char} {c : Char}
    (h : first ++ second = before ++ c :: after) :
    (∃ before', before = first ++ before' ∧ second = before' ++ c :: after) ∨
      ∃ after', first = before ++ c :: after' ∧ after = after' ++ second := by
  rcases List.append_eq_append_iff.1 h with ⟨more, hbefore, hsecond⟩ | ⟨more, hfirst, hafter⟩
  · exact .inl ⟨more, hbefore, hsecond⟩
  · cases more with
    | nil => exact .inl ⟨[], by simpa using hfirst.symm, hafter.symm⟩
    | cons d more =>
      obtain ⟨rfl, rfl⟩ := List.cons.inj hafter
      exact .inr ⟨more, hfirst, rfl⟩

/-- A `$` that a piece puts in its place comes from a fallback, if an opening brace follows it. -/
theorem Reads.inFallback {front back : List Char} (h : Reads cs p rest)
    (hdollars : ¬ ['$', '$'] <:+: cs) (hvalues : PlainValues lookup)
    (hstands : Stands template lookup p (.ok (front ++ '$' :: back)))
    (hbrace : p = .copy '$' → back = [] → False) :
    InFallback lookup (.piece p :: sights) ((front ++ '$' :: back) :: texts) front := by
  generalize htext : front ++ '$' :: back = text at hstands
  cases hstands with
  | @copy c =>
    have hboth : front = [] ∧ c = '$' ∧ back = [] := by
      cases front with
      | nil => exact ⟨rfl, (List.cons.inj htext).1.symm, (List.cons.inj htext).2⟩
      | cons d front => exact absurd (List.cons.inj htext).2 (by simp)
    obtain ⟨-, rfl, hback⟩ := hboth
    exact (hbrace rfl hback).elim
  | dollar =>
    cases h with
    | dollar => exact absurd ⟨[], _, rfl⟩ hdollars
  | value _ hvalue => exact absurd (htext ▸ by simp) (hvalues _ _ hvalue).1
  | present _ hvalue => exact absurd (htext ▸ by simp) (hvalues _ _ hvalue).1
  | fallback _ hunset =>
    rw [← htext]
    exact .here hunset

/-- Every `${…}` of the texts of what is met begins in a fallback. -/
theorem Skims.inFallback (h : Skims cs sights) (hdollars : ¬ ['$', '$'] <:+: cs)
    (hvalues : PlainValues lookup) (htexts : List.Forall₂ (Shows template lookup) sights texts)
    {before name after : List Char}
    (hout : texts.flatten = before ++ '$' :: '\x7b' :: (name ++ '\x7d' :: after)) :
    InFallback lookup sights texts before := by
  induction h generalizing texts before with
  | nil =>
    cases htexts
    exact absurd hout (by simp)
  | @piece cs rest p sights hreads hskims ih =>
    cases htexts with
    | cons hhere hfurther =>
    cases hhere with
    | piece hstands =>
    rw [List.flatten_cons] at hout
    rcases append_eq_append_cons hout with ⟨more, rfl, hmore⟩ | ⟨back, rfl, hback⟩
    · exact .later (ih (fun hpart => hdollars (hpart.trans hreads.isSuffix.isInfix)) hfurther hmore)
    · refine hreads.inFallback hdollars hvalues hstands ?_
      rintro rfl rfl
      refine head?_of_lone hreads hskims hfurther ?_
      rw [← List.nil_append (List.flatten _), ← hback]
      rfl
  | @opening rest sights hopen hskims ih =>
    cases htexts with
    | cons hhere hfurther =>
    cases hhere
    rw [List.flatten_cons] at hout
    rcases append_eq_append_cons hout with ⟨more, rfl, hmore⟩ | ⟨back, hfirst, hback⟩
    · refine .later (ih (fun hpart => hdollars ?_) hfurther hmore)
      exact hpart.trans (List.suffix_cons _ _).isInfix
    · -- Nothing behind an opening that is never closed closes a brace.
      have hclosing : '\x7d' ∉ '\x7b' :: rest := by simpa using hopen
      refine absurd ?_ (hskims.notMem_closing hclosing hvalues hfurther)
      have hnil : back = [] := by
        cases before with
        | nil => exact (List.cons.inj hfirst).2.symm
        | cons d before => exact absurd (List.cons.inj hfirst).2 (by simp)
      subst hnil
      rw [← List.nil_append (List.flatten _), ← hback]
      simp

end

/-- If a template does not escape a `$`, and no value holds a `$` or a closing brace, then every
`${…}` of the text that it is filled in with begins at a `$` of a fallback that stands in for its
variable. -/
theorem placeholder_in_fallback {t : Template} {lookup : Lookup} {out : String}
    (hdollars : ¬ ['$', '$'] <:+: t.text.toList) (hvalues : PlainValues lookup)
    (hout : t.resolve lookup = .ok out) :
    ∃ sights texts, Skims t.text.toList sights ∧
      List.Forall₂ (Shows t.text lookup) sights texts ∧ out.toList = texts.flatten ∧
      ∀ before name after, out.toList = before ++ '$' :: '\x7b' :: (name ++ '\x7d' :: after) →
        InFallback lookup sights texts before := by
  obtain ⟨sights, hskims⟩ := exists_skims t.text.toList
  obtain ⟨-, texts, htexts, hflatten⟩ :=
    (resolveChars_eq_ok_iff hskims).1 (resolve_eq_ok_iff.1 hout)
  refine ⟨sights, texts, hskims, htexts, hflatten, fun before name after heq => ?_⟩
  exact hskims.inFallback hdollars hvalues htexts (hflatten.symm.trans heq)

theorem plainValues_none : PlainValues fun _ => none :=
  fun _ _ h => absurd h (Option.some_ne_none _).symm

theorem placeholder_in_fallback_nested :
    let t : Template := ⟨"a-$\x7bA:-$\x7bB\x7d\x7d"⟩
    ∃ sights texts, Skims t.text.toList sights ∧
      InFallback (fun _ => none) sights texts ['a', '-'] := by
  intro t
  have hdollars : ¬ ['$', '$'] <:+: t.text.toList := by decide +kernel
  have hout : t.resolve (fun _ => none) = .ok "a-$\x7bB\x7d" := by decide +kernel
  obtain ⟨sights, texts, hskims, -, -, hall⟩ :=
    placeholder_in_fallback hdollars plainValues_none hout
  exact ⟨sights, texts, hskims, hall ['a', '-'] ['B'] [] (by decide +kernel)⟩

/-- A name that was filled in can hold a placeholder: the reference ends at the first closing brace,
and its fallback is not filled in. -/
theorem not_forall_without_placeholder :
    ¬ ∀ (t : Template) (lookup : Lookup) (out : String) (name : List Char),
      ¬ ['$', '$'] <:+: t.text.toList → PlainValues lookup → t.resolve lookup = .ok out →
      isName name = true → ¬ '$' :: '\x7b' :: (name ++ ['\x7d']) <:+: out.toList := by
  intro hall
  let t : Template := ⟨"$\x7bA:-$\x7bB\x7d\x7d"⟩
  have hdollars : ¬ ['$', '$'] <:+: t.text.toList := by decide +kernel
  have hout : t.resolve (fun _ => none) = .ok "$\x7bB\x7d" := by decide +kernel
  exact hall t _ _ ['B'] hdollars plainValues_none hout (by decide) (by decide +kernel)

end Provisioner.Template
