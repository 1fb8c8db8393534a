import Provisioner.Proofs.Template.Scan

/-!
# Escaped texts

A text in which every `$` is doubled is filled in with the text itself, whatever stands behind it.
The scan takes the dollars of the escaped text two by two, so it comes to the end of that text
between two pieces.

* `escape` doubles the dollars of a text.
* `resolveChars_escaped_append`: what stands behind an escaped text is filled in by itself.
* `resolve_escape` is this for templates.  An error names the template that it is about, so it is
  the same up to that: `TemplateError.inTemplate`.
-/

namespace Provisioner

/-- The same error of another template. -/
def TemplateError.inTemplate (template : String) : TemplateError → TemplateError
  | .unresolved name _ => .unresolved name template
  | .malformed _ => .malformed template

namespace Template

/-- The characters with every `$` doubled. -/
def escaped (cs : List Char) : List Char :=
  cs.flatMap fun c => if c = '$' then ['$', '$'] else [c]

/-- The text with every `$` doubled. -/
def escape (s : String) : String :=
  String.ofList (escaped s.toList)

@[simp] theorem escape_toList (s : String) : (escape s).toList = escaped s.toList :=
  String.toList_ofList

theorem escaped_cons_of_ne {c : Char} (h : c ≠ '$') (cs : List Char) :
    escaped (c :: cs) = c :: escaped cs := by
  rw [escaped, List.flatMap_cons, if_neg h]
  rfl

variable {lookup : Lookup}

/-! ## What stands behind an escaped text -/

/-- The first thing that is read of an escaped text is its first character. -/
theorem exists_reads_escaped (template : String) (lookup : Lookup) (c : Char)
    (cs rest : List Char) : ∃ p, Reads (escaped (c :: cs) ++ rest) p (escaped cs ++ rest) ∧
      Stands template lookup p (.ok [c]) := by
  by_cases hc : c = '$'
  · subst hc
    exact ⟨.dollar, .dollar, .dollar⟩
  · rw [escaped_cons_of_ne hc]
    exact ⟨.copy c, .copy hc, .copy⟩

theorem resolveChars_escaped_append (template : String) (lookup : Lookup) (cs rest : List Char) :
    resolveChars template lookup (escaped cs ++ rest) =
      (resolveChars template lookup rest).map (cs ++ ·) := by
  induction cs with
  | nil =>
    show resolveChars template lookup rest = _
    cases resolveChars template lookup rest <;> rfl
  | cons c cs ih =>
    obtain ⟨p, hreads, hstands⟩ := exists_reads_escaped template lookup c cs rest
    rw [resolveChars_of_reads hreads hstands, ih]
    cases resolveChars template lookup rest <;> rfl

/-! ## The template that an error is about -/

/-- The template that is being filled in shows in errors only. -/
theorem fillMark_inTemplate (template template' : String) (m : Mark) :
    fillMark template' lookup m =
      (fillMark template lookup m).mapError (·.inTemplate template') := by
  cases m with
  | dollar => rfl
  | reference body =>
    rw [fillMark, fillMark, substitute, substitute]
    obtain ⟨name, fallback?⟩ := splitFallback body
    dsimp only
    cases isName name with
    | false => rfl
    | true => cases lookup (String.ofList name) <;> cases fallback? <;> rfl

theorem fillMarks_inTemplate (template template' : String) (marks : List (List Char × Mark)) :
    fillMarks template' lookup marks =
      (fillMarks template lookup marks).mapError (·.inTemplate template') := by
  induction marks with
  | nil => rfl
  | cons part marks ih =>
    obtain ⟨before, m⟩ := part
    rw [fillMarks, fillMarks, fillMark_inTemplate template, ih]
    cases fillMark template lookup m with
    | error e => rfl
    | ok here => cases fillMarks template lookup marks <;> rfl

theorem resolveChars_inTemplate (template template' : String) (cs : List Char) :
    resolveChars template' lookup cs =
      (resolveChars template lookup cs).mapError (·.inTemplate template') := by
  rw [resolveChars, resolveChars, fillMarks_inTemplate template]
  cases fillMarks template lookup (split cs).marks with
  | error e => rfl
  | ok filled => cases hasOpening (split cs).rest <;> rfl

/-! ## Templates -/

/-- An escaped text is filled in with the text itself.  With a template behind it, it is filled in
with the text and what the template is filled in with, and fails as that template does. -/
theorem resolve_escape (s t : String) (lookup : Lookup) :
    (⟨escape s⟩ : Template).resolve lookup = .ok s ∧
      (⟨escape s ++ t⟩ : Template).resolve lookup =
        match (⟨t⟩ : Template).resolve lookup with
        | .ok out => .ok (s ++ out)
        | .error e => .error (e.inTemplate (escape s ++ t)) := by
  constructor
  · have halone := resolveChars_escaped_append (escape s) lookup s.toList []
    rw [List.append_nil, resolveChars_nil] at halone
    rw [resolve, escape_toList, halone]
    show Except.ok (String.ofList (s.toList ++ [])) = _
    rw [List.append_nil, String.ofList_toList]
  · rw [resolve, resolve, String.toList_append, escape_toList, resolveChars_escaped_append,
      resolveChars_inTemplate t]
    cases resolveChars t lookup t.toList with
    | error e => rfl
    | ok out =>
      show Except.ok (String.ofList (s.toList ++ out)) = .ok (s ++ String.ofList out)
      rw [String.ofList_append, String.ofList_toList]

end Template

end Provisioner
