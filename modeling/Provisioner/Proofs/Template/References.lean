import Provisioner.Template

/-!
# What templates refer to

A template is filled in from the variables that it names, and from no others:
`resolve_congr`.
-/

namespace Provisioner.Template

/-- The name of the variable that a mark stands for. -/
def Mark.name? : Mark → Option String
  | .dollar => none
  | .reference body => some (String.ofList (splitFallback body).1)

/-- The names of the variables that a template is filled in from. -/
def references (t : Template) : List String :=
  (split t.text.toList).marks.filterMap fun part => part.2.name?

variable {lookup lookup' : Lookup}

theorem fillMark_congr (template : String) {m : Mark}
    (h : ∀ name ∈ m.name?, lookup name = lookup' name) :
    fillMark template lookup m = fillMark template lookup' m := by
  cases m with
  | dollar => rfl
  | reference body =>
    have hname := h (String.ofList (splitFallback body).1) rfl
    simp only [fillMark, substitute, hname]

theorem fillMarks_congr (template : String) {marks : List (List Char × Mark)}
    (h : ∀ name ∈ marks.filterMap (fun part => part.2.name?), lookup name = lookup' name) :
    fillMarks template lookup marks = fillMarks template lookup' marks := by
  induction marks with
  | nil => rfl
  | cons part marks ih =>
    obtain ⟨before, m⟩ := part
    have hhere : fillMark template lookup m = fillMark template lookup' m := by
      refine fillMark_congr template fun name hname => h name ?_
      exact List.mem_filterMap.2 ⟨(before, m), List.mem_cons_self, hname⟩
    have hfurther : fillMarks template lookup marks = fillMarks template lookup' marks := by
      refine ih fun name hname => h name ?_
      obtain ⟨part, hpart, hvariable⟩ := List.mem_filterMap.1 hname
      exact List.mem_filterMap.2 ⟨part, List.mem_cons_of_mem _ hpart, hvariable⟩
    rw [fillMarks, fillMarks, hhere, hfurther]

/-- Sources that agree on the variables of a template fill it in alike. -/
theorem resolve_congr {t : Template} (h : ∀ name ∈ t.references, lookup name = lookup' name) :
    t.resolve lookup = t.resolve lookup' := by
  rw [resolve, resolve, resolveChars, resolveChars, fillMarks_congr t.text h]

end Provisioner.Template
