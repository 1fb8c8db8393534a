import Provisioner.Proofs.Basic
import Provisioner.Template
import Mathlib.Data.List.Forall2
import Mathlib.Data.List.TakeWhile

/-!
# Templates, scanned from left to right

What a template stands for can be said without taking it apart first.  A scan goes through
it from left to right and reads one piece after the other; the texts of the pieces, one
behind the other, are the text of the template.

* `Reads` is one step of the scan and `Scans` all of them.  The scan can go on until the end
  if the text is `Closed`.
* `Stands` says which text a piece stands for, or why it stands for none.
* `resolve_scan`: a closed template is filled in as its scan has it, and fails as the first
  piece of the scan that fails.
-/

namespace Provisioner.Template

/-! ## The scan -/

/-- A piece of a template: a character that stands for itself, a doubled `$`, or a reference. -/
inductive Piece
  | copy (c : Char)
  | dollar
  | reference (name : List Char) (fallback? : Option (List Char))

/-- The text of a reference is cut at the first `:-` in it, if there is one. -/
inductive Cuts (body : List Char) : List Char → Option (List Char) → Prop
  | whole : ¬ [':', '-'] <:+: body → Cuts body body none
  | cut {name fallback : List Char} : body = name ++ ':' :: '-' :: fallback →
    ¬ [':', '-'] <:+: name ++ [':'] → Cuts body name (some fallback)

/-- The piece that a scan reads at a place, and what stands behind it.  A bare name is as long
as it can be; there is no piece at an opening `${` that is never closed. -/
inductive Reads : List Char → Piece → List Char → Prop
  | copy {c : Char} {rest : List Char} : c ≠ '$' → Reads (c :: rest) (.copy c) rest
  | dollar {rest : List Char} : Reads ('$' :: '$' :: rest) .dollar rest
  | braced {body rest name : List Char} {fallback? : Option (List Char)} :
    '\x7d' ∉ body → Cuts body name fallback? →
    Reads ('$' :: '\x7b' :: (body ++ '\x7d' :: rest)) (.reference name fallback?) rest
  | bare {name rest : List Char} : isName name = true →
    (∀ c ∈ rest.head?, isNameChar c = false) →
    Reads ('$' :: (name ++ rest)) (.reference name none) rest
  | lone {rest : List Char} :
    (∀ c ∈ rest.head?, c ≠ '$' ∧ c ≠ '\x7b' ∧ isNameStart c = false) →
    Reads ('$' :: rest) (.copy '$') rest

/-- The pieces of a whole text. -/
inductive Scans : List Char → List Piece → Prop
  | nil : Scans [] []
  | cons {cs rest : List Char} {p : Piece} {pieces : List Piece} :
    Reads cs p rest → Scans rest pieces → Scans cs (p :: pieces)

/-- The places that a scan comes to. -/
inductive Reaches : List Char → List Char → Prop
  | here {cs : List Char} : Reaches cs cs
  | later {cs rest place : List Char} {p : Piece} :
    Reads cs p rest → Reaches rest place → Reaches cs place

/-- Every opening `${` that the scan comes to is closed. -/
def Closed (cs : List Char) : Prop :=
  ∀ rest, Reaches cs ('$' :: '\x7b' :: rest) → '\x7d' ∈ rest

/-- The text that a piece stands for, or why there is none. -/
inductive Stands (template : String) (lookup : Lookup) :
    Piece → Except TemplateError (List Char) → Prop
  | copy {c : Char} : Stands template lookup (.copy c) (.ok [c])
  | dollar : Stands template lookup .dollar (.ok ['$'])
  | malformed {name : List Char} {fallback? : Option (List Char)} : isName name = false →
    Stands template lookup (.reference name fallback?) (.error (.malformed template))
  | value {name : List Char} {value : String} : isName name = true →
    lookup (String.ofList name) = some value →
    Stands template lookup (.reference name none) (.ok value.toList)
  | unresolved {name : List Char} : isName name = true → lookup (String.ofList name) = none →
    Stands template lookup (.reference name none)
      (.error (.unresolved (String.ofList name) template))
  | present {name fallback : List Char} {value : String} : isName name = true →
    lookup (String.ofList name) = some value → value ≠ "" →
    Stands template lookup (.reference name (some fallback)) (.ok value.toList)
  | fallback {name fallback : List Char} : isName name = true →
    (lookup (String.ofList name) = none ∨ lookup (String.ofList name) = some "") →
    Stands template lookup (.reference name (some fallback)) (.ok fallback)

/-! ## Cutting a reference -/

theorem prefix_colon {c : Char} {rest : List Char} (h : [':', '-'] <+: c :: rest) :
    c = ':' ∧ ∃ fallback, rest = '-' :: fallback := by
  obtain ⟨fallback, h⟩ := h
  cases h
  exact ⟨rfl, fallback, rfl⟩

theorem splitFallback_cons {c : Char} {rest : List Char} (h : ¬ [':', '-'] <+: c :: rest) :
    splitFallback (c :: rest) = (c :: (splitFallback rest).1, (splitFallback rest).2) := by
  rw [splitFallback]
  rintro fallback rfl rfl
  exact h ⟨fallback, rfl⟩

theorem splitFallback_of_cuts {body name : List Char} {fallback? : Option (List Char)}
    (h : Cuts body name fallback?) : splitFallback body = (name, fallback?) := by
  cases h with
  | whole h =>
    induction body with
    | nil => rfl
    | cons c rest ih =>
      rw [List.infix_cons_iff, not_or] at h
      rw [splitFallback_cons h.1, ih h.2]
  | @cut name fallback hbody h =>
    subst hbody
    induction name with
    | nil => rfl
    | cons c name ih =>
      rw [List.cons_append, List.infix_cons_iff, not_or] at h
      have hstart : ¬ [':', '-'] <+: c :: (name ++ ':' :: '-' :: fallback) := by
        intro hstart
        obtain ⟨rfl, more, hmore⟩ := prefix_colon hstart
        cases name with
        | nil => cases hmore
        | cons d name =>
          cases hmore
          exact h.1 ⟨name ++ [':'], rfl⟩
      rw [List.cons_append, splitFallback_cons hstart, ih h.2]

theorem exists_cuts (body : List Char) : ∃ name fallback?, Cuts body name fallback? := by
  induction body with
  | nil => exact ⟨[], none, .whole (by decide)⟩
  | cons c rest ih =>
    by_cases hstart : [':', '-'] <+: c :: rest
    · obtain ⟨rfl, fallback, rfl⟩ := prefix_colon hstart
      exact ⟨[], some fallback, .cut rfl (by decide)⟩
    obtain ⟨name, fallback?, hcuts⟩ := ih
    cases hcuts with
    | whole h =>
      refine ⟨c :: rest, none, .whole ?_⟩
      rw [List.infix_cons_iff]
      exact fun hor => hor.elim hstart h
    | @cut name fallback hrest h =>
      refine ⟨c :: name, some fallback, .cut (by rw [hrest]; rfl) ?_⟩
      rw [List.cons_append, List.infix_cons_iff]
      rintro (hstart' | hrest')
      · obtain ⟨rfl, more, hmore⟩ := prefix_colon hstart'
        cases name with
        | nil => cases hmore
        | cons d name =>
          cases hmore
          subst hrest
          exact hstart ⟨_, rfl⟩
      · exact h hrest'

/-- A name is not cut. -/
theorem cuts_of_name {name : List Char} (h : isName name = true) : Cuts name name none := by
  refine .whole fun hinfix => ?_
  have hcolon : ':' ∈ name := hinfix.subset List.mem_cons_self
  cases name with
  | nil => cases h
  | cons c more =>
    obtain ⟨hstart, hmore⟩ := Bool.and_eq_true_iff.1 h
    rcases List.mem_cons.1 hcolon with rfl | hcolon
    · cases hstart
    · cases List.all_eq_true.1 hmore _ hcolon

/-! ## Reading a piece -/

/-- The piece that a mark is. -/
def Mark.piece : Mark → Piece
  | .dollar => .dollar
  | .reference body => .reference (splitFallback body).1 (splitFallback body).2

/-- A text whose characters all pass, up to one that does not. -/
theorem while_append {p : Char → Bool} {cs rest : List Char} (hcs : ∀ c ∈ cs, p c = true)
    (hrest : ∀ c ∈ rest.head?, p c = false) :
    (cs ++ rest).takeWhile p = cs ∧ (cs ++ rest).dropWhile p = rest := by
  rw [List.takeWhile_append_of_pos hcs, List.dropWhile_append_of_pos hcs]
  cases rest with
  | nil => exact ⟨List.append_nil cs, rfl⟩
  | cons c rest =>
    have hc : ¬ p c = true := by
      rw [hrest c rfl]
      exact Bool.false_ne_true
    rw [List.takeWhile_cons_of_neg hc, List.dropWhile_cons_of_neg hc, List.append_nil]
    exact ⟨rfl, rfl⟩

theorem closeBrace?_of_not_mem {body : List Char} (rest : List Char) (h : '\x7d' ∉ body) :
    closeBrace? (body ++ '\x7d' :: rest) = some (body, rest) := by
  have hbody : ∀ c ∈ body, (c != '\x7d') = true :=
    fun c hc => bne_iff_ne.2 fun heq => h (heq ▸ hc)
  have hrest : ∀ c ∈ ('\x7d' :: rest).head?, (c != '\x7d') = false := by
    rintro c ⟨⟩
    rfl
  obtain ⟨htake, hdrop⟩ := while_append hbody hrest
  rw [closeBrace?, htake, hdrop]

theorem mark?_of_name {name rest : List Char} (hname : isName name = true)
    (hrest : ∀ c ∈ rest.head?, isNameChar c = false) :
    mark? (name ++ rest) = some (.reference name, rest) := by
  cases name with
  | nil => cases hname
  | cons c more =>
    obtain ⟨hstart, hmore⟩ := Bool.and_eq_true_iff.1 hname
    obtain ⟨htake, hdrop⟩ := while_append (List.all_eq_true.1 hmore) hrest
    have hdollar : c ≠ '$' := by
      rintro rfl
      cases hstart
    have hbrace : c ≠ '\x7b' := by
      rintro rfl
      cases hstart
    rw [List.cons_append, mark?, if_neg hdollar, if_neg hbrace, if_pos hstart, htake, hdrop]

/-- An opening that is never closed starts no mark. -/
theorem mark?_of_unclosed {rest : List Char} (h : '\x7d' ∉ rest) :
    mark? ('\x7b' :: rest) = none := by
  have hall : ∀ c ∈ rest, (c != '\x7d') = true :=
    fun c hc => bne_iff_ne.2 fun heq => h (heq ▸ hc)
  have hclose : closeBrace? rest = none := by
    rw [closeBrace?, List.dropWhile_eq_nil_iff.2 hall]
  show (closeBrace? rest).map _ = none
  rw [hclose]
  rfl

/-- What is read at a `$` is the mark that it starts, if it starts one. -/
theorem Reads.mark {tail rest : List Char} {p : Piece} (h : Reads ('$' :: tail) p rest) :
    (∃ m, mark? tail = some (m, rest) ∧ p = m.piece) ∨
      (mark? tail = none ∧ tail.head? ≠ some '\x7b' ∧ p = .copy '$' ∧ rest = tail) := by
  cases h with
  | copy hc => exact absurd rfl hc
  | dollar => exact .inl ⟨.dollar, rfl, rfl⟩
  | @braced body rest name fallback? hbody hcuts =>
    refine .inl ⟨.reference body, ?_, ?_⟩
    · show (closeBrace? (body ++ '\x7d' :: rest)).map _ = _
      rw [closeBrace?_of_not_mem rest hbody]
      rfl
    · rw [Mark.piece, splitFallback_of_cuts hcuts]
  | @bare name rest hname hrest =>
    refine .inl ⟨.reference name, mark?_of_name hname hrest, ?_⟩
    rw [Mark.piece, splitFallback_of_cuts (cuts_of_name hname)]
  | lone hrest =>
    refine .inr ⟨?_, fun hhead => (hrest _ hhead).2.1 rfl, rfl, rfl⟩
    cases tail with
    | nil => rfl
    | cons c tail =>
      obtain ⟨hdollar, hbrace, hstart⟩ := hrest c rfl
      rw [mark?, if_neg hdollar, if_neg hbrace, hstart]
      rfl

theorem Reads.copy_of_ne {c : Char} {tail rest : List Char} {p : Piece}
    (h : Reads (c :: tail) p rest) (hc : c ≠ '$') : p = .copy c ∧ rest = tail := by
  cases h with
  | copy => exact ⟨rfl, rfl⟩
  | dollar | braced | bare | lone => exact absurd rfl hc

theorem Reads.unique {cs rest rest' : List Char} {p p' : Piece} (h : Reads cs p rest)
    (h' : Reads cs p' rest') : p = p' ∧ rest = rest' := by
  cases cs with
  | nil => cases h
  | cons c tail =>
    by_cases hc : c = '$'
    · subst hc
      rcases h.mark with ⟨m, hm, rfl⟩ | ⟨hnone, -, rfl, rfl⟩
      · rcases h'.mark with ⟨m', hm', rfl⟩ | ⟨hnone, -, -, -⟩
        · cases hm.symm.trans hm'
          exact ⟨rfl, rfl⟩
        · cases hm.symm.trans hnone
      · rcases h'.mark with ⟨m', hm', -⟩ | ⟨-, -, rfl, rfl⟩
        · cases hnone.symm.trans hm'
        · exact ⟨rfl, rfl⟩
    · obtain ⟨rfl, rfl⟩ := h.copy_of_ne hc
      obtain ⟨rfl, rfl⟩ := h'.copy_of_ne hc
      exact ⟨rfl, rfl⟩

theorem Scans.unique {cs : List Char} {pieces pieces' : List Piece} (h : Scans cs pieces)
    (h' : Scans cs pieces') : pieces = pieces' := by
  induction h generalizing pieces' with
  | nil =>
    cases h' with
    | nil => rfl
    | cons hreads => cases hreads
  | cons hreads _ ih =>
    cases h' with
    | nil => cases hreads
    | cons hreads' hrest' =>
      obtain ⟨rfl, rfl⟩ := hreads.unique hreads'
      rw [ih hrest']

/-! ## A closed text is scanned to its end -/

theorem Closed.later {cs rest : List Char} {p : Piece} (hclosed : Closed cs)
    (h : Reads cs p rest) : Closed rest :=
  fun place hplace => hclosed place (.later h hplace)

/-- There is a piece at every place of a text but its end and an opening that is never closed. -/
theorem exists_reads_or_unclosed (c : Char) (tail : List Char) :
    (∃ p rest, Reads (c :: tail) p rest ∧ rest.length < (c :: tail).length) ∨
      ∃ rest, c :: tail = '$' :: '\x7b' :: rest ∧ '\x7d' ∉ rest := by
  by_cases hc : c = '$'
  · subst hc
    cases tail with
    | nil => exact .inl ⟨_, _, .lone nofun, Nat.lt_succ_self _⟩
    | cons d tail =>
      by_cases hdollar : d = '$'
      · subst hdollar
        exact .inl ⟨_, _, .dollar, by simp only [List.length_cons]; omega⟩
      by_cases hbrace : d = '\x7b'
      · subst hbrace
        by_cases hclosed : '\x7d' ∈ tail
        · obtain ⟨body, rest, rfl, hbody⟩ := List.eq_append_cons_of_mem hclosed
          obtain ⟨name, fallback?, hcuts⟩ := exists_cuts body
          refine .inl ⟨_, _, .braced hbody hcuts, ?_⟩
          simp only [List.length_cons, List.length_append]
          omega
        · exact .inr ⟨tail, rfl, hclosed⟩
      by_cases hstart : isNameStart d = true
      · have hname : isName (d :: tail.takeWhile isNameChar) = true := by
          rw [isName, hstart, List.all_takeWhile]
          rfl
        have hrest : ∀ e ∈ (tail.dropWhile isNameChar).head?, isNameChar e = false := by
          intro e he
          have hnot := List.head?_dropWhile_not isNameChar tail
          rw [Option.mem_def.1 he] at hnot
          exact hnot
        have hreads := Reads.bare hname hrest
        rw [List.cons_append, List.takeWhile_append_dropWhile] at hreads
        have hle := length_dropWhile_le isNameChar tail
        exact .inl ⟨_, _, hreads, by simp only [List.length_cons]; omega⟩
      · refine .inl ⟨_, _, .lone fun e he => ?_, Nat.lt_succ_self _⟩
        cases he
        exact ⟨hdollar, hbrace, Bool.eq_false_iff.2 hstart⟩
  · exact .inl ⟨_, _, .copy hc, Nat.lt_succ_self _⟩

theorem Closed.exists_reads {c : Char} {tail : List Char} (hclosed : Closed (c :: tail)) :
    ∃ p rest, Reads (c :: tail) p rest ∧ rest.length < (c :: tail).length := by
  rcases exists_reads_or_unclosed c tail with hreads | ⟨rest, heq, hopen⟩
  · exact hreads
  · rw [heq] at hclosed
    exact absurd (hclosed rest .here) hopen

theorem Closed.exists_scans {cs : List Char} (hclosed : Closed cs) :
    ∃ pieces, Scans cs pieces := by
  induction hlength : cs.length using Nat.strongRecOn generalizing cs with
  | ind n ih =>
    cases cs with
    | nil => exact ⟨[], .nil⟩
    | cons c tail =>
      obtain ⟨p, rest, hreads, hlt⟩ := hclosed.exists_reads
      obtain ⟨pieces, hscans⟩ := ih rest.length (hlength ▸ hlt) (hclosed.later hreads) rfl
      exact ⟨p :: pieces, .cons hreads hscans⟩

theorem Scans.exists_of_reaches {cs place : List Char} (hreaches : Reaches cs place)
    {pieces : List Piece} (h : Scans cs pieces) : ∃ pieces', Scans place pieces' := by
  induction hreaches generalizing pieces with
  | here => exact ⟨pieces, h⟩
  | later hreads _ ih =>
    cases h with
    | nil => cases hreads
    | cons hreads' hrest =>
      obtain ⟨-, rfl⟩ := hreads.unique hreads'
      exact ih hrest

/-- Only a closed text has a scan. -/
theorem Scans.closed {cs : List Char} {pieces : List Piece} (h : Scans cs pieces) :
    Closed cs := by
  intro rest hreaches
  obtain ⟨pieces', hplace⟩ := h.exists_of_reaches hreaches
  cases hplace with
  | cons hreads _ =>
    rcases hreads.mark with ⟨m, hm, -⟩ | ⟨-, hhead, -, -⟩
    · by_contra hopen
      cases hm.symm.trans (mark?_of_unclosed hopen)
    · exact absurd rfl hhead

/-! ## What a scan stands for -/

variable (template : String) (lookup : Lookup)

theorem exists_stands (p : Piece) : ∃ answer, Stands template lookup p answer := by
  cases p with
  | copy c => exact ⟨_, .copy⟩
  | dollar => exact ⟨_, .dollar⟩
  | reference name fallback? =>
    cases hname : isName name with
    | false => exact ⟨_, .malformed hname⟩
    | true =>
    cases hvalue : lookup (String.ofList name) with
    | none =>
      cases fallback? with
      | none => exact ⟨_, .unresolved hname hvalue⟩
      | some fallback => exact ⟨_, .fallback hname (.inl hvalue)⟩
    | some value =>
      cases fallback? with
      | none => exact ⟨_, .value hname hvalue⟩
      | some fallback =>
        by_cases hempty : value = ""
        · subst hempty
          exact ⟨_, .fallback hname (.inr hvalue)⟩
        · exact ⟨_, .present hname hvalue hempty⟩

variable {template lookup}

theorem fillMark_of_stands {m : Mark} {answer : Except TemplateError (List Char)}
    (h : Stands template lookup m.piece answer) : fillMark template lookup m = answer := by
  cases m with
  | dollar =>
    cases h
    rfl
  | reference body =>
    rw [fillMark, substitute]
    rw [Mark.piece] at h
    generalize splitFallback body = cut at h ⊢
    obtain ⟨name, fallback?⟩ := cut
    dsimp only at h ⊢
    cases h with
    | malformed hname => rw [hname]; rfl
    | value hname hvalue => rw [hname, hvalue]; rfl
    | unresolved hname hvalue => rw [hname, hvalue]; rfl
    | @present name fallback value hname hvalue hempty =>
      have hisEmpty : ¬ value.isEmpty = true := fun h => hempty (String.isEmpty_iff.1 h)
      rw [hname, hvalue]
      exact congrArg Except.ok (if_neg hisEmpty)
    | fallback hname hvalue =>
      rw [hname]
      rcases hvalue with hvalue | hvalue
      · rw [hvalue]; rfl
      · rw [hvalue]; rfl

/-! ## The parts of a template -/

theorem split_of_mark {tail rest : List Char} {m : Mark} (h : mark? tail = some (m, rest)) :
    split ('$' :: tail) = ⟨([], m) :: (split rest).marks, (split rest).rest⟩ := by
  rw [split, if_pos rfl]
  split
  · next hm =>
    cases h.symm.trans hm
    rfl
  · next hnone => cases h.symm.trans hnone

theorem split_of_lone {tail : List Char} (h : mark? tail = none) :
    split ('$' :: tail) = (split tail).cons '$' := by
  rw [split, if_pos rfl]
  split
  · next hm => cases h.symm.trans hm
  · rfl

theorem split_of_ne {c : Char} (tail : List Char) (hc : c ≠ '$') :
    split (c :: tail) = (split tail).cons c := by
  rw [split, if_neg hc]

theorem Parts.cons_of_nil {c : Char} {p : Parts} (h : p.marks = []) :
    p.cons c = ⟨[], c :: p.rest⟩ := by
  rw [Parts.cons, h]

theorem Parts.cons_of_cons {c : Char} {p : Parts} {before : List Char} {m : Mark}
    {marks : List (List Char × Mark)} (h : p.marks = (before, m) :: marks) :
    p.cons c = ⟨(c :: before, m) :: marks, p.rest⟩ := by
  rw [Parts.cons, h]

theorem Parts.cons_eq_nil {c : Char} {p : Parts} (h : (p.cons c).marks = []) :
    p.marks = [] ∧ (p.cons c).rest = c :: p.rest := by
  cases hmarks : p.marks with
  | nil =>
    rw [cons_of_nil hmarks]
    exact ⟨rfl, rfl⟩
  | cons part marks =>
    rw [cons_of_cons hmarks] at h
    cases h

/-- A template without marks is the text after its last mark. -/
theorem rest_of_marks_nil {cs : List Char} (h : (split cs).marks = []) : (split cs).rest = cs := by
  induction cs using split.induct with
  | case1 => rw [split]
  | case2 tail m rest hm _ =>
    rw [split_of_mark hm] at h
    cases h
  | case3 tail hnone ih =>
    rw [split_of_lone hnone] at h ⊢
    obtain ⟨hmarks, hrest⟩ := Parts.cons_eq_nil h
    rw [hrest, ih hmarks]
  | case4 c tail hc ih =>
    rw [split_of_ne tail hc] at h ⊢
    obtain ⟨hmarks, hrest⟩ := Parts.cons_eq_nil h
    rw [hrest, ih hmarks]

/-! ## Filling in, piece by piece -/

theorem resolveChars_nil : resolveChars template lookup [] = .ok [] := by
  rw [resolveChars, split]
  rfl

theorem resolveChars_of_mark {tail rest : List Char} {m : Mark}
    (h : mark? tail = some (m, rest)) :
    resolveChars template lookup ('$' :: tail) = (do
      let here ← fillMark template lookup m
      let further ← resolveChars template lookup rest
      return here ++ further) := by
  rw [resolveChars, split_of_mark h, resolveChars]
  dsimp only
  rw [fillMarks]
  cases fillMark template lookup m with
  | error e => rfl
  | ok here =>
    cases fillMarks template lookup (split rest).marks with
    | error e => rfl
    | ok filled =>
      cases hasOpening (split rest).rest with
      | true => rfl
      | false => exact congrArg Except.ok (List.append_assoc here filled (split rest).rest)

theorem resolveChars_of_cons {c : Char} {tail : List Char}
    (h : split (c :: tail) = (split tail).cons c)
    (hopening : (split tail).marks = [] → hasOpening (c :: tail) = hasOpening tail) :
    resolveChars template lookup (c :: tail) = (do
      let further ← resolveChars template lookup tail
      return c :: further) := by
  rw [resolveChars, h, resolveChars]
  cases hmarks : (split tail).marks with
  | nil =>
    rw [Parts.cons_of_nil hmarks, rest_of_marks_nil hmarks]
    dsimp only
    rw [hopening hmarks]
    cases hasOpening tail with
    | true => rfl
    | false => rfl
  | cons part marks =>
    obtain ⟨before, m⟩ := part
    rw [Parts.cons_of_cons hmarks]
    dsimp only
    rw [fillMarks, fillMarks]
    cases fillMark template lookup m with
    | error e => rfl
    | ok here =>
      cases fillMarks template lookup marks with
      | error e => rfl
      | ok filled =>
        cases hasOpening (split tail).rest with
        | true => rfl
        | false => rfl

/-- A template is filled in with what its first piece stands for, and what the text behind
the piece is filled in with. -/
theorem resolveChars_of_reads {cs rest : List Char} {p : Piece}
    {answer : Except TemplateError (List Char)} (h : Reads cs p rest)
    (hstands : Stands template lookup p answer) :
    resolveChars template lookup cs = (do
      let here ← answer
      let further ← resolveChars template lookup rest
      return here ++ further) := by
  cases cs with
  | nil => cases h
  | cons c tail =>
    by_cases hc : c = '$'
    · subst hc
      rcases h.mark with ⟨m, hm, rfl⟩ | ⟨hnone, hhead, rfl, rfl⟩
      · rw [resolveChars_of_mark hm, fillMark_of_stands hstands]
      · have hopening : hasOpening ('$' :: rest) = hasOpening rest := by
          rw [hasOpening]
          rintro more - rfl
          exact hhead rfl
        cases hstands
        exact resolveChars_of_cons (split_of_lone hnone) fun _ => hopening
    · obtain ⟨rfl, rfl⟩ := h.copy_of_ne hc
      have hopening : hasOpening (c :: rest) = hasOpening rest := by
        rw [hasOpening]
        rintro more rfl -
        exact hc rfl
      cases hstands
      exact resolveChars_of_cons (split_of_ne rest hc) fun _ => hopening

/-- If all pieces stand for a text, so does the template. -/
theorem resolveChars_of_forall {cs : List Char} {pieces : List Piece} {texts : List (List Char)}
    (h : Scans cs pieces)
    (htexts : List.Forall₂ (fun p text => Stands template lookup p (.ok text)) pieces texts) :
    resolveChars template lookup cs = .ok texts.flatten := by
  induction h generalizing texts with
  | nil =>
    cases htexts
    exact resolveChars_nil
  | cons hreads _ ih =>
    cases htexts with
    | cons hhere hfurther =>
      rw [resolveChars_of_reads hreads hhere, ih hfurther]
      rfl

/-- If a piece fails, and none before it, so does the template. -/
theorem resolveChars_of_failure {cs : List Char} {before after : List Piece} {p : Piece}
    {e : TemplateError} (h : Scans cs (before ++ p :: after))
    (hbefore : ∀ q ∈ before, ∃ text, Stands template lookup q (.ok text))
    (hstands : Stands template lookup p (.error e)) :
    resolveChars template lookup cs = .error e := by
  induction before generalizing cs with
  | nil =>
    cases h with
    | cons hreads _ =>
      rw [resolveChars_of_reads hreads hstands]
      rfl
  | cons q before ih =>
    obtain ⟨text, htext⟩ := hbefore q List.mem_cons_self
    cases h with
    | cons hreads hrest =>
      rw [resolveChars_of_reads hreads htext,
        ih hrest fun q hq => hbefore q (List.mem_cons_of_mem _ hq)]
      rfl

/-- All pieces stand for texts, or there is a first one that fails. -/
theorem exists_texts_or_failure (template : String) (lookup : Lookup) (pieces : List Piece) :
    (∃ texts, List.Forall₂ (fun p text => Stands template lookup p (.ok text)) pieces texts) ∨
      ∃ before p after e, pieces = before ++ p :: after ∧
        (∀ q ∈ before, ∃ text, Stands template lookup q (.ok text)) ∧
        Stands template lookup p (.error e) := by
  induction pieces with
  | nil => exact .inl ⟨[], .nil⟩
  | cons p pieces ih =>
    obtain ⟨answer, hstands⟩ := exists_stands template lookup p
    cases answer with
    | error e => exact .inr ⟨[], p, pieces, e, rfl, nofun, hstands⟩
    | ok text =>
      rcases ih with ⟨texts, htexts⟩ | ⟨before, q, after, e, rfl, hbefore, hq⟩
      · exact .inl ⟨text :: texts, .cons hstands htexts⟩
      · refine .inr ⟨p :: before, q, after, e, rfl, fun r hr => ?_, hq⟩
        rcases List.mem_cons.1 hr with rfl | hr
        · exact ⟨text, hstands⟩
        · exact hbefore r hr

/-- A closed template is filled in with the texts of its pieces, and fails as the first of
them that fails. -/
theorem resolve_scan (t : Template) (lookup : Lookup) (h : Closed t.text.toList) :
    ∃ pieces, Scans t.text.toList pieces ∧
      (∀ pieces', Scans t.text.toList pieces' → pieces' = pieces) ∧
      (∀ out, t.resolve lookup = .ok out ↔
        ∃ texts, List.Forall₂ (fun p text => Stands t.text lookup p (.ok text)) pieces texts ∧
          out.toList = texts.flatten) ∧
      (∀ e, t.resolve lookup = .error e ↔
        ∃ before p after, pieces = before ++ p :: after ∧
          (∀ q ∈ before, ∃ text, Stands t.text lookup q (.ok text)) ∧
          Stands t.text lookup p (.error e)) := by
  obtain ⟨pieces, hscans⟩ := h.exists_scans
  refine ⟨pieces, hscans, fun pieces' h' => h'.unique hscans, fun out => ⟨?_, ?_⟩,
    fun e => ⟨?_, ?_⟩⟩
  · intro hout
    rcases exists_texts_or_failure t.text lookup pieces with
      ⟨texts, htexts⟩ | ⟨before, p, after, e, rfl, hbefore, hp⟩
    · rw [resolve, resolveChars_of_forall hscans htexts] at hout
      cases hout
      exact ⟨texts, htexts, String.toList_ofList⟩
    · rw [resolve, resolveChars_of_failure hscans hbefore hp] at hout
      cases hout
  · rintro ⟨texts, htexts, hout⟩
    rw [resolve, resolveChars_of_forall hscans htexts, ← hout]
    exact congrArg Except.ok String.ofList_toList
  · intro he
    rcases exists_texts_or_failure t.text lookup pieces with
      ⟨texts, htexts⟩ | ⟨before, p, after, e', rfl, hbefore, hp⟩
    · rw [resolve, resolveChars_of_forall hscans htexts] at he
      cases he
    · rw [resolve, resolveChars_of_failure hscans hbefore hp] at he
      cases he
      exact ⟨before, p, after, rfl, hbefore, hp⟩
  · rintro ⟨before, p, after, rfl, hbefore, hp⟩
    rw [resolve, resolveChars_of_failure hscans hbefore hp]
    rfl

/-- A template that holds pieces of every sort, with one variable of two that is set. -/
theorem resolve_scan_mixed :
    let t : Template := ⟨"a$$$\x7bX:-d\x7d$Y$"⟩
    let lookup : Lookup := fun name => if name = "Y" then some "y" else none
    Closed t.text.toList ∧ t.resolve lookup = .ok "a$dy$" := by
  intro t lookup
  let pieces : List Piece :=
    [.copy 'a', .dollar, .reference ['X'] (some ['d']), .reference ['Y'] none, .copy '$']
  have hscans : Scans t.text.toList pieces := by
    have htext : t.text.toList =
        ['a', '$', '$', '$', '\x7b', 'X', ':', '-', 'd', '\x7d', '$', 'Y', '$'] := by decide
    rw [htext]
    refine .cons (.copy (by decide)) (.cons .dollar ?_)
    refine .cons (@Reads.braced ['X', ':', '-', 'd'] _ _ _ (by decide) (.cut rfl (by decide))) ?_
    have hend : ∀ c ∈ ['$'].head?, isNameChar c = false := by
      rintro c ⟨⟩
      rfl
    exact .cons (@Reads.bare ['Y'] ['$'] rfl hend) (.cons (.lone nofun) .nil)
  obtain ⟨pieces', -, hunique, hok, -⟩ := resolve_scan t lookup hscans.closed
  obtain rfl := hunique pieces hscans
  refine ⟨hscans.closed, (hok _).2 ⟨[['a'], ['$'], ['d'], ['y'], ['$']], ?_, by decide⟩⟩
  refine .cons .copy (.cons .dollar (.cons (.fallback rfl (.inl rfl)) ?_))
  exact .cons (@Stands.value _ _ _ "y" rfl rfl) (.cons .copy .nil)

end Provisioner.Template
