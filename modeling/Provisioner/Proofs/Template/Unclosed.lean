import Provisioner.Proofs.Template.Scan

/-!
# Openings that are never closed

A scan stops at an opening `${` that has no closing brace behind it, but filling a template in does
not always.  The `$` of such an opening is passed over, and it is only looked for in the text behind
the last mark.  So a mark behind the opening hides it.

* `Skims` is the scan of any text.  It passes over the openings that are never closed.
* `Sheltered` says that every one of them has a mark behind it.
* `resolveChars_eq_ok_iff`: a template is filled in if its openings are sheltered and its pieces
  all stand for texts.
* `unclosed_fails_iff` says when a template with such an opening fails, and
  `not_forall_unclosed_fails` that it need not.
-/

namespace Provisioner.Template

/-! ## The scan of any text -/

/-- What is met in a text: a piece of it, or the `$` of an opening that is never closed. -/
inductive Sight
  | piece (p : Piece)
  | opening

/-- What is met in a whole text. -/
inductive Skims : List Char → List Sight → Prop
  | nil : Skims [] []
  | piece {cs rest : List Char} {p : Piece} {sights : List Sight} :
    Reads cs p rest → Skims rest sights → Skims cs (.piece p :: sights)
  | opening {rest : List Char} {sights : List Sight} : '\x7d' ∉ rest →
    Skims ('\x7b' :: rest) sights → Skims ('$' :: '\x7b' :: rest) (.opening :: sights)

/-- The pieces that are marks: a doubled `$`, or a reference. -/
inductive Sight.IsMark : Sight → Prop
  | dollar : IsMark (.piece .dollar)
  | reference {name : List Char} {fallback? : Option (List Char)} :
    IsMark (.piece (.reference name fallback?))

/-- Every opening that is never closed has a mark behind it. -/
def Sheltered (sights : List Sight) : Prop :=
  ∀ before after, sights = before ++ .opening :: after → ∃ s ∈ after, s.IsMark

/-- The text that is put in the place of what is met. -/
inductive Shows (template : String) (lookup : Lookup) : Sight → List Char → Prop
  | piece {p : Piece} {text : List Char} : Stands template lookup p (.ok text) →
    Shows template lookup (.piece p) text
  | opening : Shows template lookup .opening ['$']

/-- What makes a template fail: a piece of it that fails, or an opening that is never closed and
has no mark behind it. -/
inductive Fails (template : String) (lookup : Lookup) (sights : List Sight) : Prop
  | piece {p : Piece} {e : TemplateError} : .piece p ∈ sights →
    Stands template lookup p (.error e) → Fails template lookup sights
  | opening (before after : List Sight) : sights = before ++ .opening :: after →
    (∀ s ∈ after, ¬ s.IsMark) → Fails template lookup sights

/-- There is no piece at an opening that is never closed. -/
theorem not_reads_of_unclosed {rest rest' : List Char} {p : Piece} (h : '\x7d' ∉ rest) :
    ¬ Reads ('$' :: '\x7b' :: rest) p rest' := by
  intro hreads
  rcases hreads.mark with ⟨m, hm, -⟩ | ⟨-, hhead, -, -⟩
  · cases hm.symm.trans (mark?_of_unclosed h)
  · exact hhead rfl

theorem exists_skims (cs : List Char) : ∃ sights, Skims cs sights := by
  induction hlength : cs.length using Nat.strongRecOn generalizing cs with
  | ind n ih =>
    cases cs with
    | nil => exact ⟨[], .nil⟩
    | cons c tail =>
      rcases exists_reads_or_unclosed c tail with ⟨p, rest, hreads, hlt⟩ | ⟨rest, heq, hopen⟩
      · obtain ⟨sights, hskims⟩ := ih rest.length (hlength ▸ hlt) rest rfl
        exact ⟨.piece p :: sights, .piece hreads hskims⟩
      · obtain ⟨sights, hskims⟩ := ih _ (hlength ▸ by rw [heq]; exact Nat.lt_succ_self _)
          ('\x7b' :: rest) rfl
        exact ⟨.opening :: sights, heq ▸ .opening hopen hskims⟩

theorem Skims.unique {cs : List Char} {sights sights' : List Sight} (h : Skims cs sights)
    (h' : Skims cs sights') : sights = sights' := by
  induction h generalizing sights' with
  | nil =>
    cases h' with
    | nil => rfl
    | piece hreads => cases hreads
  | piece hreads _ ih =>
    cases h' with
    | nil => cases hreads
    | piece hreads' hrest' =>
      obtain ⟨rfl, rfl⟩ := hreads.unique hreads'
      rw [ih hrest']
    | opening hopen => exact absurd hreads (not_reads_of_unclosed hopen)
  | opening hopen _ ih =>
    cases h' with
    | piece hreads => exact absurd hreads (not_reads_of_unclosed hopen)
    | opening _ hrest' => rw [ih hrest']

/-- An opening that the scan comes to is met. -/
theorem Skims.mem_of_reaches {cs place rest : List Char} (hreaches : Reaches cs place)
    (hplace : place = '$' :: '\x7b' :: rest) (hopen : '\x7d' ∉ rest) {sights : List Sight}
    (h : Skims cs sights) : Sight.opening ∈ sights := by
  induction hreaches generalizing sights with
  | here =>
    subst hplace
    cases h with
    | piece hreads => exact absurd hreads (not_reads_of_unclosed hopen)
    | opening => exact List.mem_cons_self
  | later hreads _ ih =>
    cases h with
    | nil => cases hreads
    | piece hreads' hrest =>
      obtain ⟨-, rfl⟩ := hreads.unique hreads'
      exact List.mem_cons_of_mem _ (ih hplace hrest)
    | opening hopen' => exact absurd hreads (not_reads_of_unclosed hopen')

/-! ## Shelter -/

theorem sheltered_nil : Sheltered [] :=
  fun _ _ h => absurd h (List.append_ne_nil_of_right_ne_nil _ (List.cons_ne_nil _ _)).symm

theorem sheltered_piece {p : Piece} {sights : List Sight} :
    Sheltered (.piece p :: sights) ↔ Sheltered sights := by
  refine ⟨fun h before after heq => h (.piece p :: before) after (by rw [heq]; rfl), ?_⟩
  intro h before after heq
  cases before with
  | nil => cases heq
  | cons s before => exact h before after (List.cons.inj heq).2

theorem sheltered_opening {sights : List Sight} :
    Sheltered (.opening :: sights) ↔ (∃ s ∈ sights, s.IsMark) ∧ Sheltered sights := by
  refine ⟨fun h => ⟨h [] sights rfl, fun before after heq =>
    h (.opening :: before) after (by rw [heq]; rfl)⟩, ?_⟩
  rintro ⟨hmark, h⟩ before after heq
  cases before with
  | nil => exact (List.cons.inj heq).2 ▸ hmark
  | cons s before => exact h before after (List.cons.inj heq).2

/-! ## Filling in -/

theorem split_of_unclosed {rest : List Char} (h : '\x7d' ∉ rest) :
    split ('$' :: '\x7b' :: rest) = (split ('\x7b' :: rest)).cons '$' :=
  split_of_lone (mark?_of_unclosed h)

theorem Parts.marks_cons_eq_nil {c : Char} {p : Parts} : (p.cons c).marks = [] ↔ p.marks = [] := by
  refine ⟨fun h => (cons_eq_nil h).1, fun h => ?_⟩
  rw [cons_of_nil h]

/-- The marks of a template are those that are met in it. -/
theorem Skims.marks_eq_nil_iff {cs : List Char} {sights : List Sight} (h : Skims cs sights) :
    (split cs).marks = [] ↔ ∀ s ∈ sights, ¬ s.IsMark := by
  induction h with
  | nil =>
    rw [split]
    exact ⟨fun _ => List.forall_mem_nil _, fun _ => rfl⟩
  | @piece cs rest p sights hreads _ ih =>
    rw [List.forall_mem_cons, ← ih]
    cases cs with
    | nil => cases hreads
    | cons c tail =>
    by_cases hc : c = '$'
    · subst hc
      rcases hreads.mark with ⟨m, hm, rfl⟩ | ⟨hnone, -, rfl, rfl⟩
      · have hmark : (Sight.piece m.piece).IsMark := by
          cases m with
          | dollar => exact .dollar
          | reference body => exact .reference
        rw [split_of_mark hm]
        exact ⟨fun h => absurd h (List.cons_ne_nil _ _), fun h => absurd hmark h.1⟩
      · rw [split_of_lone hnone, Parts.marks_cons_eq_nil]
        exact ⟨fun h => ⟨by rintro ⟨⟩, h⟩, And.right⟩
    · obtain ⟨rfl, rfl⟩ := hreads.copy_of_ne hc
      rw [split_of_ne rest hc, Parts.marks_cons_eq_nil]
      exact ⟨fun h => ⟨by rintro ⟨⟩, h⟩, And.right⟩
  | opening hopen _ ih =>
    rw [List.forall_mem_cons, ← ih, split_of_unclosed hopen, Parts.marks_cons_eq_nil]
    exact ⟨fun h => ⟨by rintro ⟨⟩, h⟩, And.right⟩

variable {template : String} {lookup : Lookup}

/-- An opening that is never closed is an error if there is no mark behind it. -/
theorem resolveChars_of_unclosed_last {rest : List Char} (h : '\x7d' ∉ rest)
    (hmarks : (split ('\x7b' :: rest)).marks = []) :
    resolveChars template lookup ('$' :: '\x7b' :: rest) = .error (.malformed template) := by
  rw [resolveChars, split_of_unclosed h, Parts.cons_of_nil hmarks, rest_of_marks_nil hmarks]
  rfl

/-- A mark behind it hides it. -/
theorem resolveChars_of_unclosed {rest : List Char} (h : '\x7d' ∉ rest)
    (hmarks : (split ('\x7b' :: rest)).marks ≠ []) :
    resolveChars template lookup ('$' :: '\x7b' :: rest) = (do
      let further ← resolveChars template lookup ('\x7b' :: rest)
      return '$' :: further) :=
  resolveChars_of_cons (split_of_unclosed h) fun hnil => absurd hnil hmarks

/-- A template is filled in with the texts of what is met in it, if they all are there and its
openings are sheltered. -/
theorem resolveChars_eq_ok_iff {cs : List Char} {sights : List Sight} (h : Skims cs sights)
    {out : List Char} : resolveChars template lookup cs = .ok out ↔
      Sheltered sights ∧
        ∃ texts, List.Forall₂ (Shows template lookup) sights texts ∧ out = texts.flatten := by
  induction h generalizing out with
  | nil =>
    rw [resolveChars_nil]
    constructor
    · rintro ⟨⟩
      exact ⟨sheltered_nil, [], .nil, rfl⟩
    · rintro ⟨-, texts, htexts, rfl⟩
      cases htexts
      rfl
  | @piece cs rest p sights hreads _ ih =>
    rw [sheltered_piece]
    constructor
    · intro hout
      obtain ⟨answer, hstands⟩ := exists_stands template lookup p
      rw [resolveChars_of_reads hreads hstands] at hout
      obtain ⟨here, rfl, hthen⟩ := exists_of_bind_eq_ok hout
      obtain ⟨further, hfurther, hend⟩ := exists_of_bind_eq_ok hthen
      obtain ⟨hshelter, texts, htexts, rfl⟩ := ih.1 hfurther
      cases hend
      exact ⟨hshelter, here :: texts, .cons (.piece hstands) htexts, rfl⟩
    · rintro ⟨hshelter, texts, htexts, rfl⟩
      cases htexts with
      | cons hhere hfurther =>
      cases hhere with
      | piece hstands =>
      rw [resolveChars_of_reads hreads hstands, ih.2 ⟨hshelter, _, hfurther, rfl⟩]
      rfl
  | @opening rest sights hopen hskims ih =>
    rw [sheltered_opening]
    by_cases hmarks : (split ('\x7b' :: rest)).marks = []
    · have hnone := hskims.marks_eq_nil_iff.1 hmarks
      rw [resolveChars_of_unclosed_last hopen hmarks]
      exact ⟨nofun, fun ⟨⟨⟨s, hs, hmark⟩, _⟩, _⟩ => absurd hmark (hnone s hs)⟩
    · have hsome : ∃ s ∈ sights, s.IsMark := by
        by_contra hnone
        exact hmarks (hskims.marks_eq_nil_iff.2 fun s hs hmark => hnone ⟨s, hs, hmark⟩)
      rw [resolveChars_of_unclosed hopen hmarks]
      constructor
      · intro hout
        obtain ⟨further, hfurther, hend⟩ := exists_of_bind_eq_ok hout
        obtain ⟨hshelter, texts, htexts, rfl⟩ := ih.1 hfurther
        cases hend
        exact ⟨⟨hsome, hshelter⟩, ['$'] :: texts, .cons .opening htexts, rfl⟩
      · rintro ⟨⟨-, hshelter⟩, texts, htexts, rfl⟩
        cases htexts with
        | cons hhere hfurther =>
        cases hhere
        rw [ih.2 ⟨hshelter, _, hfurther, rfl⟩]
        rfl

/-- A piece stands for one text, or fails. -/
theorem Stands.unique {p : Piece} {answer answer' : Except TemplateError (List Char)}
    (h : Stands template lookup p answer) (h' : Stands template lookup p answer') :
    answer = answer' := by
  cases h <;> cases h' <;> simp_all

theorem exists_shows_of_mem {sights : List Sight} {texts : List (List Char)}
    (h : List.Forall₂ (Shows template lookup) sights texts) {s : Sight} (hs : s ∈ sights) :
    ∃ text, Shows template lookup s text := by
  have hall : List.Forall₂ (fun s text => (∃ text, Shows template lookup s text) ∧
      Shows template lookup s text) sights texts :=
    h.imp fun _ text hshows => ⟨⟨text, hshows⟩, hshows⟩
  exact ((List.forall₂_and_left _ _).1 hall).1 s hs

theorem Fails.cons {sights : List Sight} (h : Fails template lookup sights) (s : Sight) :
    Fails template lookup (s :: sights) := by
  cases h with
  | piece hp hstands => exact .piece (List.mem_cons_of_mem s hp) hstands
  | opening before after heq hnone => exact .opening (s :: before) after (by rw [heq]; rfl) hnone

/-- What does not fail can be filled in. -/
theorem exists_texts_or_fails (template : String) (lookup : Lookup) (sights : List Sight) :
    (Sheltered sights ∧ ∃ texts, List.Forall₂ (Shows template lookup) sights texts) ∨
      Fails template lookup sights := by
  induction sights with
  | nil => exact .inl ⟨sheltered_nil, [], .nil⟩
  | cons s sights ih =>
    rcases ih with ⟨hshelter, texts, htexts⟩ | hfails
    · cases s with
      | piece p =>
        obtain ⟨answer, hstands⟩ := exists_stands template lookup p
        cases answer with
        | error e => exact .inr (.piece List.mem_cons_self hstands)
        | ok text =>
          exact .inl ⟨sheltered_piece.2 hshelter, text :: texts, .cons (.piece hstands) htexts⟩
      | opening =>
        by_cases hmark : ∃ s ∈ sights, s.IsMark
        · exact .inl ⟨sheltered_opening.2 ⟨hmark, hshelter⟩, ['$'] :: texts, .cons .opening htexts⟩
        · exact .inr (.opening [] _ rfl fun s hs hs' => hmark ⟨s, hs, hs'⟩)
    · exact .inr (hfails.cons s)

/-- A template that fails is not filled in, and every other one is. -/
theorem exists_error_iff {cs : List Char} {sights : List Sight} (h : Skims cs sights) :
    (∃ e, resolveChars template lookup cs = .error e) ↔ Fails template lookup sights := by
  constructor
  · rintro ⟨e, he⟩
    rcases exists_texts_or_fails template lookup sights with ⟨hshelter, texts, htexts⟩ | hfails
    · cases he.symm.trans ((resolveChars_eq_ok_iff h).2 ⟨hshelter, texts, htexts, rfl⟩)
    · exact hfails
  · intro hfails
    cases hanswer : resolveChars template lookup cs with
    | error e => exact ⟨e, rfl⟩
    | ok out =>
      obtain ⟨hshelter, texts, htexts, -⟩ := (resolveChars_eq_ok_iff h).1 hanswer
      cases hfails with
      | @piece p e hp hstands =>
        obtain ⟨text, hshows⟩ := exists_shows_of_mem htexts hp
        cases hshows with
        | piece hstands' => cases hstands.unique hstands'
      | @opening before after heq hnone =>
        obtain ⟨s, hs, hmark⟩ := hshelter before after heq
        exact absurd hmark (hnone s hs)

/-! ## Templates with an opening that is never closed -/

theorem resolve_eq_ok_iff {t : Template} {out : String} : t.resolve lookup = .ok out ↔
    resolveChars t.text lookup t.text.toList = .ok out.toList := by
  rw [resolve]
  cases resolveChars t.text lookup t.text.toList with
  | error e => constructor <;> rintro ⟨⟩
  | ok cs =>
    constructor
    · rintro ⟨⟩
      rw [String.toList_ofList]
    · rintro ⟨⟩
      exact congrArg Except.ok String.ofList_toList

theorem resolve_eq_error_iff {t : Template} {e : TemplateError} : t.resolve lookup = .error e ↔
    resolveChars t.text lookup t.text.toList = .error e := by
  rw [resolve]
  cases resolveChars t.text lookup t.text.toList with
  | error e' =>
    exact ⟨fun h => congrArg _ (Except.error.inj h), fun h => congrArg _ (Except.error.inj h)⟩
  | ok cs => constructor <;> rintro ⟨⟩

/-- A template in which the scan comes to an opening that is never closed fails exactly if one of
its pieces fails, or one of its openings has no mark behind it.  Else it is filled in, and each
such opening is copied. -/
theorem unclosed_fails_iff (t : Template) (lookup : Lookup) {rest : List Char}
    (hreaches : Reaches t.text.toList ('$' :: '\x7b' :: rest)) (hopen : '\x7d' ∉ rest) :
    ∃ sights, Skims t.text.toList sights ∧
      (∀ sights', Skims t.text.toList sights' → sights' = sights) ∧ Sight.opening ∈ sights ∧
      ((∃ e, t.resolve lookup = .error e) ↔ Fails t.text lookup sights) ∧
      ∀ out, t.resolve lookup = .ok out ↔ Sheltered sights ∧
        ∃ texts, List.Forall₂ (Shows t.text lookup) sights texts ∧ out.toList = texts.flatten := by
  obtain ⟨sights, hskims⟩ := exists_skims t.text.toList
  refine ⟨sights, hskims, fun sights' h' => h'.unique hskims,
    hskims.mem_of_reaches hreaches rfl hopen, ?_, fun out => ?_⟩
  · simp only [resolve_eq_error_iff]
    exact exists_error_iff hskims
  · rw [resolve_eq_ok_iff]
    exact resolveChars_eq_ok_iff hskims

/-- An opening that has a mark behind it, alone and with another one that has none. -/
theorem unclosed_fails_iff_hidden :
    let lookup : Lookup := fun name => if name = "B" then some "1" else none
    (⟨"$\x7bA$B"⟩ : Template).resolve lookup = .ok "$\x7bA1" ∧
      ∃ e, (⟨"$\x7bA$B$\x7b"⟩ : Template).resolve lookup = .error e := by
  intro lookup
  let front : List Sight :=
    [.opening, .piece (.copy '\x7b'), .piece (.copy 'A'), .piece (.reference ['B'] none)]
  constructor
  · have hskims : Skims ['$', '\x7b', 'A', '$', 'B'] front :=
      .opening (by decide) (.piece (.copy (by decide)) (.piece (.copy (by decide))
        (.piece (@Reads.bare ['B'] [] rfl nofun) .nil)))
    have hshelter : Sheltered front := by
      simp only [front, sheltered_opening, sheltered_piece, sheltered_nil, and_true]
      exact ⟨.piece (.reference ['B'] none), by simp, .reference⟩
    obtain ⟨sights, -, hunique, -, -, hok⟩ :=
      unclosed_fails_iff ⟨"$\x7bA$B"⟩ lookup .here
        (by decide : '\x7d' ∉ ['A', '$', 'B'])
    obtain rfl := hunique front hskims
    refine (hok _).2 ⟨hshelter, [['$'], ['\x7b'], ['A'], ['1']], ?_, by decide⟩
    exact .cons .opening (.cons (.piece .copy) (.cons (.piece .copy)
      (.cons (.piece (@Stands.value _ _ _ "1" rfl rfl)) .nil)))
  · have hend : ∀ c ∈ ['$', '\x7b'].head?, isNameChar c = false := by
      rintro c ⟨⟩
      rfl
    have hskims : Skims ['$', '\x7b', 'A', '$', 'B', '$', '\x7b']
        (front ++ [.opening, .piece (.copy '\x7b')]) :=
      .opening (by decide) (.piece (.copy (by decide)) (.piece (.copy (by decide))
        (.piece (@Reads.bare ['B'] ['$', '\x7b'] rfl hend)
          (.opening (by decide) (.piece (.copy (by decide)) .nil)))))
    obtain ⟨sights, -, hunique, -, herror, -⟩ :=
      unclosed_fails_iff ⟨"$\x7bA$B$\x7b"⟩ lookup .here
        (by decide : '\x7d' ∉ ['A', '$', 'B', '$', '\x7b'])
    obtain rfl := hunique _ hskims
    refine herror.2 (.opening front _ rfl fun s hs hmark => ?_)
    obtain rfl := List.mem_singleton.1 hs
    cases hmark

/-- A template with an opening that is never closed need not fail: a variable behind the opening
hides it. -/
theorem not_forall_unclosed_fails :
    ¬ ∀ (t : Template) (lookup : Lookup) (rest : List Char),
      Reaches t.text.toList ('$' :: '\x7b' :: rest) → '\x7d' ∉ rest →
      ∃ e, t.resolve lookup = .error e := by
  intro hall
  obtain ⟨e, he⟩ := hall ⟨"$\x7bA $B"⟩ (fun _ => some "1") ['A', ' ', '$', 'B'] .here (by decide)
  have hok : (⟨"$\x7bA $B"⟩ : Template).resolve (fun _ => some "1") = .ok "$\x7bA 1" := by
    decide +kernel
  cases hok.symm.trans he

end Provisioner.Template
