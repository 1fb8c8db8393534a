import Mathlib.Data.List.Basic
import Mathlib.Data.List.TakeWhile
import Provisioner.Path
import Provisioner.Proofs.Text.Split

/-!
# What paths are about

As long as there are no links, the place that a path is about can be read off its segments,
whether anything stands there or not.

* `locate` is that place, seen from a current directory, and `follow` goes along some segments.
* `locate_join` is about the path to something below another path.
* `exists_parent`: a path leads one part further than its parent.
* `fileName?_join` and `locate_withFileName`: a file and the one that has its name replaced stand
  in one directory.
-/

namespace Provisioner.Path

/-- One part further.  Dots and empty parts stay, and two dots lead one place up. -/
def advance (place : List String) (part : String) : List String :=
  if part = "" ∨ part = "." then place
  else if part = ".." then place.dropLast
  else place ++ [part]

/-- The place at the end of some segments. -/
def follow (place : List String) (ss : List (List Char)) : List String :=
  (ss.map String.ofList).foldl advance place

/-- The place that a path is about, seen from a current directory. -/
def locate (current : List String) (path : String) : List String :=
  follow (if isAbsolute path then [] else current) (segments path.toList)

variable {place current : List String} {ss : List (List Char)} {path : String}

theorem follow_cons (place : List String) (s : List Char) (ss : List (List Char)) :
    follow place (s :: ss) = follow (advance place (String.ofList s)) ss :=
  rfl

theorem follow_append (place : List String) (ss more : List (List Char)) :
    follow place (ss ++ more) = follow (follow place ss) more := by
  rw [follow, List.map_append, List.foldl_append]
  rfl

/-! ## Segments that do not count -/

theorem advance_of_isIdle {s : List Char} (h : isIdle s = true) :
    advance place (String.ofList s) = place := by
  have hs : s = [] ∨ s = ['.'] := by simpa [isIdle] using h
  rcases hs with rfl | rfl <;> rfl

theorem follow_of_isIdle (h : ∀ s ∈ ss, isIdle s = true) : follow place ss = place := by
  induction ss with
  | nil => rfl
  | cons s ss ih =>
    obtain ⟨hs, hss⟩ := List.forall_mem_cons.1 h
    rw [follow_cons, advance_of_isIdle hs, ih hss]

theorem exists_trimIdle (ss : List (List Char)) :
    ∃ idle, ss = trimIdle ss ++ idle ∧ ∀ s ∈ idle, isIdle s = true := by
  refine ⟨(ss.reverse.takeWhile isIdle).reverse, ?_, fun s hs => ?_⟩
  · rw [trimIdle, ← List.reverse_append, List.takeWhile_append_dropWhile, List.reverse_reverse]
  · exact List.mem_takeWhile_imp (List.mem_reverse.1 hs)

theorem trimIdle_isPrefix (ss : List (List Char)) : trimIdle ss <+: ss := by
  obtain ⟨idle, h, -⟩ := exists_trimIdle ss
  exact ⟨idle, h.symm⟩

theorem follow_trimIdle (place : List String) (ss : List (List Char)) :
    follow place (trimIdle ss) = follow place ss := by
  obtain ⟨idle, h, hidle⟩ := exists_trimIdle ss
  have happend : follow place (trimIdle ss ++ idle) = follow place (trimIdle ss) := by
    rw [follow_append, follow_of_isIdle hidle]
  rw [← happend, ← h]

theorem trimIdle_concat {s : List Char} (h : isIdle s = false) (ss : List (List Char)) :
    trimIdle (ss ++ [s]) = ss ++ [s] := by
  have hs : ¬ isIdle s = true := Bool.eq_false_iff.1 h
  rw [trimIdle, List.reverse_append, List.reverse_singleton, List.singleton_append,
    List.dropWhile_cons_of_neg hs, List.reverse_cons, List.reverse_reverse]

theorem trimIdle_of_getLast? {s : List Char} (hs : isIdle s = false) (h : ss.getLast? = some s) :
    trimIdle ss = ss := by
  obtain ⟨before, rfl⟩ := List.getLast?_eq_some_iff.1 h
  exact trimIdle_concat hs before

/-! ## Segments of a text -/

theorem segments_cons_slash (cs : List Char) : segments ('/' :: cs) = [] :: segments cs :=
  Text.split_append_cons (List.forall_mem_nil _) rfl cs

theorem segments_append_slash (before after : List Char) :
    segments (before ++ '/' :: after) = segments before ++ segments after :=
  Text.split_append rfl before after

theorem notMem_of_mem_segments {cs s : List Char} (h : s ∈ segments cs) : '/' ∉ s :=
  fun hmem => by cases Text.not_isBreak_of_mem_split h '/' hmem

theorem segments_of_notMem {cs : List Char} (h : '/' ∉ cs) : segments cs = [cs] :=
  Text.split_of_none fun _ hc => beq_eq_false_iff_ne.2 fun heq => h (heq ▸ hc)

/-- Segments that are put together lead to the same place again. -/
theorem follow_segments_unsegments (place : List String) (h : ∀ s ∈ ss, '/' ∉ s) :
    follow place (segments (unsegments ss)) = follow place ss := by
  by_cases hne : ss = []
  · subst hne
    rfl
  · rw [segments, unsegments, Text.split_join hne h]

/-! ## Paths below other paths -/

theorem isAbsolute_eq {path : String} {c : Char} {rest : List Char} (h : path.toList = c :: rest) :
    isAbsolute path = (c == '/') := by
  rw [isAbsolute, h]
  rfl

/-- There is one slash between a path and what is put below it, unless the path is empty. -/
theorem join_cases {name : String} (h : isAbsolute name = false) (base : String) :
    (base = "" ∧ join base name = name) ∨
    (∃ before, base.toList = before ++ ['/'] ∧
      (join base name).toList = before ++ '/' :: name.toList) ∨
    (base ≠ "" ∧ (join base name).toList = base.toList ++ '/' :: name.toList) := by
  rw [join, if_neg (Bool.eq_false_iff.1 h)]
  by_cases hempty : base = ""
  · subst hempty
    exact .inl ⟨rfl, String.empty_append⟩
  · have hisEmpty : base.isEmpty = false :=
      Bool.eq_false_iff.2 fun h => hempty (String.isEmpty_iff.1 h)
    rw [hisEmpty, Bool.false_or]
    by_cases hend : (base.toList.getLast? == some '/') = true
    · obtain ⟨before, hbase⟩ := List.getLast?_eq_some_iff.1 (beq_iff_eq.1 hend)
      refine .inr (.inl ⟨before, hbase, ?_⟩)
      rw [if_pos hend, String.toList_append, hbase, List.append_assoc, List.singleton_append]
    · refine .inr (.inr ⟨hempty, ?_⟩)
      rw [if_neg hend, String.toList_append, String.toList_append, List.append_assoc]
      rfl

theorem join_ne_empty {name : String} (h : isAbsolute name = false) (hname : name ≠ "")
    (base : String) : join base name ≠ "" := by
  intro hempty
  have hnil : (join base name).toList = [] := by
    rw [hempty]
    rfl
  rcases join_cases h base with ⟨-, hjoin⟩ | ⟨before, -, hjoin⟩ | ⟨-, hjoin⟩
  · exact hname (hjoin.symm.trans hempty)
  · exact List.append_ne_nil_of_right_ne_nil _ (List.cons_ne_nil _ _) (hjoin.symm.trans hnil)
  · exact List.append_ne_nil_of_right_ne_nil _ (List.cons_ne_nil _ _) (hjoin.symm.trans hnil)

theorem exists_join_eq_append {name : String} (h : isAbsolute name = false) (base : String) :
    ∃ more, join base name = base ++ more := by
  rw [join, if_neg (Bool.eq_false_iff.1 h)]
  split
  · exact ⟨name, rfl⟩
  · exact ⟨"/" ++ name, String.append_assoc⟩

theorem isAbsolute_of_toList {base : String} {more : List Char} (hne : base ≠ "")
    (h : path.toList = base.toList ++ more) : isAbsolute path = isAbsolute base := by
  cases hbase : base.toList with
  | nil => exact absurd (String.toList_inj.1 hbase) hne
  | cons c rest =>
    rw [hbase, List.cons_append] at h
    rw [isAbsolute_eq h, isAbsolute_eq hbase]

theorem locate_join {name : String} (h : isAbsolute name = false) (base : String) :
    locate current (join base name) = follow (locate current base) (segments name.toList) := by
  rcases join_cases h base with ⟨rfl, hjoin⟩ | ⟨before, hbase, hjoin⟩ | ⟨hne, hjoin⟩
  · rw [hjoin, locate, h]
    rfl
  · have hne : base ≠ "" := by
      rintro rfl
      exact List.append_ne_nil_of_right_ne_nil _ (List.cons_ne_nil _ _) hbase.symm
    have happend : (join base name).toList = base.toList ++ name.toList := by
      rw [hjoin, hbase, List.append_assoc, List.singleton_append]
    rw [locate, locate, isAbsolute_of_toList hne happend, hjoin, hbase, segments_append_slash,
      segments_append_slash, follow_append, follow_append]
    rfl
  · rw [locate, locate, isAbsolute_of_toList hne hjoin, hjoin, segments_append_slash,
      follow_append]

/-- The last segment of a path is that of what was put there. -/
theorem getLast?_segments_join {name : String} (h : isAbsolute name = false) (base : String) :
    (segments (join base name).toList).getLast? = (segments name.toList).getLast? := by
  have hlast : ∀ before, (segments (before ++ '/' :: name.toList)).getLast? =
      (segments name.toList).getLast? := by
    intro before
    rw [segments_append_slash]
    exact List.getLast?_append_of_ne_nil _ (Text.split_ne_nil _ _)
  rcases join_cases h base with ⟨-, hjoin⟩ | ⟨before, -, hjoin⟩ | ⟨-, hjoin⟩
  · rw [hjoin]
  · rw [hjoin, hlast]
  · rw [hjoin, hlast]

/-! ## Parents -/

/-- The place at which a path with a beginning starts. -/
def origin (current : List String) (start : List Char) : List String :=
  if start = ['/'] then [] else current

/-- Segments that can stand behind a beginning, so that they stay what they are. -/
structure Fits (start : List Char) (ss : List (List Char)) : Prop where
  whole : ∀ s ∈ ss, '/' ∉ s
  first : start = ['/'] ∨ (start = ['.'] ∧ ∀ s ∈ ss.head?, s = []) ∨
    (start = [] ∧ ∀ s ∈ ss.head?, s ≠ [])

theorem Fits.of_isPrefix {start : List Char} {before : List (List Char)} (h : Fits start ss)
    (hbefore : before <+: ss) : Fits start before := by
  refine ⟨fun s hs => h.whole s (hbefore.subset hs), ?_⟩
  have hhead : ∀ s ∈ before.head?, s ∈ ss.head? := by
    obtain ⟨after, rfl⟩ := hbefore
    cases before with
    | nil => nofun
    | cons t before => exact fun s hs => hs
  rcases h.first with hroot | ⟨hdot, hfirst⟩ | ⟨hnone, hfirst⟩
  · exact .inl hroot
  · exact .inr (.inl ⟨hdot, fun s hs => hfirst s (hhead s hs)⟩)
  · exact .inr (.inr ⟨hnone, fun s hs => hfirst s (hhead s hs)⟩)

/-- The place of a path that is put together from a beginning and segments. -/
theorem Fits.locate {start : List Char} (h : Fits start ss) (current : List String) :
    locate current (String.ofList (start ++ unsegments ss)) = follow (origin current start) ss := by
  rcases h.first with rfl | ⟨rfl, hfirst⟩ | ⟨rfl, hfirst⟩
  · have hchars : (String.ofList (['/'] ++ unsegments ss)).toList = '/' :: unsegments ss :=
      String.toList_ofList
    rw [Path.locate, isAbsolute_eq hchars, hchars, segments_cons_slash]
    exact follow_segments_unsegments [] h.whole
  · have hchars : (String.ofList (['.'] ++ unsegments ss)).toList = '.' :: unsegments ss :=
      String.toList_ofList
    rw [Path.locate, isAbsolute_eq hchars, hchars]
    show follow current (segments ('.' :: unsegments ss)) = follow current ss
    match ss, hfirst with
    | [], _ => rfl
    | [s], hfirst =>
      obtain rfl := hfirst s rfl
      rfl
    | s :: next :: rest, hfirst =>
      obtain rfl := hfirst s rfl
      show follow current (segments (['.'] ++ '/' :: unsegments (next :: rest))) = _
      rw [segments_append_slash]
      exact follow_segments_unsegments current
        fun s hs => h.whole s (List.mem_cons_of_mem _ hs)
  · have hrelative : isAbsolute (String.ofList ([] ++ unsegments ss)) = false := by
      rw [isAbsolute, String.toList_ofList, List.nil_append]
      match ss, h.whole, hfirst with
      | [], _, _ => rfl
      | s :: rest, hwhole, hfirst =>
        cases s with
        | nil => exact absurd rfl (hfirst [] rfl)
        | cons c s =>
          have hc : c ≠ '/' := fun heq => hwhole _ List.mem_cons_self (heq ▸ List.mem_cons_self)
          have hhead : (unsegments ((c :: s) :: rest)).head? = some c := by
            cases rest <;> rfl
          rw [hhead]
          exact beq_eq_false_iff_ne.2 fun heq => hc (Option.some.inj heq)
    rw [Path.locate, hrelative, String.toList_ofList, List.nil_append]
    exact follow_segments_unsegments current h.whole

/-- How a path is cut: at the root, at a leading dot, or not at all. -/
theorem cut_cases (h : path ≠ "") :
    (∃ rest, path.toList = '/' :: rest ∧ cut path = (['/'], segments rest)) ∨
    (path.toList = ['.'] ∧ cut path = (['.'], [[]])) ∨
    (∃ rest, path.toList = '.' :: '/' :: rest ∧ cut path = (['.'], [] :: segments rest)) ∨
    ∃ c rest, path.toList = c :: rest ∧ c ≠ '/' ∧ cut path = ([], segments (c :: rest)) := by
  unfold cut
  split
  · next rest hchars => exact .inl ⟨rest, hchars, rfl⟩
  · next hchars => exact .inr (.inl ⟨hchars, rfl⟩)
  · next rest hchars =>
    rw [segments_cons_slash]
    exact .inr (.inr (.inl ⟨rest, hchars, rfl⟩))
  · next cs hroot _ _ =>
    cases hchars : path.toList with
    | nil => exact absurd (String.toList_inj.1 hchars) h
    | cons c rest =>
      refine .inr (.inr (.inr ⟨c, rest, rfl, ?_, rfl⟩))
      rintro rfl
      exact hroot rest hchars

theorem fits_cut (h : path ≠ "") : Fits (cut path).1 (cut path).2 := by
  rcases cut_cases h with ⟨rest, -, hcut⟩ | ⟨-, hcut⟩ | ⟨rest, -, hcut⟩ | ⟨c, rest, -, hc, hcut⟩
  · rw [hcut]
    exact ⟨fun s => notMem_of_mem_segments, .inl rfl⟩
  · rw [hcut]
    exact ⟨by decide, .inr (.inl ⟨rfl, by rintro s ⟨⟩; rfl⟩)⟩
  · rw [hcut]
    refine ⟨fun s hs => ?_, .inr (.inl ⟨rfl, by rintro s ⟨⟩; rfl⟩)⟩
    rcases List.mem_cons.1 hs with rfl | hs
    · exact List.not_mem_nil
    · exact notMem_of_mem_segments hs
  · rw [hcut]
    refine ⟨fun s => notMem_of_mem_segments, .inr (.inr ⟨rfl, ?_⟩)⟩
    obtain ⟨first, more, hfirst⟩ :=
      List.exists_cons_of_ne_nil (Text.split_ne_nil (· == '/') rest)
    have hsegments : segments (c :: rest) = (c :: first) :: more := by
      refine Text.split_cons_of_not ?_ hfirst
      exact beq_eq_false_iff_ne.2 hc
    rw [hsegments]
    rintro s ⟨⟩
    exact List.cons_ne_nil c first

theorem locate_eq_cut (h : path ≠ "") (current : List String) :
    locate current path = follow (origin current (cut path).1) (cut path).2 := by
  rcases cut_cases h with ⟨rest, hchars, hcut⟩ | ⟨hchars, hcut⟩ | ⟨rest, hchars, hcut⟩ |
    ⟨c, rest, hchars, hc, hcut⟩
  · rw [locate, isAbsolute_eq hchars, hchars, hcut, segments_cons_slash]
    rfl
  · rw [locate, isAbsolute_eq hchars, hchars, hcut]
    rfl
  · rw [locate, isAbsolute_eq hchars, hchars, hcut]
    show follow current (segments (['.'] ++ '/' :: rest)) = _
    rw [segments_append_slash]
    rfl
  · rw [locate, isAbsolute_eq hchars, beq_eq_false_iff_ne.2 hc, hchars, hcut]
    rfl

/-- Cutting leaves the last segment of a path as it is, if it counts. -/
theorem getLast?_cut {s : List Char} (hs : isIdle s = false)
    (h : (segments path.toList).getLast? = some s) : (cut path).2.getLast? = some s := by
  have hbehind : ∀ (first : List Char) (rest : List Char),
      (first :: segments rest).getLast? = (segments rest).getLast? := by
    intro first rest
    exact List.getLast?_cons_of_ne_nil (Text.split_ne_nil _ rest)
  have hne : path ≠ "" := by
    rintro rfl
    obtain rfl : [] = s := Option.some.inj h
    cases hs
  rcases cut_cases hne with ⟨rest, hchars, hcut⟩ | ⟨hchars, -⟩ | ⟨rest, hchars, hcut⟩ |
    ⟨c, rest, hchars, -, hcut⟩
  · rw [hchars, segments_cons_slash, hbehind] at h
    rw [hcut, h]
  · rw [hchars] at h
    obtain rfl : ['.'] = s := Option.some.inj h
    cases hs
  · have hsegments : segments ('.' :: '/' :: rest) = ['.'] :: segments rest :=
      segments_append_slash ['.'] rest
    rw [hchars, hsegments, hbehind] at h
    rw [hcut, hbehind, h]
  · rw [hcut, ← hchars, h]

theorem exists_of_fileName? {name : String} (h : fileName? path = some name) :
    ∃ up, trimIdle (cut path).2 = up ++ [name.toList] := by
  unfold fileName? at h
  split at h
  · cases h
  · next s hs =>
    split at h
    · cases h
    · obtain rfl := Option.some.inj h
      rw [String.toList_ofList]
      exact List.getLast?_eq_some_iff.1 hs

/-- A path leads one part further than its parent. -/
theorem exists_parent {name : String} (h : fileName? path = some name) :
    ∃ up, parent? path = some up ∧
      ∀ current, locate current path = advance (locate current up) name := by
  have hne : path ≠ "" := by
    rintro rfl
    cases h
  obtain ⟨above, habove⟩ := exists_of_fileName? h
  have hparent : parent? path =
      some (String.ofList ((cut path).1 ++ unsegments (trimIdle above))) := by
    unfold parent?
    dsimp only
    rw [habove, List.dropLast_concat]
    split
    · next hnil => exact absurd hnil (List.append_ne_nil_of_right_ne_nil _ (List.cons_ne_nil _ _))
    · rfl
  have hbefore : trimIdle above <+: (cut path).2 := by
    refine (trimIdle_isPrefix above).trans ((List.prefix_append above [name.toList]).trans ?_)
    rw [← habove]
    exact trimIdle_isPrefix _
  refine ⟨_, hparent, fun current => ?_⟩
  rw [((fits_cut hne).of_isPrefix hbefore).locate, follow_trimIdle, locate_eq_cut hne,
    ← follow_trimIdle, habove, follow_append]
  show advance _ (String.ofList name.toList) = _
  rw [String.ofList_toList]

/-! ## Files beside each other -/

/-- A name that is a part of its own. -/
structure IsPlain (name : String) : Prop where
  whole : '/' ∉ name.toList
  counts : isIdle name.toList = false
  ne : name ≠ ".."

theorem IsPlain.segments_eq {name : String} (h : IsPlain name) :
    segments name.toList = [name.toList] :=
  segments_of_notMem h.whole

theorem IsPlain.isAbsolute_eq_false {name : String} (h : IsPlain name) :
    isAbsolute name = false := by
  rw [isAbsolute]
  refine beq_eq_false_iff_ne.2 fun hhead => h.whole ?_
  exact List.mem_of_mem_head? hhead

/-- A plain name is one more segment.  A slash at the end of the path before is the one that comes
before the name. -/
theorem IsPlain.segments_join {name base : String} (h : IsPlain name) (hne : base ≠ "") :
    ∃ above behind, segments (join base name).toList = above ++ [name.toList] ∧
      segments base.toList = above ++ behind ∧ (behind = [] ∨ behind = [[]]) := by
  rcases join_cases h.isAbsolute_eq_false base with
    ⟨hempty, -⟩ | ⟨before, hslash, hjoin⟩ | ⟨-, hjoin⟩
  · exact absurd hempty hne
  · rw [hjoin, hslash, segments_append_slash, segments_append_slash, h.segments_eq]
    exact ⟨segments before, [[]], rfl, rfl, .inr rfl⟩
  · rw [hjoin, segments_append_slash, h.segments_eq]
    exact ⟨segments base.toList, [], rfl, (List.append_nil _).symm, .inl rfl⟩

theorem IsPlain.advance_eq {name : String} (h : IsPlain name) (place : List String) :
    advance place name = place ++ [name] := by
  have hcounts : ¬ (name = "" ∨ name = ".") := by
    rintro (rfl | rfl)
    · cases h.counts
    · cases h.counts
  rw [advance, if_neg hcounts, if_neg h.ne]

theorem IsPlain.locate_join {name : String} (h : IsPlain name) (base : String) :
    Path.locate current (join base name) = Path.locate current base ++ [name] := by
  rw [Path.locate_join h.isAbsolute_eq_false, h.segments_eq, follow_cons, String.ofList_toList,
    h.advance_eq]
  rfl

theorem IsPlain.fileName?_join {name : String} (h : IsPlain name) (base : String) :
    fileName? (join base name) = some name := by
  have hsegments : (segments (join base name).toList).getLast? = some name.toList := by
    rw [getLast?_segments_join h.isAbsolute_eq_false, h.segments_eq, List.getLast?_singleton]
  have hlast := getLast?_cut h.counts hsegments
  have hdots : name.toList ≠ ['.', '.'] := fun heq => h.ne (String.toList_inj.1 heq)
  rw [fileName?, trimIdle_of_getLast? h.counts hlast, hlast]
  dsimp only
  rw [if_neg hdots, String.ofList_toList]

/-- A file and the one with another name stand in one directory. -/
theorem locate_withFileName {name other : String} (h : fileName? path = some name)
    (hother : IsPlain other) (current : List String) : ∃ directory,
      locate current path = advance directory name ∧
      locate current (withFileName path other) = directory ++ [other] := by
  obtain ⟨up, hup, hpath⟩ := exists_parent h
  refine ⟨locate current up, hpath current, ?_⟩
  rw [withFileName, h, hup]
  exact hother.locate_join up

end Provisioner.Path
