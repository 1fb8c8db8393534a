import Mathlib.Data.List.Basic
import Provisioner.Proofs.Text.Split
import Provisioner.Proofs.Url.Percent
import Provisioner.Url

/-!
# Paths of URLs

A path is written with a slash before every segment, and read by splitting it at the slashes.

* `Url.segments` are the segments that the text of a path has; `segments_eq`: these are the
  segments of the path if no mark of a URL is in one of them.
* `Url.exists_of_parse?` is what a URL of the web is read as.
* `append_cases` says what a name adds to a path: a segment of its own, unless it reads as one
  dot or two once its tabs and line ends are dropped.
* `foldl_append_of_plain` appends names that are none of these, and `length_foldl_append_iff`
  says when every name adds one segment.
-/

namespace Provisioner

namespace Url

/-! ## Segments of a text -/

/-- The segments that the text of the path has: what stands between its slashes, behind the
first one. -/
def segments (u : Url) : List (List Char) :=
  Text.split (· == '/') u.pathText.toList.tail

/-- Segments in which nothing ends the segment or the path. -/
def Whole (path : List String) : Prop :=
  ∀ s ∈ path, ∀ c, c = '/' ∨ c = '?' ∨ c = '#' → c ∉ s.toList

theorem Whole.append {path more : List String} (h : Whole path) (hmore : Whole more) :
    Whole (path ++ more) := by
  intro s hs
  rcases List.mem_append.1 hs with hs | hs
  · exact h s hs
  · exact hmore s hs

theorem Whole.subset {path more : List String} (h : Whole path) (hsubset : more ⊆ path) :
    Whole more :=
  fun s hs => h s (hsubset hs)

theorem whole_singleton {s : String} (h : ∀ c, c = '/' ∨ c = '?' ∨ c = '#' → c ∉ s.toList) :
    Whole [s] :=
  fun _ ht => List.mem_singleton.1 ht ▸ h

theorem whole_empty : Whole [""] :=
  whole_singleton fun _ _ h => absurd h List.not_mem_nil

theorem pathText_toList (u : Url) :
    u.pathText.toList = u.path.flatMap fun s => '/' :: s.toList := by
  have hslash : ∀ s : String, ("/" ++ s).toList = '/' :: s.toList := fun s => String.toList_append
  rw [pathText, String.toList_join, List.flatMap_map]
  simp only [hslash]

theorem split_flatMap {s : String} {path : List String}
    (h : ∀ t ∈ s :: path, '/' ∉ t.toList) :
    Text.split (· == '/') (s.toList ++ path.flatMap fun t => '/' :: t.toList) =
      s.toList :: path.map String.toList := by
  have hs : ∀ c ∈ s.toList, (c == '/') = false := by
    rintro c hc
    refine beq_eq_false_iff_ne.2 ?_
    rintro rfl
    exact h s List.mem_cons_self hc
  induction path generalizing s with
  | nil =>
    rw [List.flatMap_nil, List.append_nil, Text.split_of_none hs]
    rfl
  | cons t path ih =>
    have hrest : ∀ t' ∈ t :: path, '/' ∉ t'.toList :=
      fun t' ht' => h t' (List.mem_cons_of_mem _ ht')
    rw [List.flatMap_cons, List.cons_append, Text.split_append_cons hs rfl, ih hrest, List.map_cons]
    rintro c hc
    refine beq_eq_false_iff_ne.2 ?_
    rintro rfl
    exact hrest t List.mem_cons_self hc

/-- A path is read as it was written. -/
theorem segments_eq {u : Url} (hne : u.path ≠ []) (h : Whole u.path) :
    u.segments = u.path.map String.toList := by
  obtain ⟨s, rest, hpath⟩ := List.exists_cons_of_ne_nil hne
  rw [segments, pathText_toList, hpath, List.flatMap_cons, List.cons_append, List.tail_cons]
  refine split_flatMap fun t ht => ?_
  rw [hpath] at h
  exact h t ht '/' (.inl rfl)

theorem notMem_pathText {u : Url} (h : Whole u.path) {c : Char} (hc : c = '?' ∨ c = '#') :
    c ∉ u.pathText.toList := by
  rw [pathText_toList]
  intro hmem
  obtain ⟨s, hs, hin⟩ := List.mem_flatMap.1 hmem
  rcases List.mem_cons.1 hin with rfl | hin
  · revert hc
    decide
  · exact h s hs c (.inr hc) hin

/-! ## URLs of the web that were read -/

/-- URLs that are asked for over the web. -/
def IsWeb (u : Url) : Prop :=
  u.scheme = "http" ∨ u.scheme = "https"

theorem IsWeb.isSpecial {u : Url} (h : u.IsWeb) : isSpecial u.scheme = true := by
  rcases h with h | h
  · rw [h]
    rfl
  · rw [h]
    rfl

theorem IsWeb.ne_fileScheme {u : Url} (h : u.IsWeb) : u.scheme ≠ fileScheme := by
  rcases h with h | h
  · rw [h]
    decide
  · rw [h]
    decide

/-- A URL of the web that was read has a host, and its path is that of the text behind it. -/
theorem exists_of_parse? {text : String} {u : Url} (h : parse? text = some u) (hweb : u.IsWeb) :
    ∃ authority tail, u.authority? = some authority ∧ u.path = readPath true tail := by
  unfold parse? at h
  obtain ⟨⟨scheme, rest⟩, -, h⟩ := Option.bind_eq_some_iff.1 h
  dsimp only at h
  have hassembled : ∀ {authority? : Option String} {tail : List Char},
      some (assemble scheme authority? tail) = some u → scheme = u.scheme := by
    intro authority? tail heq
    rw [← Option.some.inj heq]
    rfl
  split at h
  · rename_i hfile
    obtain ⟨⟨host, tail⟩, -, h⟩ := Option.bind_eq_some_iff.1 h
    exact absurd ((hassembled h).symm.trans hfile) hweb.ne_fileScheme
  · split at h
    · rename_i hspecial
      obtain ⟨⟨authority, tail⟩, -, h⟩ := Option.bind_eq_some_iff.1 h
      obtain rfl := hassembled h
      have hfile : (u.scheme == fileScheme) = false := beq_eq_false_iff_ne.2 hweb.ne_fileScheme
      have hu : assemble u.scheme (some authority) tail = u := Option.some.inj h
      refine ⟨authority, (cutOff '?' (cutOff '#' tail).1).1, ?_, ?_⟩
      · rw [← hu]
        simp only [assemble, hfile, Bool.false_and, Bool.false_eq_true, if_false]
      · rw [← hu]
        simp only [assemble, hfile, Bool.false_eq_true, if_false, hspecial]
    · rename_i hspecial
      have hscheme : scheme = u.scheme := by
        split at h
        · obtain ⟨⟨authority, tail⟩, -, h⟩ := Option.bind_eq_some_iff.1 h
          exact hassembled h
        · exact hassembled h
        · cases h
      rw [hscheme] at hspecial
      exact absurd hweb.isSpecial hspecial

/-! ### The path of a text -/

theorem above_sublist (path : List String) : (above path).Sublist path := by
  unfold above
  split
  · split
    · exact List.Sublist.refl path
    · exact List.dropLast_sublist path
  · exact List.nil_sublist path

/-- The last segment of a path stands behind segments that were there before. -/
theorem exists_finish (path : List String) (last : List Char) :
    ∃ front s, front.Sublist path ∧ (s = "" ∨ s = String.ofList last) ∧
      finish path last = front ++ [s] := by
  unfold finish
  split
  · exact ⟨above path, "", above_sublist path, .inl rfl, rfl⟩
  · split
    · exact ⟨path, "", List.Sublist.refl path, .inl rfl, rfl⟩
    · exact ⟨path, String.ofList last, List.Sublist.refl path, .inr rfl, rfl⟩

theorem whole_finish {path : List String} {last : List Char} (h : Whole path)
    (hlast : ∀ c, c = '/' ∨ c = '?' ∨ c = '#' → c ∉ last) : Whole (finish path last) := by
  obtain ⟨front, s, hfront, hs, heq⟩ := exists_finish path last
  have hend : Whole [s] := by
    rcases hs with rfl | rfl
    · exact whole_empty
    · exact whole_singleton (by rwa [String.toList_ofList])
  rw [heq]
  exact (h.subset hfront.subset).append hend

theorem whole_descend {path : List String} {next : List Char} (h : Whole path)
    (hnext : ∀ c, c = '/' ∨ c = '?' ∨ c = '#' → c ∉ next) : Whole (descend path next) := by
  unfold descend
  split
  · exact h.subset (above_sublist path).subset
  · split
    · exact h
    · refine h.append (whole_singleton ?_)
      rwa [String.toList_ofList]

theorem finish_ne_nil (path : List String) (last : List Char) : finish path last ≠ [] := by
  obtain ⟨front, s, -, -, heq⟩ := exists_finish path last
  rw [heq]
  exact List.concat_ne_nil s front

theorem whole_ofParts {parts : List (List Char)} (hparts : ∀ part ∈ parts, '/' ∉ part)
    {path : List String} (h : Whole path) : Whole (ofParts path parts) := by
  have hencoded : ∀ part ∈ parts, ∀ c, c = '/' ∨ c = '?' ∨ c = '#' →
      c ∉ Percent.encode Percent.path part := by
    intro part hpart c hc
    refine Percent.notMem_encode hc ?_
    rcases hc with rfl | rfl | rfl
    · exact .inr (hparts part hpart)
    · exact .inl rfl
    · exact .inl rfl
  fun_induction ofParts path parts with
  | case1 path => exact h
  | case2 path last => exact whole_finish h (hencoded last List.mem_cons_self)
  | case3 path part next rest ih =>
    refine ih (fun p hp => hparts p (List.mem_cons_of_mem _ hp))
      (whole_descend h (hencoded part List.mem_cons_self))
      fun p hp => hencoded p (List.mem_cons_of_mem _ hp)

theorem ofParts_ne_nil {path : List String} {parts : List (List Char)} (h : parts ≠ []) :
    ofParts path parts ≠ [] := by
  fun_induction ofParts path parts with
  | case1 path => exact absurd rfl h
  | case2 path last => exact finish_ne_nil path _
  | case3 path part next rest ih => exact ih (List.cons_ne_nil next rest)

theorem whole_readPath (cs : List Char) : Whole (readPath true cs) ∧ readPath true cs ≠ [] := by
  have hsegments : ∀ cs, Whole (segmentsOf true cs) ∧ segmentsOf true cs ≠ [] := by
    intro cs
    refine ⟨whole_ofParts ?_ fun _ hs => absurd hs List.not_mem_nil,
      ofParts_ne_nil (Text.split_ne_nil _ cs)⟩
    intro part hpart hslash
    cases Text.not_isBreak_of_mem_split hpart '/' hslash
  unfold readPath
  split
  · exact ⟨whole_empty, List.cons_ne_nil _ _⟩
  · split
    · exact hsegments _
    · exact hsegments _

/-! ## Dots -/

theorem toLower_cases (c : Char) :
    c.toLower = c ∨ 65 ≤ c.toNat ∧ c.toNat ≤ 90 ∧ c.toLower.toNat = c.toNat + 32 := by
  unfold Char.toLower
  split
  · rename_i h
    have hlow : 65 ≤ c.val.toNat := UInt32.le_iff_toNat_le.1 h.1
    have hhigh : c.val.toNat ≤ 90 := UInt32.le_iff_toNat_le.1 h.2
    refine .inr ⟨hlow, hhigh, ?_⟩
    show (c.val + 32).toNat = c.val.toNat + 32
    rw [UInt32.toNat_add]
    exact Nat.mod_eq_of_lt (by show c.val.toNat + 32 < 4294967296; omega)
  · exact .inl rfl

/-- A character that is no capital and no letter is the small form of itself alone. -/
theorem eq_of_toLower_eq {c d : Char} (h : c.toLower = d) (hd : d.toNat < 97) : c = d := by
  rcases toLower_cases c with heq | ⟨hlow, -, hnat⟩
  · exact heq.symm.trans h
  · rw [h] at hnat
    omega

theorem eq_or_of_toLower_eq_e {c : Char} (h : c.toLower = 'e') : c = 'e' ∨ c = 'E' := by
  rcases toLower_cases c with heq | ⟨-, -, hnat⟩
  · exact .inl (heq.symm.trans h)
  · rw [h] at hnat
    have hc : c.toNat = 69 := by
      have he : 'e'.toNat = 101 := rfl
      omega
    refine .inr (Char.toNat_inj.1 ?_)
    exact hc

/-- The ways to write a segment of one dot. -/
def dots : List (List Char) := [['.'], ['%', '2', 'e'], ['%', '2', 'E']]

theorem mem_dots {cs : List Char} (h : isSingleDot cs = true) : cs ∈ dots := by
  simp only [isSingleDot, Bool.or_eq_true, beq_iff_eq] at h
  rcases h with h | h
  · obtain ⟨a, rest, rfl, ha, h⟩ := List.map_eq_cons_iff.1 h
    obtain rfl := List.map_eq_nil_iff.1 h
    obtain rfl := eq_of_toLower_eq ha (by decide)
    decide
  · obtain ⟨a, _, rfl, ha, h⟩ := List.map_eq_cons_iff.1 h
    obtain ⟨b, _, rfl, hb, h⟩ := List.map_eq_cons_iff.1 h
    obtain ⟨e, _, rfl, he, h⟩ := List.map_eq_cons_iff.1 h
    obtain rfl := List.map_eq_nil_iff.1 h
    obtain rfl := eq_of_toLower_eq ha (by decide)
    obtain rfl := eq_of_toLower_eq hb (by decide)
    rcases eq_or_of_toLower_eq_e he with rfl | rfl
    · decide
    · decide

/-- What reads as two dots is two texts that each read as one. -/
theorem exists_of_isDoubleDot {cs : List Char} (h : isDoubleDot cs = true) :
    ∃ first second, cs = first ++ second ∧ isSingleDot first = true ∧
      isSingleDot second = true := by
  have hcut : ∀ {x y : List Char}, cs.map Char.toLower = x ++ y →
      (x = ['.'] ∨ x = ['%', '2', 'e']) → (y = ['.'] ∨ y = ['%', '2', 'e']) →
      ∃ first second, cs = first ++ second ∧ isSingleDot first = true ∧
        isSingleDot second = true := by
    intro x y hxy hx hy
    obtain ⟨first, second, rfl, rfl, rfl⟩ := List.map_eq_append_iff.1 hxy
    refine ⟨first, second, rfl, ?_, ?_⟩
    · simpa only [isSingleDot, Bool.or_eq_true, beq_iff_eq] using hx
    · simpa only [isSingleDot, Bool.or_eq_true, beq_iff_eq] using hy
  simp only [isDoubleDot, Bool.or_eq_true, beq_iff_eq] at h
  rcases h with ((h | h) | h) | h
  · exact hcut (x := ['.']) h (.inl rfl) (.inl rfl)
  · exact hcut (x := ['%', '2', 'e']) h (.inr rfl) (.inl rfl)
  · exact hcut (x := ['.']) h (.inl rfl) (.inr rfl)
  · exact hcut (x := ['%', '2', 'e']) h (.inr rfl) (.inr rfl)

section

variable {set : Char → Bool}

/-- An encoded text reads as one dot only if it is one. -/
theorem isSingleDot_encode (hpercent : set '%' = true) (hdot : set '.' = false)
    (cs : List Char) : isSingleDot (Percent.encode set cs) = true ↔ cs = ['.'] := by
  constructor
  · intro h
    have hall : ∀ ds ∈ dots, Percent.decode ds = ['.'].flatMap String.utf8EncodeChar := by decide
    refine Text.Utf8.flatMap_injective ?_
    rw [← Percent.decode_encode hpercent]
    exact hall _ (mem_dots h)
  · rintro rfl
    rw [Percent.encode_of_forall fun c hc => List.mem_singleton.1 hc ▸ hdot]
    rfl

/-- An encoded text reads as two dots only if it is two. -/
theorem isDoubleDot_encode (hpercent : set '%' = true) (hdot : set '.' = false)
    (cs : List Char) : isDoubleDot (Percent.encode set cs) = true ↔ cs = ['.', '.'] := by
  constructor
  · intro h
    obtain ⟨first, second, heq, hfirst, hsecond⟩ := exists_of_isDoubleDot h
    have hall : ∀ ds ∈ dots, ∀ es ∈ dots,
        Percent.decode (ds ++ es) = ['.', '.'].flatMap String.utf8EncodeChar := by decide
    refine Text.Utf8.flatMap_injective ?_
    rw [← Percent.decode_encode hpercent, heq]
    exact hall first (mem_dots hfirst) second (mem_dots hsecond)
  · rintro rfl
    have hdots : ∀ c ∈ ['.', '.'], set c = false := by
      intro c hc
      rcases List.mem_cons.1 hc with rfl | hc
      · exact hdot
      · exact List.mem_singleton.1 hc ▸ hdot
    rw [Percent.encode_of_forall hdots]
    rfl

end

/-! ## Names as segments -/

/-- A name without its tabs and line ends. -/
def bare (name : String) : List Char :=
  name.toList.filter fun c => !(c == '\t' || c == '\n' || c == '\r')

/-- A name as a segment. -/
def encoded (special : Bool) (name : String) : String :=
  String.ofList (Percent.encode (Percent.segment special) (bare name))

section

variable {special : Bool} {name : String} {path : List String} {names : List String}

theorem segment_percent (special : Bool) : Percent.segment special '%' = true := by
  cases special <;> rfl

theorem segment_dot (special : Bool) : Percent.segment special '.' = false := by
  cases special <;> rfl

theorem decode_encoded (special : Bool) (name : String) :
    Percent.decode (encoded special name).toList = (bare name).flatMap String.utf8EncodeChar := by
  rw [encoded, String.toList_ofList, Percent.decode_encode (segment_percent special)]

theorem whole_encoded (special : Bool) (name : String) : Whole [encoded special name] := by
  refine whole_singleton fun c hc => ?_
  rw [encoded, String.toList_ofList]
  refine Percent.notMem_encode hc (.inl ?_)
  rcases hc with rfl | rfl | rfl
  · cases special <;> rfl
  · cases special <;> rfl
  · cases special <;> rfl

/-- What a name adds to a path: two dots lead above, one dot to the same place, and any other
name to a segment of its own. -/
theorem append_cases (special : Bool) (path : List String) (name : String) :
    (bare name = ['.', '.'] ∧ append special path name = above (appendable path) ++ [""]) ∨
      (bare name = ['.'] ∧ append special path name = appendable path ++ [""]) ∨
      (bare name ≠ ['.', '.'] ∧ bare name ≠ ['.'] ∧
        append special path name = appendable path ++ [encoded special name]) := by
  have happend : append special path name =
      finish (appendable path) (Percent.encode (Percent.segment special) (bare name)) := rfl
  have hdouble := isDoubleDot_encode (segment_percent special) (segment_dot special) (bare name)
  have hsingle := isSingleDot_encode (segment_percent special) (segment_dot special) (bare name)
  rw [happend, finish]
  by_cases htwo : bare name = ['.', '.']
  · exact .inl ⟨htwo, if_pos (hdouble.2 htwo)⟩
  · rw [if_neg (mt hdouble.1 htwo)]
    by_cases hone : bare name = ['.']
    · exact .inr (.inl ⟨hone, if_pos (hsingle.2 hone)⟩)
    · exact .inr (.inr ⟨htwo, hone, if_neg (mt hsingle.1 hone)⟩)

theorem appendable_sublist (path : List String) : (appendable path).Sublist path := by
  unfold appendable
  split
  · exact List.nil_sublist path
  · exact List.Sublist.refl path

/-- A name is appended behind segments that were there before. -/
theorem exists_append (special : Bool) (path : List String) (name : String) :
    ∃ front s, front.Sublist path ∧ Whole [s] ∧ append special path name = front ++ [s] := by
  obtain ⟨front, s, hfront, hs, heq⟩ := exists_finish (appendable path)
    (Percent.encode (Percent.segment special) (bare name))
  refine ⟨front, s, hfront.trans (appendable_sublist path), ?_, heq⟩
  rcases hs with rfl | rfl
  · exact whole_empty
  · exact whole_encoded special name

theorem whole_append (h : Whole path) (name : String) : Whole (append special path name) := by
  obtain ⟨front, s, hfront, hs, heq⟩ := exists_append special path name
  rw [heq]
  exact (h.subset hfront.subset).append hs

theorem append_ne_nil (special : Bool) (path : List String) (name : String) :
    append special path name ≠ [] := by
  obtain ⟨front, s, -, -, heq⟩ := exists_append special path name
  rw [heq]
  exact List.concat_ne_nil s front

theorem whole_foldl_append (h : Whole path) (hne : path ≠ []) (names : List String) :
    Whole (names.foldl (append special) path) ∧ names.foldl (append special) path ≠ [] := by
  induction names generalizing path with
  | nil => exact ⟨h, hne⟩
  | cons name names ih => exact ih (whole_append h name) (append_ne_nil special path name)

/-! ## One segment for every name -/

/-- Paths to which a segment is added behind what is there. -/
def Extensible (path : List String) : Prop :=
  path ≠ [] ∧ path ≠ [""]

theorem Extensible.appendable_eq (h : Extensible path) : appendable path = path :=
  if_neg h.2

theorem extensible_concat (front : List String) {s : String} (h : s ≠ "") :
    Extensible (front ++ [s]) := by
  refine ⟨List.concat_ne_nil s front, fun heq => h ?_⟩
  have hends := congrArg List.getLast? heq
  rw [List.getLast?_concat] at hends
  exact Option.some.inj hends

theorem Extensible.concat (h : Extensible path) (s : String) : Extensible (path ++ [s]) := by
  refine ⟨List.append_ne_nil_of_left_ne_nil h.1 _, fun heq => h.1 ?_⟩
  exact (List.append_eq_singleton_iff.1 heq).elim And.left
    fun hor => absurd hor.2 (List.cons_ne_nil _ _)

/-- Names that are no dots are appended as they are. -/
theorem foldl_append_of_plain (h : Extensible path)
    (hnames : ∀ name ∈ names, bare name ≠ ['.', '.'] ∧ bare name ≠ ['.']) :
    names.foldl (append special) path = path ++ names.map (encoded special) := by
  induction names generalizing path with
  | nil => exact (List.append_nil path).symm
  | cons name names ih =>
    have happend : append special path name = path ++ [encoded special name] := by
      obtain ⟨htwo, hone⟩ := hnames name List.mem_cons_self
      rcases append_cases special path name with ⟨hname, -⟩ | ⟨hname, -⟩ | ⟨-, -, heq⟩
      · exact absurd hname htwo
      · exact absurd hname hone
      · rw [heq, h.appendable_eq]
    rw [List.foldl_cons, happend, ih (h.concat _) fun n hn => hnames n (List.mem_cons_of_mem _ hn),
      List.append_assoc]
    rfl

theorem length_append_le (special : Bool) (path : List String) (name : String) :
    (append special path name).length ≤ path.length + 1 := by
  obtain ⟨front, s, hfront, -, heq⟩ := exists_append special path name
  rw [heq, List.length_append, List.length_singleton]
  exact Nat.succ_le_succ hfront.length_le

/-- No name adds more than one segment. -/
theorem length_foldl_append_le (special : Bool) (path : List String) (names : List String) :
    (names.foldl (append special) path).length ≤ path.length + names.length := by
  induction names generalizing path with
  | nil => exact Nat.le_refl _
  | cons name names ih =>
    have hhere := length_append_le special path name
    have hlater := ih (append special path name)
    rw [List.foldl_cons, List.length_cons]
    omega

/-! ### Names of drives -/

theorem isDrive_iff {s : String} :
    isDrive s = true ↔
      ∃ c mark, s.toList = [c, mark] ∧ c.isAlpha = true ∧ (mark = ':' ∨ mark = '|') := by
  constructor
  · intro h
    unfold isDrive at h
    split at h
    · rename_i c mark heq
      simp only [Bool.and_eq_true, Bool.or_eq_true, beq_iff_eq] at h
      exact ⟨c, mark, heq, h⟩
    · cases h
  · rintro ⟨c, mark, heq, hc, hmark⟩
    rw [isDrive, heq]
    simpa only [Bool.and_eq_true, Bool.or_eq_true, beq_iff_eq] using And.intro hc hmark

theorem toNat_of_isAlpha {c : Char} (h : c.isAlpha = true) :
    (65 ≤ c.toNat ∧ c.toNat ≤ 90) ∨ (97 ≤ c.toNat ∧ c.toNat ≤ 122) := by
  have hletter : (c.isUpper || c.isLower) = true := h
  rcases Bool.or_eq_true_iff.1 hletter with hupper | hlower
  · have hupper : 65 ≤ c.val ∧ c.val ≤ 90 := of_decide_eq_true hupper
    exact .inl ⟨UInt32.le_iff_toNat_le.1 hupper.1, UInt32.le_iff_toNat_le.1 hupper.2⟩
  · obtain ⟨hlow, hhigh⟩ := Bool.and_eq_true_iff.1 hlower
    exact .inr ⟨UInt32.le_iff_toNat_le.1 (of_decide_eq_true hlow),
      UInt32.le_iff_toNat_le.1 (of_decide_eq_true hhigh)⟩

theorem segment_of_isAlpha {c : Char} (h : c.isAlpha = true) :
    Percent.segment special c = false := by
  have hall : ∀ special : Bool, ∀ n < 128, (65 ≤ n ∧ n ≤ 90) ∨ (97 ≤ n ∧ n ≤ 122) →
      Percent.segment special (Char.ofNat n) = false := by decide
  have hc := toNat_of_isAlpha h
  have hseg := hall special c.toNat (by omega) hc
  rwa [Char.ofNat_toNat] at hseg

/-- The name of a drive is not encoded, and no other name becomes one. -/
theorem isDrive_encoded (special : Bool) (name : String) :
    isDrive (encoded special name) = isDrive (String.ofList (bare name)) := by
  rw [Bool.eq_iff_iff, isDrive_iff, isDrive_iff, encoded, String.toList_ofList,
    String.toList_ofList]
  have hmarks : ∀ {mark : Char}, mark = ':' ∨ mark = '|' →
      mark ≠ '%' ∧ Percent.segment special mark = false := by
    rintro mark (rfl | rfl)
    · exact ⟨by decide, by cases special <;> rfl⟩
    · exact ⟨by decide, by cases special <;> rfl⟩
  constructor
  · rintro ⟨c, mark, heq, hc, hmark⟩
    have hpercent : c ≠ '%' := by
      rintro rfl
      cases hc
    refine ⟨c, mark, Text.Utf8.flatMap_injective ?_, hc, hmark⟩
    rw [← Percent.decode_encode (segment_percent special), heq,
      Percent.decode_cons_of_ne hpercent, Percent.decode_cons_of_ne (hmarks hmark).1]
    rfl
  · rintro ⟨c, mark, heq, hc, hmark⟩
    refine ⟨c, mark, ?_, hc, hmark⟩
    rw [heq]
    refine Percent.encode_of_forall fun d hd => ?_
    rcases List.mem_cons.1 hd with rfl | hd
    · exact segment_of_isAlpha hc
    · exact List.mem_singleton.1 hd ▸ (hmarks hmark).2

/-! ### Counting the segments -/

/-- Whether a name counts: one dot or two are passed over. -/
def counts (name : String) : Bool := name != "." && name != ".."

/-- Whether a name adds a segment if it stands behind another one: two dots do so only behind
the name of a drive, above which nothing leads. -/
def GoesOn (before name : String) : Prop :=
  bare name = ['.', '.'] → isDrive (String.ofList (bare before)) = true

theorem above_of_drive (h : path.getLast?.any isDrive = true) : above path = path := by
  unfold above
  split
  · rename_i last hpath
    rw [hpath] at h
    exact if_pos h
  · rename_i hpath
    exact (List.getLast?_eq_none_iff.1 hpath).symm

theorem above_of_not_drive (h : path.getLast?.any isDrive = false) :
    above path = path.dropLast := by
  unfold above
  split
  · rename_i last hpath
    rw [hpath] at h
    exact if_neg (Bool.eq_false_iff.1 h)
  · rename_i hpath
    rw [List.getLast?_eq_none_iff.1 hpath]
    rfl

/-- One name: it adds a segment, which names a drive if the name does, or it leads above and the
path is no longer than before. -/
theorem append_goesOn_or (special : Bool) {before : String} (h : Extensible path)
    (hlast : path.getLast?.any isDrive = isDrive (String.ofList (bare before))) (name : String) :
    (GoesOn before name ∧ ∃ s, append special path name = path ++ [s] ∧
        isDrive s = isDrive (String.ofList (bare name))) ∨
      (¬ GoesOn before name ∧ (append special path name).length = path.length) := by
  rcases append_cases special path name with ⟨htwo, heq⟩ | ⟨hone, heq⟩ | ⟨htwo, -, heq⟩
  · rw [h.appendable_eq] at heq
    cases hdrive : isDrive (String.ofList (bare before)) with
    | true =>
      rw [above_of_drive (hlast.trans hdrive)] at heq
      refine .inl ⟨fun _ => hdrive, "", heq, ?_⟩
      rw [htwo]
      rfl
    | false =>
      have hpos : 0 < path.length := List.length_pos_iff.2 h.1
      rw [above_of_not_drive (hlast.trans hdrive)] at heq
      refine .inr ⟨fun hgoes => Bool.eq_false_iff.1 hdrive (hgoes htwo), ?_⟩
      rw [heq, List.length_append, List.length_dropLast, List.length_singleton]
      omega
  · rw [h.appendable_eq] at heq
    refine .inl ⟨fun htwo => ?_, "", heq, ?_⟩
    · cases hone.symm.trans htwo
    · rw [hone]
      rfl
  · rw [h.appendable_eq] at heq
    exact .inl ⟨fun hname => absurd hname htwo, _, heq, isDrive_encoded special name⟩

theorem counts_iff : counts name = true ↔ name ≠ "." ∧ name ≠ ".." := by
  rw [counts, Bool.and_eq_true, bne_iff_ne, bne_iff_ne]

/-- Every name adds one segment exactly if none is passed over and none leads above. -/
theorem length_foldl_append_iff (special : Bool) {before : String} (h : Extensible path)
    (hlast : path.getLast?.any isDrive = isDrive (String.ofList (bare before)))
    (names : List String) :
    ((names.filter counts).foldl (append special) path).length = path.length + names.length ↔
      (∀ name ∈ names, counts name = true) ∧ (before :: names).IsChain GoesOn := by
  induction names generalizing path before with
  | nil =>
    exact ⟨fun _ => ⟨fun _ hn => absurd hn List.not_mem_nil, .singleton before⟩, fun _ => rfl⟩
  | cons name names ih =>
    have hfewer : (names.filter counts).length ≤ names.length := List.length_filter_le _ names
    rw [List.forall_mem_cons, List.isChain_cons_cons, List.length_cons]
    by_cases hcounts : counts name = true
    · rw [List.filter_cons_of_pos hcounts, List.foldl_cons]
      rcases append_goesOn_or special h hlast name with ⟨hgoes, s, heq, hs⟩ | ⟨hnot, hlength⟩
      · have hend : (path ++ [s]).getLast?.any isDrive = isDrive (String.ofList (bare name)) := by
          rw [List.getLast?_concat]
          exact hs
        have hrest := ih (h.concat s) hend
        rw [List.length_append, List.length_singleton, Nat.add_assoc, Nat.add_comm 1] at hrest
        rw [heq, hrest]
        exact ⟨fun ⟨hall, hchain⟩ => ⟨⟨hcounts, hall⟩, hgoes, hchain⟩,
          fun ⟨hall, _, hchain⟩ => ⟨hall.2, hchain⟩⟩
      · have hle := length_foldl_append_le special (append special path name) (names.filter counts)
        refine iff_of_false (fun hright => ?_) fun hright => hnot hright.2.1
        omega
    · have hle := length_foldl_append_le special path (names.filter counts)
      rw [List.filter_cons_of_neg hcounts]
      refine iff_of_false (fun hright => ?_) fun hright => hcounts hright.1.1
      omega

end

end Url

end Provisioner
