import Provisioner.Proofs.Store.Reload
import Provisioner.Proofs.Template.References
import Provisioner.Proofs.Template.Scan
import Provisioner.Store.Memory

/-!
# Reading stored values back in templates

A value that is stored under a key is what a reference to the key stands for, whatever
characters it holds.

* `Template.resolve_between`: a reference between two texts without `$`.
* `Template.ReadsBack` says that every sort of reference to a key is filled in with its value,
  and `Template.Follows` what else has to hold after a value has been stored.
* `Store.isName_of_isKey`: what can be stored under can be referred to.
* `Store.follows_set`: a value that was stored is read back from memory, from the store of a
  file, and from the file when it is opened again.
-/

namespace Provisioner

/-! ## A reference between plain texts -/

namespace Template

variable {template : String} {lookup : Lookup}

/-- A text without `$` is copied, and what follows it is filled in by itself. -/
theorem resolveChars_append_of_plain {front : List Char} (h : '$' ∉ front) (back : List Char) :
    resolveChars template lookup (front ++ back) =
      (resolveChars template lookup back).map (front ++ ·) := by
  induction front with
  | nil =>
    rw [List.nil_append]
    cases resolveChars template lookup back <;> rfl
  | cons c front ih =>
    obtain ⟨hc, hfront⟩ := not_or.1 (List.mem_cons.not.1 h)
    rw [List.cons_append, resolveChars_of_reads (.copy (Ne.symm hc)) .copy, ih hfront]
    cases resolveChars template lookup back <;> rfl

theorem resolveChars_of_plain {cs : List Char} (h : '$' ∉ cs) :
    resolveChars template lookup cs = .ok cs := by
  have happend : resolveChars template lookup (cs ++ []) = _ :=
    resolveChars_append_of_plain h []
  rw [List.append_nil, resolveChars_nil] at happend
  exact happend.trans (congrArg Except.ok (List.append_nil cs))

/-- A reference between two texts without `$` is filled in, and the texts stay. -/
theorem resolve_between {t : Template} {out : String} {front back text place : List Char}
    {p : Piece} (ht : t.text.toList = front ++ place) (hfront : '$' ∉ front) (hback : '$' ∉ back)
    (hreads : Reads place p back) (hstands : Stands t.text lookup p (.ok text))
    (hout : out.toList = front ++ (text ++ back)) : t.resolve lookup = .ok out := by
  rw [resolve, ht, resolveChars_append_of_plain hfront, resolveChars_of_reads hreads hstands,
    resolveChars_of_plain hback, ← String.ofList_toList (s := out), hout]
  rfl

/-- A lookup that makes every sort of reference to a key stand for a value. -/
structure ReadsBack (key value : String) (lookup : Lookup) : Prop where
  braced (p q : String) : '$' ∉ p.toList → '$' ∉ q.toList →
    resolve ⟨p ++ "$\x7b" ++ key ++ "\x7d" ++ q⟩ lookup = .ok (p ++ value ++ q)
  bare (p q : String) : '$' ∉ p.toList → '$' ∉ q.toList →
    (∀ c ∈ q.toList.head?, isNameChar c = false) →
    resolve ⟨p ++ "$" ++ key ++ q⟩ lookup = .ok (p ++ value ++ q)
  fallback (p d q : String) : '$' ∉ p.toList → '\x7d' ∉ d.toList → '$' ∉ q.toList →
    resolve ⟨p ++ "$\x7b" ++ key ++ ":-" ++ d ++ "\x7d" ++ q⟩ lookup =
      .ok (p ++ (if value = "" then d else value) ++ q)

/-- A lookup after a value has been stored under a key: the value is read back, and templates
that do not refer to the key are filled in as before. -/
structure Follows (key value : String) (before after : Lookup) : Prop extends
    ReadsBack key value after where
  others (t : Template) : key ∉ t.references → t.resolve after = t.resolve before

/-- No character of a name can end a reference. -/
theorem not_mem_of_isName {name : List Char} (h : isName name = true) {c : Char}
    (hc : isNameChar c = false) : c ∉ name := by
  intro hmem
  cases name with
  | nil => cases h
  | cons d rest =>
    obtain ⟨hstart, hrest⟩ := Bool.and_eq_true_iff.1 h
    rcases List.mem_cons.1 hmem with rfl | hmem
    · have hname : isNameChar c = true := by
        simp only [isNameStart, isNameChar, Char.isAlphanum, Bool.or_eq_true] at hstart ⊢
        exact hstart.imp_left .inl
      cases hname.symm.trans hc
    · cases (List.all_eq_true.1 hrest c hmem).symm.trans hc

/-- A fallback begins at the first `:-`, as there is none within a name. -/
theorem cuts_fallback {name : List Char} (h : isName name = true) (fallback : List Char) :
    Cuts (name ++ ':' :: '-' :: fallback) name (some fallback) := by
  refine .cut rfl fun hinfix => ?_
  have hdash : '-' ∈ name ++ [':'] := hinfix.subset (List.mem_cons_of_mem _ List.mem_cons_self)
  rcases List.mem_append.1 hdash with hname | hcolon
  · exact not_mem_of_isName h (by decide) hname
  · exact absurd hcolon (by decide)

theorem readsBack {key value : String} (hname : isName key.toList = true)
    (hvalue : lookup key = some value) : ReadsBack key value lookup := by
  have hlookup : lookup (String.ofList key.toList) = some value := by
    rw [String.ofList_toList, hvalue]
  have hbrace : '\x7d' ∉ key.toList := not_mem_of_isName hname (by decide)
  refine ⟨fun p q hp hq => ?braced, fun p q hp hq hhead => ?bare, fun p d q hp hd hq => ?fallback⟩
  case braced =>
    refine resolve_between ?_ hp hq (.braced hbrace (cuts_of_name hname))
      (.value hname hlookup) ?_
    · simp only [String.toList_append, List.append_assoc]
      rfl
    · simp only [String.toList_append, List.append_assoc]
  case bare =>
    refine resolve_between ?_ hp hq (.bare hname hhead)
      (.value hname hlookup) ?_
    · simp only [String.toList_append, List.append_assoc]
      rfl
    · simp only [String.toList_append, List.append_assoc]
  case fallback =>
    have hbody : '\x7d' ∉ key.toList ++ ':' :: '-' :: d.toList := by
      simp only [List.mem_append, List.mem_cons]
      rintro (hkey | hcolon | hdash | hfallback)
      · exact hbrace hkey
      · cases hcolon
      · cases hdash
      · exact hd hfallback
    have hstands : Stands (p ++ "$\x7b" ++ key ++ ":-" ++ d ++ "\x7d" ++ q) lookup
        (.reference key.toList (some d.toList))
        (.ok (if value = "" then d else value).toList) := by
      by_cases hempty : value = ""
      · subst hempty
        exact .fallback hname (.inr hlookup)
      · rw [if_neg hempty]
        exact .present hname hlookup hempty
    refine resolve_between ?_ hp hq
      (.braced hbody (cuts_fallback hname d.toList)) hstands ?_
    · simp only [String.toList_append, List.append_assoc]
      rfl
    · simp only [String.toList_append, List.append_assoc]

/-- What a lookup must do after a value has been stored: find the value under its key, and
everything else as before. -/
theorem follows {key value : String} {before after : Lookup} (hname : isName key.toList = true)
    (hvalue : after key = some value)
    (hothers : ∀ other, other ≠ key → after other = before other) :
    Follows key value before after := by
  refine ⟨readsBack hname hvalue, fun t ht => resolve_congr fun name hmem => hothers name ?_⟩
  rintro rfl
  exact ht hmem

end Template

/-! ## Stores -/

namespace Store

open Template (Follows ReadsBack)

/-- Values are stored under the names that templates refer to. -/
theorem isName_of_isKey {key : String} (h : isKey key = true) :
    Template.isName key.toList = true := by
  unfold isKey at h
  split at h
  · cases h
  · rename_i c rest hkey
    rw [hkey]
    exact h

theorem Memory.follows_set {m m' : Memory} {key value : String}
    (h : m.set key value = (.ok (), m')) : Follows key value m.get? m'.get? := by
  unfold set at h
  split at h
  · rename_i hkey
    obtain rfl := (Prod.mk.inj h).2
    refine Template.follows (isName_of_isKey (isKey_of_checkKey hkey)) ?_ fun other hother => ?_
    · exact KeyMap.get?_insert_self m.values key value
    · exact KeyMap.get?_insert_ne m.values hother value
  · cases (Prod.mk.inj h).1

namespace DotenvFile

variable {δ : Type} [Disk δ]

/-- A store with one more pair looks its value up. -/
theorem get?_insertAll_singleton (s : DotenvFile) (key value other : String) :
    (s.insertAll [(key, value)]).get? other = if other = key then some value else s.get? other := by
  rw [get?_insertAll, List.reverse_singleton]
  by_cases h : other = key
  · rw [if_pos h, h, List.lookup_cons_self]
    rfl
  · rw [if_neg h, List.lookup_cons, beq_eq_false_iff_ne.2 h]
    rfl

theorem follows_set {s s' : DotenvFile} {d d' : δ} {key value : String}
    (h : s.set key value d = (.ok (), s', d')) : Follows key value s.get? s'.get? := by
  obtain ⟨hkeys, rfl, -⟩ := setAll_of_ok h
  refine Template.follows (isName_of_isKey (hkeys (key, value) List.mem_cons_self)) ?_
    fun other hother => ?_
  · rw [get?_insertAll_singleton, if_pos rfl]
  · rw [get?_insertAll_singleton, if_neg hother]

/-- A store that is opened on the file after a call that succeeded holds the map of the store
that wrote it. -/
theorem load_after_set [LawfulDisk δ] {s s' : DotenvFile} {d d' : δ} {key value : String}
    (hs : Reached δ s) (h : s.set key value d = (.ok (), s', d')) (environment : KeyMap String) :
    load environment s.path d' = .ok { s' with environment := environment } := by
  obtain ⟨hkeys, rfl, hsave⟩ := setAll_of_ok h
  have hread := readValues_of_save (hasKeys_insertAll hs.hasKeys hkeys) hsave environment
  have hpath : (s.insertAll [(key, value)]).path = s.path := rfl
  rw [load, ← hpath, hread]
  rfl

end DotenvFile

/-- What templates stand for after a value has been stored.  They read it back, and those that do
not refer to its key stand for what they did before.  The store of a file reads the value back
also after the file has been opened again, under any process environment; under the same one
nothing else has changed either. -/
theorem follows_after_set {δ : Type} [Disk δ] [LawfulDisk δ] (key value : String) :
    (∀ m m' : Memory, m.set key value = (.ok (), m') → Follows key value m.get? m'.get?) ∧
    ∀ (s s' : DotenvFile) (d d' : δ), DotenvFile.Reached δ s →
      s.set key value d = (.ok (), s', d') →
      Follows key value s.get? s'.get? ∧
      ∀ environment, ∃ again, DotenvFile.load environment s.path d' = .ok again ∧
        ReadsBack key value again.get? ∧
        (environment = s.environment → Follows key value s.get? again.get?) := by
  refine ⟨fun m m' h => Memory.follows_set h, fun s s' d d' hs h => ?_⟩
  have hfollows := DotenvFile.follows_set h
  refine ⟨hfollows, fun environment => ?_⟩
  refine ⟨_, DotenvFile.load_after_set hs h environment, ?_, ?_⟩
  · obtain ⟨hkeys, rfl, -⟩ := DotenvFile.setAll_of_ok h
    refine Template.readsBack (isName_of_isKey (hkeys (key, value) List.mem_cons_self)) ?_
    have hheld : (s.insertAll [(key, value)]).values.get? key = some value :=
      KeyMap.get?_insert_self s.values key value
    show ((s.insertAll [(key, value)]).values.get? key).or _ = some value
    rw [hheld]
    rfl
  · rintro rfl
    obtain ⟨-, rfl, -⟩ := DotenvFile.setAll_of_ok h
    exact hfollows

/-- A value that itself looks like a reference and like the end of a line of the file, read back
from memory and, without any process environment, from a file with other hard values. -/
theorem follows_after_set_hardTree :
    let value := "$\x7bB:-\x7d\"\n#"
    let m : Memory := ⟨.empty⟩
    let s := DotenvFile.hardStore
    (m.set "B" value).1 = .ok () ∧ DotenvFile.Reached FileTree s ∧
      (s.set "B" value DotenvFile.hardTree).1 = .ok () ∧
      Template.resolve ⟨"<" ++ "$" ++ "B" ++ ">"⟩ (m.set "B" value).2.get? =
        .ok ("<" ++ value ++ ">") ∧
      Template.resolve ⟨"$HOME"⟩ (s.set "B" value DotenvFile.hardTree).2.1.get? =
        Template.resolve ⟨"$HOME"⟩ s.get? ∧
      ∃ again,
        DotenvFile.load .empty s.path (s.set "B" value DotenvFile.hardTree).2.2 = .ok again ∧
        Template.resolve ⟨"<" ++ "$\x7b" ++ "B" ++ ":-" ++ "$" ++ "\x7d" ++ ">"⟩ again.get? =
          .ok ("<" ++ value ++ ">") := by
  intro value m s
  have hmemory : (m.set "B" value).1 = .ok () := by decide +kernel
  have hreached : DotenvFile.Reached FileTree s :=
    .load (show DotenvFile.load s.environment s.path DotenvFile.hardTree = .ok s by decide +kernel)
  have hfile : (s.set "B" value DotenvFile.hardTree).1 = .ok () := by decide +kernel
  obtain ⟨hfollows, hreload⟩ := follows_after_set (δ := FileTree) "B" value
  have hstored := hfollows m _ (Prod.ext hmemory rfl)
  obtain ⟨hkept, hopen⟩ := hreload s _ _ _ hreached (Prod.ext hfile rfl)
  obtain ⟨again, hagain, hback, -⟩ := hopen .empty
  have hhead : ∀ c ∈ ">".toList.head?, Template.isNameChar c = false := by
    intro c hc
    obtain rfl : '>' = c := Option.some.inj hc
    decide
  refine ⟨hmemory, hreached, hfile, hstored.bare "<" ">" (by decide) (by decide) hhead, ?_,
    again, hagain, hback.fallback "<" "$" ">" (by decide) (by decide) (by decide)⟩
  exact hkept.others ⟨"$HOME"⟩ (by decide +kernel)

end Store

end Provisioner
