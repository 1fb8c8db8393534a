import Mathlib.Data.List.Perm.Basic
import Provisioner.Proofs.Arguments
import Provisioner.Proofs.KeyMap

/-!
# Overrides in any order

A map of overrides can be gone through in any order.  The order decides in which order the
arguments stand, and which of several failures is reported, but nothing else.

* `applyTo_eq_ok_iff` and `exists_filled_iff` say when overrides are filled in, and
  `Filled.exists_perm` that this goes for every order of them.
* `Options.assignments` are the fields with their values that a program reads from its
  arguments; `assignments_setAll` reads the overrides back.
* `get?_ofList_of_filled`: the values that overrides are filled in with, as a map.
* `applyTo_anyOrder` is all that can be said of every order.
-/

namespace Provisioner

/-! ## Reading the overrides back -/

/-- The field and the value that a text `field=value` gives, cut at the first `=`. -/
def assignment? (text : String) : Option (String × String) :=
  (Text.cut? '=' text.toList).map fun cut => (String.ofList cut.1, String.ofList cut.2)

/-- The fields that a program is told to set, with their values. -/
def Options.assignments (options : List (String × String)) : List (String × String) :=
  (values "--set" options).filterMap assignment?

theorem assignment?_of_not_mem {key : String} (h : '=' ∉ key.toList) (value : String) :
    assignment? (key ++ "=" ++ value) = some (key, value) := by
  obtain ⟨after, hcut, hafter⟩ := exists_cut? key.toList value.toList
  obtain rfl := hafter h
  have hkey : String.ofList (key.toList.takeWhile (· != '=')) = key := fieldOf_of_not_mem h
  rw [assignment?, toList_pair, hcut]
  show some (String.ofList _, String.ofList value.toList) = _
  rw [hkey, String.ofList_toList]

namespace Overrides

variable {lookup : Template.Lookup} {entries : List (String × Template)}
  {values : List (String × String)} {args filled : List String}

/-- Keys without `=` are told apart from their values, whatever these are. -/
theorem assignments_setAll (h : ∀ v ∈ values, '=' ∉ v.1.toList) :
    Options.assignments (Arguments.options (setAll values)) = values := by
  have hoptions : Arguments.options (setAll values) = Options.setting values := by
    have happend := Arguments.options_append_setAll values []
    rw [List.append_nil] at happend
    exact happend.trans (List.append_nil _)
  rw [hoptions, Options.assignments, Options.values_setting, List.filterMap_map]
  have hvalues : values.filterMap (assignment? ∘ fun v => v.1 ++ "=" ++ v.2) =
      values.filterMap some :=
    List.filterMap_congr fun v hv => assignment?_of_not_mem (h v hv) v.2
  rw [hvalues, List.filterMap_some]

/-! ## Filling in -/

theorem applyTo_of_filled (h : Filled lookup entries values) (args : List String) :
    applyTo lookup entries args = .ok (args ++ setAll values) := by
  induction h generalizing args with
  | nil => exact congrArg Except.ok (List.append_nil args).symm
  | @cons e v entries values hentry _ ih =>
    obtain ⟨key, t⟩ := e
    obtain ⟨_, value⟩ := v
    obtain ⟨rfl, ht⟩ := hentry
    rw [applyTo, ht]
    show applyTo lookup entries (args ++ setArguments key value) = _
    rw [ih, List.append_assoc]
    rfl

/-- Overrides are filled in one after the other, and their arguments appended. -/
theorem applyTo_eq_ok_iff :
    applyTo lookup entries args = .ok filled ↔
      ∃ values, Filled lookup entries values ∧ filled = args ++ setAll values := by
  constructor
  · exact exists_filled_of_applyTo
  · rintro ⟨values, hvalues, rfl⟩
    exact applyTo_of_filled hvalues args

/-- Overrides are filled in if each of them can be. -/
theorem exists_filled_iff :
    (∃ values, Filled lookup entries values) ↔
      ∀ e ∈ entries, ∃ value, e.2.resolve lookup = .ok value := by
  induction entries with
  | nil => exact ⟨fun _ _ he => absurd he List.not_mem_nil, fun _ => ⟨[], .nil⟩⟩
  | cons e rest ih =>
    rw [List.forall_mem_cons, ← ih]
    constructor
    · rintro ⟨_, hvalues⟩
      cases hvalues with
      | cons hentry hrest => exact ⟨⟨_, hentry.2⟩, _, hrest⟩
    · rintro ⟨⟨value, he⟩, values, hvalues⟩
      exact ⟨(e.1, value) :: values, .cons ⟨rfl, he⟩ hvalues⟩

/-- In another order the overrides are filled in with the same values. -/
theorem Filled.exists_perm {entries' : List (String × Template)}
    (h : Filled lookup entries values) (horder : entries'.Perm entries) :
    ∃ values', Filled lookup entries' values' ∧ values'.Perm values :=
  List.perm_comp_forall₂ horder h

theorem Filled.exists_of_mem (h : Filled lookup entries values) {e : String × Template}
    (he : e ∈ entries) : ∃ value, (e.1, value) ∈ values ∧ e.2.resolve lookup = .ok value := by
  induction h with
  | nil => cases he
  | @cons d v entries values hentry _ ih =>
    rcases List.mem_cons.1 he with rfl | he
    · refine ⟨v.2, ?_, hentry.2⟩
      rw [hentry.1]
      exact List.mem_cons_self
    · obtain ⟨value, hmem, hvalue⟩ := ih he
      exact ⟨value, List.mem_cons_of_mem _ hmem, hvalue⟩

/-! ## All overrides of a map -/

variable {overrides : Overrides}

/-- The values that the overrides of a map are filled in with are a map again: it holds what
their templates stand for. -/
theorem get?_ofList_of_filled (h : Filled lookup entries values)
    (horder : entries.Perm overrides.entries) (key : String) :
    (KeyMap.ofList values).get? key =
      (overrides.get? key).bind fun t => (t.resolve lookup).toOption := by
  have hget : (KeyMap.ofList values).get? key = (values.reverse.lookup key).or none :=
    KeyMap.get?_insertAll KeyMap.empty values key
  have hkeys : (values.map Prod.fst).Nodup := by
    rw [h.keys_eq]
    exact (horder.map Prod.fst).nodup_iff.2 overrides.nodup
  rw [hget, Option.or_none]
  cases ht : overrides.get? key with
  | none =>
    refine KeyMap.lookup_reverse_eq_none ?_
    rw [h.keys_eq, (horder.map Prod.fst).mem_iff]
    exact notMem_of_get?_eq_none ht
  | some t =>
    have he : (key, t) ∈ entries := horder.mem_iff.2 (mem_of_get? ht)
    obtain ⟨value, hmem, hvalue⟩ := h.exists_of_mem he
    have hlookup : values.reverse.lookup key = some value :=
      KeyMap.lookup_reverse_of_mem hkeys hmem
    rw [hlookup, Option.bind_some, hvalue]
    rfl

/-- Overrides of a map in any order.  They are filled in exactly if each template can be.  Then
the arguments before them are followed by a pair for each, every other order gives the same
pairs, and a program that cuts each at its first `=` reads the map of the filled-in values, if no
key has an `=`.  Otherwise the error names one that cannot be filled in, and is the error of its
template. -/
theorem applyTo_anyOrder (overrides : Overrides) (lookup : Template.Lookup) (args : List String)
    {entries : List (String × Template)} (horder : entries.Perm overrides.entries) :
    ((∃ filled, applyTo lookup entries args = .ok filled) ↔
      ∀ key t, overrides.get? key = some t → ∃ value, t.resolve lookup = .ok value) ∧
    (∀ filled, applyTo lookup entries args = .ok filled → ∃ values,
      Filled lookup entries values ∧ filled = args ++ setAll values ∧
      (∀ entries', entries'.Perm overrides.entries → ∃ values',
        applyTo lookup entries' args = .ok (args ++ setAll values') ∧ values'.Perm values) ∧
      ((∀ key t, overrides.get? key = some t → '=' ∉ key.toList) →
        Options.assignments (Arguments.options (filled.drop args.length)) = values ∧
        ∀ key, (KeyMap.ofList values).get? key =
          (overrides.get? key).bind fun t => (t.resolve lookup).toOption)) ∧
    ∀ e, applyTo lookup entries args = .error e →
      ∃ t, overrides.get? e.key = some t ∧ t.resolve lookup = .error e.source := by
  have hentry : ∀ {e : String × Template}, e ∈ entries ↔ overrides.get? e.1 = some e.2 :=
    fun {e} => horder.mem_iff.trans mem_entries_iff
  refine ⟨?success, ?result, ?failure⟩
  case success =>
    have hfilled : (∃ filled, applyTo lookup entries args = .ok filled) ↔
        ∃ values, Filled lookup entries values := by
      constructor
      · rintro ⟨filled, h⟩
        obtain ⟨values, hvalues, -⟩ := applyTo_eq_ok_iff.1 h
        exact ⟨values, hvalues⟩
      · rintro ⟨values, hvalues⟩
        exact ⟨_, applyTo_of_filled hvalues args⟩
    rw [hfilled, exists_filled_iff]
    constructor
    · exact fun h key t ht => h (key, t) (hentry.2 ht)
    · exact fun h e he => h e.1 e.2 (hentry.1 he)
  case result =>
    intro filled h
    obtain ⟨values, hvalues, rfl⟩ := applyTo_eq_ok_iff.1 h
    refine ⟨values, hvalues, rfl, fun entries' horder' => ?_, fun hkeys => ⟨?_, ?_⟩⟩
    · obtain ⟨values', hvalues', hperm⟩ := hvalues.exists_perm (horder'.trans horder.symm)
      exact ⟨values', applyTo_of_filled hvalues' args, hperm⟩
    · rw [List.drop_left]
      refine assignments_setAll fun v hv => ?_
      have hkey : v.1 ∈ entries.map Prod.fst := by
        rw [← hvalues.keys_eq]
        exact List.mem_map_of_mem hv
      obtain ⟨e, he, heq⟩ := List.mem_map.1 hkey
      rw [← heq]
      exact hkeys e.1 e.2 (hentry.1 he)
    · exact get?_ofList_of_filled hvalues horder
  case failure =>
    intro e h
    obtain ⟨t, hmem, ht⟩ := exists_of_applyTo_error h
    exact ⟨t, hentry.1 hmem, ht⟩

/-- Three overrides, taken from the last to the first, whose values look like arguments. -/
theorem applyTo_anyOrder_reversed :
    let overrides : Overrides := .ofList
      [("a", ⟨"$X=1"⟩), ("b.c", ⟨" --set d=$$"⟩), ("d", ⟨"$\x7bY:-\x7d"⟩)]
    let lookup : Template.Lookup := fun name => if name = "X" then some "=" else none
    overrides.entries.reverse.Perm overrides.entries ∧
    ∃ values, applyTo lookup overrides.entries.reverse ["-t"] = .ok ("-t" :: setAll values) ∧
      Options.assignments (Arguments.options (setAll values)) = values ∧
      (KeyMap.ofList values).get? "a" = some "==1" ∧
      (KeyMap.ofList values).get? "b.c" = some " --set d=$" := by
  intro overrides lookup
  have horder := List.reverse_perm overrides.entries
  have happly : applyTo lookup overrides.entries.reverse ["-t"] = .ok
      ["-t", "--set", "d=", "--set", "b.c= --set d=$", "--set", "a===1"] := by decide +kernel
  have hkeys : ∀ key t, overrides.get? key = some t → '=' ∉ key.toList := by
    intro key t ht
    have hall : ∀ e ∈ overrides.entries, '=' ∉ e.1.toList := by decide +kernel
    exact hall _ (mem_of_get? ht)
  obtain ⟨-, hresult, -⟩ := applyTo_anyOrder overrides lookup ["-t"] horder
  obtain ⟨values, -, hvalues, -, hread⟩ := hresult _ happly
  obtain ⟨hassigned, hget⟩ := hread hkeys
  rw [hvalues] at happly hassigned
  exact ⟨horder, values, happly, hassigned, (hget "a").trans (by decide +kernel),
    (hget "b.c").trans (by decide +kernel)⟩

end Overrides

end Provisioner
