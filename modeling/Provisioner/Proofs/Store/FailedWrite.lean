import Provisioner.Proofs.Store.Reload

/-!
# Writes that fail

A call checks its keys, puts its pairs in the store and then writes the file.  A refused
key leaves nothing behind.  A disk that fails leaves the pairs in the store: they are
looked up from then on, and the next call that succeeds brings them into the file.

* `accepted_of_error`: what a failed call leaves in the store follows from its error.
* `afterCalls` is the store after further calls, which may fail as well.
* `asIfNever_iff` is when a failed call has no effect on later lookups and on the file.
-/

namespace Provisioner.Store.DotenvFile

variable {δ : Type}

/-! ## What a failed call leaves behind -/

theorem exists_of_named_error {path : String} {r : Except IoError Unit × δ} {e : Failure}
    {d : δ} (h : named path r = (.error e, d)) : ∃ cause, e = .io path cause := by
  obtain ⟨answer, d'⟩ := r
  cases answer with
  | ok _ => cases h
  | error cause => exact ⟨cause, (Except.error.inj (Prod.mk.inj h).1).symm⟩

theorem exists_of_checkKeys_error {pairs : List (String × String)} {e : Failure}
    (h : checkKeys pairs = .error e) : ∃ key, e = .invalidKey key := by
  induction pairs with
  | nil => cases h
  | cons p pairs ih =>
    obtain ⟨key, value⟩ := p
    rw [checkKeys, checkKey] at h
    by_cases hkey : isKey key = true
    · rw [if_pos hkey] at h
      exact ih h
    · rw [if_neg hkey] at h
      exact ⟨key, (Except.error.inj h).symm⟩

variable [Disk δ]

/-- Whatever keeps a store from being saved, it is the disk. -/
theorem exists_of_save_error {s : DotenvFile} {e : Failure} {d d' : δ}
    (h : s.save d = (.error e, d')) : ∃ path cause, e = .io path cause := by
  have hmake : ∀ {path : String} {d₁ d₂ : δ} {e₁ : Failure},
      makeDirectory path d₁ = (.error e₁, d₂) → ∃ path cause, e₁ = .io path cause := by
    intro path d₁ d₂ e₁ h
    unfold makeDirectory at h
    split at h
    · cases h
    · exact ⟨_, exists_of_named_error h⟩
  have hback : ∀ {path : String} {d₁ d₂ : δ} {e₁ : Failure},
      backUp path d₁ = (.error e₁, d₂) → ∃ path cause, e₁ = .io path cause := by
    intro path d₁ d₂ e₁ h
    unfold backUp at h
    split at h
    · exact ⟨_, exists_of_named_error h⟩
    · cases h
  unfold save at h
  split at h
  · rename_i hdirectory
    obtain rfl := Except.error.inj (Prod.mk.inj h).1
    exact hmake hdirectory
  · split at h
    · rename_i hbackup
      obtain rfl := Except.error.inj (Prod.mk.inj h).1
      exact hback hbackup
    · exact ⟨_, exists_of_named_error h⟩

/-- A call fails on a key, and then none of its pairs got into the store, or on the disk,
and then all of them did. -/
theorem accepted_of_error {w : Write} {s s' : DotenvFile} {e : Failure} {d d' : δ}
    (h : w.run s d = (.error e, s', d')) :
    (∃ key, e = .invalidKey key) ∧ w.accepted = [] ∨
      (¬ ∃ key, e = .invalidKey key) ∧ w.accepted = w.pairs := by
  rw [Write.run_eq_setAll] at h
  unfold setAll at h
  unfold Write.accepted
  split at h
  · rename_i hkeys
    obtain rfl := Except.error.inj (Prod.mk.inj h).1
    rw [hkeys]
    exact .inl ⟨exists_of_checkKeys_error hkeys, rfl⟩
  · rename_i hkeys
    obtain ⟨hanswer, -⟩ := Prod.mk.inj h
    obtain ⟨path, cause, rfl⟩ := exists_of_save_error (Prod.ext hanswer rfl)
    rw [hkeys]
    exact .inr ⟨fun ⟨_, h⟩ => (nomatch h), rfl⟩

/-! ## Looking up after further calls -/

/-- The store after calls, each on a disk of its own. -/
def afterCalls : List (Write × δ) → DotenvFile → DotenvFile
  | [], s => s
  | (w, d) :: later, s => afterCalls later (w.run s d).2.1

/-- The pairs that calls leave in the store. -/
def acceptedAll (later : List (Write × δ)) : List (String × String) :=
  later.flatMap fun call => call.1.accepted

theorem afterCalls_eq (later : List (Write × δ)) (s : DotenvFile) :
    afterCalls later s = s.insertAll (acceptedAll later) := by
  induction later generalizing s with
  | nil => rfl
  | cons call later ih =>
    rw [afterCalls, ih, Write.run_store]
    simp only [insertAll, acceptedAll, List.flatMap_cons, KeyMap.insertAll_append]

theorem Reached.afterCalls {s : DotenvFile} (h : Reached δ s) (later : List (Write × δ)) :
    Reached δ (afterCalls later s) := by
  induction later generalizing s with
  | nil => exact h
  | cons call later ih => exact ih (h.write call.1 call.2)

/-- Pairs go unnoticed if they only say what is looked up anyway, and after further calls
they then still do. -/
theorem forall_get?_insertAll_iff (s : DotenvFile) (pairs : List (String × String)) :
    (∀ (later : List (Write × δ)) (key : String),
        (afterCalls later (s.insertAll pairs)).get? key = (afterCalls later s).get? key) ↔
      ∀ key value, pairs.reverse.lookup key = some value → s.get? key = some value := by
  constructor
  · intro hsame key value hlast
    have hnow := hsame [] key
    rw [afterCalls, afterCalls, get?_insertAll, hlast] at hnow
    exact hnow.symm
  · intro hthere later key
    have hnow : (s.insertAll pairs).get? key = s.get? key := by
      rw [get?_insertAll]
      cases hlast : pairs.reverse.lookup key with
      | none => rfl
      | some value => exact (hthere key value hlast).symm
    rw [afterCalls_eq, afterCalls_eq, get?_insertAll _ (acceptedAll later),
      get?_insertAll s (acceptedAll later), hnow]

/-! ## Writing after a failed call -/

omit [Disk δ] in
theorem not_mem_acceptedAll {later : List (Write × δ)} {key : String}
    (h : ∀ call ∈ later, key ∉ call.1.pairs.map Prod.fst) :
    key ∉ (acceptedAll later).map Prod.fst := by
  intro hmem
  obtain ⟨p, hp, rfl⟩ := List.mem_map.1 hmem
  obtain ⟨call, hcall, hp⟩ := List.mem_flatMap.1 hp
  refine h call hcall (List.mem_map_of_mem ?_)
  unfold Write.accepted at hp
  split at hp
  · exact hp
  · cases hp

/-- Calls on other keys leave the value of a key alone, and the one that succeeds brings it
into the file. -/
theorem readValues_of_later [LawfulDisk δ] {s s₂ : DotenvFile} (hs : Reached δ s)
    {later : List (Write × δ)} {w : Write} {d d' : δ}
    (h : w.run (afterCalls later s) d = (.ok (), s₂, d')) {key : String}
    (hlater : ∀ call ∈ later, key ∉ call.1.pairs.map Prod.fst)
    (hw : key ∉ w.pairs.map Prod.fst) (environment : KeyMap String) :
    ∃ values, readValues environment s.path d' = .ok values ∧
      values.get? key = s.values.get? key := by
  rw [Write.run_eq_setAll] at h
  obtain ⟨hkeys, rfl, hsave⟩ := setAll_of_ok h
  have hgood : Dotenv.HasKeys ((afterCalls later s).insertAll w.pairs).values :=
    hasKeys_insertAll (hs.afterCalls later).hasKeys hkeys
  refine ⟨((afterCalls later s).insertAll w.pairs).values, ?_, ?_⟩
  · have hread := readValues_of_save hgood hsave environment
    rw [afterCalls_eq] at hread ⊢
    exact hread
  · rw [afterCalls_eq]
    simp only [insertAll, KeyMap.get?_insertAll, KeyMap.lookup_reverse_eq_none hw,
      KeyMap.lookup_reverse_eq_none (not_mem_acceptedAll hlater), Option.none_or]

/-- When a failed call is as if it had never been made.  Later lookups are as if, unless
writing failed and a pair of the call is not what was looked up before.  The file that a
later call on other keys writes is as if, unless writing failed and the pair is not what
the store held before. -/
theorem asIfNever_iff [LawfulDisk δ] {w : Write} {s s' : DotenvFile} {e : Failure} {d d' : δ}
    (hs : Reached δ s) (h : w.run s d = (.error e, s', d')) :
    ((∀ (later : List (Write × δ)) (key : String),
        (afterCalls later s').get? key = (afterCalls later s).get? key) ↔
      (∃ key, e = .invalidKey key) ∨
        ∀ key value, w.pairs.reverse.lookup key = some value → s.get? key = some value) ∧
    ∀ (later : List (Write × δ)) (w₂ : Write) (s₂ : DotenvFile) (d₁ d₂ : δ),
      w₂.run (afterCalls later s') d₁ = (.ok (), s₂, d₂) →
      ∀ key value, w.pairs.reverse.lookup key = some value →
        (∀ call ∈ later, key ∉ call.1.pairs.map Prod.fst) → key ∉ w₂.pairs.map Prod.fst →
        ∀ environment, ∃ values, readValues environment s.path d₂ = .ok values ∧
          (values.get? key = s.values.get? key ↔
            (∃ key, e = .invalidKey key) ∨ s.values.get? key = some value) := by
  have hstore : s' = s.insertAll w.accepted := by
    rw [← Write.run_store w s d, h]
  have hs' : Reached δ s' := by
    have hreached := hs.write w d
    rw [h] at hreached
    exact hreached
  rcases accepted_of_error h with ⟨hrefused, haccepted⟩ | ⟨hdisk, haccepted⟩
  · obtain rfl : s' = s := by
      rw [hstore, haccepted]
      rfl
    refine ⟨⟨fun _ => .inl hrefused, fun _ _ _ => rfl⟩, ?_⟩
    intro later w₂ s₂ d₁ d₂ hrun key value _ hlater hw₂ environment
    obtain ⟨values, hread, hvalue⟩ := readValues_of_later hs hrun hlater hw₂ environment
    exact ⟨values, hread, ⟨fun _ => .inl hrefused, fun _ => hvalue⟩⟩
  · rw [haccepted] at hstore
    refine ⟨?_, ?_⟩
    · rw [hstore, forall_get?_insertAll_iff, or_iff_right hdisk]
    · intro later w₂ s₂ d₁ d₂ hrun key value hlast hlater hw₂ environment
      obtain ⟨values, hread, hvalue⟩ := readValues_of_later hs' hrun hlater hw₂ environment
      have hpersisted : values.get? key = some value := by
        rw [hvalue, hstore, insertAll, KeyMap.get?_insertAll, hlast]
        rfl
      rw [hstore] at hread
      refine ⟨values, hread, ?_⟩
      rw [hpersisted, or_iff_right hdisk]
      exact eq_comm

/-! ## A directory that cannot be made -/

/-- A disk on which the directory of the environment files is a file. -/
def blockedTree : FileTree :=
  ⟨[([".fleetml"], .file (.text "") false)], []⟩

/-- The store of an environment without a file. -/
def emptyStore : DotenvFile :=
  ⟨".fleetml/dev/.env", .empty, .empty⟩

theorem reached_emptyStore : Reached FileTree emptyStore := by
  have hload : load .empty ".fleetml/dev/.env" blockedTree = .ok emptyStore := by
    decide +kernel
  exact .load hload

theorem set_blockedTree :
    ((Write.set "A" "1").run emptyStore blockedTree).1 =
      .error (.io ".fleetml/dev" .notADirectory) := by
  decide +kernel

/-- The call that fails on that disk is noticed by lookups, and once the disk is in order
another call writes its value. -/
theorem asIfNever_iff_blockedTree :
    (¬ ∀ (later : List (Write × FileTree)) (key : String),
      (afterCalls later ((Write.set "A" "1").run emptyStore blockedTree).2.1).get? key =
        (afterCalls later emptyStore).get? key) ∧
    ∃ values, readValues .empty emptyStore.path
        ((Write.set "B" "2").run ((Write.set "A" "1").run emptyStore blockedTree).2.1
          FileTree.empty).2.2 = .ok values ∧
      values.get? "A" ≠ none := by
  obtain ⟨hlookups, hfile⟩ :=
    asIfNever_iff reached_emptyStore (Prod.ext set_blockedTree rfl)
  have hdisk : ¬ ∃ key, Failure.io ".fleetml/dev" .notADirectory = .invalidKey key :=
    fun ⟨_, h⟩ => nomatch h
  refine ⟨fun hsame => ?_, ?_⟩
  · have hthere := (hlookups.1 hsame).resolve_left hdisk "A" "1" (by decide +kernel)
    exact absurd hthere (by decide +kernel)
  · have hok : ((Write.set "B" "2").run ((Write.set "A" "1").run emptyStore blockedTree).2.1
        FileTree.empty).1 = .ok () := by decide +kernel
    obtain ⟨values, hread, hvalue⟩ := hfile [] (.set "B" "2") _ FileTree.empty _
      (Prod.ext hok rfl) "A" "1" (by decide +kernel) (fun _ h => nomatch h) (by decide) .empty
    refine ⟨values, hread, fun hnone => ?_⟩
    have hthere := (hvalue.1 hnone).resolve_left hdisk
    exact absurd hthere (by decide +kernel)

/-- A failed call is not always as if it had never been made. -/
theorem not_forall_get?_of_error :
    ¬ ∀ (w : Write) (s s' : DotenvFile) (e : Failure) (d d' : FileTree),
      Reached FileTree s → w.run s d = (.error e, s', d') →
      ∀ key, s'.get? key = s.get? key := by
  intro hclaim
  have hsame := hclaim (.set "A" "1") emptyStore _ _ blockedTree _ reached_emptyStore
    (Prod.ext set_blockedTree rfl) "A"
  exact absurd hsame (by decide +kernel)

end Provisioner.Store.DotenvFile
