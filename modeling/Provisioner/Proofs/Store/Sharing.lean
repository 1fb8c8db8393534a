import Provisioner.Proofs.Store.FailedWrite

/-!
# Two stores of one file

Every store keeps the map that it read when it was opened, and writes the whole of it with
every call.  Of two stores that are open on one file at the same time, the one that writes
last therefore leaves its own map in the file.

* `takeTurns` is what several stores do in turn, and `pairsOf` are the pairs of one of them.
* `takeTurns_of_ok`: each store holds its own pairs, and the last one that wrote was saved.
* `readValues_of_takeTurns`: the file is read as the map of the store that wrote last.
* `load_after_takeTurns` says which updates a store finds that is opened afterwards, and
  `not_forall_kept` that it does not find all of them.
-/

namespace Provisioner.Store.DotenvFile

open Write

variable {ι δ : Type} [DecidableEq ι]

/-! ## Taking turns -/

/-- The stores after one of them has changed. -/
def replace (stores : ι → DotenvFile) (who : ι) (s : DotenvFile) : ι → DotenvFile :=
  fun i => if i = who then s else stores i

/-- The calls of several stores in turn, up to the first that fails. -/
def takeTurns [Disk δ] :
    List (ι × Write) → (ι → DotenvFile) → δ → Except Failure Unit × (ι → DotenvFile) × δ
  | [], stores, d => (.ok (), stores, d)
  | (who, w) :: rest, stores, d =>
    match w.run (stores who) d with
    | (.ok (), s, d) => takeTurns rest (replace stores who s) d
    | (.error e, s, d) => (.error e, replace stores who s, d)

/-- The pairs of all turns, in order. -/
def turnPairs (turns : List (ι × Write)) : List (String × String) :=
  turns.flatMap fun turn => turn.2.pairs

/-- The pairs of the turns of one store, in order. -/
def pairsOf (who : ι) (turns : List (ι × Write)) : List (String × String) :=
  turnPairs (turns.filter fun turn => turn.1 = who)

theorem pairsOf_cons_self (who : ι) (w : Write) (turns : List (ι × Write)) :
    pairsOf who ((who, w) :: turns) = w.pairs ++ pairsOf who turns := by
  simp [pairsOf, turnPairs]

theorem pairsOf_cons_ne {who other : ι} (h : other ≠ who) (w : Write)
    (turns : List (ι × Write)) : pairsOf who ((other, w) :: turns) = pairsOf who turns := by
  simp [pairsOf, h]

theorem mem_turnPairs_of_mem_pairsOf {who : ι} {turns : List (ι × Write)} {p : String × String}
    (h : p ∈ pairsOf who turns) : p ∈ turnPairs turns := by
  obtain ⟨turn, hturn, hp⟩ := List.mem_flatMap.1 h
  exact List.mem_flatMap.2 ⟨turn, (List.mem_filter.1 hturn).1, hp⟩

/-- Whoever takes a turn holds its pairs from then on, and nobody else does. -/
theorem replace_insertAll_pairsOf (stores : ι → DotenvFile) (who i : ι) (w : Write)
    (turns : List (ι × Write)) :
    (replace stores who ((stores who).insertAll w.pairs) i).insertAll (pairsOf i turns) =
      (stores i).insertAll (pairsOf i ((who, w) :: turns)) := by
  by_cases hi : i = who
  · subst hi
    rw [replace, if_pos rfl, pairsOf_cons_self]
    simp only [insertAll, KeyMap.insertAll_append]
  · rw [replace, if_neg hi, pairsOf_cons_ne (Ne.symm hi)]

variable [Disk δ]

/-- What turns do that all succeed: every store has its own pairs in it, and the store that
took the last turn was saved at its end. -/
theorem takeTurns_of_ok {turns : List (ι × Write)} {stores stores' : ι → DotenvFile} {d d' : δ}
    (h : takeTurns turns stores d = (.ok (), stores', d')) :
    (∀ p ∈ turnPairs turns, isKey p.1 = true) ∧
      (∀ i, stores' i = (stores i).insertAll (pairsOf i turns)) ∧
      ∀ turn ∈ turns.getLast?, ∃ before, (stores' turn.1).save before = (.ok (), d') := by
  induction turns generalizing stores d with
  | nil =>
    obtain ⟨rfl, rfl⟩ := Prod.mk.inj (Prod.mk.inj h).2
    exact ⟨fun _ hp => (nomatch hp), fun _ => rfl, fun _ hturn => nomatch hturn⟩
  | cons turn turns ih =>
    obtain ⟨who, w⟩ := turn
    rw [takeTurns, run_eq_setAll] at h
    rcases hw : setAll w.pairs (stores who) d with ⟨answer, s, d₁⟩
    rw [hw] at h
    cases answer with
    | error e => cases h
    | ok _ =>
      obtain ⟨hkeys, rfl, hsave⟩ := setAll_of_ok hw
      obtain ⟨hrest, hstores, hlast⟩ := ih h
      refine ⟨fun p hp => ?_, fun i => ?_, fun turn hturn => ?_⟩
      · rcases List.mem_append.1 hp with hp | hp
        · exact hkeys p hp
        · exact hrest p hp
      · rw [hstores, replace_insertAll_pairsOf]
      · cases turns with
        | nil =>
          obtain rfl : (who, w) = turn := Option.some.inj hturn
          obtain ⟨rfl, rfl⟩ := Prod.mk.inj (Prod.mk.inj h).2
          refine ⟨d, ?_⟩
          rw [replace, if_pos rfl]
          exact hsave
        | cons next turns =>
          rw [List.getLast?_cons_cons] at hturn
          exact hlast turn hturn

/-- The file is read as the map of the store that took the last turn. -/
theorem readValues_of_takeTurns [LawfulDisk δ] {turns : List (ι × Write)}
    {stores stores' : ι → DotenvFile} {d d' : δ} {who : ι} {w : Write}
    (h : takeTurns turns stores d = (.ok (), stores', d')) (hlast : turns.getLast? = some (who, w))
    (hkeys : Dotenv.HasKeys (stores who).values) (environment : KeyMap String) :
    readValues environment (stores who).path d' = .ok (stores' who).values := by
  obtain ⟨hgood, hstores, hsaved⟩ := takeTurns_of_ok h
  obtain ⟨before, hsave⟩ := hsaved (who, w) hlast
  have hown : ∀ p ∈ pairsOf who turns, isKey p.1 = true :=
    fun p hp => hgood p (mem_turnPairs_of_mem_pairsOf hp)
  rw [hstores who] at hsave ⊢
  exact readValues_of_save (hasKeys_insertAll hkeys hown) hsave environment

/-! ## Two stores -/

/-- One of two stores of a file: the one that was opened first, or the other one. -/
inductive Party
  | first
  | second
deriving DecidableEq, Repr

/-- The store of a party. -/
def Party.store (first second : DotenvFile) : Party → DotenvFile
  | .first => first
  | .second => second

theorem path_of_load {environment : KeyMap String} {path : String} {s : DotenvFile} {d : δ}
    (h : load environment path d = .ok s) : s.path = path := by
  obtain ⟨values, -, rfl⟩ := exists_of_map_eq_ok h
  rfl

theorem load_of_readValues {environment values : KeyMap String} {path : String} {d : δ}
    (h : readValues environment path d = .ok values) :
    load environment path d = .ok ⟨path, values, environment⟩ := by
  rw [load, h]
  rfl

section

variable [LawfulDisk δ] {path : String} {environment₁ environment₂ : KeyMap String}
  {first first' second : DotenvFile} {alone : List Write} {d d₁ : δ}

omit [LawfulDisk δ] in
/-- Two stores of which the second one was opened after calls of the first one. -/
theorem store_of_runAll (hfirst : load environment₁ path d = .ok first)
    (halone : runAll alone first d = (.ok (), first', d₁))
    (hsecond : load environment₂ path d₁ = .ok second) (who : Party) :
    (Party.store first' second who).path = path ∧
      Dotenv.HasKeys (Party.store first' second who).values := by
  cases who with
  | first =>
    obtain ⟨hkeys, rfl, -⟩ := runAll_of_ok halone
    have hpath : first.path = path := path_of_load hfirst
    exact ⟨hpath, hasKeys_insertAll (hasKeys_of_load hfirst) hkeys⟩
  | second => exact ⟨path_of_load hsecond, hasKeys_of_load hsecond⟩

/-- If there were any calls, both stores hold what the file is read as. -/
theorem readValues_before_turns (hfirst : load environment₁ path d = .ok first)
    (halone : runAll alone first d = (.ok (), first', d₁))
    (hsecond : load environment₂ path d₁ = .ok second) (hne : alone ≠ []) (who : Party)
    (environment : KeyMap String) :
    readValues environment path d₁ = .ok (Party.store first' second who).values := by
  have hread : ∀ environment, readValues environment path d₁ = .ok first'.values := by
    intro environment
    have hpath : first'.path = path := (store_of_runAll hfirst halone hsecond .first).1
    rw [← hpath]
    exact readValues_of_runAll (hasKeys_of_load hfirst) halone hne environment
  cases who with
  | first => exact hread environment
  | second =>
    rw [load_of_readValues (hread environment₂)] at hsecond
    obtain rfl := Except.ok.inj hsecond
    exact hread environment

/-- Both stores hold what was written before the second one was opened. -/
theorem get?_before_turns (hfirst : load environment₁ path d = .ok first)
    (halone : runAll alone first d = (.ok (), first', d₁))
    (hsecond : load environment₂ path d₁ = .ok second) {key value : String}
    (hkey : (alone.flatMap Write.pairs).reverse.lookup key = some value) (who : Party) :
    (Party.store first' second who).values.get? key = some value := by
  have hne : alone ≠ [] := by
    rintro rfl
    cases hkey
  have hsame : (Party.store first' second who).values = first'.values := by
    have hread := readValues_before_turns hfirst halone hsecond hne
    exact Except.ok.inj ((hread who .empty).symm.trans (hread .first .empty))
  obtain ⟨-, rfl, -⟩ := runAll_of_ok halone
  rw [hsame, insertAll, KeyMap.get?_insertAll, hkey]
  rfl

/-- What a store finds that is opened after two others have written.  The first one wrote
alone, then the second one was opened, and then they took turns.  Found are the pairs of the
one that took the last turn, and all that was written before they took turns.  A pair of the
other one is found only if the one that took the last turn held it already. -/
theorem load_after_takeTurns {turns : List (Party × Write)} {stores : Party → DotenvFile} {d₂ : δ}
    {who : Party} (hfirst : load environment₁ path d = .ok first)
    (halone : runAll alone first d = (.ok (), first', d₁))
    (hsecond : load environment₂ path d₁ = .ok second)
    (hturns : takeTurns turns (Party.store first' second) d₁ = (.ok (), stores, d₂))
    (hlast : ∀ turn ∈ turns.getLast?, turn.1 = who) (hwritten : alone ≠ [] ∨ turns ≠ [])
    (environment : KeyMap String) :
    ∃ s, load environment path d₂ = .ok s ∧
      (∀ key value, (pairsOf who turns).reverse.lookup key = some value →
        s.values.get? key = some value) ∧
      (∀ key value, (turnPairs turns).reverse.lookup key = none →
        (alone.flatMap Write.pairs).reverse.lookup key = some value →
        s.values.get? key = some value) ∧
      ∀ key value, (pairsOf who turns).reverse.lookup key = none →
        (turnPairs turns).reverse.lookup key = some value →
        (s.values.get? key = some value ↔
          (Party.store first' second who).values.get? key = some value) := by
  have hread : readValues environment path d₂ = .ok (stores who).values := by
    cases hturn : turns.getLast? with
    | none =>
      obtain rfl : turns = [] := List.getLast?_eq_none_iff.1 hturn
      obtain ⟨rfl, rfl⟩ := Prod.mk.inj (Prod.mk.inj hturns).2
      have hne : alone ≠ [] := hwritten.resolve_right fun h => h rfl
      exact readValues_before_turns hfirst halone hsecond hne who environment
    | some turn =>
      obtain ⟨other, w⟩ := turn
      obtain rfl : other = who := hlast _ hturn
      obtain ⟨hpath, hkeys⟩ := store_of_runAll hfirst halone hsecond other
      rw [← hpath]
      exact readValues_of_takeTurns hturns hturn hkeys environment
  have hvalue : ∀ key, (stores who).values.get? key = ((pairsOf who turns).reverse.lookup key).or
      ((Party.store first' second who).values.get? key) := by
    intro key
    obtain ⟨-, hstores, -⟩ := takeTurns_of_ok hturns
    rw [hstores who, insertAll, KeyMap.get?_insertAll]
  refine ⟨_, load_of_readValues hread, fun key value hown => ?own,
    fun key value hnone hkey => ?alone, fun key value hnone _ => ?other⟩
  case own => rw [hvalue, hown, Option.some_or]
  case alone =>
    have hown : (pairsOf who turns).reverse.lookup key = none := by
      rw [List.lookup_eq_none_iff] at hnone ⊢
      intro p hp
      exact hnone p (List.mem_reverse.2 (mem_turnPairs_of_mem_pairsOf (List.mem_reverse.1 hp)))
    rw [hvalue, hown, Option.none_or]
    exact get?_before_turns hfirst halone hsecond hkey who
  case other => rw [hvalue, hnone, Option.none_or]

end

/-! ## Overlapping stores -/

/-- A store that has written one pair to an empty environment. -/
def oldStore : DotenvFile := emptyStore.insertAll [("A", "1")]

/-- The disk after that. -/
def oldTree : FileTree := (runAll [.set "A" "1"] emptyStore FileTree.empty).2.2

/-- Turns of which the store that was opened first takes the last one. -/
def overlappingTurns : List (Party × Write) :=
  [(.first, .set "B" "2"), (.second, .setAll [("B", "3"), ("C", "4"), ("A", "1")]),
    (.first, .set "D" "5")]

/-- Of the pairs of the second store, only that one is found which the first store had written
before. -/
theorem load_after_overlappingTurns :
    ∃ s, load .empty emptyStore.path
        (takeTurns overlappingTurns (Party.store oldStore oldStore) oldTree).2.2 = .ok s ∧
      s.values.get? "B" = some "2" ∧ s.values.get? "A" = some "1" ∧
      s.values.get? "C" ≠ some "4" := by
  have hfirst : load .empty emptyStore.path FileTree.empty = .ok emptyStore := by decide +kernel
  have halone : runAll [.set "A" "1"] emptyStore FileTree.empty = (.ok (), oldStore, oldTree) :=
    Prod.ext (by decide +kernel) (Prod.ext (by decide +kernel) rfl)
  have hsecond : load .empty emptyStore.path oldTree = .ok oldStore := by decide +kernel
  have hok : (takeTurns overlappingTurns (Party.store oldStore oldStore) oldTree).1 = .ok () := by
    decide +kernel
  have hlast : ∀ turn ∈ overlappingTurns.getLast?, turn.1 = Party.first := by decide
  rcases hturns : takeTurns overlappingTurns (Party.store oldStore oldStore) oldTree with
    ⟨answer, stores, d⟩
  rw [hturns] at hok
  obtain rfl : answer = .ok () := hok
  obtain ⟨s, hload, hown, -, hother⟩ := load_after_takeTurns hfirst halone hsecond hturns hlast
    (.inl (List.cons_ne_nil _ _)) .empty
  refine ⟨s, hload, hown "B" "2" (by decide +kernel), ?_, ?_⟩
  · exact (hother "A" "1" (by decide +kernel) (by decide +kernel)).2 (by decide +kernel)
  · rw [ne_eq, hother "C" "4" (by decide +kernel) (by decide +kernel)]
    decide +kernel

/-- Each of two stores writes a pair. -/
def twoTurns : List (Party × Write) :=
  [(.first, .set "A" "1"), (.second, .set "B" "2")]

/-- Two stores that are opened on an empty environment and write one pair each: the pair that
is written first is lost. -/
theorem not_forall_kept :
    ¬ ∀ (path : String) (environment : KeyMap String) (first second s : DotenvFile)
      (turns : List (Party × Write)) (stores : Party → DotenvFile) (d d' : FileTree),
      load environment path d = .ok first → load environment path d = .ok second →
      takeTurns turns (Party.store first second) d = (.ok (), stores, d') →
      load environment path d' = .ok s →
      ∀ key value, (turnPairs turns).reverse.lookup key = some value →
        s.values.get? key = some value := by
  intro hclaim
  have hopen : load .empty emptyStore.path FileTree.empty = .ok emptyStore := by decide +kernel
  have hturns :
      (takeTurns twoTurns (Party.store emptyStore emptyStore) FileTree.empty).1 = .ok () := by
    decide +kernel
  have hload : load .empty emptyStore.path
      (takeTurns twoTurns (Party.store emptyStore emptyStore) FileTree.empty).2.2 =
        .ok (emptyStore.insertAll [("B", "2")]) := by
    decide +kernel
  have hkept := hclaim _ _ _ _ _ twoTurns _ FileTree.empty _ hopen hopen (Prod.ext hturns rfl)
    hload "A" "1" (by decide +kernel)
  exact absurd hkept (by decide +kernel)

end Provisioner.Store.DotenvFile
