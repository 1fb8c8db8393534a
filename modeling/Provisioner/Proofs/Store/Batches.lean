import Mathlib.Data.List.Induction
import Mathlib.Data.List.TakeWhile
import Provisioner.Proofs.Store.FailedWrite
import Provisioner.Store.Memory

/-!
# Batches in memory and in files

A store in a file looks at all keys of a call before it takes any of its pairs.  A store in memory
takes one pair after the other, up to the first key that cannot be used.  They answer alike, but a
refused call may leave some of its pairs in memory.

* `Write.stranded` are these pairs.  `Memory.run_eq` says what a call does in memory, and
  `Write.takeWhile_eq` how much more that is than what it does in a file.
* `Agree` is to hold the same under every key that the process environment does not define.
  `agree_insertAll_iff` is one call.
* `stores_agree_iff` is any sequence of calls: the stores agree all the time exactly if no refused
  call leaves anything new behind.
-/

namespace Provisioner.Store

open DotenvFile (Write)

/-! ## Pairs that stay behind -/

theorem checkKeys_cons_of_isKey {key value : String} {rest : List (String × String)}
    (h : isKey key = true) : checkKeys ((key, value) :: rest) = checkKeys rest := by
  rw [checkKeys, checkKey, if_pos h]
  rfl

theorem checkKeys_cons_of_not_isKey {key value : String} {rest : List (String × String)}
    (h : ¬ isKey key = true) :
    checkKeys ((key, value) :: rest) = .error (.invalidKey key) := by
  rw [checkKeys, checkKey, if_neg h]
  rfl

/-- The pairs of a refused call before the key that it is refused for. -/
def DotenvFile.Write.stranded (w : Write) : List (String × String) :=
  match checkKeys w.pairs with
  | .ok () => []
  | .error _ => w.pairs.takeWhile fun p => isKey p.1

/-- The pairs before the first unusable key are the ones that a file takes, and those that stay
behind. -/
theorem DotenvFile.Write.takeWhile_eq (w : Write) :
    w.pairs.takeWhile (fun p => isKey p.1) = w.accepted ++ w.stranded := by
  unfold accepted stranded
  cases h : checkKeys w.pairs with
  | error e => rfl
  | ok _ =>
    have hall : w.pairs.takeWhile (fun p => isKey p.1) = w.pairs :=
      List.takeWhile_eq_self_iff.2 (isKey_of_checkKeys h)
    rw [hall]
    exact (List.append_nil _).symm

theorem DotenvFile.Write.accepted_of_checkKeys_error {w : Write} {e : Failure}
    (h : checkKeys w.pairs = .error e) : w.accepted = [] := by
  rw [accepted, h]

namespace Memory

/-- Does a call in memory. -/
def run (m : Memory) : Write → Except Failure Unit × Memory
  | .set key value => m.set key value
  | .setAll pairs => m.setAll pairs

theorem setAll_eq (pairs : List (String × String)) (m : Memory) :
    m.setAll pairs =
      (checkKeys pairs, ⟨m.values.insertAll (pairs.takeWhile fun p => isKey p.1)⟩) := by
  induction pairs generalizing m with
  | nil => rfl
  | cons p pairs ih =>
    obtain ⟨key, value⟩ := p
    by_cases hkey : isKey key = true
    · have htake : ((key, value) :: pairs).takeWhile (fun p => isKey p.1) =
          (key, value) :: pairs.takeWhile (fun p => isKey p.1) := by
        simp [hkey]
      rw [htake, checkKeys_cons_of_isKey hkey, setAll, set, checkKey, if_pos hkey]
      exact ih (m.withValue key value)
    · have htake : ((key, value) :: pairs).takeWhile (fun p => isKey p.1) = [] := by
        simp [hkey]
      rw [htake, checkKeys_cons_of_not_isKey hkey, setAll, set, checkKey, if_neg hkey]
      rfl

theorem values_of_setAll {pairs : List (String × String)} {m m' : Memory}
    (h : m.setAll pairs = (.ok (), m')) : m'.values = m.values.insertAll pairs := by
  rw [setAll_eq] at h
  obtain ⟨hkeys, rfl⟩ := Prod.mk.inj h
  show m.values.insertAll _ = m.values.insertAll pairs
  rw [List.takeWhile_eq_self_iff.2 (isKey_of_checkKeys hkeys)]

/-- Storing one value is storing a list of one. -/
theorem run_eq_setAll (m : Memory) (w : Write) : m.run w = m.setAll w.pairs := by
  cases w with
  | setAll pairs => rfl
  | set key value =>
    show m.set key value = m.setAll [(key, value)]
    rw [setAll]
    rcases m.set key value with ⟨_ | _, m'⟩ <;> rfl

/-- A call answers whether all its keys can be used, and inserts the pairs before the first that
cannot. -/
theorem run_eq (m : Memory) (w : Write) :
    m.run w = (checkKeys w.pairs, ⟨m.values.insertAll (w.accepted ++ w.stranded)⟩) := by
  rw [run_eq_setAll, setAll_eq, w.takeWhile_eq]

/-- The store after calls. -/
def afterCalls {δ : Type} : List (Write × δ) → Memory → Memory
  | [], m => m
  | (w, _) :: later, m => afterCalls later (m.run w).2

theorem afterCalls_append {δ : Type} (calls more : List (Write × δ)) (m : Memory) :
    afterCalls (calls ++ more) m = afterCalls more (afterCalls calls m) := by
  induction calls generalizing m with
  | nil => rfl
  | cons call calls ih => exact ih (m.run call.1).2

end Memory

/-! ## One call -/

/-- A store in memory and one in a file hold the same under every key that the process
environment does not define. -/
def Agree (m : Memory) (s : DotenvFile) : Prop :=
  ∀ key, s.environment.get? key = none → m.get? key = s.get? key

theorem agree_of_values_eq {m : Memory} {s : DotenvFile} (h : m.values = s.values) :
    Agree m s := by
  intro key hnone
  show m.values.get? key = (s.values.get? key).or (s.environment.get? key)
  rw [h, hnone, Option.or_none]

theorem Memory.get?_insertAll (m : Memory) (pairs : List (String × String)) (key : String) :
    (⟨m.values.insertAll pairs⟩ : Memory).get? key =
      (pairs.reverse.lookup key).or (m.get? key) :=
  KeyMap.get?_insertAll m.values pairs key

/-- More pairs in memory than in the file go unnoticed if they say what the file holds anyway. -/
theorem agree_insertAll_iff {m : Memory} {s : DotenvFile} (h : Agree m s)
    {accepted stranded : List (String × String)} (hone : accepted = [] ∨ stranded = []) :
    Agree ⟨m.values.insertAll (accepted ++ stranded)⟩ (s.insertAll accepted) ↔
      ∀ key value, s.environment.get? key = none →
        stranded.reverse.lookup key = some value → s.get? key = some value := by
  rcases hone with rfl | rfl
  · constructor
    · intro hagree key value hnone hlast
      have hkey := hagree key hnone
      rw [List.nil_append, Memory.get?_insertAll, hlast] at hkey
      exact hkey.symm
    · intro hthere key hnone
      rw [List.nil_append, Memory.get?_insertAll]
      show (stranded.reverse.lookup key).or (m.get? key) = s.get? key
      cases hlast : stranded.reverse.lookup key with
      | none => exact h key hnone
      | some value => exact (hthere key value hnone hlast).symm
  · refine ⟨fun _ _ _ _ hlast => absurd hlast (Option.some_ne_none _).symm, fun _ key hnone => ?_⟩
    rw [List.append_nil, Memory.get?_insertAll, DotenvFile.get?_insertAll, h key hnone]

namespace DotenvFile

variable {δ : Type} [Disk δ]

/-- A call whose file can be written is refused for a key or not at all. -/
theorem answer_of_ne_io {w : Write} {s : DotenvFile} {d : δ}
    (h : ∀ path cause, (w.run s d).1 ≠ .error (.io path cause)) :
    (w.run s d).1 = checkKeys w.pairs := by
  rw [Write.run_eq_setAll, DotenvFile.setAll] at h ⊢
  cases hkeys : checkKeys w.pairs with
  | error e => rfl
  | ok _ =>
    rw [hkeys] at h
    show ((s.insertAll w.pairs).save d).1 = .ok ()
    rcases hsave : (s.insertAll w.pairs).save d with ⟨_ | _, d'⟩
    · obtain ⟨path, cause, rfl⟩ := exists_of_save_error hsave
      exact absurd (congrArg Prod.fst hsave) (h path cause)
    · rfl

theorem afterCalls_append (calls more : List (Write × δ)) (s : DotenvFile) :
    afterCalls (calls ++ more) s = afterCalls more (afterCalls calls s) := by
  induction calls generalizing s with
  | nil => rfl
  | cons call calls ih => exact ih (call.1.run s call.2).2.1

theorem environment_afterCalls (calls : List (Write × δ)) (s : DotenvFile) :
    (afterCalls calls s).environment = s.environment := by
  rw [afterCalls_eq]
  rfl

end DotenvFile

/-! ## Any sequence of calls -/

section

variable {δ : Type} [Disk δ]

/-- The file can be written whenever one of the calls does so. -/
def Saved : List (Write × δ) → DotenvFile → Prop
  | [], _ => True
  | (w, d) :: later, s =>
    (∀ path cause, (w.run s d).1 ≠ .error (.io path cause)) ∧ Saved later (w.run s d).2.1

theorem Saved.ne_io {before after : List (Write × δ)} {w : Write} {d : δ} {s : DotenvFile}
    (h : Saved (before ++ (w, d) :: after) s) (path : String) (cause : IoError) :
    (w.run (DotenvFile.afterCalls before s) d).1 ≠ .error (.io path cause) := by
  induction before generalizing s with
  | nil => exact h.1 path cause
  | cons call before ih => exact ih h.2

/-- Stores that agree still do after a call, unless it leaves something new behind in memory. -/
theorem agree_run_iff {m : Memory} {s : DotenvFile} (h : Agree m s) (w : Write) (d : δ) :
    Agree (m.run w).2 (w.run s d).2.1 ↔
      ∀ key value, s.environment.get? key = none →
        w.stranded.reverse.lookup key = some value → s.get? key = some value := by
  have hone : w.accepted = [] ∨ w.stranded = [] := by
    unfold DotenvFile.Write.accepted DotenvFile.Write.stranded
    cases checkKeys w.pairs with
    | ok _ => exact .inr rfl
    | error _ => exact .inl rfl
  rw [Memory.run_eq, DotenvFile.Write.run_store]
  exact agree_insertAll_iff h hone

/-- What becomes of a store in memory and of one in a file that hold the same at first, when the
same calls are made on both and the file can always be written.  Each call answers alike on both.
They hold the same after every call exactly if the pairs that refused calls leave in memory say
what the file holds anyway.  A refused call does nothing to the file, and nothing to the memory
exactly if its pairs before the refused key say what it held already. -/
theorem stores_agree_iff {m : Memory} {s : DotenvFile} (hsame : m.values = s.values)
    {calls : List (Write × δ)} (hsaved : Saved calls s) :
    (∀ before w d after, calls = before ++ (w, d) :: after →
      ((Memory.afterCalls before m).run w).1 = (w.run (DotenvFile.afterCalls before s) d).1 ∧
      ∀ e, ((Memory.afterCalls before m).run w).1 = .error e → ∃ key, e = .invalidKey key) ∧
    ((∀ before after, calls = before ++ after →
        Agree (Memory.afterCalls before m) (DotenvFile.afterCalls before s)) ↔
      ∀ before w d after, calls = before ++ (w, d) :: after → ∀ key value,
        s.environment.get? key = none → w.stranded.reverse.lookup key = some value →
        (DotenvFile.afterCalls before s).get? key = some value) ∧
    ∀ before w d after, calls = before ++ (w, d) :: after →
      ∀ e, ((Memory.afterCalls before m).run w).1 = .error e →
        (w.run (DotenvFile.afterCalls before s) d).2.1 = DotenvFile.afterCalls before s ∧
        ((∀ key, ((Memory.afterCalls before m).run w).2.get? key =
            (Memory.afterCalls before m).get? key) ↔
          ∀ key value, w.stranded.reverse.lookup key = some value →
            (Memory.afterCalls before m).get? key = some value) := by
  refine ⟨?answers, ?agree, ?refused⟩
  case answers =>
    intro before w d after hsplit
    rw [hsplit] at hsaved
    rw [Memory.run_eq, DotenvFile.answer_of_ne_io hsaved.ne_io]
    exact ⟨rfl, fun e he => DotenvFile.exists_of_checkKeys_error he⟩
  case agree =>
    constructor
    · intro hagree before w d after hsplit key value hnone
      have hbefore := hagree before ((w, d) :: after) hsplit
      have hafter := hagree (before ++ [(w, d)]) after (by rw [hsplit, List.append_assoc]; rfl)
      rw [Memory.afterCalls_append, DotenvFile.afterCalls_append] at hafter
      refine (agree_run_iff hbefore w d).1 hafter key value ?_
      rw [DotenvFile.environment_afterCalls]
      exact hnone
    · intro hthere before
      -- From the front: each call keeps the agreement that the calls before it have left.
      induction before using List.reverseRecOn with
      | nil =>
        exact fun _ _ => agree_of_values_eq hsame
      | append_singleton before call ih =>
        obtain ⟨w, d⟩ := call
        intro after hsplit
        have hsplit : calls = before ++ (w, d) :: after := by
          rw [hsplit, List.append_assoc]
          rfl
        rw [Memory.afterCalls_append, DotenvFile.afterCalls_append]
        refine (agree_run_iff (ih ((w, d) :: after) hsplit) w d).2 fun key value hnone => ?_
        rw [DotenvFile.environment_afterCalls] at hnone
        exact hthere before w d after hsplit key value hnone
  case refused =>
    intro before w d after hsplit e he
    have hkeys : checkKeys w.pairs = .error e := by
      rw [Memory.run_eq] at he
      exact he
    have haccepted := DotenvFile.Write.accepted_of_checkKeys_error hkeys
    refine ⟨?_, ?_⟩
    · rw [DotenvFile.Write.run_store, haccepted]
      rfl
    · rw [Memory.run_eq, haccepted, List.nil_append]
      constructor
      · intro hunchanged key value hlast
        have hkey := hunchanged key
        rw [Memory.get?_insertAll, hlast] at hkey
        exact hkey.symm
      · intro hthere key
        rw [Memory.get?_insertAll]
        cases hlast : w.stranded.reverse.lookup key with
        | none => rfl
        | some value => exact (hthere key value hlast).symm

end

/-! ## A batch that is refused at its second key -/

/-- A good pair before one that cannot be stored. -/
def leakyBatch : Write := .setAll [("GOOD", "1"), ("bad key", "2")]

theorem saved_leakyBatch : Saved [(leakyBatch, FileTree.empty)] DotenvFile.emptyStore := by
  have hrefused : (leakyBatch.run DotenvFile.emptyStore FileTree.empty).1 =
      .error (.invalidKey "bad key") := by decide +kernel
  refine ⟨fun path cause hio => ?_, trivial⟩
  rw [hrefused] at hio
  cases hio

/-- Both stores refuse the batch for the same key; the file does not change, but the memory does,
and they do not agree any more. -/
theorem stores_agree_iff_leakyBatch :
    let m : Memory := ⟨.empty⟩
    let s := DotenvFile.emptyStore
    (m.run leakyBatch).1 = .error (.invalidKey "bad key") ∧
      (m.run leakyBatch).1 = (leakyBatch.run s FileTree.empty).1 ∧
      (leakyBatch.run s FileTree.empty).2.1 = s ∧
      (¬ ∀ key, (m.run leakyBatch).2.get? key = m.get? key) ∧
      ¬ ∀ before after, [(leakyBatch, FileTree.empty)] = before ++ after →
        Agree (Memory.afterCalls before m) (DotenvFile.afterCalls before s) := by
  intro m s
  have hlast : leakyBatch.stranded.reverse.lookup "GOOD" = some "1" := by decide +kernel
  have hrefused : (m.run leakyBatch).1 = .error (.invalidKey "bad key") := by decide +kernel
  obtain ⟨hanswers, hagree, hleft⟩ := stores_agree_iff (m := m) (s := s) rfl saved_leakyBatch
  obtain ⟨hfile, hmemory⟩ := hleft [] leakyBatch FileTree.empty [] rfl _ hrefused
  refine ⟨hrefused, (hanswers [] leakyBatch FileTree.empty [] rfl).1, hfile, ?_, ?_⟩
  · intro hunchanged
    exact absurd (hmemory.1 hunchanged "GOOD" "1" hlast) (by decide +kernel)
  · intro hall
    have hthere := hagree.1 hall [] leakyBatch FileTree.empty [] rfl "GOOD" "1"
      (by decide +kernel) hlast
    exact absurd hthere (by decide +kernel)

/-- The same calls do not always leave the same in memory and in a file. -/
theorem not_forall_stores_agree :
    ¬ ∀ (m : Memory) (s : DotenvFile) (calls : List (Write × FileTree)),
      m.values = s.values → (∀ e ∈ m.values.entries, isKey e.1 = true) → Saved calls s →
      ∀ before after, calls = before ++ after →
        Agree (Memory.afterCalls before m) (DotenvFile.afterCalls before s) := by
  intro hall
  have hagree := hall ⟨.empty⟩ DotenvFile.emptyStore [(leakyBatch, FileTree.empty)] rfl
    (fun e he => absurd he List.not_mem_nil) saved_leakyBatch [(leakyBatch, FileTree.empty)] []
    (List.append_nil _).symm "GOOD" (by decide +kernel)
  exact absurd hagree (by decide +kernel)

end Provisioner.Store
