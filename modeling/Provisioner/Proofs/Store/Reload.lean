import Provisioner.Proofs.Disk
import Provisioner.Proofs.Dotenv.RoundTrip
import Provisioner.Store.Dotenv

/-!
# Opening a written file again

A store writes its whole map with every call, so a store that is opened on the file
afterwards holds the same map.

* `setAll_of_ok` says what a call that succeeds does to the store and to its file, and `Written`
  what becomes of a disk on which stores are saved.
* `Write` is a call that stores values, and `Write.runAll` does several.  Calls that
  succeed insert their pairs (`runAll_of_ok`).
* `Reached` are the stores that opening and any calls lead to; their keys can be bound.
* `readValues_of_runAll`: after calls that succeed the file is read as the map.
-/

namespace Provisioner.Store

theorem isKey_of_checkKey {key : String} (h : checkKey key = .ok ()) : isKey key = true := by
  unfold checkKey at h
  split at h
  · assumption
  · cases h

theorem isKey_of_checkKeys {pairs : List (String × String)} (h : checkKeys pairs = .ok ()) :
    ∀ p ∈ pairs, isKey p.1 = true := by
  induction pairs with
  | nil => exact fun _ hp => nomatch hp
  | cons p pairs ih =>
    obtain ⟨key, value⟩ := p
    obtain ⟨_, hkey, hrest⟩ := exists_of_bind_eq_ok h
    intro q hq
    rcases List.mem_cons.1 hq with rfl | hq
    · exact isKey_of_checkKey hkey
    · exact ih hrest q hq

namespace DotenvFile

variable {δ : Type}

/-! ## One call -/

theorem get?_insertAll (s : DotenvFile) (pairs : List (String × String)) (key : String) :
    (s.insertAll pairs).get? key = (pairs.reverse.lookup key).or (s.get? key) := by
  simp only [get?, insertAll, KeyMap.get?_insertAll, Option.or_assoc]

theorem eq_of_named_ok {path : String} {r : Except IoError Unit × δ} {d : δ}
    (h : named path r = (.ok (), d)) : r = (.ok (), d) := by
  obtain ⟨answer, d'⟩ := r
  cases answer with
  | ok _ =>
    obtain rfl : d' = d := (Prod.mk.inj h).2
    rfl
  | error e => cases h

variable [Disk δ]

/-- A store that was saved has written its map last. -/
theorem write_of_save {s : DotenvFile} {d d' : δ} (h : s.save d = (.ok (), d')) :
    ∃ before, Disk.write s.path (Dotenv.render s.values) before = (.ok (), d') := by
  unfold save at h
  split at h
  · cases h
  · split at h
    · cases h
    · exact ⟨_, eq_of_named_ok h⟩

/-- What becomes of a disk on which stores are saved in the file at a path. -/
inductive Written (path : String) : δ → δ → Prop
  | not {d : δ} : Written path d d
  | saved {s : DotenvFile} {d d' d'' : δ} : Written path d d' → s.path = path →
    s.save d' = (.ok (), d'') → Written path d d''

/-- What a call that succeeds does: its keys are good, its pairs are in the store, and the
store was saved. -/
theorem setAll_of_ok {pairs : List (String × String)} {s s' : DotenvFile} {d d' : δ}
    (h : setAll pairs s d = (.ok (), s', d')) :
    (∀ p ∈ pairs, isKey p.1 = true) ∧ s' = s.insertAll pairs ∧ s'.save d = (.ok (), d') := by
  unfold setAll at h
  split at h
  · cases h
  · rename_i hkeys
    obtain ⟨hanswer, hrest⟩ := Prod.mk.inj h
    obtain ⟨rfl, rfl⟩ := Prod.mk.inj hrest
    exact ⟨isKey_of_checkKeys hkeys, rfl, Prod.ext hanswer rfl⟩

theorem hasKeys_insertAll {pairs : List (String × String)} {s : DotenvFile}
    (hs : Dotenv.HasKeys s.values) (hpairs : ∀ p ∈ pairs, isKey p.1 = true) :
    Dotenv.HasKeys (s.insertAll pairs).values :=
  hs.insertAll fun p hp => Dotenv.isKey_of_storeKey (hpairs p hp)

theorem hasKeys_of_load {environment : KeyMap String} {path : String} {s : DotenvFile} {d : δ}
    (h : load environment path d = .ok s) : Dotenv.HasKeys s.values := by
  obtain ⟨values, hvalues, rfl⟩ := exists_of_map_eq_ok h
  unfold readValues at hvalues
  split at hvalues
  · obtain rfl : KeyMap.empty = values := Except.ok.inj hvalues
    exact Dotenv.hasKeys_empty
  · split at hvalues
    · cases hvalues
    · exact Dotenv.hasKeys_of_parse (eq_ok_of_mapError_eq_ok hvalues)

/-- The file of a store that was saved is read as the store's map. -/
theorem readValues_of_save [LawfulDisk δ] {s : DotenvFile} {d d' : δ}
    (hkeys : Dotenv.HasKeys s.values) (h : s.save d = (.ok (), d'))
    (environment : KeyMap String) : readValues environment s.path d' = .ok s.values := by
  obtain ⟨before, hwrite⟩ := write_of_save h
  have hthere : Disk.isThere d' s.path = true := LawfulDisk.isThere_write hwrite
  have hread : Disk.read d' s.path = .ok (.text (Dotenv.render s.values)) :=
    LawfulDisk.read_write hwrite
  simp only [readValues, hthere, hread, Dotenv.parse_render environment hkeys]
  rfl

/-! ## Several calls -/

/-- A call that stores values. -/
inductive Write
  | set (key value : String)
  | setAll (pairs : List (String × String))
deriving DecidableEq, Repr

namespace Write

/-- The pairs of a call. -/
def pairs : Write → List (String × String)
  | .set key value => [(key, value)]
  | .setAll pairs => pairs

/-- Does a call. -/
def run : Write → DotenvFile → δ → Except Failure Unit × DotenvFile × δ
  | .set key value, s, d => s.set key value d
  | .setAll pairs, s, d => s.setAll pairs d

/-- Does calls one after the other, up to the first that fails. -/
def runAll : List Write → DotenvFile → δ → Except Failure Unit × DotenvFile × δ
  | [], s, d => (.ok (), s, d)
  | w :: rest, s, d =>
    match w.run s d with
    | (.ok (), s, d) => runAll rest s d
    | failed => failed

/-- Storing one value is storing a list of one. -/
theorem run_eq_setAll (w : Write) (s : DotenvFile) (d : δ) : w.run s d = s.setAll w.pairs d := by
  cases w <;> rfl

/-- The pairs of a call that get into the store, whether it can be saved or not: all of
them or, if a key is refused, none. -/
def accepted (w : Write) : List (String × String) :=
  match checkKeys w.pairs with
  | .ok () => w.pairs
  | .error _ => []

theorem isKey_of_mem_accepted (w : Write) : ∀ p ∈ w.accepted, isKey p.1 = true := by
  unfold accepted
  split
  · rename_i h
    exact isKey_of_checkKeys h
  · exact fun _ hp => nomatch hp

/-- What a call leaves in the store does not depend on the disk. -/
theorem run_store (w : Write) (s : DotenvFile) (d : δ) :
    (w.run s d).2.1 = s.insertAll w.accepted := by
  rw [run_eq_setAll, DotenvFile.setAll, accepted]
  cases checkKeys w.pairs with
  | ok _ => rfl
  | error _ => rfl

end Write

open Write

theorem eq_of_runAll_nil {s s' : DotenvFile} {d d' : δ} (h : runAll [] s d = (.ok (), s', d')) :
    s = s' ∧ d = d' :=
  Prod.mk.inj (Prod.mk.inj h).2

/-- Calls that succeed insert all their pairs, and the last one has saved the store. -/
theorem runAll_of_ok {ws : List Write} {s s' : DotenvFile} {d d' : δ}
    (h : runAll ws s d = (.ok (), s', d')) :
    (∀ p ∈ ws.flatMap Write.pairs, isKey p.1 = true) ∧
      s' = s.insertAll (ws.flatMap Write.pairs) ∧
      (ws ≠ [] → ∃ before, s'.save before = (.ok (), d')) := by
  induction ws generalizing s d with
  | nil =>
    obtain ⟨rfl, rfl⟩ := eq_of_runAll_nil h
    exact ⟨fun _ hp => (nomatch hp), rfl, fun hne => absurd rfl hne⟩
  | cons w ws ih =>
    rw [runAll, run_eq_setAll] at h
    rcases hw : setAll w.pairs s d with ⟨answer, s₁, d₁⟩
    rw [hw] at h
    cases answer with
    | error e => cases h
    | ok _ =>
      obtain ⟨hkeys, rfl, hsave⟩ := setAll_of_ok hw
      obtain ⟨hrest, rfl, hlast⟩ := ih h
      refine ⟨?_, ?_, fun _ => ?_⟩
      · intro p hp
        rcases List.mem_append.1 hp with hp | hp
        · exact hkeys p hp
        · exact hrest p hp
      · simp only [insertAll, List.flatMap_cons, KeyMap.insertAll_append]
      · cases ws with
        | nil =>
          obtain ⟨-, rfl⟩ := eq_of_runAll_nil h
          exact ⟨d, hsave⟩
        | cons w' ws => exact hlast (List.cons_ne_nil w' ws)

/-- The stores that opening a file leads to, and then any calls on any disks, whether they
succeed or fail. -/
inductive Reached (δ : Type) [Disk δ] : DotenvFile → Prop
  | load {environment : KeyMap String} {path : String} {s : DotenvFile} {d : δ} :
    load environment path d = .ok s → Reached δ s
  | write {s : DotenvFile} (w : Write) (d : δ) : Reached δ s → Reached δ (w.run s d).2.1

/-- The keys of a store can be bound. -/
theorem Reached.hasKeys {s : DotenvFile} (h : Reached δ s) : Dotenv.HasKeys s.values := by
  induction h with
  | load h => exact hasKeys_of_load h
  | write w d _ ih =>
    rw [run_store]
    exact hasKeys_insertAll ih w.isKey_of_mem_accepted

/-- After calls that succeed the file is read as the map of the store, under every process
environment. -/
theorem readValues_of_runAll [LawfulDisk δ] {ws : List Write} {s s' : DotenvFile} {d d' : δ}
    (hs : Dotenv.HasKeys s.values) (h : runAll ws s d = (.ok (), s', d')) (hne : ws ≠ [])
    (environment : KeyMap String) : readValues environment s'.path d' = .ok s'.values := by
  obtain ⟨hkeys, rfl, hsave⟩ := runAll_of_ok h
  obtain ⟨before, hlast⟩ := hsave hne
  exact readValues_of_save (hasKeys_insertAll hs hkeys) hlast environment

/-- A store that is opened on the file after calls that succeeded holds what the writing
store holds: every key that was written has its last value, and every other key the value
that it had at first.  After at least one call this does not depend on the process
environment. -/
theorem load_after_runAll [LawfulDisk δ] {environment : KeyMap String} {path : String}
    {ws : List Write} {s s' : DotenvFile} {d d' : δ} (hload : load environment path d = .ok s)
    (h : runAll ws s d = (.ok (), s', d')) :
    load environment path d' = .ok s' ∧
      (ws ≠ [] → ∀ other, load other path d' = .ok ⟨path, s'.values, other⟩) ∧
      ∀ key, s'.values.get? key =
        ((ws.flatMap Write.pairs).reverse.lookup key).or (s.values.get? key) := by
  have hs : Dotenv.HasKeys s.values := hasKeys_of_load hload
  obtain ⟨-, hstore, -⟩ := runAll_of_ok h
  obtain ⟨values, hvalues, rfl⟩ := exists_of_map_eq_ok hload
  have hother : ws ≠ [] → ∀ other, load other path d' = .ok ⟨path, s'.values, other⟩ := by
    intro hne other
    have hread := readValues_of_runAll hs h hne other
    rw [hstore] at hread ⊢
    rw [load, show readValues other path d' = _ from hread]
    rfl
  refine ⟨?_, hother, fun key => ?_⟩
  · by_cases hne : ws = []
    · subst hne
      obtain ⟨rfl, rfl⟩ := eq_of_runAll_nil h
      exact hload
    · rw [hother hne environment, hstore]
      rfl
  · rw [hstore]
    exact KeyMap.get?_insertAll values (ws.flatMap Write.pairs) key

/-! ## A file with hard values -/

/-- A file with quotes, a comment and variables, and with keys that cannot be stored under. -/
def hardTree : FileTree :=
  ⟨[([".fleetml"], .directory), ([".fleetml", "dev"], .directory),
    ([".fleetml", "dev", ".env"],
      .file (.text "export a.b='1 2'\nexport=\"$\x7ba.b\x7d$\x7bHOME\x7d\"\nA=old # b\n") false)], []⟩

/-- The store of that file. -/
def hardStore : DotenvFile :=
  ⟨".fleetml/dev/.env", KeyMap.ofList [("A", "old"), ("a.b", "1 2"), ("export", "1 2/root")],
    KeyMap.ofList [("HOME", "/root")]⟩

/-- Calls with values in which every character is special. -/
def hardWrites : List Write :=
  [.set "A" "'$HOME' $\x7bB\x7d #\\",
    .setAll [("B", "\"\n\r\\n"), ("A", "$\x7bA\x7d$$\\\"é\n")]]

theorem load_after_hardWrites :
    load hardStore.environment hardStore.path hardTree = .ok hardStore ∧
      (runAll hardWrites hardStore hardTree).1 = .ok () ∧
      load hardStore.environment hardStore.path (runAll hardWrites hardStore hardTree).2.2 =
        .ok (runAll hardWrites hardStore hardTree).2.1 ∧
      load .empty hardStore.path (runAll hardWrites hardStore hardTree).2.2 =
        .ok ⟨hardStore.path, (runAll hardWrites hardStore hardTree).2.1.values, .empty⟩ ∧
      (runAll hardWrites hardStore hardTree).2.1.values.get? "A" =
        some "$\x7bA\x7d$$\\\"é\n" ∧
      (runAll hardWrites hardStore hardTree).2.1.values.get? "a.b" = some "1 2" := by
  have hload : load hardStore.environment hardStore.path hardTree = .ok hardStore := by
    decide +kernel
  have hwrites : (runAll hardWrites hardStore hardTree).1 = .ok () := by decide +kernel
  obtain ⟨hsame, hother, hget⟩ := load_after_runAll hload (Prod.ext hwrites rfl)
  exact ⟨hload, hwrites, hsame, hother (by decide) .empty,
    (hget "A").trans (by decide +kernel), (hget "a.b").trans (by decide +kernel)⟩

end DotenvFile

end Provisioner.Store
