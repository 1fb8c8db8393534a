import Provisioner.Proofs.Disk.Faults
import Provisioner.Proofs.Store.FailedWrite

/-!
# What is left of the previous file

A store is saved in three steps: its directory is made, its file is copied to the backup, and then
the file is written.  Each of them may fail.  The steps never touch both files: the copy changes the
backup alone, and by the time that the file is written the backup holds what it held.

* `file?` and `backup?` are what the two files hold.  They are files at places, so it does not
  matter whether the directories on the way to them are all there already.
* `place_backupPath`: the backup stands beside the file, at another place.
* `KeepsPrevious` is what a call leaves of them.  `backUp_cases` and `write_cases` are its last two
  steps, and `keepsPrevious_save` all three of them.
* `previous_kept`: after every call the previous file is in the backup, or still there.
-/

namespace Provisioner.Store.DotenvFile

open FailingDisk (tree)
open FileTree (ChangedAt)
open Write

variable {δ : Type}

theorem eq_of_named {path : String} {r : Except IoError Unit} {answer : Except Failure Unit}
    {d d' : δ} (h : named path (r, d) = (answer, d')) :
    d = d' ∧ (answer = .ok () → r = .ok ()) := by
  cases r with
  | ok _ =>
    obtain ⟨-, rfl⟩ := Prod.mk.inj h
    exact ⟨rfl, fun _ => rfl⟩
  | error e =>
    obtain ⟨rfl, rfl⟩ := Prod.mk.inj h
    exact ⟨rfl, nofun⟩

variable [Disk δ] [FailingDisk δ]

/-! ## The two files -/

/-- What the file of a store holds. -/
def file? (s : DotenvFile) (d : δ) : Option Content :=
  (tree d).held? ((tree d).place s.path)

/-- What the backup beside it holds. -/
def backup? (s : DotenvFile) (d : δ) : Option Content :=
  (tree d).held? ((tree d).place (backupPath s.path))

/-- The file of a named environment and its backup are at two places. -/
theorem place_backupPath (t : FileTree) (root name : String) :
    t.place (backupPath (filePath root name)) ≠ t.place (filePath root name) := by
  have hfile : Path.IsPlain ".env" := ⟨by decide, by decide, by decide⟩
  have hbackup : Path.IsPlain backupName := ⟨by decide, by decide, by decide⟩
  obtain ⟨directory, hpath, hother⟩ := Path.locate_withFileName
    (hfile.fileName?_join (Path.join (Path.join root ".fleetml") name)) hbackup t.current
  rw [hfile.advance_eq] at hpath
  intro heq
  have hnames : directory ++ [backupName] = directory ++ [".env"] := by
    rw [← hother, ← hpath]
    exact heq
  exact absurd (List.append_cancel_left hnames) (by decide)

variable {s : DotenvFile} {places : List Place} {answer : Except Failure Unit} {d d' : δ}

theorem file?_of_changedAt (h : ChangedAt places (tree d) (tree d'))
    (hnot : (tree d).place s.path ∉ places) : s.file? d' = s.file? d := by
  rw [file?, file?, h.place_eq, h.held _ hnot]

theorem backup?_of_changedAt (h : ChangedAt places (tree d) (tree d'))
    (hnot : (tree d).place (backupPath s.path) ∉ places) : s.backup? d' = s.backup? d := by
  rw [backup?, backup?, h.place_eq, h.held _ hnot]

/-! ## The steps of a write -/

theorem changedAt_makeDirectory {path : String} (h : makeDirectory path d = (answer, d')) :
    ChangedAt [] (tree d) (tree d') := by
  unfold makeDirectory at h
  split at h
  · obtain ⟨-, rfl⟩ := Prod.mk.inj h
    exact .refl _ _
  · next up _ =>
    rcases hmake : Disk.createDirAll up d with ⟨r, d₁⟩
    rw [hmake] at h
    obtain ⟨rfl, -⟩ := eq_of_named h
    exact FailingDisk.changedAt_createDirAll hmake

/-- Backing up changes the backup alone.  If it does not fail, the backup holds what the file holds,
or there is no file to be seen and nothing has changed. -/
theorem backUp_cases (h : backUp s.path d = (answer, d')) :
    ChangedAt [(tree d).place (backupPath s.path)] (tree d) (tree d') ∧
      (answer = .ok () →
        (∃ content, s.file? d = some content ∧ s.backup? d' = some content) ∨
          (Disk.isThere d s.path = false ∧ d' = d)) := by
  unfold backUp at h
  split at h
  · rcases hcopy : Disk.copy s.path (backupPath s.path) d with ⟨r, d₁⟩
    rw [hcopy] at h
    obtain ⟨rfl, hok⟩ := eq_of_named h
    have hchanged := FailingDisk.changedAt_copy hcopy
    refine ⟨hchanged, fun hanswer => .inl ?_⟩
    rw [hok hanswer] at hcopy
    obtain ⟨content, hfile, hbackup⟩ := FailingDisk.held?_of_copy hcopy
    refine ⟨content, hfile, ?_⟩
    rw [backup?, hchanged.place_eq]
    exact hbackup
  · next hthere =>
    obtain ⟨rfl, rfl⟩ := Prod.mk.inj h
    exact ⟨.refl _ _, fun _ => .inr ⟨Bool.eq_false_iff.2 hthere, rfl⟩⟩

/-- Writing the file leaves the backup alone, and the file too if it cannot be seen. -/
theorem write_cases (hapart : (tree d).place (backupPath s.path) ≠ (tree d).place s.path)
    {text : String} (h : named s.path (Disk.write s.path text d) = (answer, d')) :
    s.backup? d' = s.backup? d ∧ (Disk.isThere d s.path = false →
      ∀ content, s.file? d = some content → answer ≠ .ok () ∧ s.file? d' = some content) := by
  rcases hwrite : Disk.write s.path text d with ⟨r, d₁⟩
  rw [hwrite] at h
  obtain ⟨rfl, hok⟩ := eq_of_named h
  refine ⟨?_, fun hunseen content hfile => ?_⟩
  · exact backup?_of_changedAt (FailingDisk.changedAt_write hwrite)
      (List.mem_singleton.not.2 hapart)
  · obtain ⟨hanswer, htree⟩ := FailingDisk.write_of_unseen hwrite hunseen hfile
    refine ⟨fun heq => hanswer (hok heq), ?_⟩
    rw [file?, htree]
    exact hfile

/-- What a call leaves of the two files.  When it has succeeded, the backup holds what the file held
before or, if there was no file, what it held itself.  A refused call changes nothing at all.  When
it has failed, what the file held is still in one of the two. -/
structure KeepsPrevious (s : DotenvFile) (answer : Except Failure Unit) (d d' : δ) : Prop where
  backedUp : answer = .ok () → ∀ content, s.file? d = some content → s.backup? d' = some content
  untouched : answer = .ok () → s.file? d = none → s.backup? d' = s.backup? d
  refused : ∀ key, answer = .error (.invalidKey key) → d' = d
  kept : ∀ e, answer = .error e → ∀ content, s.file? d = some content →
    s.file? d' = some content ∨ s.backup? d' = some content

/-- A call that has failed without a change keeps everything. -/
theorem keepsPrevious_refl (s : DotenvFile) (e : Failure) (d : δ) :
    KeepsPrevious s (.error e) d d :=
  ⟨nofun, nofun, fun _ _ => rfl, fun _ _ _ hfile => .inl hfile⟩

/-- A disk that has failed before the file was written keeps it. -/
theorem keepsPrevious_of_error {e : Failure} (hdisk : ∀ key, e ≠ .invalidKey key)
    (h : s.file? d' = s.file? d) : KeepsPrevious s (.error e) d d' :=
  ⟨nofun, nofun, fun key hkey => absurd (Except.error.inj hkey) (hdisk key),
    fun _ _ _ hfile => .inl (h.trans hfile)⟩

theorem apart_of_changedAt (h : ChangedAt places (tree d) (tree d'))
    (hapart : (tree d).place (backupPath s.path) ≠ (tree d).place s.path) :
    (tree d').place (backupPath s.path) ≠ (tree d').place s.path := by
  rw [h.place_eq, h.place_eq]
  exact hapart

theorem keepsPrevious_save (hapart : (tree d).place (backupPath s.path) ≠ (tree d).place s.path)
    (h : s.save d = (answer, d')) : KeepsPrevious s answer d d' := by
  have hdisk : ∀ key, answer ≠ .error (.invalidKey key) := by
    rintro key rfl
    obtain ⟨path, cause, heq⟩ := exists_of_save_error h
    cases heq
  unfold save at h
  rcases hmake : makeDirectory s.path d with ⟨_ | _, d₁⟩
  · rw [hmake] at h
    obtain ⟨rfl, rfl⟩ := Prod.mk.inj h
    refine keepsPrevious_of_error (fun key heq => hdisk key (congrArg _ heq)) ?_
    exact file?_of_changedAt (changedAt_makeDirectory hmake) List.not_mem_nil
  have hmade := changedAt_makeDirectory hmake
  have hfile : s.file? d₁ = s.file? d := file?_of_changedAt hmade List.not_mem_nil
  have hapart₁ := apart_of_changedAt hmade hapart
  rw [hmake] at h
  dsimp only at h
  rcases hcopy : backUp s.path d₁ with ⟨_ | _, d₂⟩
  · rw [hcopy] at h
    obtain ⟨rfl, rfl⟩ := Prod.mk.inj h
    obtain ⟨hchanged, -⟩ := backUp_cases hcopy
    refine keepsPrevious_of_error (fun key heq => hdisk key (congrArg _ heq)) ?_
    exact (file?_of_changedAt hchanged (List.mem_singleton.not.2 hapart₁.symm)).trans hfile
  rw [hcopy] at h
  obtain ⟨hchanged, hcopied⟩ := backUp_cases hcopy
  obtain ⟨hbackup, hunwritten⟩ := write_cases (apart_of_changedAt hchanged hapart₁) h
  rcases hcopied rfl with ⟨content, hheld, hcontent⟩ | ⟨hunseen, rfl⟩
  · -- The file was copied, and the backup still holds the copy.
    rw [hfile] at hheld
    have hlast : s.backup? d' = some content := hbackup.trans hcontent
    refine ⟨fun _ content' h' => ?_, fun _ hnone => ?_, fun key hkey => absurd hkey (hdisk key),
      fun _ _ content' h' => .inr ?_⟩
    · rw [hlast, ← hheld, h']
    · cases hheld.symm.trans hnone
    · rw [hlast, ← hheld, h']
  · -- There was no file to be copied.  If there is one at the place, it cannot be written either.
    refine ⟨fun hok content h' => ?_, fun _ _ => ?_, fun key hkey => absurd hkey (hdisk key),
      fun _ _ content h' => .inl ?_⟩
    · exact absurd hok (hunwritten hunseen content (hfile.trans h')).1
    · exact hbackup.trans (backup?_of_changedAt hmade List.not_mem_nil)
    · exact (hunwritten hunseen content (hfile.trans h')).2

/-! ## Calls -/

/-- One call, whatever the store holds. -/
theorem keepsPrevious_run (hapart : (tree d).place (backupPath s.path) ≠ (tree d).place s.path)
    (w : Write) (pairs : List (String × String)) :
    KeepsPrevious s (w.run (s.insertAll pairs) d).1 d (w.run (s.insertAll pairs) d).2.2 := by
  rw [Write.run_eq_setAll, setAll]
  cases hkeys : checkKeys w.pairs with
  | error e => exact keepsPrevious_refl s e d
  | ok _ =>
    let saved : DotenvFile := (s.insertAll pairs).insertAll w.pairs
    have hsave : KeepsPrevious saved (saved.save d).1 d (saved.save d).2 :=
      keepsPrevious_save hapart (Prod.ext rfl rfl)
    exact ⟨hsave.backedUp, hsave.untouched, hsave.refused, hsave.kept⟩

/-- The store of a named environment never loses the previous file.  After every call it is in the
backup, or still there, whatever the calls before it have done, and whatever has happened to the
disk since. -/
theorem previous_kept {environment : KeyMap String} {root name : String} {s : DotenvFile} {d₀ : δ}
    (h : openIn environment root name d₀ = .ok s) (calls : List (Write × δ)) (w : Write) (d : δ) :
    KeepsPrevious s (w.run (afterCalls calls s) d).1 d (w.run (afterCalls calls s) d).2.2 := by
  have hpath : s.path = filePath root name := by
    obtain ⟨values, -, rfl⟩ := exists_of_map_eq_ok h
    rfl
  rw [afterCalls_eq]
  refine keepsPrevious_run ?_ w (acceptedAll calls)
  rw [hpath]
  exact place_backupPath (tree d) root name

/-! ## A disk that gets full -/

/-- A disk with the file of an environment.  There is no more space when the third operation is
halfway through. -/
def fullDisk : FaultyTree where
  tree := ⟨[([".fleetml"], .directory), ([".fleetml", "dev"], .directory),
    ([".fleetml", "dev", ".env"], .file (.text "A=\"1\"\n") false)], []⟩
  faults := [none, none, some ⟨.other "No space left on device (os error 28)", some (.bytes [0])⟩]

/-- The store of that environment. -/
def oneValue : DotenvFile :=
  ⟨".fleetml/dev/.env", KeyMap.empty.insert "A" "1", .empty⟩

/-- What that disk holds after a call that could write no more than half of the file. -/
def halfWritten : FaultyTree :=
  ((Write.set "B" "2").run oneValue fullDisk).2.2

/-- That call has spoiled the file, and the backup holds what was there before.  The next one writes
the file, and the backup then holds what the first has left. -/
theorem previous_kept_fullDisk :
    oneValue.file? halfWritten = some (.bytes [0]) ∧
    oneValue.backup? halfWritten = some (.text "A=\"1\"\n") ∧
    oneValue.backup? ((Write.set "C" "3").run
      (afterCalls [(.set "B" "2", fullDisk)] oneValue) halfWritten).2.2 = some (.bytes [0]) := by
  have hopen : openIn .empty "" "dev" fullDisk = .ok oneValue := by decide +kernel
  have hbefore : oneValue.file? fullDisk = some (.text "A=\"1\"\n") := by decide +kernel
  have hspoiled : oneValue.file? halfWritten = some (.bytes [0]) := by decide +kernel
  have hfailed : ((Write.set "B" "2").run oneValue fullDisk).1 =
      .error (.io ".fleetml/dev/.env" (.other "No space left on device (os error 28)")) := by
    decide +kernel
  have hfirst := previous_kept hopen [] (.set "B" "2") fullDisk
  have hsecond := previous_kept hopen [(.set "B" "2", fullDisk)] (.set "C" "3") halfWritten
  refine ⟨hspoiled, ?_, hsecond.backedUp (by decide +kernel) _ hspoiled⟩
  refine (hfirst.kept _ hfailed _ hbefore).resolve_left fun hheld => ?_
  cases hheld.symm.trans hspoiled

end Provisioner.Store.DotenvFile
