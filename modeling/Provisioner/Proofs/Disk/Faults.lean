import Provisioner.Proofs.Disk.Places

/-!
# Disks that fail

Any operation on a disk may fail for reasons of its own: no space is left, or nothing may be written
there.  A copy or a write that fails halfway may then leave anything in its file.

* `FailingDisk` is a disk with a file tree in it, on which every operation either does what it does
  on the tree, or fails.  `FileTree` is one that fails only if it has to.
* `FaultyTree` is one on which it is given which operations fail, and what they leave behind.
* `changedAt_createDirAll`, `changedAt_copy` and `changedAt_write` say what may change, and
  `held?_of_copy` what a copy holds.
-/

namespace Provisioner

namespace FileTree

/-- What an operation that fails leaves of a tree: all of it, or all but the file at a path, which
may hold anything. -/
inductive Spoiled (path : String) (t : FileTree) : FileTree → Prop
  | not : Spoiled path t t
  | file {content : Content} {t' : FileTree} : t.writeContent path content = .ok t' →
    Spoiled path t t'

/-- What comes of an operation: the change that it stands for, or an error and what it leaves. -/
inductive Attempted (change : Except IoError FileTree) (Leaves : FileTree → Prop) :
    Except IoError Unit → FileTree → Prop
  | done {t : FileTree} : change = .ok t → Attempted change Leaves (.ok ()) t
  | failed {e : IoError} {t : FileTree} : Leaves t → Attempted change Leaves (.error e) t

variable {t t' : FileTree} {path : String}

theorem Spoiled.changedAt (h : t.Spoiled path t') : ChangedAt [t.place path] t t' := by
  cases h with
  | not => exact .refl _ _
  | file hwrite => exact (held?_of_writeContent hwrite).1

/-- A file that a path does not lead to is not spoiled under that path. -/
theorem Spoiled.eq_of_unseen {content : Content} (h : t.Spoiled path t')
    (hunseen : Disk.isThere t path = false) (hheld : t.held? (t.place path) = some content) :
    t' = t := by
  cases h with
  | not => rfl
  | file hwrite => exact absurd hwrite (not_writes_unseen hunseen hheld)

theorem attempted_commit (Leaves : FileTree → Prop) (h : Leaves t)
    (change : Except IoError FileTree) :
    Attempted change Leaves (t.commit change).1 (t.commit change).2 := by
  cases change with
  | ok t' => exact .done rfl
  | error e => exact .failed h

end FileTree

open FileTree (ChangedAt Spoiled Attempted)

/-- A disk with a file tree in it, on which every operation may fail. -/
class FailingDisk (δ : Type) [Disk δ] where
  /-- The file tree on the disk. -/
  tree : δ → FileTree
  stat_eq (d : δ) (path : String) : Disk.stat d path = Disk.stat (tree d) path
  attempted_createDir (d : δ) (path : String) : Attempted ((tree d).createDir path) (· = tree d)
    (Disk.createDir path d).1 (tree (Disk.createDir path d).2)
  attempted_copy (d : δ) (source path : String) : Attempted ((tree d).copy source path)
    ((tree d).Spoiled path) (Disk.copy source path d).1 (tree (Disk.copy source path d).2)
  attempted_write (d : δ) (path s : String) : Attempted ((tree d).writeContent path (.text s))
    ((tree d).Spoiled path) (Disk.write path s d).1 (tree (Disk.write path s d).2)

instance : FailingDisk FileTree where
  tree t := t
  stat_eq _ _ := rfl
  attempted_createDir t path := FileTree.attempted_commit (· = t) rfl (t.createDir path)
  attempted_copy t source path :=
    FileTree.attempted_commit (t.Spoiled path) .not (t.copy source path)
  attempted_write t path s :=
    FileTree.attempted_commit (t.Spoiled path) .not (t.writeContent path (.text s))

/-! ## Faults on demand -/

/-- What goes wrong with an operation: its error, and what it leaves in the file that it was to
make, if it got as far as that. -/
structure DiskFault where
  error : IoError
  left? : Option Content
deriving DecidableEq, Repr

/-- A file tree, and the faults of the next operations that change it.  Those without a fault, and
all those behind the last one, work as long as they can. -/
structure FaultyTree where
  tree : FileTree
  faults : List (Option DiskFault)

namespace FaultyTree

/-- An operation that has its turn; `spoil` is what a fault does to the tree. -/
def attempt (change : FileTree → Except IoError FileTree) (spoil : DiskFault → FileTree → FileTree)
    (d : FaultyTree) : Except IoError Unit × FaultyTree :=
  match d.faults.head?.join with
  | some fault => (.error fault.error, ⟨spoil fault d.tree, d.faults.tail⟩)
  | none =>
    let (answer, t) := d.tree.commit (change d.tree)
    (answer, ⟨t, d.faults.tail⟩)

/-- A fault while the file at a path is being made. -/
def spoilFile (path : String) (fault : DiskFault) (t : FileTree) : FileTree :=
  match fault.left? with
  | some content => (t.commit (t.writeContent path content)).2
  | none => t

instance : Disk FaultyTree where
  stat d path := Disk.stat d.tree path
  read d path := Disk.read d.tree path
  currentDir d := Disk.currentDir d.tree
  createDir path := attempt (·.createDir path) fun _ t => t
  copy source path := attempt (·.copy source path) (spoilFile path)
  write path s := attempt (·.writeContent path (.text s)) (spoilFile path)

theorem spoiled_spoilFile (path : String) (fault : DiskFault) (t : FileTree) :
    t.Spoiled path (spoilFile path fault t) := by
  unfold spoilFile
  split
  · next content _ =>
    cases hwrite : t.writeContent path content with
    | error e => exact .not
    | ok t' => exact .file hwrite
  · exact .not

theorem attempted_attempt {Leaves : FileTree → Prop} {change : FileTree → Except IoError FileTree}
    {spoil : DiskFault → FileTree → FileTree} {d : FaultyTree} (hnot : Leaves d.tree)
    (hspoil : ∀ fault, Leaves (spoil fault d.tree)) :
    Attempted (change d.tree) Leaves (attempt change spoil d).1
      (attempt change spoil d).2.tree := by
  unfold attempt
  cases d.faults.head?.join with
  | some fault => exact .failed (hspoil fault)
  | none => exact FileTree.attempted_commit Leaves hnot (change d.tree)

instance : FailingDisk FaultyTree where
  tree d := d.tree
  stat_eq _ _ := rfl
  attempted_createDir _ _ := attempted_attempt rfl fun _ => rfl
  attempted_copy d _ path :=
    attempted_attempt .not fun fault => spoiled_spoilFile path fault d.tree
  attempted_write d path _ :=
    attempted_attempt .not fun fault => spoiled_spoilFile path fault d.tree

end FaultyTree

/-! ## What operations change -/

namespace FailingDisk

variable {δ : Type} [Disk δ]

theorem settle_snd (path : String) (r : Except IoError Unit × δ) :
    (Disk.createDirs.settle path r).2 = r.2 := by
  obtain ⟨_ | _, d⟩ := r
  · rw [Disk.createDirs.settle]
    split <;> rfl
  · rfl

variable [FailingDisk δ] {d d' : δ} {path : String} {answer : Except IoError Unit}

theorem isThere_eq (d : δ) (path : String) : Disk.isThere d path = Disk.isThere (tree d) path := by
  rw [Disk.isThere, Disk.isThere, stat_eq]

theorem changedAt_createDir (h : Disk.createDir path d = (answer, d')) :
    ChangedAt [] (tree d) (tree d') := by
  have hattempt := attempted_createDir d path
  rw [h] at hattempt
  cases hattempt with
  | done hmade => exact FileTree.changedAt_createDir hmade
  | failed heq =>
    rw [heq]
    exact .refl _ _

theorem changedAt_createDirs {paths : List String} (h : Disk.createDirs paths d = (answer, d')) :
    ChangedAt [] (tree d) (tree d') := by
  induction paths generalizing d d' answer with
  | nil =>
    obtain ⟨-, rfl⟩ := Prod.mk.inj h
    exact .refl _ _
  | cons path above ih =>
    rw [Disk.createDirs] at h
    split at h
    · obtain ⟨-, rfl⟩ := Prod.mk.inj h
      exact .refl _ _
    split at h
    · next hmade =>
      obtain ⟨-, rfl⟩ := Prod.mk.inj h
      exact changedAt_createDir hmade
    · next hmissing =>
      split at h
      · next d₂ hdone =>
        have hd' : (Disk.createDir path d₂).2 = d' := by
          rw [← settle_snd path, h]
        refine ((changedAt_createDir hmissing).trans (ih hdone)).trans ?_
        rw [← hd']
        exact changedAt_createDir (Prod.ext rfl rfl)
      · exact (changedAt_createDir hmissing).trans (ih h)
    · have hd' : (Disk.createDir path d).2 = d' := by
        rw [← settle_snd path, h]
      rw [← hd']
      exact changedAt_createDir (Prod.ext rfl rfl)

/-- Making directories changes no file, whether it fails or not. -/
theorem changedAt_createDirAll (h : Disk.createDirAll path d = (answer, d')) :
    ChangedAt [] (tree d) (tree d') :=
  changedAt_createDirs h

theorem changedAt_copy {source : String} (h : Disk.copy source path d = (answer, d')) :
    ChangedAt [(tree d).place path] (tree d) (tree d') := by
  have hattempt := attempted_copy d source path
  rw [h] at hattempt
  cases hattempt with
  | done hmade =>
    obtain ⟨-, -, hchanged, -⟩ := FileTree.held?_of_copy hmade
    exact hchanged
  | failed hspoiled => exact hspoiled.changedAt

/-- A copy that was made holds what its source holds. -/
theorem held?_of_copy {source : String} (h : Disk.copy source path d = (.ok (), d')) :
    ∃ content, (tree d).held? ((tree d).place source) = some content ∧
      (tree d').held? ((tree d).place path) = some content := by
  have hattempt := attempted_copy d source path
  rw [h] at hattempt
  cases hattempt with
  | done hmade =>
    obtain ⟨content, hsource, -, hcopy⟩ := FileTree.held?_of_copy hmade
    exact ⟨content, hsource, hcopy⟩

theorem changedAt_write {s : String} (h : Disk.write path s d = (answer, d')) :
    ChangedAt [(tree d).place path] (tree d) (tree d') := by
  have hattempt := attempted_write d path s
  rw [h] at hattempt
  cases hattempt with
  | done hmade => exact (FileTree.held?_of_writeContent hmade).1
  | failed hspoiled => exact hspoiled.changedAt

/-- Writing under a path that leads nowhere does not touch a file at the place it is about. -/
theorem write_of_unseen {s : String} {content : Content} (h : Disk.write path s d = (answer, d'))
    (hunseen : Disk.isThere d path = false)
    (hheld : (tree d).held? ((tree d).place path) = some content) :
    answer ≠ .ok () ∧ tree d' = tree d := by
  rw [isThere_eq] at hunseen
  have hattempt := attempted_write d path s
  rw [h] at hattempt
  cases hattempt with
  | done hmade => exact absurd hmade (FileTree.not_writes_unseen hunseen hheld)
  | failed hspoiled => exact ⟨nofun, hspoiled.eq_of_unseen hunseen hheld⟩

end FailingDisk

end Provisioner
