import Provisioner.Proofs.Disk
import Provisioner.Proofs.Path

/-!
# Files at places

In a file tree there are no links, so every path is about one place, and it leads to no other.
What an operation does can then be said of places: which file it changes, and what that file holds
afterwards.

* `FileTree.place` is what a path is about, and `FileTree.held?` what the file at a place holds.
* `ChangedAt` says that no other files than those at some places have changed.
* `changedAt_createDir`, `held?_of_writeContent` and `held?_of_copy` are what the operations do.
* `not_writes_unseen`: a file that a path does not lead to cannot be written under that path.
-/

namespace Provisioner.FileTree

/-- The place that a path is about, whether it leads there or not. -/
def place (t : FileTree) (path : String) : Place :=
  Path.locate t.current path

/-- What the file at a place holds, if there is one. -/
def held? (t : FileTree) (place : Place) : Option Content :=
  match t.find? place with
  | some (.file content _) => some content
  | _ => none

variable {t t' : FileTree} {path : String} {content : Content}

theorem held?_of_find? {place : Place} {executable : Bool}
    (h : t.find? place = some (.file content executable)) : t.held? place = some content := by
  rw [held?, h]

theorem exists_of_held? {place : Place} (h : t.held? place = some content) :
    ∃ executable, t.find? place = some (.file content executable) := by
  unfold held? at h
  split at h
  · next content' executable hnode =>
    obtain rfl := Option.some.inj h
    exact ⟨executable, hnode⟩
  · cases h

/-! ## Where ways lead -/

theorem enter_eq_advance {start next : Place} {name : String} (h : t.enter start name = .ok next) :
    next = Path.advance start name := by
  unfold enter at h
  unfold Path.advance
  split at h
  · cases h
  · cases h
  split at h
  · next hidle =>
    rw [if_pos hidle]
    exact (Except.ok.inj h).symm
  next hidle =>
  rw [if_neg hidle]
  split at h
  · next hdots =>
    rw [if_pos hdots]
    exact (Except.ok.inj h).symm
  next hdots =>
  rw [if_neg hdots]
  split at h
  · cases h
  split at h
  · exact (Except.ok.inj h).symm
  · cases h

theorem walk_eq_foldl {parts : List String} {start last : Place}
    (h : t.walk parts start = .ok last) : last = parts.foldl Path.advance start := by
  induction parts generalizing start with
  | nil => exact (Except.ok.inj h).symm
  | cons name parts ih =>
    obtain ⟨next, henter, hwalk⟩ := exists_of_bind_eq_ok h
    rw [List.foldl_cons, ← enter_eq_advance henter]
    exact ih hwalk

theorem depart_eq {parts : List String} {start : Place} (h : t.depart path = .ok (parts, start)) :
    t.place path = parts.foldl Path.advance start := by
  unfold depart at h
  split at h
  · cases h
  split at h
  · cases h
  split at h
  · cases h
  · obtain ⟨rfl, rfl⟩ := Prod.mk.inj (Except.ok.inj h)
    rfl

/-- A path leads to the place that it is about, if it leads anywhere. -/
theorem follow_eq_place {last : Place} (h : t.follow path = .ok last) : last = t.place path := by
  obtain ⟨⟨parts, start⟩, hdepart, hwalk⟩ := exists_of_bind_eq_ok h
  rw [depart_eq hdepart]
  exact walk_eq_foldl hwalk

theorem held?_of_node {executable : Bool} (h : t.node path = .ok (.file content executable)) :
    t.held? (t.place path) = some content := by
  obtain ⟨last, hfollow, hnode⟩ := exists_of_bind_eq_ok h
  obtain rfl := follow_eq_place hfollow
  split at hnode
  · next node hfind =>
    obtain rfl := Except.ok.inj hnode
    exact held?_of_find? hfind
  · cases hnode

/-- A file is written at the place that the path is about. -/
theorem targetFile_eq_place {last : Place} {executable : Bool}
    (h : t.targetFile path = .ok (last, executable)) : last = t.place path := by
  obtain ⟨above, name, start, up, hdepart, hwalk, -, rfl, -, hname, hdots, -⟩ := targetFile_spec h
  rw [depart_eq hdepart, List.foldl_append, ← walk_eq_foldl hwalk]
  show up ++ [name] = Path.advance up name
  rw [Path.advance, if_neg hname, if_neg hdots]

/-- A file at the place where a file can be written is one that the path leads to. -/
theorem isThere_of_targetFile {last : Place} {executable : Bool}
    (h : t.targetFile path = .ok (last, executable)) (hheld : t.held? last = some content) :
    Disk.isThere t path = true := by
  obtain ⟨above, name, start, up, hdepart, hwalk, hup, rfl, -, hname, hdots, hlimit⟩ :=
    targetFile_spec h
  obtain ⟨executable', hfind⟩ := exists_of_held? hheld
  have hnode : t.node path = .ok (.file content executable') :=
    node_of_walk hdepart hwalk hup hfind hname hdots hlimit
  show (Except.map _ (t.node path)).toBool = true
  rw [hnode]
  rfl

/-! ## What operations change -/

/-- No other files have changed than those at some places. -/
structure ChangedAt (places : List Place) (t t' : FileTree) : Prop where
  current : t'.current = t.current
  held : ∀ place ∉ places, t'.held? place = t.held? place

theorem ChangedAt.refl (places : List Place) (t : FileTree) : ChangedAt places t t :=
  ⟨rfl, fun _ _ => rfl⟩

theorem ChangedAt.trans {places : List Place} {t'' : FileTree} (h : ChangedAt places t t')
    (h' : ChangedAt places t' t'') : ChangedAt places t t'' :=
  ⟨h'.current.trans h.current, fun place hp => (h'.held place hp).trans (h.held place hp)⟩

/-- A path stays about the same place. -/
theorem ChangedAt.place_eq {places : List Place} (h : ChangedAt places t t') (path : String) :
    t'.place path = t.place path := by
  rw [place, place, h.current]

theorem changedAt_put (t : FileTree) (place : Place) (node : Node) :
    ChangedAt [place] t (t.put place node) := by
  refine ⟨rfl, fun other hother => ?_⟩
  rw [held?, held?, find?_put_ne t (List.ne_of_not_mem_cons hother)]

theorem find?_of_target {occupied : IoError} {place : Place} {node? : Option Node} {slashes : Bool}
    (h : t.target path occupied = .ok (place, node?, slashes)) :
    place ≠ [] ∧ t.find? place = node? := by
  obtain ⟨⟨parts, start⟩, -, h⟩ := exists_of_bind_eq_ok h
  rcases hlast : splitLast parts with ⟨above, name, slashes'⟩
  simp only [hlast] at h
  obtain ⟨up, -, h⟩ := exists_of_bind_eq_ok h
  split at h
  · cases h
  split at h
  · cases h
  · obtain ⟨rfl, hnode⟩ := Prod.mk.inj (Except.ok.inj h)
    exact ⟨List.append_ne_nil_of_right_ne_nil _ (List.cons_ne_nil _ _), (Prod.mk.inj hnode).1⟩

/-- A new directory changes no file. -/
theorem changedAt_createDir (h : t.createDir path = .ok t') : ChangedAt [] t t' := by
  obtain ⟨⟨place, node?, slashes⟩, htarget, hput⟩ := exists_of_bind_eq_ok h
  obtain ⟨hroot, hfind⟩ := find?_of_target htarget
  cases node? with
  | some node => cases hput
  | none =>
    obtain rfl : t.put place .directory = t' := Except.ok.inj hput
    refine ⟨rfl, fun other _ => ?_⟩
    by_cases hother : other = place
    · subst hother
      rw [held?, held?, find?_put_self t hroot, hfind]
    · exact (changedAt_put t place .directory).held other (List.mem_singleton.not.2 hother)

theorem held?_put_targetFile {last : Place} {executable executable' : Bool}
    (h : t.targetFile path = .ok (last, executable)) :
    ChangedAt [t.place path] t (t.put last (.file content executable')) ∧
      (t.put last (.file content executable')).held? (t.place path) = some content := by
  obtain rfl := targetFile_eq_place h
  obtain ⟨above, name, start, up, -, -, -, hplace, -⟩ := targetFile_spec h
  have hroot : t.place path ≠ [] := by
    rw [hplace]
    exact List.append_ne_nil_of_right_ne_nil _ (List.cons_ne_nil _ _)
  exact ⟨changedAt_put t _ _, held?_of_find? (find?_put_self t hroot _)⟩

theorem held?_of_writeContent (h : t.writeContent path content = .ok t') :
    ChangedAt [t.place path] t t' ∧ t'.held? (t.place path) = some content := by
  obtain ⟨⟨last, executable⟩, htarget, hput⟩ := exists_of_bind_eq_ok h
  obtain rfl : t.put last (.file content executable) = t' := Except.ok.inj hput
  exact held?_put_targetFile htarget

/-- A copy is the same file at another place. -/
theorem held?_of_copy {source : String} (h : t.copy source path = .ok t') :
    ∃ content, t.held? (t.place source) = some content ∧ ChangedAt [t.place path] t t' ∧
      t'.held? (t.place path) = some content := by
  obtain ⟨node, hnode, hthen⟩ := exists_of_bind_eq_ok h
  cases node with
  | directory => cases hthen
  | file content executable =>
    obtain ⟨⟨last, executable'⟩, htarget, hput⟩ := exists_of_bind_eq_ok hthen
    obtain rfl : t.put last (.file content executable) = t' := Except.ok.inj hput
    exact ⟨content, held?_of_node hnode, held?_put_targetFile htarget⟩

/-- A file that a path does not lead to is not written under that path, although the path is about
the place of the file. -/
theorem not_writes_unseen {c : Content} (hunseen : Disk.isThere t path = false)
    (hheld : t.held? (t.place path) = some content) : t.writeContent path c ≠ .ok t' := by
  intro h
  obtain ⟨⟨last, executable⟩, htarget, -⟩ := exists_of_bind_eq_ok h
  obtain rfl := targetFile_eq_place htarget
  cases hunseen.symm.trans (isThere_of_targetFile htarget hheld)

end Provisioner.FileTree
