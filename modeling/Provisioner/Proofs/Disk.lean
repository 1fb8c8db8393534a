import Provisioner.FileTree
import Provisioner.Proofs.Basic

/-!
# Reading after writing

`LawfulDisk` says of a disk that a file which was written is there and holds what was
written.  `FileTree` is such a disk: a file at a new place does not close any way through the tree
(`Grown.walk`), and so its path leads to it (`node_of_write`).
-/

namespace Provisioner

/-- A disk on which a file holds what was written to it last. -/
class LawfulDisk (δ : Type) [Disk δ] : Prop where
  isThere_write {path s : String} {d d' : δ} :
    Disk.write path s d = (.ok (), d') → Disk.isThere d' path = true
  read_write {path s : String} {d d' : δ} :
    Disk.write path s d = (.ok (), d') → Disk.read d' path = .ok (.text s)

namespace FileTree

theorem find?_put_self (t : FileTree) {place : Place} (h : place ≠ []) (node : Node) :
    (t.put place node).find? place = some node := by
  simp [find?, put, h]

theorem find?_put_ne (t : FileTree) {place other : Place} (h : other ≠ place) (node : Node) :
    (t.put place node).find? other = t.find? other := by
  unfold find?
  split
  · rfl
  · have hne : (place == other) = false := beq_eq_false_iff_ne.2 (Ne.symm h)
    rw [put, List.find?_cons_of_neg (by simp [hne])]
    congr 1
    induction t.nodes with
    | nil => rfl
    | cons e rest ih =>
      by_cases he : e.1 = other
      · have hkeep : e.1 ≠ place := fun hp => h (he.symm.trans hp)
        simp [he, h]
      · by_cases hp : e.1 = place <;> simp_all

/-! ## Ways through a tree -/

/-- A tree to which something was added: at other than some places nothing has changed, directories
are still directories, and nothing is gone. -/
structure Grown (places : List Place) (t t' : FileTree) : Prop where
  current : t'.current = t.current
  untouched : ∀ place ∉ places, t'.find? place = t.find? place
  directory : ∀ {place}, t.find? place = some .directory → t'.find? place = some .directory
  isSome : ∀ {place}, (t.find? place).isSome → (t'.find? place).isSome

/-- A node can be put anywhere but for a file where a directory is. -/
theorem grown_put {t : FileTree} {place : Place} {node : Node}
    (h : t.find? place = some .directory → node = .directory) :
    Grown [place] t (t.put place node) where
  current := rfl
  untouched _ hother := find?_put_ne t (List.ne_of_not_mem_cons hother) node
  directory {other} hother := by
    by_cases hroot : other = []
    · rw [hroot]
      rfl
    · by_cases heq : other = place
      · subst heq
        rw [find?_put_self t hroot, h hother]
      · rw [find?_put_ne t heq, hother]
  isSome {other} hother := by
    by_cases hroot : other = []
    · rw [hroot]
      rfl
    · by_cases heq : other = place
      · subst heq
        rw [find?_put_self t hroot]
        rfl
      · rw [find?_put_ne t heq]
        exact hother

section Grown

variable {t t' : FileTree} {places : List Place} (h : Grown places t t')

include h

theorem Grown.enter {start next : Place} {name : String} (henter : t.enter start name = .ok next) :
    t'.enter start name = .ok next := by
  unfold FileTree.enter at henter ⊢
  split at henter
  · cases henter
  · cases henter
  · rename_i hstart
    rw [h.directory hstart]
    dsimp only
    split at henter
    · rw [if_pos (by assumption)]
      exact henter
    · rw [if_neg (by assumption)]
      split at henter
      · rw [if_pos (by assumption)]
        exact henter
      · rw [if_neg (by assumption)]
        split at henter
        · cases henter
        · rw [if_neg (by assumption)]
          split at henter
          · rename_i node hnode
            obtain ⟨node', hnode'⟩ := Option.isSome_iff_exists.1
              (h.isSome (Option.isSome_of_eq_some hnode))
            rw [hnode']
            exact henter
          · cases henter

/-- No way through the tree is closed. -/
theorem Grown.walk {parts : List String} {start last : Place}
    (hwalk : t.walk parts start = .ok last) : t'.walk parts start = .ok last := by
  induction parts generalizing start with
  | nil => exact hwalk
  | cons name rest ih =>
    obtain ⟨next, henter, hrest⟩ := exists_of_bind_eq_ok hwalk
    rw [FileTree.walk, h.enter henter]
    exact ih hrest

end Grown

theorem walk_append (t : FileTree) (first second : List String) (start : Place) :
    t.walk (first ++ second) start = (t.walk first start).bind (t.walk second) := by
  induction first generalizing start with
  | nil => rfl
  | cons name rest ih =>
    rw [List.cons_append, walk, walk]
    cases t.enter start name with
    | error e => rfl
    | ok next => exact ih next

/-- A way that ends in a slash ends in a directory. -/
theorem walk_of_walk_slash {t : FileTree} {parts : List String} {start last : Place}
    (h : t.walk (parts ++ [""]) start = .ok last) :
    t.walk parts start = .ok last ∧ t.find? last = some .directory := by
  rw [walk_append] at h
  cases hparts : t.walk parts start with
  | error e => rw [hparts] at h; cases h
  | ok place =>
    rw [hparts] at h
    have h : (t.enter place "").bind (t.walk []) = .ok last := h
    cases hplace : t.find? place with
    | none => simp [enter, hplace, Except.bind] at h
    | some node =>
      cases node with
      | file c x => simp [enter, hplace, Except.bind] at h
      | directory =>
        have heq : place = last := by simpa [enter, hplace, Except.bind, walk] using h
        rw [← heq]
        exact ⟨rfl, hplace⟩

/-! ## Files that were written -/

/-- Parts are those before the last one, the last one, and nothing but slashes behind it. -/
theorem exists_of_splitLast {parts above : List String} {name : String} {slashes : Bool}
    (h : splitLast parts = (above, name, slashes)) (hname : name ≠ "") :
    ∃ behind, parts = above ++ name :: behind ∧ (∀ part ∈ behind, part = "") ∧
      (slashes = false → behind = []) := by
  obtain ⟨habove, hrest⟩ := Prod.mk.inj h
  obtain ⟨hlast, hslashes⟩ := Prod.mk.inj hrest
  have hparts : (parts.reverse.dropWhile (· == "")).reverse ++
      (parts.reverse.takeWhile (· == "")).reverse = parts := by
    rw [← List.reverse_append, List.takeWhile_append_dropWhile, List.reverse_reverse]
  generalize (parts.reverse.dropWhile (· == "")).reverse = trimmed at *
  have hne : trimmed ≠ [] := by
    rintro rfl
    exact hname hlast.symm
  have htrimmed : trimmed = above ++ [name] := by
    have hget : trimmed.getLast hne = name := by
      rw [← hlast, List.getLast?_eq_some_getLast hne]
      rfl
    rw [← habove, ← hget]
    exact (List.dropLast_concat_getLast hne).symm
  refine ⟨(parts.reverse.takeWhile (· == "")).reverse, ?_, fun part hpart => ?_, ?_⟩
  · rw [← List.singleton_append, ← List.append_assoc, ← htrimmed, hparts]
  · exact beq_iff_eq.1 (List.all_eq_true.1 List.all_takeWhile part (List.mem_reverse.1 hpart))
  · rintro rfl
    have hlength : ¬ trimmed.length < parts.length := of_decide_eq_false hslashes
    refine List.eq_nil_of_length_eq_zero ?_
    have htotal := congrArg List.length hparts
    rw [List.length_append] at htotal
    omega

/-- What a file is asked to be written at: no directory, at the end of a way that is
there already but for its last name. -/
theorem target_spec {t : FileTree} {path : String} {place : Place} {node? : Option Node}
    {occupied : IoError} (h : t.target path occupied = .ok (place, node?, false)) :
    ∃ above name start up, t.depart path = .ok (above ++ [name], start) ∧
      t.walk above start = .ok up ∧ t.find? up = some .directory ∧
      place = up ++ [name] ∧ node? = t.find? place ∧ name ≠ "" ∧ name ≠ "." ∧ name ≠ ".." ∧
      ¬ nameLimit < name.utf8ByteSize := by
  obtain ⟨⟨parts, start⟩, hdepart, h⟩ := exists_of_bind_eq_ok h
  rcases hlast : splitLast parts with ⟨above, name, slashes⟩
  simp only [hlast] at h
  obtain ⟨up, hwalk, h⟩ := exists_of_bind_eq_ok h
  split at h
  · cases h
  · split at h
    · cases h
    · rename_i hname hlimit
      simp only [pure, Except.pure, Except.ok.injEq, Prod.mk.injEq] at h
      obtain ⟨rfl, rfl, rfl⟩ := h
      simp only [not_or] at hname
      obtain ⟨hup, hdirectory⟩ := walk_of_walk_slash hwalk
      obtain ⟨behind, hparts, -, hbehind⟩ := exists_of_splitLast hlast hname.1
      rw [hparts, hbehind rfl] at hdepart
      exact ⟨above, name, start, up, hdepart, hup, hdirectory, rfl, rfl, hname.1, hname.2.1,
        hname.2.2, hlimit⟩

/-- The place of a file that is to be written: at the end of a way that is there already
but for its last name, and no directory. -/
theorem targetFile_spec {t : FileTree} {path : String} {place : Place} {executable : Bool}
    (h : t.targetFile path = .ok (place, executable)) :
    ∃ above name start up, t.depart path = .ok (above ++ [name], start) ∧
      t.walk above start = .ok up ∧ t.find? up = some .directory ∧ place = up ++ [name] ∧
      t.find? place ≠ some .directory ∧ ¬ (name = "" ∨ name = ".") ∧ name ≠ ".." ∧
      ¬ nameLimit < name.utf8ByteSize := by
  obtain ⟨⟨found, node?, slashes⟩, htarget, h⟩ := exists_of_bind_eq_ok h
  cases slashes with
  | true => cases h
  | false =>
    obtain ⟨above, name, start, up, hdepart, hwalk, hup, hfound, hnode, hempty, hdot, hdots,
      hlimit⟩ := target_spec htarget
    have hplace : found = place ∧ node? ≠ some .directory := by
      cases hnode? : node? with
      | none => rw [hnode?] at h; cases h; exact ⟨rfl, nofun⟩
      | some node =>
        cases node with
        | directory => rw [hnode?] at h; cases h
        | file c x => rw [hnode?] at h; cases h; exact ⟨rfl, nofun⟩
    obtain ⟨rfl, hdirectory⟩ := hplace
    rw [hnode] at hdirectory
    exact ⟨above, name, start, up, hdepart, hwalk, hup, hfound, hdirectory,
      not_or.2 ⟨hempty, hdot⟩, hdots, hlimit⟩

/-- A path leads to what stands at the end of the way to its last name. -/
theorem node_of_walk {t : FileTree} {path name : String} {above : List String} {start up : Place}
    {node : Node} (hdepart : t.depart path = .ok (above ++ [name], start))
    (hwalk : t.walk above start = .ok up) (hup : t.find? up = some .directory)
    (hnode : t.find? (up ++ [name]) = some node) (hname : ¬ (name = "" ∨ name = "."))
    (hdots : name ≠ "..") (hlimit : ¬ nameLimit < name.utf8ByteSize) :
    t.node path = .ok node := by
  have henter : t.enter up name = .ok (up ++ [name]) := by
    unfold enter
    rw [hup, hnode]
    dsimp only
    rw [if_neg hname, if_neg hdots, if_neg hlimit]
  have hfollow : t.follow path = .ok (up ++ [name]) := by
    unfold follow
    rw [hdepart]
    show t.walk (above ++ [name]) start = _
    rw [walk_append, hwalk]
    show t.walk [name] up = _
    rw [walk, henter]
    rfl
  unfold FileTree.node
  rw [hfollow]
  simp only [bind, Except.bind, hnode]

/-- A path leads to the file that was put where it asks to write one. -/
theorem node_put_targetFile {t : FileTree} {path : String} {place : Place} {executable : Bool}
    (h : t.targetFile path = .ok (place, executable)) (content : Content) :
    (t.put place (.file content executable)).node path = .ok (.file content executable) := by
  obtain ⟨above, name, start, up, hdepart, hwalk, hup, rfl, hplace, hname, hdots, hlimit⟩ :=
    targetFile_spec h
  have hself : (t.put (up ++ [name]) (.file content executable)).find? (up ++ [name]) =
      some (.file content executable) := find?_put_self t (by simp) _
  have hdepart' : (t.put (up ++ [name]) (.file content executable)).depart path =
      .ok (above ++ [name], start) := hdepart
  have hgrown : Grown [up ++ [name]] t (t.put (up ++ [name]) (.file content executable)) :=
    grown_put fun hdirectory => absurd hdirectory hplace
  exact node_of_walk hdepart' (hgrown.walk hwalk) (hgrown.directory hup) hself hname hdots hlimit

/-- A file that was written holds what was written. -/
theorem node_of_write {path s : String} {t t' : FileTree}
    (h : Disk.write path s t = (.ok (), t')) :
    ∃ executable, t'.node path = .ok (.file (.text s) executable) := by
  have h : t.commit (t.writeContent path (.text s)) = (.ok (), t') := h
  cases hwrite : t.writeContent path (.text s) with
  | error e => rw [hwrite] at h; cases h
  | ok written =>
    rw [hwrite] at h
    obtain rfl : written = t' := (Prod.mk.inj h).2
    obtain ⟨⟨place, executable⟩, htarget, hput⟩ := exists_of_bind_eq_ok hwrite
    obtain rfl : t.put place (.file (.text s) executable) = written := Except.ok.inj hput
    exact ⟨executable, node_put_targetFile htarget (.text s)⟩

instance : LawfulDisk FileTree where
  isThere_write {path s t t'} h := by
    obtain ⟨executable, hnode⟩ := node_of_write h
    show (Except.map _ (t'.node path)).toBool = true
    rw [hnode]
    rfl
  read_write {path s t t'} h := by
    obtain ⟨executable, hnode⟩ := node_of_write h
    show t'.content path = .ok (.text s)
    unfold content
    rw [hnode]
    rfl

end FileTree

end Provisioner
