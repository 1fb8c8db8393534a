import Provisioner.Proofs.Disk.Faults

/-!
# What operations leave in place

The operations on a file tree put a directory where nothing was, or a file where no directory was.
So every path that leads somewhere still leads there, and it leads to the same unless its place is
one that an operation is about.

* `Grown.isThere`, `Grown.node_eq` and `Grown.not_isThere` are what is left in place, and
  `Grown.trans_of_paths` puts one operation after another.
* `target_eq_place` is where something is put, and `grown_createDir`, `grown_copy` and
  `grown_writeContent` are what the operations do.
* `grown_createDirs` is what making a directory with all above it does.
-/

namespace Provisioner.FileTree

variable {t t' t'' : FileTree} {places : List Place} {path : String}

theorem Grown.refl (places : List Place) (t : FileTree) : Grown places t t :=
  ⟨rfl, fun _ _ => rfl, id, id⟩

theorem Grown.trans (h : Grown places t t') (h' : Grown places t' t'') : Grown places t t'' where
  current := h'.current.trans h.current
  untouched place hplace := (h'.untouched place hplace).trans (h.untouched place hplace)
  directory hdirectory := h'.directory (h.directory hdirectory)
  isSome hsome := h'.isSome (h.isSome hsome)

theorem Grown.mono {more : List Place} (h : Grown places t t') (hsub : places ⊆ more) :
    Grown more t t' :=
  { h with untouched := fun place hplace => h.untouched place fun hmem => hplace (hsub hmem) }

theorem Grown.place_eq (h : Grown places t t') (path : String) : t'.place path = t.place path := by
  rw [place, place, h.current]

/-- Paths are about the same places when something was added. -/
theorem Grown.trans_of_paths {paths : List String} (h : Grown (paths.map t.place) t t')
    (h' : Grown (paths.map t'.place) t' t'') : Grown (paths.map t.place) t t'' := by
  rw [show t'.place = t.place from funext h.place_eq] at h'
  exact h.trans h'

theorem Grown.mono_paths {paths more : List String} (h : Grown (paths.map t.place) t t')
    (hsub : paths ⊆ more) : Grown (more.map t.place) t t' :=
  h.mono (List.map_subset _ hsub)

/-! ## Paths -/

theorem Grown.follow {last : Place} (h : Grown places t t') (hfollow : t.follow path = .ok last) :
    t'.follow path = .ok last := by
  obtain ⟨⟨parts, start⟩, hdepart, hwalk⟩ := exists_of_bind_eq_ok hfollow
  have hdepart' : t'.depart path = .ok (parts, start) := by
    unfold depart at hdepart ⊢
    rw [h.current]
    exact hdepart
  rw [FileTree.follow, hdepart']
  exact h.walk hwalk

theorem exists_of_node {node : Node} (h : t.node path = .ok node) :
    t.follow path = .ok (t.place path) ∧ t.find? (t.place path) = some node := by
  obtain ⟨last, hfollow, hnode⟩ := exists_of_bind_eq_ok h
  obtain rfl := follow_eq_place hfollow
  refine ⟨hfollow, ?_⟩
  split at hnode
  · next node' hfind =>
    rw [hfind, Except.ok.inj hnode]
  · cases hnode

theorem node_of_follow {node : Node} (hfollow : t.follow path = .ok (t.place path))
    (hfind : t.find? (t.place path) = some node) : t.node path = .ok node := by
  rw [FileTree.node, bind_of_ok hfollow, hfind]

theorem isThere_iff : Disk.isThere t path = true ↔ ∃ node, t.node path = .ok node := by
  show (Except.map _ (t.node path)).toBool = true ↔ _
  cases t.node path with
  | ok node => exact ⟨fun _ => ⟨node, rfl⟩, fun _ => rfl⟩
  | error e => exact ⟨nofun, nofun⟩

/-- A path leads to what it has led to, unless its place was touched. -/
theorem Grown.node_eq {node : Node} (h : Grown places t t') (hnode : t.node path = .ok node)
    (huntouched : t.place path ∉ places) : t'.node path = .ok node := by
  obtain ⟨hfollow, hfind⟩ := exists_of_node hnode
  refine node_of_follow ?_ ?_
  · rw [h.place_eq]
    exact h.follow hfollow
  · rw [h.place_eq, h.untouched _ huntouched, hfind]

/-- A path that leads somewhere still does. -/
theorem Grown.isThere (h : Grown places t t') (hthere : Disk.isThere t path = true) :
    Disk.isThere t' path = true := by
  obtain ⟨node, hnode⟩ := isThere_iff.1 hthere
  obtain ⟨hfollow, hfind⟩ := exists_of_node hnode
  obtain ⟨node', hfind'⟩ := Option.isSome_iff_exists.1 (h.isSome (Option.isSome_of_eq_some hfind))
  refine isThere_iff.2 ⟨node', node_of_follow ?_ ?_⟩
  · rw [h.place_eq]
    exact h.follow hfollow
  · rw [h.place_eq, hfind']

/-- A path does not lead to a place where nothing is, as long as this is not touched. -/
theorem Grown.not_isThere (h : Grown places t t') (hnone : t.find? (t.place path) = none)
    (huntouched : t.place path ∉ places) : Disk.isThere t' path = false := by
  refine Bool.eq_false_iff.2 fun hthere => ?_
  obtain ⟨node, hnode⟩ := isThere_iff.1 hthere
  obtain ⟨-, hfind⟩ := exists_of_node hnode
  rw [h.place_eq, h.untouched _ huntouched, hnone] at hfind
  cases hfind

/-! ## Operations -/

theorem foldl_advance_of_empty {parts : List String} (h : ∀ part ∈ parts, part = "")
    (start : Place) : parts.foldl Path.advance start = start := by
  induction parts with
  | nil => rfl
  | cons part parts ih =>
    obtain ⟨rfl, hrest⟩ := List.forall_mem_cons.1 h
    exact ih hrest

/-- Something is put at the place that the path is about. -/
theorem target_eq_place {occupied : IoError} {last : Place} {node? : Option Node} {slashes : Bool}
    (h : t.target path occupied = .ok (last, node?, slashes)) : last = t.place path := by
  obtain ⟨⟨parts, start⟩, hdepart, h⟩ := exists_of_bind_eq_ok h
  rcases hlast : splitLast parts with ⟨above, name, slashes'⟩
  simp only [hlast] at h
  obtain ⟨up, hwalk, h⟩ := exists_of_bind_eq_ok h
  split at h
  · cases h
  split at h
  · cases h
  next hname _ =>
    obtain ⟨rfl, -⟩ := Prod.mk.inj (Except.ok.inj h)
    obtain ⟨hempty, hdot, hdots⟩ := not_or.1 hname |>.imp_right not_or.1
    obtain ⟨behind, hparts, hbehind, -⟩ := exists_of_splitLast hlast hempty
    rw [depart_eq hdepart, hparts, List.foldl_append, ← walk_eq_foldl (walk_of_walk_slash hwalk).1,
      List.foldl_cons, foldl_advance_of_empty hbehind, Path.advance,
      if_neg (not_or.2 ⟨hempty, hdot⟩), if_neg hdots]

theorem grown_createDir (h : t.createDir path = .ok t') : Grown [t.place path] t t' := by
  obtain ⟨⟨last, node?, slashes⟩, htarget, hput⟩ := exists_of_bind_eq_ok h
  obtain rfl := target_eq_place htarget
  cases node? with
  | some node => cases hput
  | none =>
    obtain rfl : t.put (t.place path) .directory = t' := Except.ok.inj hput
    exact grown_put fun _ => rfl

theorem grown_put_targetFile {last : Place} {executable executable' : Bool} {content : Content}
    (h : t.targetFile path = .ok (last, executable)) :
    Grown [t.place path] t (t.put last (.file content executable')) := by
  obtain rfl := targetFile_eq_place h
  obtain ⟨-, -, -, -, -, -, -, -, hplace, -⟩ := targetFile_spec h
  exact grown_put fun hdirectory => absurd hdirectory hplace

theorem grown_writeContent {content : Content} (h : t.writeContent path content = .ok t') :
    Grown [t.place path] t t' := by
  obtain ⟨⟨last, executable⟩, htarget, hput⟩ := exists_of_bind_eq_ok h
  obtain rfl : t.put last (.file content executable) = t' := Except.ok.inj hput
  exact grown_put_targetFile htarget

theorem grown_copy {source : String} (h : t.copy source path = .ok t') :
    Grown [t.place path] t t' := by
  obtain ⟨node, -, hthen⟩ := exists_of_bind_eq_ok h
  cases node with
  | directory => cases hthen
  | file content executable =>
    obtain ⟨⟨last, executable'⟩, htarget, hput⟩ := exists_of_bind_eq_ok hthen
    obtain rfl : t.put last (.file content executable) = t' := Except.ok.inj hput
    exact grown_put_targetFile htarget

/-- An operation that fails leaves the tree alone. -/
theorem grown_commit {change : Except IoError FileTree}
    (h : ∀ t', change = .ok t' → Grown places t t') : Grown places t (t.commit change).2 := by
  cases change with
  | ok changed => exact h changed rfl
  | error e => exact .refl _ _

theorem grown_createDirs {paths : List String} {answer : Except IoError Unit}
    (h : Disk.createDirs paths t = (answer, t')) : Grown (paths.map t.place) t t' := by
  induction paths generalizing t t' answer with
  | nil =>
    obtain ⟨-, rfl⟩ := Prod.mk.inj h
    exact .refl _ _
  | cons path above ih =>
    have hmade : ∀ t : FileTree,
        Grown ((path :: above).map t.place) t (Disk.createDir path t).2 := by
      intro t
      have hgrown : Grown ([path].map t.place) t (Disk.createDir path t).2 :=
        grown_commit fun _ => grown_createDir
      exact hgrown.mono_paths (List.cons_subset.2 ⟨List.mem_cons_self, List.nil_subset _⟩)
    have habove : ∀ {t t' : FileTree} {answer}, Disk.createDirs above t = (answer, t') →
        Grown ((path :: above).map t.place) t t' :=
      fun hdirs => (ih hdirs).mono_paths (List.subset_cons_self _ _)
    rw [Disk.createDirs] at h
    split at h
    · obtain ⟨-, rfl⟩ := Prod.mk.inj h
      exact .refl _ _
    split at h
    · next hfirst =>
      obtain ⟨-, rfl⟩ := Prod.mk.inj h
      have hgrown := hmade t
      rw [hfirst] at hgrown
      exact hgrown
    · next t₁ hmissing =>
      have hgrown := hmade t
      rw [hmissing] at hgrown
      split at h
      · next t₂ hdone =>
        have hlast := hmade t₂
        rw [← FailingDisk.settle_snd path, h] at hlast
        exact (hgrown.trans_of_paths (habove hdone)).trans_of_paths hlast
      · exact hgrown.trans_of_paths (habove h)
    · have hgrown := hmade t
      rw [← FailingDisk.settle_snd path, h] at hgrown
      exact hgrown

end Provisioner.FileTree
