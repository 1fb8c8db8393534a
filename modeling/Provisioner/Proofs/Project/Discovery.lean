import Provisioner.Project.Discovery
import Provisioner.Proofs.Disk.Growth
import Provisioner.Proofs.Store.Reload

/-!
# Finding a project again

The environment file of a project lies below the project file, and sometimes where project files are
looked for.  Saving a store there can therefore change which project is found next.

* `searched` are the paths at which project files are looked for, and `find_eq` says that the first
  of them that leads somewhere is found.
* `savedPaths` are the paths at which saving a store puts something.  `grown_save` is what one save
  makes of a file tree, and `Written.grown` what several do.
* `discover_of_written`: the same project is found, unless something is put at the project file or
  at a place where one was looked for before.
-/

namespace Provisioner

/-! ## Directories of files -/

namespace FileTree

variable {t : FileTree} {parts : List String} {start : Place}

theorem depart_of_append {base more : String} (hne : base ≠ "")
    (h : t.depart (base ++ more) = .ok (parts, start)) :
    parts = (Path.segments (base.toList ++ more.toList)).map String.ofList ∧
      t.depart base = .ok ((Path.segments base.toList).map String.ofList, start) := by
  have habsolute : Path.isAbsolute (base ++ more) = Path.isAbsolute base :=
    Path.isAbsolute_of_toList hne String.toList_append
  have hempty : base.isEmpty = false :=
    Bool.eq_false_iff.2 fun h => hne (String.isEmpty_iff.1 h)
  unfold depart at h ⊢
  rw [habsolute, String.toList_append] at h
  split at h
  · cases h
  next hnul =>
  split at h
  · cases h
  split at h
  · cases h
  next hlimit =>
  obtain ⟨rfl, rfl⟩ := Prod.mk.inj (Except.ok.inj h)
  have hnul' : ¬ base.toList.contains (Char.ofNat 0) = true := by
    intro hbase
    refine hnul (List.contains_iff_mem.2 (List.mem_append_left _ ?_))
    exact List.contains_iff_mem.1 hbase
  have hlimit' : ¬ pathLimit < base.utf8ByteSize := by
    rw [String.utf8ByteSize_append] at hlimit
    omega
  rw [if_neg hnul', hempty, if_neg hlimit']
  exact ⟨rfl, rfl⟩

theorem exists_depart_of_join {directory name : String} (hname : Path.IsPlain name)
    (hne : directory ≠ "") (h : t.depart (Path.join directory name) = .ok (parts, start)) :
    ∃ above behind, parts = above ++ [name] ∧ t.depart directory = .ok (above ++ behind, start) ∧
      (behind = [] ∨ behind = [""]) := by
  obtain ⟨more, hmore⟩ := Path.exists_join_eq_append hname.isAbsolute_eq_false directory
  obtain ⟨above, behind, hjoin, hbase, hbehind⟩ := hname.segments_join hne
  rw [hmore] at h hjoin
  obtain ⟨rfl, hdepart⟩ := depart_of_append hne h
  rw [← String.toList_append, hjoin, List.map_append, List.map_singleton, String.ofList_toList]
  rw [hbase, List.map_append] at hdepart
  refine ⟨_, _, rfl, hdepart, ?_⟩
  rcases hbehind with rfl | rfl
  · exact .inl rfl
  · exact .inr rfl

/-- Only directories are entered. -/
theorem find?_of_enter {place next : Place} {name : String} (h : t.enter place name = .ok next) :
    t.find? place = some .directory := by
  unfold enter at h
  split at h
  · cases h
  · cases h
  · assumption

theorem walk_blank {place : Place} (h : t.find? place = some .directory) :
    t.walk [""] place = .ok place := by
  show (t.enter place "" >>= t.walk []) = _
  rw [enter, h]
  rfl

theorem isDirectory_of_follow {path : String} {place : Place} (hfollow : t.follow path = .ok place)
    (hfind : t.find? place = some .directory) : Disk.isDirectory t path = true := by
  have hnode : t.node path = .ok .directory := by rw [FileTree.node, bind_of_ok hfollow, hfind]
  have hstat : Disk.stat t path = .ok .directory := by
    show Except.map _ (t.node path) = _
    rw [hnode]
    rfl
  rw [Disk.isDirectory, hstat]

/-- Above a file there is a directory. -/
theorem isDirectory_of_isThere_join {directory name : String} (hname : Path.IsPlain name)
    (hne : directory ≠ "") (h : Disk.isThere t (Path.join directory name) = true) :
    Disk.isDirectory t directory = true := by
  obtain ⟨node, hnode⟩ := isThere_iff.1 h
  obtain ⟨hfollow, -⟩ := exists_of_node hnode
  obtain ⟨⟨parts, start⟩, hdepart, hwalk⟩ := exists_of_bind_eq_ok hfollow
  obtain ⟨above, behind, rfl, hdirectory, hbehind⟩ := exists_depart_of_join hname hne hdepart
  dsimp only at hwalk
  rw [walk_append] at hwalk
  obtain ⟨up, hup, hlast⟩ := exists_of_bind_eq_ok hwalk
  obtain ⟨next, henter, -⟩ := exists_of_bind_eq_ok hlast
  have hfind : t.find? up = some .directory := find?_of_enter henter
  have hreach : t.follow directory = .ok up := by
    rw [follow, bind_of_ok hdirectory]
    show t.walk (above ++ behind) start = _
    rw [walk_append, hup]
    rcases hbehind with rfl | rfl
    · rfl
    · exact walk_blank hfind
  exact isDirectory_of_follow hreach hfind

end FileTree

/-! ## Saving a store -/

namespace Store.DotenvFile

open FileTree (Grown)

/-- The paths at which something is put when a store is saved in the file at a path. -/
def savedPaths (path : String) : List String :=
  (Path.parent? path).elim [] Path.ancestors ++ [backupPath path, path]

theorem named_snd {δ : Type} (path : String) (r : Except IoError Unit × δ) :
    (named path r).2 = r.2 := by
  obtain ⟨_ | _, d⟩ := r <;> rfl

theorem grown_makeDirectory (path : String) (t : FileTree) :
    Grown ((savedPaths path).map t.place) t (makeDirectory path t).2 := by
  unfold makeDirectory
  split
  · exact .refl _ _
  · next up hup =>
    rw [named_snd]
    refine (FileTree.grown_createDirs (Prod.ext rfl rfl)).mono_paths ?_
    rw [savedPaths, hup]
    exact List.subset_append_left _ _

theorem grown_backUp (path : String) (t : FileTree) :
    Grown ((savedPaths path).map t.place) t (backUp path t).2 := by
  unfold backUp
  split
  · rw [named_snd]
    have hcopied : Grown ([backupPath path].map t.place) t
        (Disk.copy path (backupPath path) t).2 :=
      FileTree.grown_commit fun _ => FileTree.grown_copy
    refine hcopied.mono_paths (List.cons_subset.2 ⟨?_, List.nil_subset _⟩)
    exact List.mem_append_right _ List.mem_cons_self
  · exact .refl _ _

theorem grown_save (s : DotenvFile) (t : FileTree) :
    Grown ((savedPaths s.path).map t.place) t (s.save t).2 := by
  have hmade := grown_makeDirectory s.path t
  unfold save
  split
  · next hmake =>
    rw [hmake] at hmade
    exact hmade
  next t₁ hmake =>
  rw [hmake] at hmade
  have hcopied := hmade.trans_of_paths (grown_backUp s.path t₁)
  split
  · next hcopy =>
    rw [hcopy] at hcopied
    exact hcopied
  · next t₂ hcopy =>
    rw [hcopy] at hcopied
    rw [named_snd]
    have hwritten : Grown ([s.path].map t₂.place) t₂
        (Disk.write s.path (Dotenv.render s.values) t₂).2 :=
      FileTree.grown_commit fun _ => FileTree.grown_writeContent
    refine hcopied.trans_of_paths
      (hwritten.mono_paths (List.cons_subset.2 ⟨?_, List.nil_subset _⟩))
    exact List.mem_append_right _ (List.mem_cons_of_mem _ List.mem_cons_self)

theorem Written.grown {path : String} {t t' : FileTree} (h : Written path t t') :
    Grown ((savedPaths path).map t.place) t t' := by
  induction h with
  | not => exact .refl _ _
  | @saved s t t₁ t₂ _ hpath hsave ih =>
    have hsaved := grown_save s t₁
    rw [hsave, hpath] at hsaved
    exact ih.trans_of_paths hsaved

end Store.DotenvFile

/-! ## Searching -/

namespace Project

open Store FileTree

variable {environment : KeyMap String} {t t' : FileTree}

/-- The paths at which a project file is looked for in turn, also in a hidden directory that is not
there. -/
def searched (environment : KeyMap String) (current : String) : List String :=
  (environment.get? pathVariable).toList ++ (fileNames.map (Path.join current) ++
    fileNames.map (Path.join (Path.join current ".fleetml")) ++
    ((userDirectory? environment "XDG_CONFIG_HOME" ".config").map fun directory =>
      Path.join (Path.join directory "fleetml") "fleetml.yaml").toList)

theorem isPlain_of_mem_fileNames {name : String} (h : name ∈ fileNames) : Path.IsPlain name := by
  have hall : ∀ name ∈ fileNames, '/' ∉ name.toList ∧ Path.isIdle name.toList = false ∧
      name ≠ ".." := by decide
  exact ⟨(hall name h).1, (hall name h).2.1, (hall name h).2.2⟩

/-- In a hidden directory that is not there nothing is found. -/
theorem find?_candidates (environment : KeyMap String) (current : String) (t : FileTree) :
    (candidates environment current t).find? (Disk.isThere t) =
      (fileNames.map (Path.join current) ++
        fileNames.map (Path.join (Path.join current ".fleetml")) ++
        ((userDirectory? environment "XDG_CONFIG_HOME" ".config").map fun directory =>
          Path.join (Path.join directory "fleetml") "fleetml.yaml").toList).find?
        (Disk.isThere t) := by
  rw [candidates]
  cases hhidden : Disk.isDirectory t (Path.join current ".fleetml") with
  | true => rfl
  | false =>
    have hnone : (fileNames.map (Path.join (Path.join current ".fleetml"))).find?
        (Disk.isThere t) = none := by
      refine List.find?_eq_none.2 fun path hpath hthere => ?_
      obtain ⟨name, hname, rfl⟩ := List.mem_map.1 hpath
      have hne : Path.join current ".fleetml" ≠ "" :=
        Path.join_ne_empty (by decide) (by decide) current
      rw [isDirectory_of_isThere_join (isPlain_of_mem_fileNames hname) hne hthere] at hhidden
      cases hhidden
    simp only [Bool.false_eq_true, ↓reduceIte, List.append_nil, List.find?_append, hnone,
      Option.or_none]

/-- The first path that leads somewhere is found. -/
theorem find_eq (environment : KeyMap String) (t : FileTree) :
    find environment t =
      match (searched environment (pathOf t.current)).find? (Disk.isThere t) with
      | some path => .ok path
      | none => .error .fileNotFound := by
  rw [searched, List.find?_append, ← find?_candidates]
  unfold find
  cases environment.get? pathVariable with
  | none =>
    show (match (candidates environment (pathOf t.current) t).find? (Disk.isThere t) with
      | some path => pure path
      | none => throw .fileNotFound : Except ProjectError String) = _
    cases (candidates environment (pathOf t.current) t).find? (Disk.isThere t) <;> rfl
  | some named =>
    rw [Option.filter_some, Option.toList_some, List.find?_singleton]
    cases Disk.isThere t named with
    | true => rfl
    | false =>
      show (match (candidates environment (pathOf t.current) t).find? (Disk.isThere t) with
        | some path => pure path
        | none => throw .fileNotFound : Except ProjectError String) = _
      cases (candidates environment (pathOf t.current) t).find? (Disk.isThere t) <;> rfl

/-- In a tree to which something was added, the same project is found, if nothing was put at the
project file or at the place of a path that leads nowhere and comes before it. -/
theorem discover_of_grown {places : List Place} {found : String} (h : Grown places t t')
    (hfound : find environment t = .ok found) (hfile : t.place found ∉ places)
    (hbefore : ∀ path ∈ (searched environment (pathOf t.current)).takeWhile
      (fun path => !Disk.isThere t path), t.find? (t.place path) = none ∧ t.place path ∉ places) :
    discover environment t' = discover environment t := by
  rw [find_eq] at hfound
  split at hfound
  · next path hfirst =>
    obtain rfl := Except.ok.inj hfound
    obtain ⟨hthere, before, after, hsearched, hnot⟩ := List.find?_eq_some_iff_append.1 hfirst
    obtain ⟨node, hnode⟩ := isThere_iff.1 hthere
    rw [hsearched, List.takeWhile_append_of_pos hnot] at hbefore
    have hfirst' : (searched environment (pathOf t'.current)).find? (Disk.isThere t') =
        some path := by
      rw [h.current, hsearched]
      refine List.find?_eq_some_iff_append.2 ⟨h.isThere hthere, before, after, rfl, ?_⟩
      intro other hother
      obtain ⟨hnone, huntouched⟩ := hbefore other (List.mem_append_left _ hother)
      rw [h.not_isThere hnone huntouched]
      rfl
    have hread : Disk.readText t' path = Disk.readText t path := by
      show (t'.content path >>= Content.text?) = (t.content path >>= Content.text?)
      rw [content, content, hnode, h.node_eq hnode hfile]
    rw [discover, discover, find_eq, find_eq, hfirst', hfirst]
    show load path t' = load path t
    rw [load, load, hread]
  · cases hfound

/-- Saving stores does not change which project is found, unless something is put at the project
file, or at the place of a path that leads nowhere and comes before it. -/
theorem discover_of_written {path found : String} (h : DotenvFile.Written path t t')
    (hfound : find environment t = .ok found)
    (hfile : t.place found ∉ (DotenvFile.savedPaths path).map t.place)
    (hbefore : ∀ other ∈ (searched environment (pathOf t.current)).takeWhile
      (fun path => !Disk.isThere t path), t.find? (t.place other) = none ∧
        t.place other ∉ (DotenvFile.savedPaths path).map t.place) :
    discover environment t' = discover environment t :=
  discover_of_grown h.grown hfound hfile hbefore

end Project

end Provisioner
