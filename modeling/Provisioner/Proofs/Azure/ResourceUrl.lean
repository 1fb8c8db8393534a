import Provisioner.Azure.ResourceManager
import Provisioner.Proofs.Url.Path

/-!
# URLs of resources

The URL of a resource names the resource in the segments of its path, behind those of the
address of the resource manager.

* `IsPlain` are the names that stand for themselves in a path.
* `Url.ground` are the segments of an address below which resources are put.
* `resourceUrl_segments`: the URL of plain names has these names, encoded, as its segments, and
  no two resources have one URL.  `not_forall_ground` is the one address that loses a segment
  although it does not end in one that is empty.
* `KeepShape` are the names of which each adds one segment; `length_segments_iff` counts the
  segments.  `not_forall_length` is a name that makes a resource's URL that of its collection.
-/

namespace Provisioner

namespace Url

/-! ## The ground of an address -/

/-- Segments without an empty one at the end. -/
def withoutEmptyEnd (segments : List (List Char)) : List (List Char) :=
  if segments.getLast? = some [] then segments.dropLast else segments

/-- The segments of an address below which resources are put.  A path of two slashes alone is
as good as none. -/
def ground (segments : List (List Char)) : List (List Char) :=
  if segments = [[], []] then [] else withoutEmptyEnd segments

theorem length_ground_le (segments : List (List Char)) :
    (ground segments).length ≤ (withoutEmptyEnd segments).length := by
  unfold ground
  split
  · exact Nat.zero_le _
  · exact Nat.le_refl _

theorem length_ground_iff (segments : List (List Char)) :
    (ground segments).length = (withoutEmptyEnd segments).length ↔ segments ≠ [[], []] := by
  unfold ground
  split
  · rename_i h
    subst h
    exact iff_of_false (by decide) fun hne => hne rfl
  · rename_i h
    exact iff_of_true rfl h

theorem withoutEmptyEnd_concat (front : List (List Char)) (last : List Char) :
    withoutEmptyEnd (front ++ [last]) = if last = [] then front else front ++ [last] := by
  rw [withoutEmptyEnd, List.getLast?_concat, List.dropLast_concat]
  simp only [Option.some.injEq]

theorem dropEmptyEnd_path {u : Url} {front : List String} {last : String}
    (h : u.path = front ++ [last]) :
    u.dropEmptyEnd.path = if last = "" ∧ front ≠ [] then front else front ++ [last] := by
  have hlong : 1 < u.path.length ↔ front ≠ [] := by
    rw [h, List.length_append, List.length_singleton, ← List.length_pos_iff]
    omega
  have hend : u.path.getLast? = some "" ↔ last = "" := by
    rw [h, List.getLast?_concat, Option.some.injEq]
  rw [dropEmptyEnd]
  by_cases hempty : last = "" ∧ front ≠ []
  · rw [if_pos hempty, if_pos ⟨hlong.2 hempty.2, hend.2 hempty.1⟩]
    show u.path.dropLast = front
    rw [h, List.dropLast_concat]
  · rw [if_neg hempty, if_neg fun hu => hempty ⟨hend.1 hu.2, hlong.1 hu.1⟩, h]

theorem exists_dropEmptyEnd (u : Url) :
    ∃ path, path ⊆ u.path ∧ u.dropEmptyEnd = { u with path := path } := by
  unfold dropEmptyEnd
  split
  · exact ⟨u.path.dropLast, List.dropLast_subset _, rfl⟩
  · exact ⟨u.path, List.Subset.refl _, rfl⟩

/-- What is left of the path of an address when segments are appended to it. -/
theorem map_appendable_dropEmptyEnd {u : Url} (h : u.path ≠ []) :
    (appendable u.dropEmptyEnd.path).map String.toList = ground (u.path.map String.toList) := by
  obtain ⟨front, last, hpath⟩ := (List.eq_nil_or_concat u.path).resolve_left h
  rw [List.concat_eq_append] at hpath
  rw [dropEmptyEnd_path hpath, hpath, List.map_append, List.map_singleton, ground,
    withoutEmptyEnd_concat]
  simp only [String.toList_eq_nil_iff]
  by_cases hlast : last = ""
  · subst hlast
    cases front with
    | nil => rfl
    | cons first front =>
      -- Without its empty end the path may be the one of a slash alone.
      have hroot : first :: front = [""] ↔
          (first :: front).map String.toList ++ ["".toList] = [[], []] := by
        simp
      rw [if_pos ⟨rfl, List.cons_ne_nil _ _⟩, if_pos rfl, appendable]
      by_cases hfront : first :: front = [""]
      · rw [if_pos hfront, if_pos (hroot.1 hfront)]
        rfl
      · rw [if_neg hfront, if_neg (mt hroot.2 hfront)]
  · have hroot : front ++ [last] ≠ [""] := (extensible_concat front hlast).2
    have hslashes : front.map String.toList ++ [last.toList] ≠ [[], []] := by
      intro heq
      have hends := congrArg List.getLast? heq
      rw [List.getLast?_concat] at hends
      exact hlast (String.toList_eq_nil_iff.1 (Option.some.inj hends))
    rw [if_neg fun hempty => hlast hempty.1, if_neg hlast, appendable, if_neg hroot,
      if_neg hslashes, List.map_append, List.map_singleton]

/-- Appending to the path of a URL of the web. -/
theorem IsWeb.path_extend {u : Url} (h : u.IsWeb) (names : List String) :
    (u.extend names).path = (names.filter counts).foldl (append true) u.path := by
  rw [extend, h.isSpecial, if_neg h.ne_fileScheme]
  rfl

/-- URLs of the web that differ in the path alone are the same if their texts are. -/
theorem pathText_eq_of_render {u v : Url} {authority : String} (hscheme : u.scheme = v.scheme)
    (hu : u.authority? = some authority) (hv : v.authority? = some authority)
    (hquery : u.query? = v.query?) (hfragment : u.fragment? = v.fragment?)
    (h : u.render = v.render) : u.pathText = v.pathText := by
  rw [render, render, hu, hv, hscheme, hquery, hfragment] at h
  have hbehind := String.append_left_inj _ |>.1 h
  have hpath := String.append_left_inj _ |>.1 hbehind
  exact String.append_right_inj _ |>.1 hpath

end Url

namespace Azure.ResourceManager

open Url (IsWeb Extensible counts ground withoutEmptyEnd bare encoded)

variable {r : ResourceManager} {b : Url}

/-! ## Plain names -/

/-- Names that stand for themselves in a path: neither one dot nor two, and without tabs and
line ends. -/
def IsPlain (name : String) : Prop :=
  name ≠ "." ∧ name ≠ ".." ∧ ∀ c ∈ name.toList, c ≠ '\t' ∧ c ≠ '\n' ∧ c ≠ '\r'

/-- A scope and further names that are all plain. -/
def ArePlain (scope : Scope) (names : List String) : Prop :=
  ∀ name ∈ scope.subscription :: scope.resourceGroup :: scope.workspace :: names, IsPlain name

-- This goes through the characters of the name, not through all there are.
instance (name : String) : Decidable (IsPlain name) :=
  have : Decidable (∀ c ∈ name.toList, c ≠ '\t' ∧ c ≠ '\n' ∧ c ≠ '\r') :=
    List.decidableBAll _ _
  inferInstanceAs (Decidable (_ ∧ _ ∧ _))

instance (scope : Scope) (names : List String) : Decidable (ArePlain scope names) :=
  inferInstanceAs (Decidable (∀ name ∈ _, IsPlain name))

theorem IsPlain.bare_eq {name : String} (h : IsPlain name) : bare name = name.toList := by
  refine List.filter_eq_self.2 fun c hc => ?_
  obtain ⟨htab, hline, hreturn⟩ := h.2.2 c hc
  simp only [Bool.not_eq_true', Bool.or_eq_false_iff, beq_eq_false_iff_ne]
  exact ⟨⟨htab, hline⟩, hreturn⟩

theorem IsPlain.bare_ne {name : String} (h : IsPlain name) :
    bare name ≠ ['.', '.'] ∧ bare name ≠ ['.'] := by
  rw [h.bare_eq]
  exact ⟨fun heq => h.2.1 (String.toList_injective heq),
    fun heq => h.1 (String.toList_injective heq)⟩

theorem ArePlain.isPlain {scope : Scope} {names : List String} (h : ArePlain scope names) :
    ∀ name ∈ workspaceSegments scope ++ names, IsPlain name := by
  have hfixed : ∀ name ∈ ["subscriptions", "resourceGroups", "providers", provider, "workspaces"],
      IsPlain name := by
    decide
  intro name hname
  simp only [ArePlain, List.forall_mem_cons] at h hfixed
  simp only [workspaceSegments, List.cons_append, List.nil_append, List.mem_cons] at hname
  obtain ⟨hsubscription, hgroup, hworkspace, hnames⟩ := h
  obtain ⟨hsubscriptions, hgroups, hproviders, hprovider, hworkspaces, -⟩ := hfixed
  rcases hname with rfl | rfl | rfl | rfl | rfl | rfl | rfl | rfl | hname
  · exact hsubscriptions
  · exact hsubscription
  · exact hgroups
  · exact hgroup
  · exact hproviders
  · exact hprovider
  · exact hworkspaces
  · exact hworkspace
  · exact hnames name hname

/-! ## The URL of a resource -/

/-- The path of an address with the first name that leads to its resources. -/
def stem (b : Url) : List String :=
  Url.appendable b.dropEmptyEnd.path ++ ["subscriptions"]

/-- The names that lead to a resource, behind the first. -/
def laterNames (scope : Scope) (names : List String) : List String :=
  (workspaceSegments scope).tail ++ names

theorem workspaceSegments_append (scope : Scope) (names : List String) :
    workspaceSegments scope ++ names = "subscriptions" :: laterNames scope names := rfl

theorem extensible_stem (b : Url) : Extensible (stem b) :=
  Url.extensible_concat _ (by decide)

theorem append_subscriptions (path : List String) :
    Url.append true path "subscriptions" = Url.appendable path ++ ["subscriptions"] := by
  rcases Url.append_cases true path "subscriptions" with ⟨h, -⟩ | ⟨h, -⟩ | ⟨-, -, heq⟩
  · exact absurd h (by decide)
  · exact absurd h (by decide)
  · rw [heq]
    exact congrArg (fun s => _ ++ [s]) (by decide)

/-- An address of the web has a URL for every resource, which is its own but for the path. -/
theorem exists_resourceUrl (hb : Url.parse? r.base = some b) (hweb : b.IsWeb) (scope : Scope)
    (names : List String) : ∃ u, r.resourceUrl scope names = .ok u ∧
      u.scheme = b.scheme ∧ u.authority? = b.authority? ∧ u.query? = b.query? ∧
      u.fragment? = b.fragment? ∧
      u.path = ((laterNames scope names).filter counts).foldl (Url.append true) (stem b) := by
  have hurl : r.resourceUrl scope names =
      .ok (b.dropEmptyEnd.extend (workspaceSegments scope ++ names)) := by
    rw [resourceUrl, resourceUrl?, hb]
    rfl
  have hpath : (b.dropEmptyEnd.extend (workspaceSegments scope ++ names)).path =
      ((laterNames scope names).filter counts).foldl (Url.append true) (stem b) := by
    have hdropWeb : b.dropEmptyEnd.IsWeb := by
      obtain ⟨_, -, hdrop⟩ := b.exists_dropEmptyEnd
      rw [hdrop]
      exact hweb
    rw [hdropWeb.path_extend, workspaceSegments_append, List.filter_cons_of_pos (by decide),
      List.foldl_cons, append_subscriptions, stem]
  refine ⟨_, hurl, ?_, ?_, ?_, ?_, hpath⟩
  all_goals
    obtain ⟨_, -, hdrop⟩ := b.exists_dropEmptyEnd
    rw [hdrop]
    rfl

/-- Names are put below the ground of the address, and neither the address nor a name has a mark
in it that ends a segment. -/
theorem whole_resource (hb : Url.parse? r.base = some b) (hweb : b.IsWeb) (names : List String) :
    (stem b).map String.toList = ground b.segments ++ ["subscriptions".toList] ∧
      Url.Whole (names.foldl (Url.append true) (stem b)) ∧
      names.foldl (Url.append true) (stem b) ≠ [] := by
  obtain ⟨-, tail, -, hpath⟩ := Url.exists_of_parse? hb hweb
  obtain ⟨hwhole, hne⟩ := Url.whole_readPath tail
  rw [← hpath] at hwhole hne
  constructor
  · rw [stem, List.map_append, Url.map_appendable_dropEmptyEnd hne, Url.segments_eq hne hwhole]
    rfl
  · have hdrop : Url.Whole b.dropEmptyEnd.path := by
      obtain ⟨_, hsubset, hdrop⟩ := b.exists_dropEmptyEnd
      rw [hdrop]
      exact hwhole.subset hsubset
    have hfirst : Url.Whole ["subscriptions"] := Url.whole_encoded true "subscriptions"
    have hstem : Url.Whole (stem b) :=
      (hdrop.subset (Url.appendable_sublist _).subset).append hfirst
    exact Url.whole_foldl_append hstem (extensible_stem b).1 names

/-- URLs of resources with one text have the same segments. -/
theorem segments_eq_of_render (hb : Url.parse? r.base = some b) (hweb : b.IsWeb)
    {scope scope' : Scope} {names names' : List String} {u u' : Url}
    (hu : r.resourceUrl scope names = .ok u) (hu' : r.resourceUrl scope' names' = .ok u')
    (h : u.render = u'.render) : u.segments = u'.segments := by
  obtain ⟨_, hv, hscheme, hauthority, hquery, hfragment, -⟩ :=
    exists_resourceUrl hb hweb scope names
  obtain ⟨_, hv', hscheme', hauthority', hquery', hfragment', -⟩ :=
    exists_resourceUrl hb hweb scope' names'
  obtain rfl := Except.ok.inj (hu.symm.trans hv)
  obtain rfl := Except.ok.inj (hu'.symm.trans hv')
  obtain ⟨authority, tail, hb', -⟩ := Url.exists_of_parse? hb hweb
  rw [Url.segments, Url.segments, Url.pathText_eq_of_render (hscheme.trans hscheme'.symm)
    (hauthority.trans hb') (hauthority'.trans hb') (hquery.trans hquery'.symm)
    (hfragment.trans hfragment'.symm) h]

/-- The URL of a resource with plain names. -/
theorem exists_resourceUrl_of_plain (hb : Url.parse? r.base = some b) (hweb : b.IsWeb)
    {scope : Scope} {names : List String} (h : ArePlain scope names) :
    ∃ u, r.resourceUrl scope names = .ok u ∧ u.query? = b.query? ∧ u.fragment? = b.fragment? ∧
      Url.Whole u.path ∧
      u.segments.map Url.Percent.decode = (ground b.segments).map Url.Percent.decode ++
        (workspaceSegments scope ++ names).map Text.Utf8.encode := by
  obtain ⟨u, hu, -, -, hquery, hfragment, hpath⟩ := exists_resourceUrl hb hweb scope names
  obtain ⟨hstem, hwhole, hne⟩ := whole_resource hb hweb ((laterNames scope names).filter counts)
  rw [← hpath] at hwhole hne
  refine ⟨u, hu, hquery, hfragment, hwhole, ?_⟩
  have hplain : ∀ name ∈ laterNames scope names, IsPlain name := by
    have hall := h.isPlain
    rw [workspaceSegments_append] at hall
    exact fun name hname => hall name (List.mem_cons_of_mem _ hname)
  have hcounts : (laterNames scope names).filter counts = laterNames scope names :=
    List.filter_eq_self.2 fun name hname =>
      Url.counts_iff.2 ⟨(hplain name hname).1, (hplain name hname).2.1⟩
  have hencoded : u.path = stem b ++ (laterNames scope names).map (encoded true) := by
    rw [hpath, hcounts, Url.foldl_append_of_plain (extensible_stem b)
      fun name hname => (hplain name hname).bare_ne]
  have hdecode :
      (laterNames scope names).map ((Url.Percent.decode ∘ String.toList) ∘ encoded true) =
        (laterNames scope names).map Text.Utf8.encode := by
    refine List.map_congr_left fun name hname => ?_
    rw [Function.comp_apply, Function.comp_apply, Url.decode_encoded, (hplain name hname).bare_eq]
    rfl
  have hfirst : Url.Percent.decode "subscriptions".toList = Text.Utf8.encode "subscriptions" := by
    decide
  rw [Url.segments_eq hne hwhole, hencoded, List.map_append, hstem, List.append_assoc,
    List.map_append, workspaceSegments_append]
  rw [List.singleton_append, List.map_cons, hfirst, List.map_cons, List.map_map, List.map_map,
    hdecode]

theorem workspaceSegments_append_injective {scope scope' : Scope} {names names' : List String}
    (h : workspaceSegments scope ++ names = workspaceSegments scope' ++ names') :
    scope = scope' ∧ names = names' := by
  simp only [workspaceSegments, List.cons_append, List.nil_append, List.cons.injEq, true_and] at h
  obtain ⟨hsubscription, hgroup, hworkspace, hnames⟩ := h
  refine ⟨?_, hnames⟩
  cases scope
  cases scope'
  obtain rfl := hsubscription
  obtain rfl := hgroup
  obtain rfl := hworkspace
  rfl

/-- The segments of the URL of a resource are those of the address and the names, and they tell
one resource from another. -/
theorem resourceUrl_segments (hb : Url.parse? r.base = some b) (hweb : b.IsWeb)
    (hquery : b.query? = none) (hfragment : b.fragment? = none) :
    (∀ scope names, ArePlain scope names → ∃ u, r.resourceUrl scope names = .ok u ∧
      u.segments.map Url.Percent.decode = (ground b.segments).map Url.Percent.decode ++
        (workspaceSegments scope ++ names).map Text.Utf8.encode ∧
      u.query? = none ∧ u.fragment? = none ∧
      '?' ∉ u.pathText.toList ∧ '#' ∉ u.pathText.toList) ∧
    ∀ scope names scope' names', ArePlain scope names → ArePlain scope' names' →
      (r.resourceUrl scope names).map Url.render = (r.resourceUrl scope' names').map Url.render →
      scope = scope' ∧ names = names' := by
  constructor
  · intro scope names h
    obtain ⟨u, hu, huQuery, huFragment, hwhole, hsegments⟩ := exists_resourceUrl_of_plain hb hweb h
    exact ⟨u, hu, hsegments, huQuery.trans hquery, huFragment.trans hfragment,
      Url.notMem_pathText hwhole (.inl rfl), Url.notMem_pathText hwhole (.inr rfl)⟩
  · intro scope names scope' names' h h' heq
    obtain ⟨u, hu, -, -, -, hsegments⟩ := exists_resourceUrl_of_plain hb hweb h
    obtain ⟨u', hu', -, -, -, hsegments'⟩ := exists_resourceUrl_of_plain hb hweb h'
    rw [hu, hu'] at heq
    have hsame := segments_eq_of_render hb hweb hu hu' (Except.ok.inj heq)
    rw [hsame, hsegments'] at hsegments
    have hnames := List.append_cancel_left hsegments
    exact workspaceSegments_append_injective
      (List.map_injective_iff.2 (fun _ _ => Text.Utf8.encode_injective) hnames.symm)

theorem resourceUrl_segments_hardNames :
    ∃ u, (⟨"https://arm.example/a%20b/"⟩ : ResourceManager).resourceUrl ⟨"s/1", "g?", "w#"⟩
        ["a%2Fb", "", "é\\"] = .ok u ∧
      u.segments.map Url.Percent.decode =
        ["a b", "subscriptions", "s/1", "resourceGroups", "g?", "providers",
          "Microsoft.MachineLearningServices", "workspaces", "w#", "a%2Fb", "", "é\\"].map
          Text.Utf8.encode := by
  obtain ⟨u, hu, hsegments, -⟩ :=
    (resourceUrl_segments (r := ⟨"https://arm.example/a%20b/"⟩)
      (b := ⟨"https", some "arm.example", ["a%20b", ""], none, none⟩) (by decide +kernel) (.inr rfl)
      rfl rfl).1 ⟨"s/1", "g?", "w#"⟩ ["a%2Fb", "", "é\\"] (by decide +kernel)
  exact ⟨u, hu, hsegments.trans (by decide +kernel)⟩

/-- An address may lose an empty segment that is not the last: that of a path of two slashes,
which becomes a slash alone. -/
theorem not_forall_ground :
    ¬ ∀ (address : String) (b : Url) (scope : Scope) (names : List String),
      Url.parse? (ofAddress address).base = some b → b.IsWeb → b.query? = none →
      b.fragment? = none → ArePlain scope names →
      ∃ u, (ofAddress address).resourceUrl scope names = .ok u ∧
        u.segments.map Url.Percent.decode = (withoutEmptyEnd b.segments).map Url.Percent.decode ++
          (workspaceSegments scope ++ names).map Text.Utf8.encode := by
  intro h
  obtain ⟨u, hu, hsegments⟩ := h "https://arm.example//."
    ⟨"https", some "arm.example", ["", ""], none, none⟩ ⟨"sub-123", "rg-ml", "ws-ml"⟩
    ["models", "m"] (by decide +kernel) (.inr rfl) rfl rfl (by decide +kernel)
  have hv : (ofAddress "https://arm.example//.").resourceUrl ⟨"sub-123", "rg-ml", "ws-ml"⟩
      ["models", "m"] = .ok ⟨"https", some "arm.example", ["subscriptions", "sub-123",
        "resourceGroups", "rg-ml", "providers", provider, "workspaces", "ws-ml", "models", "m"],
        none, none⟩ := by decide +kernel
  obtain rfl := Except.ok.inj (hv.symm.trans hu)
  revert hsegments
  decide +kernel

/-! ## One segment for every name -/

/-- Names of which each adds one segment: none is passed over, and none leads above. -/
def KeepShape (scope : Scope) (names : List String) : Prop :=
  (∀ name ∈ workspaceSegments scope ++ names, counts name = true) ∧
    (workspaceSegments scope ++ names).IsChain Url.GoesOn

instance (before name : String) : Decidable (Url.GoesOn before name) :=
  inferInstanceAs (Decidable (_ → _))

instance (scope : Scope) (names : List String) : Decidable (KeepShape scope names) :=
  inferInstanceAs (Decidable (_ ∧ _))

theorem length_segments_ground (hb : Url.parse? r.base = some b) (hweb : b.IsWeb) (scope : Scope)
    (names : List String) : ∃ u, r.resourceUrl scope names = .ok u ∧
      u.segments.length ≤ (ground b.segments).length + 8 + names.length ∧
      (u.segments.length = (ground b.segments).length + 8 + names.length ↔
        KeepShape scope names) := by
  obtain ⟨u, hu, -, -, -, -, hpath⟩ := exists_resourceUrl hb hweb scope names
  obtain ⟨hstem, hwhole, hne⟩ := whole_resource hb hweb ((laterNames scope names).filter counts)
  have hlater : (laterNames scope names).length = 7 + names.length := by
    rw [laterNames, List.length_append]
    rfl
  have hlength : (stem b).length = (ground b.segments).length + 1 := by
    rw [← List.length_map (f := String.toList), hstem, List.length_append, List.length_singleton]
  have hfilter : ((laterNames scope names).filter counts).length ≤
      (laterNames scope names).length := List.length_filter_le _ _
  have hle := Url.length_foldl_append_le true (stem b) ((laterNames scope names).filter counts)
  have hlast : (stem b).getLast?.any Url.isDrive =
      Url.isDrive (String.ofList (bare "subscriptions")) := by
    rw [stem, List.getLast?_concat]
    decide
  have hiff := Url.length_foldl_append_iff true (extensible_stem b) hlast (laterNames scope names)
  rw [← hpath] at hwhole hne hle hiff
  have hshape : KeepShape scope names ↔ (∀ name ∈ laterNames scope names, counts name = true) ∧
      ("subscriptions" :: laterNames scope names).IsChain Url.GoesOn := by
    rw [KeepShape, workspaceSegments_append, List.forall_mem_cons]
    exact and_congr_left fun _ => and_iff_right (by decide)
  refine ⟨u, hu, ?_, ?_⟩
  · rw [Url.segments_eq hne hwhole, List.length_map]
    omega
  · rw [Url.segments_eq hne hwhole, List.length_map, hshape, ← hiff, hlength, hlater]
    omega

/-- No URL of a resource has more segments than names lead to it, and every name has its own
exactly if the names keep the shape and the path of the address is not that of two slashes.  If
they keep it, then no fewer names lead to that URL, in whatever scope. -/
theorem length_segments_iff (hb : Url.parse? r.base = some b) (hweb : b.IsWeb) (scope : Scope)
    (names : List String) : ∃ u, r.resourceUrl scope names = .ok u ∧
      u.segments.length ≤ (withoutEmptyEnd b.segments).length + 8 + names.length ∧
      (u.segments.length = (withoutEmptyEnd b.segments).length + 8 + names.length ↔
        b.segments ≠ [[], []] ∧ KeepShape scope names) ∧
      (KeepShape scope names → ∀ scope' names', names'.length < names.length →
        (r.resourceUrl scope' names').map Url.render ≠ .ok u.render) := by
  obtain ⟨u, hu, hle, hiff⟩ := length_segments_ground hb hweb scope names
  have hground := Url.length_ground_le b.segments
  refine ⟨u, hu, by omega, ?_, ?_⟩
  · rw [← Url.length_ground_iff, ← hiff]
    omega
  · intro hshape scope' names' hfewer heq
    obtain ⟨u', hu', hle', -⟩ := length_segments_ground hb hweb scope' names'
    rw [hu'] at heq
    have hsame := segments_eq_of_render hb hweb hu hu' (Except.ok.inj heq).symm
    have hlength := hiff.2 hshape
    rw [hsame] at hlength
    omega

theorem length_segments_iff_dottedNames :
    ∃ u, (⟨"https://arm.example/a/"⟩ : ResourceManager).resourceUrl ⟨"sub-123", "rg-ml", "ws-ml"⟩
      ["onlineEndpoints", "../..", "%2e%2e"] = .ok u ∧ u.segments.length = 12 := by
  obtain ⟨u, hu, -, hiff, -⟩ := length_segments_iff (r := ⟨"https://arm.example/a/"⟩)
    (b := ⟨"https", some "arm.example", ["a", ""], none, none⟩) (by decide +kernel) (.inr rfl)
    ⟨"sub-123", "rg-ml", "ws-ml"⟩ ["onlineEndpoints", "../..", "%2e%2e"]
  exact ⟨u, hu, hiff.2 ⟨by decide +kernel, by decide +kernel⟩⟩

/-- A name may have no segment: two dots are passed over, and what is read is the collection. -/
theorem not_forall_length :
    ¬ ∀ (address : String) (b : Url) (scope : Scope) (names : List String),
      Url.parse? (ofAddress address).base = some b → b.IsWeb →
      ∃ u, (ofAddress address).resourceUrl scope names = .ok u ∧
        u.segments.length = (withoutEmptyEnd b.segments).length + 8 + names.length := by
  intro h
  obtain ⟨u, hu, hlength⟩ := h "https://arm.example"
    ⟨"https", some "arm.example", [""], none, none⟩ ⟨"sub-123", "rg-ml", "ws-ml"⟩
    ["onlineEndpoints", ".."] (by decide +kernel) (.inr rfl)
  have hv : (ofAddress "https://arm.example").resourceUrl ⟨"sub-123", "rg-ml", "ws-ml"⟩
      ["onlineEndpoints", ".."] = .ok ⟨"https", some "arm.example", ["subscriptions", "sub-123",
        "resourceGroups", "rg-ml", "providers", provider, "workspaces", "ws-ml",
        "onlineEndpoints"], none, none⟩ := by decide +kernel
  obtain rfl := Except.ok.inj (hv.symm.trans hu)
  revert hlength
  decide +kernel

end Azure.ResourceManager

end Provisioner
