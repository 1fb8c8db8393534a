import Provisioner.Template

/-!
# Overrides

An override replaces one field of a definition: its key names the field and its
template gives the value.  Overrides are handed to the provisioning program as
pairs of arguments, `--set` and `key=value`.

The order of the overrides carries no meaning, and every process goes through them in an
order of its own.

* `Overrides` have each key once, in the order in which they are gone through.
* `Overrides.Order` is how a process puts overrides in order.
* `Overrides.applyTo` takes a list of overrides as it is, and `Overrides.arguments` all of
  them in their order.
-/

namespace Provisioner

/-- Override templates by the field that they replace, in the order in which they are gone
through. -/
structure Overrides where
  entries : List (String × Template)
  nodup : (entries.map Prod.fst).Nodup
deriving DecidableEq, Repr

/-- The override whose template cannot be filled in. -/
structure OverrideError where
  key : String
  source : TemplateError
deriving DecidableEq, Repr

/-- The wording of the error. -/
def OverrideError.message (e : OverrideError) : String :=
  "failed parsing override '" ++ e.key ++ "': " ++ e.source.message

/-- The two arguments that set `key` to `value`. -/
def setArguments (key value : String) : List String :=
  ["--set", key ++ "=" ++ value]

namespace Overrides

/-! ## Overrides by their keys -/

/-- No overrides. -/
def empty : Overrides := ⟨[], .nil⟩

/-- Whether there are no overrides. -/
def isEmpty (o : Overrides) : Bool := o.entries.isEmpty

/-- The template under `key`. -/
def get? (o : Overrides) (key : String) : Option Template :=
  o.entries.lookup key

/-- The entry list with `key` bound to `t`: the old entry replaced, or a new one at the end. -/
def insertEntry (key : String) (t : Template) :
    List (String × Template) → List (String × Template)
  | [] => [(key, t)]
  | (k, u) :: rest => if key = k then (key, t) :: rest else (k, u) :: insertEntry key t rest

/-- A key of the list after an insertion is the new one or was there before. -/
theorem mem_keys_insertEntry {key k : String} {t : Template} {es : List (String × Template)}
    (h : k ∈ (insertEntry key t es).map Prod.fst) : k = key ∨ k ∈ es.map Prod.fst := by
  induction es with
  | nil => exact .inl (List.mem_singleton.1 h)
  | cons e rest ih =>
    rw [insertEntry] at h
    split at h
    · rcases List.mem_cons.1 h with h | h
      · exact .inl h
      · exact .inr (List.mem_cons_of_mem _ h)
    · rcases List.mem_cons.1 h with h | h
      · exact .inr (h ▸ List.mem_cons_self)
      · exact (ih h).imp id (List.mem_cons_of_mem _)

/-- An insertion keeps the keys apart. -/
theorem insertEntry_nodup (key : String) (t : Template) {es : List (String × Template)}
    (h : (es.map Prod.fst).Nodup) : ((insertEntry key t es).map Prod.fst).Nodup := by
  induction es with
  | nil => exact List.pairwise_singleton _ _
  | cons e rest ih =>
    obtain ⟨he, hrest⟩ := List.nodup_cons.1 h
    rw [insertEntry]
    split
    · next heq => exact List.nodup_cons.2 ⟨heq ▸ he, hrest⟩
    · next hne =>
      refine List.nodup_cons.2 ⟨fun hmem => ?_, ih hrest⟩
      exact (mem_keys_insertEntry hmem).elim (fun heq => hne heq.symm) he

/-- The overrides with `key` bound to `t`. -/
def insert (o : Overrides) (key : String) (t : Template) : Overrides :=
  ⟨insertEntry key t o.entries, insertEntry_nodup key t o.nodup⟩

/-- The overrides of a list of pairs; of two pairs with one key the later wins. -/
def ofList (pairs : List (String × Template)) : Overrides :=
  pairs.foldl (fun o p => o.insert p.1 p.2) empty

/-! ## The order of overrides -/

/-- How a process puts overrides in order.  None is left out, and none is added. -/
structure Order where
  arrange : Overrides → Overrides
  perm : ∀ o, (arrange o).entries.Perm o.entries

/-- The order in which overrides are written down. -/
def Order.written : Order := ⟨id, fun _ => .refl _⟩

instance : Inhabited Order := ⟨.written⟩

/-! ## Filling overrides in -/

/-- Fills every override in and appends its arguments to `args`; stops at the first one
that fails. -/
def applyTo (lookup : Template.Lookup) :
    List (String × Template) → List String → Except OverrideError (List String)
  | [], args => .ok args
  | (key, t) :: rest, args =>
    match t.resolve lookup with
    | .error e => .error ⟨key, e⟩
    | .ok value => applyTo lookup rest (args ++ setArguments key value)

/-- The arguments of all overrides, in their order. -/
def arguments (overrides : Overrides) (lookup : Template.Lookup) :
    Except OverrideError (List String) :=
  applyTo lookup overrides.entries []

end Overrides

end Provisioner
