import Mathlib.Data.List.TakeWhile
import Provisioner.Proofs.Override
import Provisioner.Step.Deployment
import Provisioner.Step.Endpoint
import Provisioner.Step.EnvironmentVersion
import Provisioner.Step.Flow
import Provisioner.Step.ModelVersion

/-!
# Reading an argument vector

What a program finds in the vector that it is given.

* `Arguments.options` are its flags with their values, `Options.values` the values of one flag
  and `Options.settings` the values that a field is set to.
* `Options.InScope` says that a vector names one scope, and `Options.Decides` that it sets a
  field to one value before any override does.  `Options.Orders` is all that a vector for the ML
  client says.
* `Arguments.options_ml` reads a vector for the ML client back, and `Options.orders_ml` says what
  it orders.
* `EnvironmentVersion.orders` and its siblings are about the vectors of the steps, whose own
  fields are `EnvironmentVersion.fields` and its siblings.
* `Flow.options_arguments` reads a vector for the prompt flow client back.
-/

namespace Provisioner

/-! ## Fields -/

/-- The field that a key stands for.  A program cuts `key=value` at the first `=`, which may be
one of the key. -/
def fieldOf (key : String) : String :=
  String.ofList (key.toList.takeWhile (· != '='))

/-- The value that the text `field=value` gives to a field. -/
def assigned? (field text : String) : Option String :=
  match Text.cut? '=' text.toList with
  | some (key, value) => if String.ofList key = field then some (String.ofList value) else none
  | none => none

/-- How many overrides set a field. -/
def Overrides.countOf (overrides : Overrides) (field : String) : Nat :=
  overrides.entries.countP fun e => fieldOf e.1 = field

theorem exists_cut? (key value : List Char) :
    ∃ after, Text.cut? '=' (key ++ '=' :: value) = some (key.takeWhile (· != '='), after) ∧
      ('=' ∉ key → after = value) := by
  induction key with
  | nil => exact ⟨value, rfl, fun _ => rfl⟩
  | cons c rest ih =>
    obtain ⟨after, hcut, hafter⟩ := ih
    by_cases hc : c = '='
    · subst hc
      exact ⟨rest ++ '=' :: value, rfl, fun h => absurd List.mem_cons_self h⟩
    · refine ⟨after, ?_, fun h => hafter fun hmem => h (List.mem_cons_of_mem _ hmem)⟩
      have htake : (c :: rest).takeWhile (· != '=') = c :: rest.takeWhile (· != '=') :=
        List.takeWhile_cons_of_pos (bne_iff_ne.2 hc)
      rw [List.cons_append, Text.cut?, if_neg hc, hcut, htake]
      rfl

theorem toList_pair (key value : String) :
    (key ++ "=" ++ value).toList = key.toList ++ '=' :: value.toList := by
  rw [String.toList_append, String.toList_append, List.append_assoc]
  rfl

theorem isSome_assigned? (field key value : String) :
    (assigned? field (key ++ "=" ++ value)).isSome = decide (fieldOf key = field) := by
  obtain ⟨after, hcut, -⟩ := exists_cut? key.toList value.toList
  rw [assigned?, toList_pair, hcut]
  by_cases hkey : fieldOf key = field
  · rw [decide_eq_true hkey]
    exact congrArg Option.isSome (if_pos hkey)
  · rw [decide_eq_false hkey]
    exact congrArg Option.isSome (if_neg hkey)

theorem fieldOf_of_not_mem {key : String} (h : '=' ∉ key.toList) : fieldOf key = key := by
  have htake : key.toList.takeWhile (· != '=') = key.toList := by
    refine List.takeWhile_eq_self_iff.2 fun c hc => bne_iff_ne.2 fun heq => ?_
    exact h (heq ▸ hc)
  rw [fieldOf, htake, String.ofList_toList]

/-- A key without `=` gives its field the whole value. -/
theorem assigned?_of_not_mem {key : String} (h : '=' ∉ key.toList) (field value : String) :
    assigned? field (key ++ "=" ++ value) = if key = field then some value else none := by
  obtain ⟨after, hcut, hafter⟩ := exists_cut? key.toList value.toList
  obtain rfl := hafter h
  have hkey : String.ofList (key.toList.takeWhile (· != '=')) = key := fieldOf_of_not_mem h
  rw [assigned?, toList_pair, hcut]
  show (if _ = field then some (String.ofList value.toList) else none) = _
  rw [hkey, String.ofList_toList]

/-! ## Options -/

/-- The options of a vector: every flag with the argument behind it. -/
def Arguments.options : Arguments → List (String × String)
  | flag :: value :: rest => (flag, value) :: options rest
  | _ => []

/-- The options that a program is given; the prompt flow client is given a verb before them. -/
def Program.options : Program → Arguments → List (String × String)
  | .mlClient, args => args.options
  | .promptFlowClient, args => Arguments.options args.tail

namespace Options

/-- The values of a flag, the earliest first. -/
def values (flag : String) (options : List (String × String)) : List String :=
  (options.filter (·.1 = flag)).map Prod.snd

/-- The values that a field is set to, the earliest first. -/
def settings (field : String) (options : List (String × String)) : List String :=
  (values "--set" options).filterMap (assigned? field)

/-- Options that name one scope. -/
structure InScope (scope : Scope) (options : List (String × String)) : Prop where
  subscription : values "-s" options = [scope.subscription]
  resourceGroup : values "-g" options = [scope.resourceGroup]
  workspace : values "-w" options = [scope.workspace]

/-- Options that set a field to the value that a step has decided on.  Overrides may set the
field as well, but after the step. -/
structure Decides (overrides : Overrides) (options : List (String × String))
    (field value : String) : Prop where
  /-- The step sets the field before any override does. -/
  first : (settings field options).head? = some value
  /-- Every other setting is an override. -/
  count : (settings field options).length = 1 + overrides.countOf field
  /-- Nothing contradicts the step unless an override sets its field. -/
  alone : settings field options = [value] ↔ ∀ e ∈ overrides.entries, fieldOf e.1 ≠ field

/-- In which order the overrides stand does not matter. -/
theorem Decides.of_perm {overrides overrides' : Overrides} {options : List (String × String)}
    {field value : String} (h : Decides overrides options field value)
    (hperm : overrides.entries.Perm overrides'.entries) :
    Decides overrides' options field value where
  first := h.first
  count := by rw [h.count, Overrides.countOf, Overrides.countOf, hperm.countP_eq]
  alone := h.alone.trans ⟨fun hall e he => hall e (hperm.mem_iff.2 he),
    fun hall e he => hall e (hperm.mem_iff.1 he)⟩

/-- Options that order a resource of one type in one scope.  The step that orders it sets fields
of its own. -/
structure Orders (type : String) (scope : Scope) (own : List (String × String))
    (overrides : Overrides) (options : List (String × String)) : Prop where
  type : values "-t" options = [type]
  inScope : InScope scope options
  decides : ∀ f ∈ own, Decides overrides options f.1 f.2

theorem values_append (flag : String) (options more : List (String × String)) :
    values flag (options ++ more) = values flag options ++ values flag more := by
  rw [values, List.filter_append, List.map_append]
  rfl

theorem settings_append (field : String) (options more : List (String × String)) :
    settings field (options ++ more) = settings field options ++ settings field more := by
  rw [settings, values_append, List.filterMap_append]
  rfl

/-- The options that set keys to values. -/
def setting (pairs : List (String × String)) : List (String × String) :=
  pairs.map fun v => ("--set", v.1 ++ "=" ++ v.2)

theorem values_setting_of_ne {flag : String} (h : "--set" ≠ flag)
    (pairs : List (String × String)) : values flag (setting pairs) = [] := by
  rw [values, setting, List.filter_map, List.filter_eq_nil_iff.2]
  · rfl
  · intro v _ hv
    exact h (of_decide_eq_true hv)

theorem values_setting (pairs : List (String × String)) :
    values "--set" (setting pairs) = pairs.map fun v => v.1 ++ "=" ++ v.2 := by
  rw [values, setting, List.filter_map, List.filter_eq_self.2, List.map_map]
  · rfl
  · intro v _
    rfl

theorem settings_setting (field : String) (pairs : List (String × String)) :
    settings field (setting pairs) =
      pairs.filterMap fun v => assigned? field (v.1 ++ "=" ++ v.2) := by
  rw [settings, values_setting, List.filterMap_map]
  rfl

/-- Overrides that are filled in set a field as often as they name it. -/
theorem length_settings_setting {lookup : Template.Lookup} {overrides : Overrides}
    {pairs : List (String × String)} (h : Overrides.Filled lookup overrides.entries pairs)
    (field : String) : (settings field (setting pairs)).length = overrides.countOf field := by
  have hkeys : overrides.countOf field =
      (pairs.map Prod.fst).countP fun key => fieldOf key = field := by
    rw [h.keys_eq, List.countP_map]
    rfl
  rw [hkeys, List.countP_map, settings_setting, List.length_filterMap_eq_countP]
  refine List.countP_congr fun v _ => ?_
  exact Bool.eq_iff_iff.1 (isSome_assigned? field v.1 v.2)

/-- The fields of a step: each is set once, and none has an `=` in it. -/
abbrev AreFields (fields : List String) : Prop :=
  fields.Nodup ∧ ∀ field ∈ fields, '=' ∉ field.toList

theorem settings_setting_of_own {own : List (String × String)}
    (hown : AreFields (own.map Prod.fst)) {f : String × String} (hf : f ∈ own) :
    settings f.1 (setting own) = [f.2] := by
  rw [settings_setting]
  induction own with
  | nil => cases hf
  | cons g rest ih =>
    obtain ⟨hnodup, hplain⟩ := hown
    have hfirst := assigned?_of_not_mem (hplain g.1 List.mem_cons_self) f.1 g.2
    obtain ⟨hnew, hrest⟩ := List.nodup_cons.1 hnodup
    have hothers := fun field hfield => hplain field (List.mem_cons_of_mem _ hfield)
    rcases List.mem_cons.1 hf with rfl | hf
    · have hnone : (rest.filterMap fun v => assigned? f.1 (v.1 ++ "=" ++ v.2)) = [] := by
        refine List.filterMap_eq_nil_iff.2 fun d hd => ?_
        have hne : d.1 ≠ f.1 := fun heq => hnew (heq ▸ List.mem_map_of_mem hd)
        have hd' := hothers d.1 (List.mem_map_of_mem hd)
        exact (assigned?_of_not_mem hd' f.1 d.2).trans (if_neg hne)
      rw [if_pos rfl] at hfirst
      rw [List.filterMap_cons, hfirst, hnone]
    · have hne : g.1 ≠ f.1 := fun heq => hnew (heq ▸ List.mem_map_of_mem hf)
      rw [if_neg hne] at hfirst
      rw [List.filterMap_cons, hfirst]
      exact ih ⟨hrest, hothers⟩ hf

end Options

/-! ## Vectors for the ML client -/

namespace Arguments

theorem options_append_setAll (pairs : List (String × String)) (rest : Arguments) :
    options (Overrides.setAll pairs ++ rest) = Options.setting pairs ++ options rest := by
  induction pairs with
  | nil => rfl
  | cons v pairs ih =>
    rw [Overrides.setAll, List.flatMap_cons, List.append_assoc]
    exact congrArg (("--set", v.1 ++ "=" ++ v.2) :: ·) ih

/-- A vector for the ML client: its start, the fields that the step sets, and the overrides. -/
theorem options_ml (type : String) (scope : Scope) (file : String)
    (own pairs : List (String × String)) :
    options (ml type scope file ++ Overrides.setAll own ++ Overrides.setAll pairs) =
      [("-t", type), ("-s", scope.subscription), ("-g", scope.resourceGroup),
        ("-w", scope.workspace), ("-f", file)] ++ Options.setting own ++ Options.setting pairs := by
  have hrest : options (Overrides.setAll own ++ Overrides.setAll pairs) =
      Options.setting own ++ Options.setting pairs := by
    have hpairs := options_append_setAll pairs []
    rw [List.append_nil] at hpairs
    rw [options_append_setAll, hpairs]
    exact congrArg (_ ++ ·) (List.append_nil _)
  rw [List.append_assoc, List.append_assoc, ← hrest]
  rfl

end Arguments

namespace Options

variable {type file : String} {scope : Scope} {own : List (String × String)}
  {overrides : Overrides} {lookup : Template.Lookup} {filled : Arguments}

theorem values_ml (h : overrides.arguments lookup = .ok filled) {flag : String}
    (hflag : "--set" ≠ flag) :
    values flag (Arguments.ml type scope file ++ Overrides.setAll own ++ filled).options =
      values flag [("-t", type), ("-s", scope.subscription), ("-g", scope.resourceGroup),
        ("-w", scope.workspace), ("-f", file)] := by
  obtain ⟨pairs, -, rfl⟩ := Overrides.exists_filled h
  rw [Arguments.options_ml, values_append, values_append, values_setting_of_ne hflag,
    values_setting_of_ne hflag, List.append_nil, List.append_nil]

/-- A step sets its own fields first, and else only overrides do. -/
theorem decides_ml (own : List (String × String)) (h : overrides.arguments lookup = .ok filled)
    (hown : AreFields (own.map Prod.fst)) {f : String × String} (hf : f ∈ own) :
    Decides overrides (Arguments.ml type scope file ++ Overrides.setAll own ++ filled).options
      f.1 f.2 := by
  obtain ⟨pairs, hpairs, rfl⟩ := Overrides.exists_filled h
  have hlater := length_settings_setting hpairs f.1
  have hsettings : settings f.1
      (Arguments.ml type scope file ++ Overrides.setAll own ++ Overrides.setAll pairs).options =
      f.2 :: settings f.1 (setting pairs) := by
    rw [Arguments.options_ml, settings_append, settings_append,
      settings_setting_of_own hown hf]
    rfl
  refine ⟨?first, ?count, ?alone⟩
  case first => rw [hsettings, List.head?_cons]
  case count => rw [hsettings, List.length_cons, hlater, Nat.add_comm]
  case alone =>
    have hnone : settings f.1 (setting pairs) = [] ↔ overrides.countOf f.1 = 0 := by
      rw [← hlater, List.length_eq_zero_iff]
    rw [hsettings, List.cons_eq_cons, hnone, Overrides.countOf, List.countP_eq_zero]
    simp only [true_and, decide_eq_true_eq]

/-- A vector for the ML client orders what it is made for, in the scope that it is made for. -/
theorem orders_ml (own : List (String × String)) (h : overrides.arguments lookup = .ok filled)
    (hown : AreFields (own.map Prod.fst)) :
    Orders type scope own overrides
      (Arguments.ml type scope file ++ Overrides.setAll own ++ filled).options where
  type := values_ml h (by decide)
  inScope := ⟨values_ml h (by decide), values_ml h (by decide), values_ml h (by decide)⟩
  decides _ hf := decides_ml own h hown hf

end Options

/-! ## The vectors of the steps -/

open Options (InScope Orders)

variable {overrides : Overrides} {lookup : Template.Lookup} (scope : Scope)

/-- The fields that the step of an environment sets itself. -/
def EnvironmentVersion.fields (name version : String) : List (String × String) :=
  [("name", name), ("version", version)]

/-- The fields that the step of a model sets itself.  The program chooses the version. -/
def ModelVersion.fields (name : String) : List (String × String) :=
  [("name", name)]

/-- The fields that the step of an endpoint sets itself. -/
def Endpoint.fields (name : String) : List (String × String) :=
  [("name", name)]

/-- The fields that the step of a deployment sets itself: which environment and which model it
binds, and to which endpoint. -/
def Deployment.fields (name endpoint environment model : String) : List (String × String) :=
  [("name", name), ("environment", environment), ("model", model), ("endpoint_name", endpoint)]

/-- The vector for a version of an environment. -/
theorem EnvironmentVersion.orders {p : Prepared}
    (h : overrides.arguments lookup = .ok p.overrides) (version : String) :
    Orders "environment" scope (fields p.name version) overrides
      (arguments scope p version).options := by
  have hown : Options.AreFields ["name", "version"] := by decide
  exact Options.orders_ml (fields p.name version) h hown

/-- The vector for a version of a model. -/
theorem ModelVersion.orders {p : Prepared} (h : overrides.arguments lookup = .ok p.overrides) :
    Orders "model" scope (fields p.name) overrides (arguments scope p).options := by
  have hown : Options.AreFields ["name"] := by decide
  exact Options.orders_ml (fields p.name) h hown

/-- The vector for an endpoint. -/
theorem Endpoint.orders {p : Prepared} (h : overrides.arguments lookup = .ok p.overrides) :
    Orders "online-endpoint" scope (fields p.name) overrides (arguments scope p).options := by
  have hown : Options.AreFields ["name"] := by decide
  exact Options.orders_ml (fields p.name) h hown

/-- The vector for a deployment. -/
theorem Deployment.orders {p : Input} (h : overrides.arguments lookup = .ok p.overrides)
    (environment model : VersionRef) :
    Orders "online-deployment" scope
      (fields p.name p.endpoint environment.assetId model.assetId) overrides
      (arguments scope p environment model).options := by
  have hown : Options.AreFields ["name", "environment", "model", "endpoint_name"] := by decide
  exact Options.orders_ml (fields p.name p.endpoint environment.assetId model.assetId) h hown

namespace Flow

variable {p : Prepared}

/-- The options of a vector for a flow before the overrides.  Only a new one is given its
directory. -/
def ownOptions (verb : Verb) (scope : Scope) (p : Prepared) : List (String × String) :=
  [("-n", p.name)]
    ++ (match verb with
      | .create => [("-f", p.definition)]
      | .update => [])
    ++ [("-s", scope.subscription), ("-w", scope.workspace), ("-g", scope.resourceGroup)]

theorem options_arguments (h : overrides.arguments lookup = .ok p.overrides) (verb : Verb) :
    ∃ pairs, Program.promptFlowClient.options (arguments verb scope p) =
      ownOptions verb scope p ++ Options.setting pairs := by
  obtain ⟨pairs, -, hpairs⟩ := Overrides.exists_filled h
  have hrest := Arguments.options_append_setAll pairs []
  rw [List.append_nil, ← hpairs] at hrest
  refine ⟨pairs, ?_⟩
  rw [← List.append_nil (Options.setting pairs)]
  cases verb with
  | create => exact congrArg (ownOptions .create scope p ++ ·) hrest
  | update => exact congrArg (ownOptions .update scope p ++ ·) hrest

/-- Overrides give a vector for a flow no other options than settings. -/
theorem values_arguments (h : overrides.arguments lookup = .ok p.overrides) (verb : Verb)
    {flag : String} (hflag : "--set" ≠ flag) :
    Options.values flag (Program.promptFlowClient.options (arguments verb scope p)) =
      Options.values flag (ownOptions verb scope p) := by
  obtain ⟨pairs, hpairs⟩ := options_arguments scope h verb
  rw [hpairs, Options.values_append, Options.values_setting_of_ne hflag, List.append_nil]

theorem inScope_arguments (h : overrides.arguments lookup = .ok p.overrides) (verb : Verb) :
    InScope scope (Program.promptFlowClient.options (arguments verb scope p)) := by
  refine ⟨?subscription, ?resourceGroup, ?workspace⟩
  case subscription => cases verb <;> exact values_arguments scope h _ (by decide)
  case resourceGroup => cases verb <;> exact values_arguments scope h _ (by decide)
  case workspace => cases verb <;> exact values_arguments scope h _ (by decide)

theorem inScope_showArguments (name : String) :
    InScope scope (Program.promptFlowClient.options (showArguments scope name)) :=
  ⟨rfl, rfl, rfl⟩

end Flow

end Provisioner
