import Provisioner.Proofs.Pipeline.Reopen

/-!
# Where the scope is given

A part of the scope can be given in three places: by a flag of the command line, by a variable of
the process environment, and in the store.  The first place that says anything is the one that
counts, and only then is it looked at whether it says something blank.  So a blank flag or a blank
variable hides what the places behind it say.

* `candidates` are the values that the three places give for a part.  `firstGiven?` is the first of
  them unless it is blank, and `firstFilled?` the first that is not blank.
* `first_cases` compares the two: they differ if the first value `Hides` a later one.
* `scopeFrom` makes a scope of three parts, and `scopeOf_eq` says that a session takes the first
  value that is given for each.
* `FindsScope` says that a session takes the first value that is not blank.  By
  `openSession_finds_iff` it does, unless something hides a part and nothing else is missing;
  `not_forall_finds` is a blank variable before a file.
-/

namespace Provisioner.Cli

/-! ## The values of a part -/

/-- The first value, unless it is blank. -/
def firstGiven? (values : List String) : Option String :=
  values.head?.filter fun value => !Text.allBlank value

/-- The first value that is not blank. -/
def firstFilled? (values : List String) : Option String :=
  values.find? fun value => !Text.allBlank value

/-- The first value is blank, and a later one is not. -/
def Hides (values : List String) : Prop :=
  ∃ blank rest, values = blank :: rest ∧ Text.allBlank blank = true ∧
    ∃ value ∈ rest, Text.allBlank value = false

theorem hides_cons {value : String} {rest : List String} :
    Hides (value :: rest) ↔
      Text.allBlank value = true ∧ ∃ later ∈ rest, Text.allBlank later = false := by
  refine ⟨?_, fun h => ⟨value, rest, rfl, h⟩⟩
  rintro ⟨blank, rest', heq, h⟩
  obtain ⟨rfl, rfl⟩ := List.cons.inj heq
  exact h

instance decidableHides : (values : List String) → Decidable (Hides values)
  | [] => isFalse nofun
  | _ :: _ => decidable_of_iff _ hides_cons.symm

/-- Either the first value that is given is also the first that is not blank, or it hides that
one. -/
theorem first_cases (values : List String) :
    (firstGiven? values = firstFilled? values ∧ ¬ Hides values) ∨
      (firstGiven? values = none ∧ (firstFilled? values).isSome = true ∧ Hides values) := by
  cases values with
  | nil => exact .inl ⟨rfl, nofun⟩
  | cons value rest =>
    rw [hides_cons]
    cases hblank : Text.allBlank value with
    | false =>
      refine .inl ⟨?_, fun h => Bool.false_ne_true h.1⟩
      simp [firstGiven?, firstFilled?, hblank]
    | true =>
      have hgiven : firstGiven? (value :: rest) = none := by simp [firstGiven?, hblank]
      have hfilled : firstFilled? (value :: rest) = firstFilled? rest := by
        simp [firstFilled?, hblank]
      rw [hgiven, hfilled]
      cases hrest : firstFilled? rest with
      | none =>
        refine .inl ⟨rfl, fun ⟨_, later, hlater, hnot⟩ => ?_⟩
        have hall := List.find?_eq_none.1 hrest later hlater
        rw [hnot] at hall
        exact hall rfl
      | some later =>
        have hnot := List.find?_some hrest
        exact .inr ⟨rfl, rfl, rfl, later, List.mem_of_find?_eq_some hrest,
          Bool.not_eq_true' _ ▸ hnot⟩

/-! ## The three places -/

/-- The flags that give the parts of a scope. -/
def Flag.ofScope : List Flag := [.subscription, .resourceGroup, .workspace]

/-- The part of a scope that a flag gives. -/
def Flag.part? : Flag → Scope → Option String
  | .subscription, scope => some scope.subscription
  | .resourceGroup, scope => some scope.resourceGroup
  | .workspace, scope => some scope.workspace
  | .environment, _ => none
  | .only, _ => none

/-- What a command line gives for a flag; the innermost value counts. -/
def flagValue? (words : List String) (f : Flag) : Option String := do
  let p ← (words.foldlM Progress.step Progress.start).toOption
  let g ← (p.given ++ p.outer).find? (fun g => g.1 == f)
  return g.2

/-- What is given for a part, by the flag, by the variable and by the store in turn. -/
def candidates (environment : KeyMap String) (words : List String) (store : Store) (f : Flag) :
    List String :=
  [flagValue? words f, environment.get? f.variableName, store.get? f.variableName].filterMap id

/-- A part of a scope, which is missed if it is not there. -/
def partFrom (value? : Flag → Option String) (f : Flag) : Except Failure String :=
  match value? f with
  | some value => .ok value
  | none => .error (.missing f)

/-- The scope of three parts. -/
def scopeFrom (value? : Flag → Option String) : Except Failure Scope := do
  let subscription ← partFrom value? .subscription
  let resourceGroup ← partFrom value? .resourceGroup
  let workspace ← partFrom value? .workspace
  return ⟨subscription, resourceGroup, workspace⟩

theorem part?_ne_none {f : Flag} (hf : f ∈ Flag.ofScope) (scope : Scope) :
    f.part? scope ≠ none := by
  cases f with
  | subscription | resourceGroup | workspace => exact Option.some_ne_none _
  | environment | only => exact absurd hf (by decide)

/-- A scope has all of its parts, or the first part that is not there is missed. -/
theorem scopeFrom_cases (value? : Flag → Option String) :
    (∃ scope, scopeFrom value? = .ok scope ∧ ∀ f ∈ Flag.ofScope, value? f = f.part? scope) ∨
      ∃ f ∈ Flag.ofScope, scopeFrom value? = .error (.missing f) ∧ value? f = none := by
  unfold scopeFrom partFrom
  cases hsubscription : value? .subscription with
  | none => exact .inr ⟨.subscription, by decide, rfl, hsubscription⟩
  | some subscription =>
    cases hgroup : value? .resourceGroup with
    | none => exact .inr ⟨.resourceGroup, by decide, rfl, hgroup⟩
    | some group =>
      cases hworkspace : value? .workspace with
      | none => exact .inr ⟨.workspace, by decide, rfl, hworkspace⟩
      | some workspace =>
        exact .inl ⟨⟨subscription, group, workspace⟩, rfl, List.forall_mem_cons.2 ⟨hsubscription,
          List.forall_mem_cons.2 ⟨hgroup, List.forall_mem_singleton.2 hworkspace⟩⟩⟩

section

variable {environment : KeyMap String} {words : List String} {i : Invocation} {store : Store}

theorem scopePart_eq {given? : Option String} {f : Flag}
    (h : given? = (flagValue? words f).or (environment.get? f.variableName)) :
    scopePart store given? f =
      partFrom (fun f => firstGiven? (candidates environment words store f)) f := by
  have hfirst : given?.or (store.get? f.variableName) =
      (candidates environment words store f).head? := by
    rw [h, candidates]
    cases flagValue? words f <;> cases environment.get? f.variableName <;>
      cases store.get? f.variableName <;> rfl
  rw [scopePart, hfirst]
  rfl

theorem value?_eq {p : Progress} (hp : words.foldlM Progress.step Progress.start = .ok p)
    (f : Flag) :
    p.value? environment f = (flagValue? words f).or (environment.get? f.variableName) := by
  unfold Progress.value? flagValue?
  rw [hp]
  show _ = Option.or (((p.given ++ p.outer).find? (fun g => g.1 == f)).bind fun g => some g.2) _
  cases (p.given ++ p.outer).find? (fun g => g.1 == f) <;> rfl

/-- A session takes the first value that is given for each part. -/
theorem scopeOf_eq (hparse : Invocation.parse environment words = .ok i) (store : Store) :
    scopeOf i.options store =
      scopeFrom fun f => firstGiven? (candidates environment words store f) := by
  obtain ⟨p, hp, hfinish⟩ := exists_of_bind_eq_ok hparse
  have hoptions : i.options = p.options environment := by
    unfold Progress.finish at hfinish
    split at hfinish
    · cases hfinish
    · split at hfinish
      · obtain rfl := Except.ok.inj hfinish
        rfl
      · cases hfinish
  have hpart (f : Flag) : scopePart store (p.value? environment f) f =
      partFrom (fun f => firstGiven? (candidates environment words store f)) f :=
    scopePart_eq (value?_eq hp f)
  rw [hoptions, scopeFrom, ← hpart, ← hpart, ← hpart]
  rfl

end

/-! ## The scope of a session -/

/-- Each part of the scope is the first value for it that is not blank, and the scope is not found
exactly if there is no such value for some part. -/
structure FindsScope (values : Flag → List String) (answer : Except Failure (Store × Scope)) :
    Prop where
  found : ∀ store scope, answer = .ok (store, scope) →
    ∀ f ∈ Flag.ofScope, firstFilled? (values f) = f.part? scope
  missing_iff : (∃ f, answer = .error (.missing f)) ↔
    ∃ f ∈ Flag.ofScope, firstFilled? (values f) = none

/-- The first values find the scope unless one of them hides another, but then also if there is no
value for some part. -/
theorem findsScope_iff (values : Flag → List String) (store : Store) :
    FindsScope values ((scopeFrom fun f => firstGiven? (values f)).map (Prod.mk store)) ↔
      (∀ f ∈ Flag.ofScope, ¬ Hides (values f)) ∨
        ∃ f ∈ Flag.ofScope, firstFilled? (values f) = none := by
  rcases scopeFrom_cases fun f => firstGiven? (values f) with
    ⟨scope, hscope, hparts⟩ | ⟨missed, hmissed, hscope, hnone⟩
  · -- The scope is there, so no value is hidden, and each part is the first that is not blank.
    have hsame : ∀ f ∈ Flag.ofScope,
        firstGiven? (values f) = firstFilled? (values f) ∧ ¬ Hides (values f) := by
      intro f hf
      refine (first_cases (values f)).resolve_right fun ⟨hnone, _⟩ => ?_
      exact part?_ne_none hf scope ((hparts f hf).symm.trans hnone)
    rw [hscope]
    refine iff_of_true ⟨?_, ?_⟩ (.inl fun f hf => (hsame f hf).2)
    · intro store' scope' hanswer f hf
      obtain ⟨-, rfl⟩ := Prod.mk.inj (Except.ok.inj hanswer)
      exact (hsame f hf).1.symm.trans (hparts f hf)
    · refine iff_of_false (fun ⟨_, hanswer⟩ => nomatch hanswer) fun ⟨f, hf, hnone⟩ => ?_
      have hgiven : firstGiven? (values f) = none := (hsame f hf).1.trans hnone
      exact part?_ne_none hf scope ((hparts f hf).symm.trans hgiven)
  · -- A part is missed: that is right if any part has no value at all.
    rw [hscope]
    constructor
    · intro hfinds
      exact .inr (hfinds.missing_iff.1 ⟨missed, rfl⟩)
    · intro h
      refine ⟨nofun, iff_of_true ⟨missed, rfl⟩ ?_⟩
      rcases h with hnot | hnone'
      · refine ⟨missed, hmissed, ?_⟩
        have hsame := (first_cases (values missed)).resolve_right fun ⟨_, _, hhides⟩ =>
          hnot missed hmissed hhides
        exact hsame.1.symm.trans hnone
      · exact hnone'

variable {δ : Type} [Disk δ]

theorem openSession_eq {st : Setting} {options : Options} {root : String} {d : δ}
    {file : Store.DotenvFile}
    (hfile : Store.DotenvFile.openIn st.environment root options.environment d = .ok file) :
    openSession st options root d =
      (scopeOf options (.dotenv file)).map (Prod.mk (.dotenv file)) := by
  rw [openSession, bind_of_ok (mapError_of_ok hfile _)]
  cases scopeOf options (.dotenv file) <;> rfl

/-- A session that opens on its file takes the first value that is given for each part, and misses
the first part for which that is blank or not there.  So it finds the scope exactly if no part has a
blank value before one that is not, or some part has none but blank values. -/
theorem openSession_finds_iff {st : Setting} {words : List String} {i : Invocation} {root : String}
    {d : δ} {file : Store.DotenvFile}
    (hparse : Invocation.parse st.environment words = .ok i)
    (hfile : Store.DotenvFile.openIn st.environment root i.options.environment d = .ok file) :
    let values := candidates st.environment words (.dotenv file)
    openSession st i.options root d =
        (scopeFrom fun f => firstGiven? (values f)).map (Prod.mk (.dotenv file)) ∧
      (FindsScope values (openSession st i.options root d) ↔
        (∀ f ∈ Flag.ofScope, ¬ Hides (values f)) ∨
          ∃ f ∈ Flag.ofScope, firstFilled? (values f) = none) := by
  intro values
  have hanswer : openSession st i.options root d =
      (scopeFrom fun f => firstGiven? (values f)).map (Prod.mk (.dotenv file)) := by
    rw [openSession_eq hfile, scopeOf_eq hparse]
  refine ⟨hanswer, ?_⟩
  rw [hanswer]
  exact findsScope_iff values (.dotenv file)

/-! ## Scopes from three places -/

/-- A disk with an environment file for the subscription, and for the resource group. -/
def scopeTree : FileTree :=
  ⟨[([".fleetml"], .directory), ([".fleetml", "default"], .directory),
    ([".fleetml", "default", ".env"], .file (.text
      "AZURE_SUBSCRIPTION_ID=\"sub\"\nAZURE_RESOURCE_GROUP=\"other\"\n") false)], []⟩

/-- The store of that file. -/
def scopeFile (environment : KeyMap String) : Store.DotenvFile :=
  ⟨".fleetml/default/.env",
    KeyMap.ofList [("AZURE_SUBSCRIPTION_ID", "sub"), ("AZURE_RESOURCE_GROUP", "other")],
    environment⟩

/-- The workspace is given by a flag, the resource group by a variable and the subscription by the
file. -/
theorem openSession_finds_iff_threePlaces :
    let environment := KeyMap.ofList [("AZURE_RESOURCE_GROUP", "rg"), ("AZUREML_WORKSPACE_NAME", "")]
    let words := ["workspace", "check", "--workspace", "ws"]
    ∃ i, Invocation.parse environment words = .ok i ∧
      openSession ⟨environment, false, fun _ => 7, default⟩ i.options "" scopeTree =
        .ok (.dotenv (scopeFile environment), ⟨"sub", "rg", "ws"⟩) ∧
      FindsScope (candidates environment words (.dotenv (scopeFile environment)))
        (openSession ⟨environment, false, fun _ => 7, default⟩ i.options "" scopeTree) := by
  intro environment words
  let st : Setting := ⟨environment, false, fun _ => 7, default⟩
  have hparse : Invocation.parse st.environment words =
      .ok ⟨⟨none, some "rg", some "ws", "default"⟩, .checkWorkspace⟩ := by decide +kernel
  have hfile : Store.DotenvFile.openIn environment "" "default" scopeTree =
      .ok (scopeFile environment) := by decide +kernel
  obtain ⟨hanswer, hfinds⟩ := openSession_finds_iff hparse hfile
  refine ⟨_, hparse, hanswer.trans (by decide +kernel), hfinds.2 (.inl ?_)⟩
  decide +kernel

/-- A variable that is set to nothing hides what the file says. -/
theorem not_forall_finds :
    ¬ ∀ (st : Setting) (words : List String) (i : Invocation) (root : String) (d : FileTree)
      (file : Store.DotenvFile), Invocation.parse st.environment words = .ok i →
      Store.DotenvFile.openIn st.environment root i.options.environment d = .ok file →
      FindsScope (candidates st.environment words (.dotenv file))
        (openSession st i.options root d) := by
  intro hall
  let environment := KeyMap.ofList [("AZURE_SUBSCRIPTION_ID", ""), ("AZUREML_WORKSPACE_NAME", "ws")]
  let words := ["workspace", "check"]
  have hparse : Invocation.parse environment words =
      .ok ⟨⟨some "", none, some "ws", "default"⟩, .checkWorkspace⟩ := by decide +kernel
  have hfile : Store.DotenvFile.openIn environment "" "default" scopeTree =
      .ok (scopeFile environment) := by decide +kernel
  have hmissing : openSession ⟨environment, false, fun _ => 7, default⟩
      ⟨some "", none, some "ws", "default"⟩ "" scopeTree = .error (.missing .subscription) := by
    decide +kernel
  have hfinds := hall ⟨environment, false, fun _ => 7, default⟩ words _ "" scopeTree _ hparse hfile
  have hgiven : ∀ f ∈ Flag.ofScope,
      firstFilled? (candidates environment words (.dotenv (scopeFile environment)) f) ≠ none := by
    decide +kernel
  obtain ⟨f, hf, hnone⟩ := hfinds.missing_iff.1 ⟨.subscription, hmissing⟩
  exact hgiven f hf hnone

end Provisioner.Cli
