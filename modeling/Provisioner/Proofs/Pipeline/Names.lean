import Mathlib.Data.List.Pairwise
import Provisioner.Proofs.Pipeline.Publication

/-!
# The names that a deployment binds

The names of the environment and of the model are filled in twice in a run: when they are made,
and when the deployment looks for their latest versions.  The steps in between change the store,
but only under the keys that names are published under.

* `StepRun.makes_environment`, `StepRun.makes_model` and `StepRun.reads_containers` are what the
  three steps do.
* `Leads.get?_before` is what the steps in between leave alone, and `Leads.completed_of_before`
  says that they were completed.
* `deployment_reads_published`: the two names are the same.
-/

namespace Provisioner

variable {σ κ δ α β : Type}

/-! ## Calls of the three courses -/

namespace Course

variable {client : κ} {scope : Scope} {calls : List (Call κ)} {x y z t : Exchange κ}
  {stage : Stage κ}

/-- After three exchanges nothing more is asked for about an environment or a model. -/
theorem environment_ne_call (p : Prepared) :
    environment client scope p [x, y, z] ≠ .call stage := by
  intro h
  unfold environment at h
  split at h <;> simp_all

theorem model_ne_call (p : Prepared) : model client scope p [x, y, z] ≠ .call stage := by
  intro h
  unfold model at h
  split at h <;> simp_all

theorem deployment_ne_call (p : Deployment.Input) :
    deployment client scope p [x, y, z, t] ≠ .call stage := by
  intro h
  unfold deployment at h
  split at h <;> simp_all

/-- An environment version is made by one run. -/
theorem Calls.environment {p : Prepared} {record : EnvironmentVersion}
    (h : (Course.environment client scope p).Calls calls (some record)) :
    ∃ version, programsRun calls =
      [(.mlClient, EnvironmentVersion.arguments scope p version)] := by
  obtain ⟨container, _, rfl, -, h⟩ := h.of_stage rfl
  obtain ⟨_, _, rfl, -, h⟩ := h.of_stage rfl
  obtain ⟨_, _, rfl, -, h⟩ := h.of_stage rfl
  obtain rfl := h.eq_nil fun _ => environment_ne_call p
  exact ⟨container.proposed, rfl⟩

/-- A model version is made by one run. -/
theorem Calls.model {p : Prepared} {record : ModelVersion}
    (h : (Course.model client scope p).Calls calls (some record)) :
    programsRun calls = [(.mlClient, ModelVersion.arguments scope p)] := by
  obtain ⟨_, _, rfl, -, h⟩ := h.of_stage rfl
  obtain ⟨_, _, rfl, -, h⟩ := h.of_stage rfl
  obtain ⟨_, _, rfl, -, h⟩ := h.of_stage rfl
  obtain rfl := h.eq_nil fun _ => model_ne_call p
  rfl

/-- A deployment reads the container of its environment and then that of its model, runs its
program, and reads itself back.  Without a result it ends somewhere before that, or right after. -/
theorem Calls.deployment_cases {p : Deployment.Input} {record? : Option Deployment}
    (h : (Course.deployment client scope p).Calls calls record?) :
    (calls <+: [.read client scope (.container .environment p.environment),
        .read client scope (.container .model p.model)] ∧ record? = none) ∨
      ∃ environment model,
        (calls = [.read client scope (.container .environment p.environment),
            .read client scope (.container .model p.model),
            .run .mlClient (Deployment.arguments scope p environment model)] ∧ record? = none) ∨
          calls = [.read client scope (.container .environment p.environment),
            .read client scope (.container .model p.model),
            .run .mlClient (Deployment.arguments scope p environment model),
            .read client scope (.deployment p.endpoint p.name)] := by
  rcases h.stage_cases rfl with ⟨rfl, hnone⟩ | ⟨rfl, hnone⟩ | ⟨e, _, rfl, -, h⟩
  · exact .inl ⟨List.nil_prefix, hnone⟩
  · exact .inl ⟨⟨_, rfl⟩, hnone⟩
  rcases h.stage_cases rfl with ⟨rfl, hnone⟩ | ⟨rfl, hnone⟩ | ⟨m, _, rfl, -, h⟩
  · exact .inl ⟨⟨_, rfl⟩, hnone⟩
  · exact .inl ⟨List.prefix_rfl, hnone⟩
  -- Both containers have been read, and the program is next.
  rcases h.stage_cases rfl with ⟨rfl, hnone⟩ | ⟨rfl, hnone⟩ | ⟨y, _, rfl, -, h⟩
  · exact .inl ⟨List.prefix_rfl, hnone⟩
  · exact .inr ⟨_, _, .inl ⟨rfl, hnone⟩⟩
  refine .inr ⟨e.latest p.environment, m.latest p.model, ?_⟩
  rcases h.stage_cases rfl with ⟨rfl, hnone⟩ | ⟨rfl, -⟩ | ⟨z, _, rfl, -, h⟩
  · exact .inl ⟨rfl, hnone⟩
  · exact .inr rfl
  · obtain rfl := h.eq_nil fun _ => deployment_ne_call p
    exact .inr rfl

/-- A deployment runs nothing before it has read both containers. -/
theorem Calls.deployment {p : Deployment.Input} {record? : Option Deployment}
    (h : (Course.deployment client scope p).Calls calls record?) :
    containersRead calls <+: [(.environment, p.environment), (.model, p.model)] ∧
      (programsRun calls ≠ [] →
        containersRead calls = [(.environment, p.environment), (.model, p.model)]) := by
  rcases h.deployment_cases with ⟨hfront, -⟩ | ⟨_, _, ⟨rfl, -⟩ | rfl⟩
  · exact ⟨hfront.filterMap _, fun hrun => absurd (List.prefix_nil.1 (hfront.filterMap _)) hrun⟩
  · exact ⟨List.prefix_rfl, fun _ => rfl⟩
  · exact ⟨List.prefix_rfl, fun _ => rfl⟩

end Course

namespace Resources

/-- A deployment binds the environment and the model of its service. -/
theorem components_of_deploymentSpec {r : Resources} {name : String} {d : DeploymentSpec}
    (h : r.deploymentSpec name = .ok (some d)) :
    r.environment? = some d.environment ∧ r.model? = some d.model := by
  unfold deploymentSpec at h
  split at h
  · cases h
  · cases h
  · cases h
  · next henvironment hmodel =>
    cases h
    exact ⟨henvironment, hmodel⟩

end Resources

namespace Cli

open Store

/-! ## The three steps -/

/-- A step that was completed and has made something by its name: it ran one program, which was
given the name before any override, and it published the name. -/
structure StepRun.Makes (x : StepRun σ κ δ) (name : String) : Prop where
  completed : x.completed = true
  given : ∃ scope definition rest, programsRun x.calls =
    [(.mlClient, (Arguments.ml x.kind.name scope definition).set "name" name ++ rest)]
  published : ∀ key ∈ x.kind.publishKey?, x.after.store.get? key = some name

section

variable [Disk δ] {kind : Kind} {name : String} {store store' : Store} {disk disk' : δ}

theorem get?_publishKey (h : store.setAll (kind.publication name) disk = (.ok (), store', disk')) :
    ∀ key ∈ kind.publishKey?, store'.get? key = some name := by
  intro key hkey
  have hpairs : kind.publication name = [(key, name)] := by
    rw [Kind.publication, show kind.publishKey? = some key from hkey]
    rfl
  rw [get?_of_setAll h, hpairs, List.reverse_singleton, List.lookup_cons_self]
  rfl

/-- Keys that no step publishes are looked up as before. -/
theorem get?_of_notMem_publishKeys {pairs : List (String × String)}
    (h : store.setAll pairs disk = (.ok (), store', disk'))
    (hpairs : ∀ p ∈ pairs, p.1 ∈ Kind.publishKeys) {key : String}
    (hkey : key ∉ Kind.publishKeys) : store'.get? key = store.get? key := by
  rw [get?_of_setAll h, KeyMap.lookup_reverse_eq_none (notMem_of_publishKeys hpairs hkey),
    Option.none_or]

end

section

variable [Disk δ] {w : World σ κ} {st : Setting} {scope : Scope} {name directory : String}
  {r : Resources} {x : StepRun σ κ δ}

/-- A step opens its client, and makes the calls of a course that its operation follows. -/
theorem StepRun.calls_of_follows {kind : Kind} {named : String} {course : κ → Course κ α}
    {publication? : Option (List (String × String))} {answer : Except ProvisionError α}
    (h : Follows w kind named scope course publication? x.before (answer, x.after)) :
    ∃ opening calls, x.calls = opening ++ calls ∧
      opening <+: [.connect scope.subscription, .startTools] ∧
      Follows.Made course calls answer.toOption := by
  obtain ⟨opening, calls, hcalls, hopening, hmade⟩ := h.calls
  exact ⟨opening, calls, StepRun.calls_eq (hcalls.trans (List.append_assoc _ _ _)), hopening, hmade⟩

/-- A completed step makes something by its name if its operation, with good inputs, follows a
course that runs one program and publishes the name. -/
theorem StepRun.makes_of_onceFilled {filled : Except ProvisionError Prepared}
    {course : Prepared → κ → Course κ α} {a : α} (hnone : x.failure? = none)
    (h : OnceFilled filled x.before (fun p => Follows w x.kind p.name scope (course p)
      (some (x.kind.publication p.name)) x.before) (.ok a, x.after))
    (hgiven : ∀ p client calls, (course p client).Calls calls (some a) →
      ∃ rest, programsRun calls = [(.mlClient,
        (Arguments.ml x.kind.name scope p.definition).set "name" p.name ++ rest)]) :
    ∃ p, filled = .ok p ∧ x.Makes p.name := by
  obtain ⟨p, hp, hfollows⟩ := h.exists_of_ok
  obtain ⟨opening, calls, hcalls, hopening, hmade⟩ := StepRun.calls_of_follows hfollows
  cases hmade with
  | opened hmade =>
  obtain ⟨rest, hruns⟩ := hgiven p _ calls hmade
  refine ⟨p, hp, ?_, ⟨scope, p.definition, rest, ?_⟩, ?_⟩
  · rw [StepRun.completed, hnone]
    rfl
  · rw [hcalls, programsRun_append_of_opening hopening, hruns]
  · exact get?_publishKey (hfollows.stores.ok a rfl)

theorem StepRun.makes_environment
    (h : Attempt w st scope name directory r x.made? x.before x.kind x.failure? x.after)
    (hkind : x.kind = .environment) (hnone : x.failure? = none) :
    ∃ c n, r.environment? = some c ∧ c.name.resolve x.before.store.lookup = .ok n ∧
      x.Makes n := by
  obtain ⟨kind, made?, before, after, failure?⟩ := x
  dsimp only at h hkind hnone
  subst hkind
  cases h with
  | @environment c answer _ hc hop =>
  cases answer with
  | error e => cases hnone
  | ok record =>
  have hfollows := follows_createEnvironmentVersion w scope before directory c
  rw [hop] at hfollows
  obtain ⟨p, hp, hmakes⟩ := StepRun.makes_of_onceFilled
    (x := ⟨.environment, made?, before, after, none⟩) rfl hfollows fun p client calls hmade => by
      obtain ⟨version, hruns⟩ := hmade.environment
      rw [hruns, EnvironmentVersion.arguments, Arguments.set, List.append_assoc]
      exact ⟨_, rfl⟩
  exact ⟨c, p.name, hc, Prepared.resolve_of_definitionFirst hp, hmakes⟩

theorem StepRun.makes_model
    (h : Attempt w st scope name directory r x.made? x.before x.kind x.failure? x.after)
    (hkind : x.kind = .model) (hnone : x.failure? = none) :
    ∃ c n, r.model? = some c ∧ c.name.resolve x.before.store.lookup = .ok n ∧ x.Makes n := by
  obtain ⟨kind, made?, before, after, failure?⟩ := x
  dsimp only at h hkind hnone
  subst hkind
  cases h with
  | @model c answer _ hc hop =>
  cases answer with
  | error e => cases hnone
  | ok record =>
  have hfollows := follows_createModelVersion w scope before directory c
  rw [hop] at hfollows
  obtain ⟨p, hp, hmakes⟩ := StepRun.makes_of_onceFilled
    (x := ⟨.model, made?, before, after, none⟩) rfl hfollows
    fun p client calls hmade => ⟨_, hmade.model⟩
  exact ⟨c, p.name, hc, Prepared.resolve_of_definitionFirst hp, hmakes⟩

/-- A deployment that calls anything has good inputs, and follows its course with the endpoint
that it is told, or else with the one in the store. -/
theorem StepRun.follows_deployment
    (h : Attempt w st scope name directory r x.made? x.before x.kind x.failure? x.after)
    (hkind : x.kind = .deployment) :
    x.calls = [] ∨ ∃ d p answer, r.deploymentSpec name = .ok (some d) ∧
      x.made?.or (x.before.store.get? Failure.endpointKey) = some p.endpoint ∧
      Deployment.prepare x.before.store x.before.disk directory p.endpoint d
        (st.clock .deployment) = .ok p ∧
      x.failure? = failureOf? answer ∧
      Follows w .deployment p.name scope (Course.deployment · scope p)
        (some (Deployment.publication p)) x.before (answer, x.after) := by
  obtain ⟨kind, made?, before, after, failure?⟩ := x
  dsimp only at h hkind
  subst hkind
  have hidle : ∀ x : StepRun σ κ δ, x.after = x.before → x.calls = [] := by
    intro x hx
    refine StepRun.calls_eq ?_
    rw [hx, List.append_nil]
  cases h with
  | noEndpoint => exact .inl (hidle _ rfl)
  | @deployment d endpoint answer _ hspec hendpoint hop =>
    have honce := follows_deploy w scope before directory endpoint d (st.clock .deployment)
    rw [hop] at honce
    rcases honce.refused_or_good with ⟨e, -, hr⟩ | ⟨p, hp, hfollows⟩
    · exact .inl (hidle _ (Prod.mk.inj hr).2)
    obtain ⟨-, rfl, -⟩ := Deployment.resolve_of_prepare hp
    exact .inr ⟨d, p, answer, hspec, hendpoint, hp, rfl, hfollows⟩

/-- A deployment reads the containers of the names that its environment and its model have in the
store that it finds. -/
theorem StepRun.reads_containers
    (h : Attempt w st scope name directory r x.made? x.before x.kind x.failure? x.after)
    (hkind : x.kind = .deployment) {environment model : Component}
    {environmentName modelName : String} (henvironment : r.environment? = some environment)
    (hmodel : r.model? = some model)
    (hfirst : environment.name.resolve x.before.store.lookup = .ok environmentName)
    (hsecond : model.name.resolve x.before.store.lookup = .ok modelName) :
    containersRead x.calls <+: [(.environment, environmentName), (.model, modelName)] ∧
      (programsRun x.calls ≠ [] →
        containersRead x.calls = [(.environment, environmentName), (.model, modelName)]) := by
  rcases StepRun.follows_deployment h hkind with hidle | hgood
  · rw [hidle]
    exact ⟨List.nil_prefix, fun hrun => absurd rfl hrun⟩
  obtain ⟨d, p, answer, hspec, -, hp, -, hfollows⟩ := hgood
  obtain ⟨hspec₁, hspec₂⟩ := Resources.components_of_deploymentSpec hspec
  obtain rfl := Option.some.inj (henvironment.symm.trans hspec₁)
  obtain rfl := Option.some.inj (hmodel.symm.trans hspec₂)
  obtain ⟨-, -, hname₁, hname₂⟩ := Deployment.resolve_of_prepare hp
  obtain rfl := Except.ok.inj (hfirst.symm.trans hname₁)
  obtain rfl := Except.ok.inj (hsecond.symm.trans hname₂)
  obtain ⟨opening, calls, hcalls, hopening, hmade⟩ := StepRun.calls_of_follows hfollows
  rw [hcalls, containersRead_append_of_opening hopening, programsRun_append_of_opening hopening]
  generalize answer.toOption = record? at hmade
  cases hmade with
  | unopened => exact ⟨List.nil_prefix, fun hrun => absurd rfl hrun⟩
  | opened hmade => exact hmade.deployment

end

/-! ## The steps in between -/

/-- Two elements of a list come in one order or in the other. -/
theorem pair_sublist_or {l : List β} {a b : β} (ha : a ∈ l) (hb : b ∈ l) (hne : a ≠ b) :
    [a, b].Sublist l ∨ [b, a].Sublist l := by
  have hsymm : Std.Symm fun a b : β => [a, b].Sublist l ∨ [b, a].Sublist l :=
    ⟨fun _ _ => Or.symm⟩
  have hpairs : l.Pairwise fun a b => [a, b].Sublist l ∨ [b, a].Sublist l :=
    List.pairwise_iff_forall_sublist.2 .inl
  exact hpairs.forall ha hb hne

section

variable [Disk δ] {w : World σ κ} {st : Setting} {scope : Scope} {name directory : String}
  {r : Resources} {s s' : Session σ κ δ} {steps : List (StepRun σ κ δ)}

theorem Leads.attempt (h : Leads w st scope name directory r s steps s') :
    ∀ x ∈ steps,
      Attempt w st scope name directory r x.made? x.before x.kind x.failure? x.after := by
  induction h with
  | nil => exact fun _ hx => nomatch hx
  | failed _ hattempt =>
    intro x hx
    rw [List.mem_singleton.1 hx]
    exact hattempt
  | next _ hattempt _ ih =>
    intro x hx
    rcases List.mem_cons.1 hx with rfl | hx
    · exact hattempt
    · exact ih x hx

/-- A step finds the values that were there at first, under all keys but those that names are
published under. -/
theorem Leads.get?_before (h : Leads w st scope name directory r s steps s') :
    ∀ x ∈ steps, ∀ key, key ∉ Kind.publishKeys →
      x.before.store.get? key = s.store.get? key := by
  induction h with
  | nil => exact fun _ hx => nomatch hx
  | failed =>
    intro x hx key _
    rw [List.mem_singleton.1 hx]
  | @next y rest s' hnone hattempt _ ih =>
    intro x hx key hkey
    rcases List.mem_cons.1 hx with rfl | hx
    · rfl
    obtain ⟨pairs, hpublication, hset⟩ := hattempt.leaves.1 hnone
    rw [ih x hx key hkey]
    exact get?_of_notMem_publishKeys hset hpublication.mem_publishKeys hkey

/-- A step that has others after it was completed. -/
theorem Leads.pairwise_completed (h : Leads w st scope name directory r s steps s') :
    steps.Pairwise fun x _ => x.failure? = none := by
  induction h with
  | nil => exact .nil
  | failed => exact List.pairwise_singleton _ _
  | next hnone _ _ ih => exact .cons (fun _ _ => hnone) ih

/-- Of two kinds the one that comes first in the pipeline was completed, if both were begun. -/
theorem Leads.completed_of_before (h : Leads w st scope name directory r s steps s')
    (hkinds : (steps.map StepRun.kind).Sublist Kind.provisionable) {x y : StepRun σ κ δ}
    (hx : x ∈ steps) (hy : y ∈ steps) (hne : x.kind ≠ y.kind)
    (horder : ¬ [y.kind, x.kind].Sublist Kind.provisionable) : x.failure? = none := by
  have hdifferent : x ≠ y := fun heq => hne (congrArg StepRun.kind heq)
  rcases pair_sublist_or hx hy hdifferent with hpair | hpair
  · exact List.pairwise_iff_forall_sublist.1 h.pairwise_completed hpair
  · exact absurd ((hpair.map StepRun.kind).trans hkinds) horder

/-- The containers that a deployment reads are those of the names that were made before it. -/
theorem Leads.reads_published (h : Leads w st scope name directory r s steps s')
    (hkinds : (steps.map StepRun.kind).Sublist Kind.provisionable)
    (henvironment : ∀ c ∈ r.environment?, ∀ variableName ∈ c.name.references,
      variableName ∉ Kind.publishKeys)
    (hmodel : ∀ c ∈ r.model?, ∀ variableName ∈ c.name.references,
      variableName ∉ Kind.publishKeys)
    {environment model deployment : StepRun σ κ δ}
    (h₁ : environment ∈ steps) (hkind₁ : environment.kind = .environment)
    (h₂ : model ∈ steps) (hkind₂ : model.kind = .model)
    (h₃ : deployment ∈ steps) (hkind₃ : deployment.kind = .deployment) :
    ∃ environmentName modelName, environment.Makes environmentName ∧ model.Makes modelName ∧
      containersRead deployment.calls <+:
        [(.environment, environmentName), (.model, modelName)] ∧
      (programsRun deployment.calls ≠ [] → containersRead deployment.calls =
        [(.environment, environmentName), (.model, modelName)]) := by
  have hcompleted₁ : environment.failure? = none := by
    refine h.completed_of_before hkinds h₁ h₃ ?_ ?_
    · rw [hkind₁, hkind₃]
      decide
    · rw [hkind₁, hkind₃]
      decide
  have hcompleted₂ : model.failure? = none := by
    refine h.completed_of_before hkinds h₂ h₃ ?_ ?_
    · rw [hkind₂, hkind₃]
      decide
    · rw [hkind₂, hkind₃]
      decide
  obtain ⟨c₁, environmentName, hc₁, hname₁, hmakes₁⟩ :=
    StepRun.makes_environment (h.attempt _ h₁) hkind₁ hcompleted₁
  obtain ⟨c₂, modelName, hc₂, hname₂, hmakes₂⟩ :=
    StepRun.makes_model (h.attempt _ h₂) hkind₂ hcompleted₂
  -- A name is filled in alike by all steps, from what was there at first.
  have hsame : ∀ {t : Template}, (∀ v ∈ t.references, v ∉ Kind.publishKeys) → ∀ x ∈ steps,
      t.resolve x.before.store.lookup = t.resolve s.store.lookup := by
    intro t ht x hx
    exact Template.resolve_congr fun v hv => h.get?_before x hx v (ht v hv)
  have hfirst : c₁.name.resolve deployment.before.store.lookup = .ok environmentName := by
    rw [hsame (henvironment c₁ hc₁) _ h₃, ← hsame (henvironment c₁ hc₁) _ h₁, hname₁]
  have hsecond : c₂.name.resolve deployment.before.store.lookup = .ok modelName := by
    rw [hsame (hmodel c₂ hc₂) _ h₃, ← hsame (hmodel c₂ hc₂) _ h₂, hname₂]
  refine ⟨environmentName, modelName, hmakes₁, hmakes₂, ?_⟩
  exact StepRun.reads_containers (h.attempt _ h₃) hkind₃ hc₁ hc₂ hfirst hsecond

end

/-! ## The whole run -/

variable [Disk δ] {st : Setting} {d : δ}

/-- The command that provisions a service goes through its steps, and the containers that a
deployment among them reads are those of the environment and of the model that the steps before it
have made.  Their names must not depend on names that are published. -/
theorem deployment_reads_published {project : Project} {service : Service}
    (hproject : Project.discover st.environment d = .ok project) {name : String}
    (hservice : project.service name = .ok service)
    (henvironment : ∀ c ∈ service.resources.environment?, ∀ variableName ∈ c.name.references,
      variableName ∉ Kind.publishKeys)
    (hmodel : ∀ c ∈ service.resources.model?, ∀ variableName ∈ c.name.references,
      variableName ∉ Kind.publishKeys)
    (w : World σ κ) (options : Options) (only : List Kind) (s : σ)
    {environment model deployment : StepRun σ κ δ}
    (h₁ : environment ∈ stepRunsFor w st options name only s d)
    (hkind₁ : environment.kind = .environment)
    (h₂ : model ∈ stepRunsFor w st options name only s d) (hkind₂ : model.kind = .model)
    (h₃ : deployment ∈ stepRunsFor w st options name only s d)
    (hkind₃ : deployment.kind = .deployment) :
    (Invocation.run (.ok w) st ⟨options, .provision name only⟩ s d).GoesThrough
        (stepRunsFor w st options name only s d) ∧
      ∃ environmentName modelName, environment.Makes environmentName ∧ model.Makes modelName ∧
        containersRead deployment.calls <+:
          [(.environment, environmentName), (.model, modelName)] ∧
        (programsRun deployment.calls ≠ [] → containersRead deployment.calls =
          [(.environment, environmentName), (.model, modelName)]) := by
  refine ⟨goesThrough_stepRunsFor hproject w options name only s, ?_⟩
  rcases comesTo_provision hproject w options name only s with ⟨hnil, -⟩ | hcomes
  · rw [hnil] at h₁
    cases h₁
  obtain ⟨service', deployment?, hservice', hcomes⟩ := hcomes
  obtain rfl := Except.ok.inj ((st.service_of_ok hservice).symm.trans hservice')
  -- The order of its overrides does not change the name of a component.
  have henvironment' : ∀ c ∈ (service.inOrder st.order).resources.environment?,
      ∀ variableName ∈ c.name.references, variableName ∉ Kind.publishKeys := by
    intro c hc
    obtain ⟨c, hfound, rfl⟩ := Option.map_eq_some_iff.1 hc
    exact henvironment c hfound
  have hmodel' : ∀ c ∈ (service.inOrder st.order).resources.model?,
      ∀ variableName ∈ c.name.references, variableName ∉ Kind.publishKeys := by
    intro c hc
    obtain ⟨c, hfound, rfl⟩ := Option.map_eq_some_iff.1 hc
    exact hmodel c hfound
  have hselected : (selected (service.inOrder st.order).resources only).Sublist
      Kind.provisionable := List.filter_sublist
  generalize stepRunsFor w st options name only s d = steps at h₁ h₂ h₃ hcomes
  generalize Invocation.run (.ok w) st ⟨options, .provision name only⟩ s d = o at hcomes
  cases hcomes with
  | nowhere => cases h₁
  | steps _ _ _ hleads hfront =>
    exact hleads.reads_published (hfront.sublist.trans hselected) henvironment' hmodel' h₁ hkind₁
      h₂ hkind₂ h₃ hkind₃

/-- A service that deploys, with names that come from the process environment. -/
def deployedService : Service :=
  ⟨".", { Resources.none with
    environment? := some ⟨⟨"$\x7bBASE\x7d-env"⟩, "", .empty⟩
    model? := some ⟨⟨"$\x7bMODEL:-m\x7d"⟩, "", .empty⟩
    endpoint? := some ⟨⟨"ep"⟩, "", .empty⟩
    deployment? := some ⟨⟨""⟩, "", .empty⟩ }⟩

/-- A disk with a project file for that service. -/
def deployedTree : FileTree :=
  ⟨[(["p"], .directory), (["p", "fleetml.yaml"], .file (.text
    ("\"services\":\n \"s\":\n  \"config\":\n"
      ++ "   \"environment\":\n    \"name\": \"$\x7bBASE\x7d-env\"\n"
      ++ "   \"model\":\n    \"name\": \"$\x7bMODEL:-m\x7d\"\n"
      ++ "   \"endpoint\":\n    \"name\": \"ep\"\n"
      ++ "   \"deployment\":\n    \"name\": \"\"\n")) false)], ["p"]⟩

theorem deployment_reads_published_deployedTree :
    let st : Setting := ⟨KeyMap.ofList [("BASE", "base")], false, fun _ => 7, default⟩
    let options : Options := ⟨some "sub", some "rg", some "ws", "dev"⟩
    ∃ environment model endpoint deployment,
      stepRunsFor countingWorld st options "s" [] 0 deployedTree =
        [environment, model, endpoint, deployment] ∧
      (Invocation.run (.ok countingWorld) st ⟨options, .provision "s" []⟩ 0
        deployedTree).GoesThrough [environment, model, endpoint, deployment] ∧
      environment.Makes "base-env" ∧ model.Makes "m" ∧
      containersRead deployment.calls = [(.environment, "base-env"), (.model, "m")] := by
  intro st options
  have hproject : Project.discover st.environment deployedTree =
      .ok ⟨"/p", ⟨"", KeyMap.ofList [("s", deployedService)]⟩⟩ := by decide +kernel
  have hservice : (⟨"/p", ⟨"", KeyMap.ofList [("s", deployedService)]⟩⟩ : Project).service "s" =
      .ok deployedService := by decide +kernel
  have hsteps : (stepRunsFor countingWorld st options "s" [] 0 deployedTree).map
        (fun x => (x.kind, containersRead x.calls)) =
      [(.environment, [(.environment, "base-env")]), (.model, [(.model, "m")]), (.endpoint, []),
        (.deployment, [(.environment, "base-env"), (.model, "m")])] := by decide +kernel
  obtain ⟨environment, rest, hlist, hfirst, hsteps⟩ := List.map_eq_cons_iff.1 hsteps
  obtain ⟨model, rest, rfl, hsecond, hsteps⟩ := List.map_eq_cons_iff.1 hsteps
  obtain ⟨endpoint, rest, rfl, -, hsteps⟩ := List.map_eq_cons_iff.1 hsteps
  obtain ⟨deployment, rest, rfl, hfourth, hsteps⟩ := List.map_eq_cons_iff.1 hsteps
  obtain rfl := List.map_eq_nil_iff.1 hsteps
  obtain ⟨hkind₁, -⟩ := Prod.mk.inj hfirst
  obtain ⟨hkind₂, -⟩ := Prod.mk.inj hsecond
  obtain ⟨hkind₄, hreads⟩ := Prod.mk.inj hfourth
  have hmem : ∀ x ∈ [environment, model, endpoint, deployment],
      x ∈ stepRunsFor countingWorld st options "s" [] 0 deployedTree := fun x hx => hlist ▸ hx
  obtain ⟨hgoes, environmentName, modelName, hmakes₁, hmakes₂, hread, -⟩ :=
    deployment_reads_published hproject hservice (by decide +kernel) (by decide +kernel)
      countingWorld options [] 0
      (hmem environment (by simp)) hkind₁ (hmem model (by simp)) hkind₂
      (hmem deployment (by simp)) hkind₄
  rw [hreads] at hread
  have hnames := hread.eq_of_length rfl
  simp only [List.cons.injEq, Prod.mk.injEq, true_and, and_true] at hnames
  obtain ⟨rfl, rfl⟩ := hnames
  rw [hlist] at hgoes
  exact ⟨environment, model, endpoint, deployment, hlist, hgoes, hmakes₁, hmakes₂, hreads⟩

end Cli

end Provisioner
