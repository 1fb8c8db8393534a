import Provisioner.Proofs.Arguments
import Provisioner.Proofs.Operation.Inputs
import Provisioner.Proofs.Pipeline.Names

/-!
# Where a deployment goes

A deployment goes to the endpoint that was made before it in the same run.  If none was, it goes to
the one that the store knows, whichever run it was that stored it.

* `StepRun.DeploysTo` says that a step has deployed to an endpoint, and `StepRun.deploysTo` that
  every deployment does so that gets as far as its program.
* `Hands` says what the steps of a run are told of an endpoint, and `hands_stepRunsFor` that they
  are.  `Leads.get?_endpointKey_before` says what they find in the store.
* `Leads.endpoint_of_mem` is a deployment with an endpoint before it, and `Leads.endpoint_of_ne`
  one without.
* `deployment_goes_to` is both, for every selection of kinds.
* `not_forall_goes_to_own`: it need not be the endpoint of the service.
-/

namespace Provisioner

variable {σ κ δ α : Type}

/-! ## The calls of a deployment -/

/-- The deployment that a call reads: its endpoint, and its name. -/
def Call.deployment? : Call κ → Option (String × String)
  | .read _ _ (.deployment endpoint name) => some (endpoint, name)
  | _ => none

/-- The deployments that are read by calls. -/
def deploymentsRead (calls : List (Call κ)) : List (String × String) :=
  calls.filterMap Call.deployment?

namespace Course

/-- A deployment that runs a program runs one, and then reads itself back. -/
theorem Calls.deployment_runs {client : κ} {scope : Scope} {p : Deployment.Input}
    {calls : List (Call κ)} {record? : Option Deployment}
    (h : (Course.deployment client scope p).Calls calls record?) (hrun : programsRun calls ≠ []) :
    ∃ environment model,
      programsRun calls = [(.mlClient, Deployment.arguments scope p environment model)] ∧
      deploymentsRead calls <+: [(p.endpoint, p.name)] ∧
      (record? ≠ none → deploymentsRead calls = [(p.endpoint, p.name)]) := by
  rcases h.deployment_cases with ⟨hfront, -⟩ | ⟨environment, model, ⟨rfl, rfl⟩ | rfl⟩
  · exact absurd (List.prefix_nil.1 (hfront.filterMap _)) hrun
  · exact ⟨environment, model, rfl, List.nil_prefix, fun hsome => absurd rfl hsome⟩
  · exact ⟨environment, model, rfl, List.prefix_rfl, fun _ => rfl⟩

end Course

namespace Cli

open Store

/-! ## The step -/

/-- A step that has deployed to an endpoint: it has passed the name to its program, before any
override does, it reads the deployment of this endpoint and no other, and with a result it has
read it and published the name. -/
structure StepRun.DeploysTo (x : StepRun σ κ δ) (overrides : Overrides) (endpoint : String) :
    Prop where
  passed : ∃ args, programsRun x.calls = [(.mlClient, args)] ∧
    Options.Decides overrides args.options "endpoint_name" endpoint
  confirmed : ∃ name, deploymentsRead x.calls <+: [(endpoint, name)] ∧
    (x.failure? = none → deploymentsRead x.calls = [(endpoint, name)])
  published : x.failure? = none → x.after.store.get? Failure.endpointKey = some endpoint

/-- In which order the overrides stand does not matter. -/
theorem StepRun.DeploysTo.of_perm {x : StepRun σ κ δ} {overrides overrides' : Overrides}
    {endpoint : String} (h : x.DeploysTo overrides endpoint)
    (hperm : overrides.entries.Perm overrides'.entries) : x.DeploysTo overrides' endpoint := by
  obtain ⟨args, hargs, hdecides⟩ := h.passed
  exact { h with passed := ⟨args, hargs, hdecides.of_perm hperm⟩ }

section

variable [Disk δ] {w : World σ κ} {st : Setting} {scope : Scope} {name directory : String}
  {r : Resources} {x : StepRun σ κ δ}

/-- What a deployment publishes tells its endpoint. -/
theorem get?_endpointKey_of_publication {p : Deployment.Input} {store store' : Store}
    {disk disk' : δ} (h : store.setAll (Deployment.publication p) disk = (.ok (), store', disk')) :
    store'.get? Failure.endpointKey = some p.endpoint := by
  have hlookup : (Deployment.publication p).reverse.lookup Failure.endpointKey =
      some p.endpoint := rfl
  rw [get?_of_setAll h, hlookup]
  rfl

/-- A deployment that gets as far as its program goes to the endpoint that it is told, or else to
the one in the store. -/
theorem StepRun.deploysTo
    (h : Attempt w st scope name directory r x.made? x.before x.kind x.failure? x.after)
    (hkind : x.kind = .deployment) (hrun : programsRun x.calls ≠ []) :
    ∃ c endpoint, r.deployment? = some c ∧
      x.made?.or (x.before.store.get? Failure.endpointKey) = some endpoint ∧
      x.DeploysTo c.overrides endpoint := by
  rcases StepRun.follows_deployment h hkind with hidle | hgood
  · rw [hidle] at hrun
    exact absurd rfl hrun
  obtain ⟨d, p, answer, hspec, hendpoint, hp, hfailure, hfollows⟩ := hgood
  have hfilled := Deployment.filledIn_of_prepare hp
  refine ⟨d.deployment, p.endpoint, Resources.deployment_of_deploymentSpec hspec, hendpoint, ?_⟩
  obtain ⟨opening, calls, hcalls, hopening, hmade⟩ := StepRun.calls_of_follows hfollows
  have hread : deploymentsRead (opening ++ calls) = deploymentsRead calls :=
    filterMap_append_of_opening hopening rfl calls
  rw [hcalls, programsRun_append_of_opening hopening] at hrun
  have hstored : x.failure? = none → answer.toOption ≠ none ∧
      x.before.store.setAll (Deployment.publication p) x.before.disk =
        (.ok (), x.after.store, x.after.disk) := by
    intro hnone
    cases answer with
    | error e => cases hfailure.symm.trans hnone
    | ok record => exact ⟨Option.some_ne_none record, hfollows.stores.ok record rfl⟩
  generalize answer.toOption = record? at hmade hstored
  cases hmade with
  | unopened => exact absurd rfl hrun
  | opened hmade =>
  obtain ⟨environment, model, hruns, hreads, hall⟩ := hmade.deployment_runs hrun
  refine ⟨⟨Deployment.arguments scope p environment model, ?_, ?_⟩,
    ⟨p.name, ?_, fun hnone => ?_⟩, fun hnone => ?_⟩
  · rw [hcalls, programsRun_append_of_opening hopening, hruns]
  · refine (Deployment.orders scope hfilled.overrides environment model).decides
      ("endpoint_name", p.endpoint) ?_
    simp [Deployment.fields]
  · rw [hcalls, hread]
    exact hreads
  · rw [hcalls, hread]
    exact hall (hstored hnone).1
  · exact get?_endpointKey_of_publication (hstored hnone).2

end

/-! ## What the steps of a run know of an endpoint -/

/-- Steps in turn, each of which is told the endpoint that the ones before it have made. -/
inductive Hands : Option String → List (StepRun σ κ δ) → Prop
  | nil {made? : Option String} : Hands made? []
  | cons {x : StepRun σ κ δ} {rest : List (StepRun σ κ δ)} :
    Hands (madeAfter x.made? x.after x.kind) rest → Hands x.made? (x :: rest)

section

variable {made? : Option String} {steps rest : List (StepRun σ κ δ)} {x y : StepRun σ κ δ}

theorem madeAfter_of_ne {kind : Kind} (h : kind ≠ .endpoint) (made? : Option String)
    (s : Session σ κ δ) : madeAfter made? s kind = made? := by
  cases kind with
  | endpoint => exact absurd rfl h
  | _ => rfl

theorem pair_sublist_cons (hx : x ∈ rest) : [y, x].Sublist (y :: rest) :=
  (List.singleton_sublist.2 hx).cons_cons y

/-- A step is told what was known at first, if no endpoint is made before it. -/
theorem Hands.made?_of_ne (h : Hands made? steps) :
    ∀ x ∈ steps, (∀ y, [y, x].Sublist steps → y.kind ≠ .endpoint) → x.made? = made? := by
  induction h with
  | nil => exact fun _ hx => nomatch hx
  | @cons y rest _ ih =>
    intro x hx hbefore
    rcases List.mem_cons.1 hx with rfl | hx
    · rfl
    · rw [ih x hx fun z hz => hbefore z (hz.cons y)]
      exact madeAfter_of_ne (hbefore y (pair_sublist_cons hx)) _ _

/-- A step is told the endpoint that was made before it. -/
theorem Hands.made?_of_endpoint (h : Hands made? steps)
    (hnodup : (steps.map StepRun.kind).Nodup) (hpair : [y, x].Sublist steps)
    (hy : y.kind = .endpoint) : x.made? = some (y.after.store.published .endpoint) := by
  induction h with
  | nil => cases hpair
  | @cons z rest hrest ih =>
    rw [List.map_cons, List.nodup_cons] at hnodup
    obtain ⟨hnotMem, hnodup⟩ := hnodup
    cases hpair with
    | cons _ hpair => exact ih hnodup hpair
    | cons_cons _ hpair =>
      -- No kind comes twice, so nothing after `y` makes another endpoint.
      have hx : x ∈ rest := List.singleton_sublist.1 hpair
      have hother : ∀ u, [u, x].Sublist rest → u.kind ≠ .endpoint := by
        intro u hu hkind
        refine hnotMem (List.mem_map.2 ⟨u, hu.subset List.mem_cons_self, ?_⟩)
        rw [hkind, hy]
      rw [hrest.made?_of_ne x hx hother, hy]
      rfl

end

section

variable [Disk δ] {w : World σ κ} {st : Setting} {scope : Scope} {name directory : String}
  {r : Resources} {s s' : Session σ κ δ} {steps : List (StepRun σ κ δ)} {x y : StepRun σ κ δ}

theorem Plan.hands_stepRuns {p : Plan}
    (hspec : p.resources.deploymentSpec p.service = .ok p.deployment?) {kinds : List Kind}
    (hkinds : ∀ kind ∈ kinds, (p.resources.component? kind).isSome) (made? : Option String)
    (ts : Transcript × Session σ κ δ) : Hands made? (p.stepRuns w st scope kinds made? ts) := by
  induction kinds generalizing made? ts with
  | nil => exact .nil
  | cons kind rest ih =>
    obtain ⟨failure?, t', s', -, hrun⟩ := exists_attempt w st scope hspec
      (hkinds kind List.mem_cons_self) made? ts.1 ts.2
    rw [stepRuns, hrun]
    cases failure? with
    | some e => exact .cons (x := ⟨kind, made?, ts.2, s', some e⟩) .nil
    | none =>
      exact .cons (x := ⟨kind, made?, ts.2, s', none⟩)
        (ih (fun k hk => hkinds k (List.mem_cons_of_mem _ hk)) _ _)

/-- The steps of a run are told what they have made, and of no endpoint at first. -/
theorem hands_stepRunsFor {d : δ} {project : Project} {service : Service}
    (hproject : Project.discover st.environment d = .ok project)
    (hservice : st.service project name = .ok service) (w : World σ κ) (options : Options)
    (only : List Kind) (s : σ) : Hands none (stepRunsFor w st options name only s d) := by
  cases hspec : service.resources.deploymentSpec name with
  | error e =>
    rw [stepRunsFor_of_make_error (make_of_incomplete st hproject hservice hspec only)]
    exact .nil
  | ok deployment? =>
  have hmake := make_of_deploymentSpec st hproject hservice hspec only
  rw [select_kinds] at hmake
  cases hopen : openSession st options project.root d with
  | error e =>
    rw [stepRunsFor_of_openSession_error hmake hopen]
    exact .nil
  | ok opened =>
  obtain ⟨store, base⟩ := opened
  rcases hcheck : (Plan.check w st (planFor project name service deployment?
      (selected service.resources only)) base).run.run (default, ⟨s, d, store, none, []⟩)
    with ⟨answer, ts⟩
  cases answer with
  | error e =>
    rw [stepRunsFor_of_check_error hmake hopen hcheck]
    exact .nil
  | ok scope =>
    rw [stepRunsFor_of_check_ok hmake hopen hcheck]
    exact Plan.hands_stepRuns hspec (fun _ => isSome_of_mem_selected) none ts

theorem Publication.endpointKey_notMem {made? : Option String} {store : Store} {kind : Kind}
    {pairs : List (String × String)} (h : Publication st r made? store kind pairs)
    (hkind : kind ∉ [Kind.endpoint, .deployment]) :
    Failure.endpointKey ∉ pairs.map Prod.fst := by
  have hne : kind ≠ .endpoint := fun h => hkind (h ▸ List.mem_cons_self)
  cases h with
  | named | flow => exact Plan.endpointKey_notMem_publication hne _
  | deployment => exact absurd (by decide) hkind

/-- A step finds the endpoint that was stored at first, if no step before it stores one. -/
theorem Leads.get?_endpointKey_before (h : Leads w st scope name directory r s steps s') :
    ∀ x ∈ steps, (∀ y, [y, x].Sublist steps → y.kind ∉ [Kind.endpoint, .deployment]) →
      x.before.store.get? Failure.endpointKey = s.store.get? Failure.endpointKey := by
  induction h with
  | nil => exact fun _ hx => nomatch hx
  | failed =>
    intro x hx _
    rw [List.mem_singleton.1 hx]
  | @next y rest s' hnone hattempt _ ih =>
    intro x hx hbefore
    rcases List.mem_cons.1 hx with rfl | hx
    · rfl
    obtain ⟨pairs, hpublication, hset⟩ := hattempt.leaves.1 hnone
    have hother := hpublication.endpointKey_notMem (hbefore y (pair_sublist_cons hx))
    rw [ih x hx fun z hz => hbefore z (hz.cons y), get?_of_setAll hset,
      KeyMap.lookup_reverse_eq_none hother, Option.none_or]

/-- A completed step publishes the name of the endpoint. -/
theorem StepRun.publishes_endpoint
    (h : Attempt w st scope name directory r x.made? x.before x.kind x.failure? x.after)
    (hkind : x.kind = .endpoint) (hnone : x.failure? = none) :
    ∃ c, r.endpoint? = some c ∧
      c.name.resolve x.before.store.lookup = .ok (x.after.store.published .endpoint) := by
  obtain ⟨pairs, hpublication, hset⟩ := h.leaves.1 hnone
  generalize x.kind = kind at hpublication hkind
  cases hpublication with
  | deployment | flow => cases hkind
  | @named _ c n _ hc hn =>
    subst hkind
    have hpublished : x.after.store.published .endpoint = n :=
      congrArg (·.getD "") (get?_publishKey hset _ rfl)
    rw [hpublished]
    exact ⟨c, hc, hn⟩

/-- A deployment without an endpoint before it goes by what was stored at first. -/
theorem Leads.endpoint_of_ne (h : Leads w st scope name directory r s steps s')
    (hhands : Hands none steps) (hkinds : (steps.map StepRun.kind).Sublist Kind.provisionable)
    (hx : x ∈ steps) (hkind : x.kind = .deployment) (hne : ∀ y ∈ steps, y.kind ≠ .endpoint) :
    x.made?.or (x.before.store.get? Failure.endpointKey) = s.store.get? Failure.endpointKey := by
  have hbefore : ∀ y, [y, x].Sublist steps → y.kind ∉ [Kind.endpoint, .deployment] := by
    intro y hpair
    have hnodup : [y.kind, x.kind].Nodup :=
      ((hpair.map StepRun.kind).trans hkinds).nodup (by decide)
    rw [hkind] at hnodup
    have hdeployment : y.kind ≠ .deployment := by simpa using hnodup
    have hendpoint : y.kind ≠ .endpoint := hne y (hpair.subset List.mem_cons_self)
    simp [hendpoint, hdeployment]
  rw [hhands.made?_of_ne x hx fun y hpair => hne y (hpair.subset List.mem_cons_self),
    h.get?_endpointKey_before x hx hbefore, Option.none_or]

/-- A deployment with an endpoint before it goes to this one. -/
theorem Leads.endpoint_of_mem (h : Leads w st scope name directory r s steps s')
    (hhands : Hands none steps) (hkinds : (steps.map StepRun.kind).Sublist Kind.provisionable)
    {c : Component} (hc : r.endpoint? = some c)
    (hname : ∀ variableName ∈ c.name.references, variableName ∉ Kind.publishKeys)
    (hx : x ∈ steps) (hkind : x.kind = .deployment) (hy : y ∈ steps)
    (hendpoint : y.kind = .endpoint) :
    ∃ endpoint, c.name.resolve s.store.lookup = .ok endpoint ∧ x.made? = some endpoint := by
  have hne : y ≠ x := by
    rintro rfl
    cases hkind.symm.trans hendpoint
  have horder : ¬ [x.kind, y.kind].Sublist Kind.provisionable := by
    rw [hkind, hendpoint]
    decide
  have hpair : [y, x].Sublist steps := by
    refine (pair_sublist_or hy hx hne).resolve_right fun hpair => horder ?_
    exact (hpair.map StepRun.kind).trans hkinds
  have hcompleted : y.failure? = none :=
    List.pairwise_iff_forall_sublist.1 h.pairwise_completed hpair
  obtain ⟨c', hc', hresolve⟩ :=
    StepRun.publishes_endpoint (h.attempt y hy) hendpoint hcompleted
  obtain rfl := Option.some.inj (hc.symm.trans hc')
  have hnodup : (steps.map StepRun.kind).Nodup := hkinds.nodup (by decide)
  refine ⟨_, ?_, hhands.made?_of_endpoint hnodup hpair hendpoint⟩
  rw [← hresolve]
  exact Template.resolve_congr fun v hv => (h.get?_before y hy v (hname v hv)).symm

end

/-! ## The whole run -/

/-- A kind that is selected is begun before another that is begun after it. -/
theorem mem_of_isPrefix_selected {r : Resources} {only kinds : List Kind} {kind later : Kind}
    (hfront : kinds <+: selected r only) (hkind : kind ∈ selected r only) (hlater : later ∈ kinds)
    (horder : ¬ [later, kind].Sublist Kind.provisionable) : kind ∈ kinds := by
  obtain ⟨rest, hrest⟩ := hfront
  rw [← hrest] at hkind
  refine (List.mem_append.1 hkind).resolve_right fun hmem => horder ?_
  have hpair : [later, kind].Sublist (kinds ++ rest) :=
    (List.singleton_sublist.2 hlater).append (List.singleton_sublist.2 hmem)
  rw [hrest] at hpair
  exact hpair.trans List.filter_sublist

/-- Steps with a deployment that has run its program. -/
theorem exists_deployed (steps : List (StepRun σ κ δ))
    (h : (Kind.deployment, false) ∈ steps.map fun x => (x.kind, (programsRun x.calls).isEmpty)) :
    ∃ x ∈ steps, x.kind = .deployment ∧ programsRun x.calls ≠ [] := by
  obtain ⟨x, hx, hlast⟩ := List.mem_map.1 h
  obtain ⟨hkind, hruns⟩ := Prod.mk.inj hlast
  exact ⟨x, hx, hkind, List.isEmpty_eq_false_iff.1 hruns⟩

variable [Disk δ] {st : Setting} {d : δ}

/-- Where the deployment of a service goes that has an endpoint.  The command goes through its
steps, and if the endpoint is selected, by name or with everything else, the deployment among them
goes to it.  Else it goes to the one in the store, which another service may have published.  The
name of the endpoint must not depend on names that are published. -/
theorem deployment_goes_to {project : Project} {service : Service} {c : Component}
    (hproject : Project.discover st.environment d = .ok project) {name : String}
    (hservice : project.service name = .ok service) (hc : service.resources.endpoint? = some c)
    (hname : ∀ variableName ∈ c.name.references, variableName ∉ Kind.publishKeys)
    (w : World σ κ) (options : Options) (only : List Kind) (s : σ) {x : StepRun σ κ δ}
    (hx : x ∈ stepRunsFor w st options name only s d) (hkind : x.kind = .deployment)
    (hrun : programsRun x.calls ≠ []) :
    (Invocation.run (.ok w) st ⟨options, .provision name only⟩ s d).GoesThrough
        (stepRunsFor w st options name only s d) ∧
      ∃ first deployment endpoint,
        DotenvFile.openIn st.environment project.root options.environment d = .ok first ∧
        service.resources.deployment? = some deployment ∧
        x.DeploysTo deployment.overrides endpoint ∧
        (only = [] ∨ .endpoint ∈ only →
          c.name.resolve (Store.dotenv first).lookup = .ok endpoint) ∧
        (¬ (only = [] ∨ .endpoint ∈ only) → first.get? Failure.endpointKey = some endpoint) := by
  refine ⟨goesThrough_stepRunsFor hproject w options name only s, ?_⟩
  have hhands : Hands none (stepRunsFor w st options name only s d) :=
    hands_stepRunsFor hproject (st.service_of_ok hservice) w options only s
  rcases comesTo_provision hproject w options name only s with ⟨hnil, -⟩ | hcomes
  · rw [hnil] at hx
    cases hx
  obtain ⟨service', deployment?, hservice', hcomes⟩ := hcomes
  obtain rfl := Except.ok.inj ((st.service_of_ok hservice).symm.trans hservice')
  have hc' : (service.inOrder st.order).resources.endpoint? =
      some (c.inOrder (st.order .endpoint)) := congrArg (Option.map _) hc
  generalize stepRunsFor w st options name only s d = steps at hx hcomes hhands
  generalize Invocation.run (.ok w) st ⟨options, .provision name only⟩ s d = o at hcomes
  cases hcomes with
  | nowhere => cases hx
  | @steps _ first _ _ _ _ hfirst hstore _ hleads hfront =>
  have hkinds : (steps.map StepRun.kind).Sublist Kind.provisionable :=
    hfront.sublist.trans List.filter_sublist
  obtain ⟨deployment, endpoint, hdeployment, hknown, hgoes⟩ :=
    StepRun.deploysTo (hleads.attempt x hx) hkind hrun
  obtain ⟨deployment, hfound, rfl⟩ := Option.map_eq_some_iff.1 hdeployment
  refine ⟨first, deployment, endpoint, hfirst, hfound,
    hgoes.of_perm ((st.order .deployment).perm _), fun hselected => ?_, fun hselected => ?_⟩
  · have hmem : Kind.endpoint ∈ selected (service.inOrder st.order).resources only := by
      refine List.mem_filter.2 ⟨by decide, decide_eq_true ⟨?_, hselected⟩⟩
      exact Option.isSome_iff_exists.2 ⟨_, hc'⟩
    -- The steps are a front of what is selected, where the endpoint comes before the deployment.
    have hdeployed : Kind.deployment ∈ steps.map StepRun.kind := List.mem_map.2 ⟨x, hx, hkind⟩
    have hbegun : Kind.endpoint ∈ steps.map StepRun.kind :=
      mem_of_isPrefix_selected hfront hmem hdeployed (by decide)
    obtain ⟨y, hy, hendpoint⟩ := List.mem_map.1 hbegun
    obtain ⟨own, hown, hmade⟩ :=
      hleads.endpoint_of_mem hhands hkinds hc' hname hx hkind hy hendpoint
    rw [hmade] at hknown
    obtain rfl := Option.some.inj hknown
    rw [← hstore]
    exact hown
  · have hne : ∀ y ∈ steps, y.kind ≠ .endpoint := by
      intro y hy hendpoint
      have hmem : y.kind ∈ selected (service.inOrder st.order).resources only :=
        hfront.subset (List.mem_map_of_mem hy)
      rw [hendpoint] at hmem
      exact hselected (of_decide_eq_true (List.mem_filter.1 hmem).2).2
    rw [hleads.endpoint_of_ne hhands hkinds hx hkind hne, hstore] at hknown
    exact hknown

/-- The project with the service that deploys, after another one has published its endpoint. -/
def sharedTree : FileTree :=
  { deployedTree with nodes := deployedTree.nodes ++ [(["p", ".fleetml"], .directory),
      (["p", ".fleetml", "dev"], .directory),
      (["p", ".fleetml", "dev", ".env"], .file (.text "AZUREML_ENDPOINT_NAME=other\n") false)] }

/-- The project that is found there. -/
def deployedProject : Project :=
  ⟨"/p", ⟨"", KeyMap.ofList [("s", deployedService)]⟩⟩

/-- A setting in which the names of that service can be filled in. -/
def baseSetting : Setting :=
  ⟨KeyMap.ofList [("BASE", "base")], false, fun _ => 7, default⟩

/-- The file that the store is opened on. -/
def sharedFile : DotenvFile :=
  ⟨"/p/.fleetml/dev/.env", KeyMap.ofList [("AZUREML_ENDPOINT_NAME", "other")],
    baseSetting.environment⟩

theorem discover_sharedTree :
    Project.discover baseSetting.environment sharedTree = .ok deployedProject := by
  decide +kernel

theorem service_deployedProject : deployedProject.service "s" = .ok deployedService := by
  decide +kernel

theorem openIn_sharedTree :
    DotenvFile.openIn baseSetting.environment "/p" "dev" sharedTree = .ok sharedFile := by
  decide +kernel

theorem resolve_sharedFile :
    (⟨"ep"⟩ : Template).resolve (Store.dotenv sharedFile).lookup = .ok "ep" := by
  decide +kernel

/-- What is to be done there for some of the kinds. -/
def sharedPlan (only : List Kind) : Plan :=
  planFor deployedProject "s" deployedService
    (some ⟨none, ⟨⟨"$\x7bBASE\x7d-env"⟩, "", .empty⟩,
      ⟨⟨"$\x7bMODEL:-m\x7d"⟩, "", .empty⟩, ⟨⟨""⟩, "", .empty⟩⟩)
    (Plan.select only deployedService.resources.kinds)

theorem make_sharedTree (only : List Kind) :
    Plan.make baseSetting "s" only sharedTree = .ok (sharedPlan only) :=
  make_of_deploymentSpec baseSetting discover_sharedTree
    (baseSetting.service_of_ok service_deployedProject) rfl only

theorem deployment_goes_to_sharedTree :
    let options : Options := ⟨some "sub", some "rg", some "ws", "dev"⟩
    (∃ x ∈ stepRunsFor countingWorld baseSetting options "s" [] 0 sharedTree,
      x.DeploysTo .empty "ep") ∧
    ∃ x ∈ stepRunsFor countingWorld baseSetting options "s" [.deployment] 0 sharedTree,
      x.DeploysTo .empty "other" := by
  intro options
  constructor
  · have hmem : (Kind.deployment, false) ∈
        (stepRunsFor countingWorld baseSetting options "s" [] 0 sharedTree).map
          fun x => (x.kind, (programsRun x.calls).isEmpty) := by
      rw [stepRunsFor, make_sharedTree]
      decide +kernel
    obtain ⟨x, hx, hkind, hrun⟩ := exists_deployed _ hmem
    obtain ⟨-, first, deployment, endpoint, hfirst, hdeployment, hgoes, hown, -⟩ :=
      deployment_goes_to discover_sharedTree service_deployedProject rfl (by decide +kernel)
        countingWorld options [] 0 hx hkind hrun
    obtain rfl := Option.some.inj hdeployment
    obtain rfl := Except.ok.inj (openIn_sharedTree.symm.trans hfirst)
    obtain rfl := Except.ok.inj (resolve_sharedFile.symm.trans (hown (.inl rfl)))
    exact ⟨x, hx, hgoes⟩
  · have hmem : (Kind.deployment, false) ∈
        (stepRunsFor countingWorld baseSetting options "s" [.deployment] 0 sharedTree).map
          fun x => (x.kind, (programsRun x.calls).isEmpty) := by
      rw [stepRunsFor, make_sharedTree]
      decide +kernel
    obtain ⟨x, hx, hkind, hrun⟩ := exists_deployed _ hmem
    obtain ⟨-, first, deployment, endpoint, hfirst, hdeployment, hgoes, -, hstored⟩ :=
      deployment_goes_to discover_sharedTree service_deployedProject rfl (by decide +kernel)
        countingWorld options [.deployment] 0 hx hkind hrun
    obtain rfl := Option.some.inj hdeployment
    obtain rfl := Except.ok.inj (openIn_sharedTree.symm.trans hfirst)
    obtain rfl := Option.some.inj (hstored (by decide))
    exact ⟨x, hx, hgoes⟩

/-- A deployment that is made alone need not go to the endpoint of its service: nothing in the
store says of which service an endpoint is. -/
theorem not_forall_goes_to_own :
    ¬ ∀ (st : Setting) (d : FileTree) (project : Project) (name : String) (service : Service)
      (c deployment : Component) (w : World Nat Unit) (options : Options) (only : List Kind)
      (x : StepRun Nat Unit FileTree),
      Project.discover st.environment d = .ok project → project.service name = .ok service →
      service.resources.endpoint? = some c → service.resources.deployment? = some deployment →
      (∀ variableName ∈ c.name.references, variableName ∉ Kind.publishKeys) →
      x ∈ stepRunsFor w st options name only 0 d → x.kind = .deployment →
      programsRun x.calls ≠ [] →
      ∃ first endpoint,
        DotenvFile.openIn st.environment project.root options.environment d = .ok first ∧
        c.name.resolve (Store.dotenv first).lookup = .ok endpoint ∧
        x.DeploysTo deployment.overrides endpoint := by
  intro hall
  let options : Options := ⟨some "sub", some "rg", some "ws", "dev"⟩
  have hsteps : (stepRunsFor countingWorld baseSetting options "s" [.deployment] 0 sharedTree).map
      (fun x => (x.kind, (programsRun x.calls).isEmpty, deploymentsRead x.calls)) =
      [(.deployment, false, [("other", "fleetml-7")])] := by
    rw [stepRunsFor, make_sharedTree]
    decide +kernel
  obtain ⟨x, rest, hlist, hx, -⟩ := List.map_eq_cons_iff.1 hsteps
  simp only [Prod.mk.injEq, List.isEmpty_eq_false_iff] at hx
  obtain ⟨hkind, hrun, hread⟩ := hx
  have hmem : x ∈ stepRunsFor countingWorld baseSetting options "s" [.deployment] 0 sharedTree :=
    hlist ▸ List.mem_cons_self
  obtain ⟨first, endpoint, hfirst, hresolve, hgoes⟩ := hall baseSetting sharedTree deployedProject
    "s" deployedService _ _ countingWorld options [.deployment] x discover_sharedTree
    service_deployedProject rfl rfl (by decide +kernel) hmem hkind hrun
  obtain rfl := Except.ok.inj (openIn_sharedTree.symm.trans hfirst)
  obtain rfl := Except.ok.inj (resolve_sharedFile.symm.trans hresolve)
  obtain ⟨name, hconfirmed, -⟩ := hgoes.confirmed
  rw [hread] at hconfirmed
  have hsame := hconfirmed.eq_of_length rfl
  simp at hsame

end Cli

end Provisioner
