import Provisioner.Proofs.Pipeline.StepRuns

/-!
# What a run leaves in the environment file

The steps that a run completes publish names, and nothing else gets into the file.

* `Publication` is what the step of a kind publishes.
* `Attempt.leaves` is what one step does to the store: all of its publication is stored if the
  step is completed, and nothing if it fails, unless it is the store that fails.
* `Leads.exists_published` is the same for steps in turn.
* `openIn_after_provision` says so of a whole run, in which no write fails.
-/

namespace Provisioner.Cli

open Session Store

variable {σ κ δ α β : Type}

/-! ## One step -/

/-- What the step of a kind publishes: the name that was filled in from the store, with the time
behind it for a flow; a deployment publishes its endpoint, and its own name. -/
inductive Publication (st : Setting) (r : Resources) (made? : Option String) (store : Store) :
    Kind → List (String × String) → Prop
  | named {kind : Kind} {c : Component} {name : String} :
    kind ∈ [Kind.environment, Kind.model, Kind.endpoint] → r.component? kind = some c →
    c.name.resolve store.lookup = .ok name →
    Publication st r made? store kind (kind.publication name)
  | deployment {endpoint : String} : made?.or (store.get? Failure.endpointKey) = some endpoint →
    Publication st r made? store .deployment
      (Kind.endpoint.publication endpoint ++ Kind.deployment.publication
        (Deployment.freshName Deployment.nameStart (st.clock .deployment)))
  | flow {c : Component} {name : String} : r.flow? = some c →
    c.name.resolve store.lookup = .ok name →
    Publication st r made? store .flow
      (Kind.flow.publication (Flow.uniqueName name (st.clock .flow)))

section

variable {st : Setting} {scope : Scope} {name directory : String} {r : Resources}
  {made? : Option String} {store : Store} {kind : Kind} {s s' : Session σ κ δ}

/-- What is published does not depend on the order of overrides. -/
theorem Publication.of_inOrder {order : Kind → Overrides.Order} {pairs : List (String × String)}
    (h : Publication st (r.inOrder order) made? store kind pairs) :
    Publication st r made? store kind pairs := by
  cases h with
  | named hkind hc hname =>
    rw [Resources.component?_inOrder] at hc
    obtain ⟨c, hfound, rfl⟩ := Option.map_eq_some_iff.1 hc
    exact .named hkind hfound hname
  | deployment hendpoint => exact .deployment hendpoint
  | flow hc hname =>
    obtain ⟨c, hfound, rfl⟩ := Option.map_eq_some_iff.1 hc
    exact .flow hfound hname

theorem Publication.mem_publishKeys {pairs : List (String × String)}
    (h : Publication st r made? store kind pairs) : ∀ p ∈ pairs, p.1 ∈ Kind.publishKeys := by
  intro p hp
  cases h with
  | named | flow => exact Plan.mem_publishKeys hp
  | deployment =>
    rcases List.mem_append.1 hp with hp | hp
    · exact Plan.mem_publishKeys hp
    · exact Plan.mem_publishKeys hp

variable [Disk δ] {w : World σ κ}

/-- A step leaves its publication in the store if its operation, with good inputs, follows a
course that publishes it. -/
theorem leaves_of_onceFilled {filled : Except ProvisionError β} {named : β → String}
    {course : β → κ → Course κ α} {publication : β → List (String × String)}
    {answer : Except ProvisionError α}
    (h : OnceFilled filled s (fun p =>
      Follows w kind (named p) scope (course p) (some (publication p)) s) (answer, s'))
    (hpublication : ∀ p, filled = .ok p → Publication st r made? s.store kind (publication p)) :
    (failureOf? answer = none → ∃ pairs, Publication st r made? s.store kind pairs ∧
      s.store.setAll pairs s.disk = (.ok (), s'.store, s'.disk)) ∧
    ∀ e, failureOf? answer = some e → (∀ e', e ≠ .operation (.store e')) →
      s'.store = s.store ∧ s'.disk = s.disk := by
  cases answer with
  | ok a =>
    obtain ⟨p, hp, hfollows⟩ := h.exists_of_ok
    exact ⟨fun _ => ⟨_, hpublication p hp, hfollows.stores.ok a rfl⟩, fun _ he => nomatch he⟩
  | error e =>
    refine ⟨fun hnone => (nomatch hnone), fun e' he' hother => ?_⟩
    obtain rfl := Option.some.inj he'
    rcases h.refused_or_good with ⟨e', -, hr⟩ | ⟨p, -, hfollows⟩
    · obtain rfl := (Prod.mk.inj hr).2
      exact ⟨rfl, rfl⟩
    · exact hfollows.stores.error e rfl fun e' he => hother e' (congrArg _ he)

/-- A step stores its publication when it is completed, and leaves the store and the disk alone
when it fails, unless the store is what fails. -/
theorem Attempt.leaves {failure? : Option Failure}
    (h : Attempt w st scope name directory r made? s kind failure? s') :
    (failure? = none → ∃ pairs, Publication st r made? s.store kind pairs ∧
      s.store.setAll pairs s.disk = (.ok (), s'.store, s'.disk)) ∧
    ∀ e, failure? = some e → (∀ e', e ≠ .operation (.store e')) →
      s'.store = s.store ∧ s'.disk = s.disk := by
  cases h with
  | @environment c _ _ hc hop =>
    have hfollows := follows_createEnvironmentVersion w scope s directory c
    rw [hop] at hfollows
    exact leaves_of_onceFilled hfollows fun p hp =>
      .named (by decide) hc (Prepared.resolve_of_definitionFirst hp)
  | @model c _ _ hc hop =>
    have hfollows := follows_createModelVersion w scope s directory c
    rw [hop] at hfollows
    exact leaves_of_onceFilled hfollows fun p hp =>
      .named (by decide) hc (Prepared.resolve_of_definitionFirst hp)
  | @endpoint c _ _ hc hop =>
    have hfollows := follows_createEndpoint w scope s directory c
    rw [hop] at hfollows
    exact leaves_of_onceFilled hfollows fun p hp =>
      .named (by decide) hc (Prepared.resolve_of_nameFirst hp)
  | @deployment d endpoint _ _ hspec hendpoint hop =>
    have hfollows := follows_deploy w scope s directory endpoint d (st.clock .deployment)
    rw [hop] at hfollows
    refine leaves_of_onceFilled hfollows fun p hp => ?_
    obtain ⟨hname, rfl, -⟩ := Deployment.resolve_of_prepare hp
    rw [Deployment.publication, hname]
    exact .deployment hendpoint
  | noEndpoint => exact ⟨fun hnone => (nomatch hnone), fun _ _ _ => ⟨rfl, rfl⟩⟩
  | @flow c _ _ hc hop =>
    have hfollows := follows_createFlow w scope s directory c (st.clock .flow)
    rw [hop] at hfollows
    refine leaves_of_onceFilled hfollows fun p hp => ?_
    obtain ⟨_, hname, hunique⟩ := Flow.resolve_of_prepare hp
    rw [Flow.publication, hunique]
    exact .flow hc hname

end

/-! ## Steps in turn -/

section

variable [Disk δ] [LawfulDisk δ] {w : World σ κ} {st : Setting} {scope : Scope}
  {name directory : String} {r : Resources} {s s' : Session σ κ δ}
  {steps : List (StepRun σ κ δ)} {first file : DotenvFile} {origin : δ}

/-- After steps in turn the file is read as what it was read as before, with the publications
of the steps that were completed. -/
theorem Leads.exists_published (h : Leads w st scope name directory r s steps s')
    (hstore : s.store = .dotenv file) (hcarried : Carried first origin none file s.disk)
    (hwrites : ∀ x ∈ steps, ¬ x.WriteFailed) :
    ∃ published, List.Forall₂ (fun x => Publication st r x.made? x.before.store x.kind)
        (steps.filter StepRun.completed) published ∧
      Carried first origin none (file.insertAll published.flatten) s'.disk ∧
      (steps.filter StepRun.completed = [] → s'.disk = s.disk) := by
  -- From step to step the store in memory is what the file is read as, so each step writes the
  -- names before it again.
  induction h generalizing file with
  | nil => exact ⟨[], .nil, hcarried, fun _ => rfl⟩
  | @failed x e hfailed hattempt =>
    have hother : ∀ e', e ≠ .operation (.store e') := by
      rintro e' rfl
      exact hwrites x List.mem_cons_self ⟨e', hfailed⟩
    have hdisk : x.after.disk = x.before.disk := (hattempt.leaves.2 e hfailed hother).2
    have hnone : [x].filter StepRun.completed = [] := by
      rw [List.filter_singleton, StepRun.completed, hfailed]
      rfl
    rw [hnone, hdisk]
    exact ⟨[], .nil, hcarried, fun _ => rfl⟩
  | @next x rest s' hnone hattempt _ ih =>
    obtain ⟨pairs, hpublication, hset⟩ := hattempt.leaves.1 hnone
    rw [hstore] at hset
    obtain ⟨hafter, hcarried'⟩ := hcarried.setAll hpublication.mem_publishKeys hset (.inl rfl)
    obtain ⟨published, hall, hcarried'', -⟩ :=
      ih hafter hcarried' fun y hy => hwrites y (List.mem_cons_of_mem x hy)
    have hcompleted : x.completed = true := by
      rw [StepRun.completed, hnone]
      rfl
    have hfile : (file.insertAll pairs).insertAll published.flatten =
        file.insertAll (pairs :: published).flatten := by
      simp only [DotenvFile.insertAll, List.flatten_cons, KeyMap.insertAll_append]
    rw [hfile] at hcarried''
    rw [List.filter_cons_of_pos hcompleted]
    exact ⟨pairs :: published, .cons hpublication hall, hcarried'',
      fun hnil => absurd hnil (List.cons_ne_nil _ _)⟩

/-- After a run of a plan the file is read as what it was read as at first, with the publications
of the steps that were completed. -/
theorem ComesTo.exists_published {options : Options} {p : Plan} {d : δ} {o : Outcome σ κ δ}
    (h : ComesTo w st options p d steps o)
    (hopen : DotenvFile.openIn st.environment p.root options.environment d = .ok first)
    (hwrites : ∀ x ∈ steps, ¬ x.WriteFailed) :
    ∃ published, List.Forall₂ (fun x => Publication st p.resources x.made? x.before.store x.kind)
        (steps.filter StepRun.completed) published ∧
      DotenvFile.openIn st.environment p.root options.environment o.disk =
        .ok (first.insertAll published.flatten) ∧
      (steps.filter StepRun.completed = [] → o.disk = d) := by
  cases h with
  | nowhere hdisk =>
    rw [hdisk]
    exact ⟨[], .nil, hopen, fun _ => rfl⟩
  | steps hfirst hstore hdisk hleads _ houtcome _ =>
    obtain rfl := Except.ok.inj (hopen.symm.trans hfirst)
    have hcarried := carried_of_openIn hopen
    rw [← hdisk] at hcarried
    obtain ⟨published, hall, hlast, hsame⟩ := hleads.exists_published hstore hcarried hwrites
    obtain ⟨henvironment, hpath⟩ := environment_of_openIn hopen
    refine ⟨published, hall, ?_, fun hnil => ?_⟩
    · have hload := hlast.load
      rw [henvironment, hpath, ← houtcome] at hload
      exact hload
    · rw [houtcome, hsame hnil, hdisk]

end

/-! ## The whole run -/

/-- What a step of a run for a service publishes. -/
def Publishes (st : Setting) (project : Project) (name : String) (x : StepRun σ κ δ)
    (pairs : List (String × String)) : Prop :=
  ∃ service, project.service name = .ok service ∧
    Publication st service.resources x.made? x.before.store x.kind pairs

variable [Disk δ] {st : Setting} {d : δ}

/-- A run that has no world to meet leaves the disk alone. -/
theorem disk_run_of_error (options : Options) (name : String) (only : List Kind)
    (e : Azure.Failure) (s : σ) :
    (Invocation.run (.error e : Except _ (World σ κ)) st ⟨options, .provision name only⟩ s d).disk =
      d := by
  rw [Invocation.run]
  split
  · rfl
  · rfl
  · rw [Task.run]
    split <;> rfl

/-- A run that provisions a service changes the environment file by the names that its completed
steps publish, in order, and in no other way.  It may fail at any point, as long as no write
fails.  Without a completed step the disk is as it was. -/
theorem openIn_after_provision [LawfulDisk δ] {project : Project} (options : Options)
    {first : DotenvFile} (hproject : Project.discover st.environment d = .ok project)
    (hopen : DotenvFile.openIn st.environment project.root options.environment d = .ok first)
    (name : String) (only : List Kind) (s : σ) :
    (∀ e : Azure.Failure, (Invocation.run (.error e : Except _ (World σ κ)) st
      ⟨options, .provision name only⟩ s d).disk = d) ∧
    ∀ w : World σ κ, (∀ x ∈ stepRunsFor w st options name only s d, ¬ x.WriteFailed) →
      let outcome := Invocation.run (.ok w) st ⟨options, .provision name only⟩ s d
      let completed := (stepRunsFor w st options name only s d).filter StepRun.completed
      ∃ published, List.Forall₂ (Publishes st project name) completed published ∧
        DotenvFile.openIn st.environment project.root options.environment outcome.disk =
          .ok (first.insertAll published.flatten) ∧
        (completed = [] → outcome.disk = d) := by
  refine ⟨fun e => disk_run_of_error options name only e s, fun w hwrites => ?_⟩
  intro outcome completed
  rcases comesTo_provision hproject w options name only s with ⟨hnil, hdisk, -⟩ | hcomes
  · have hcompleted : completed = [] := by
      show (stepRunsFor w st options name only s d).filter _ = []
      rw [hnil]
      rfl
    have houtcome : outcome.disk = d := hdisk
    rw [hcompleted, houtcome]
    exact ⟨[], .nil, hopen, fun _ => rfl⟩
  · obtain ⟨service, deployment?, hservice, hcomes⟩ := hcomes
    obtain ⟨published, hall, hlast, hsame⟩ := hcomes.exists_published hopen hwrites
    refine ⟨published, ?_, hlast, hsame⟩
    obtain ⟨service, hfound, rfl⟩ := exists_of_map_eq_ok hservice
    exact hall.imp fun x pairs hpublication => ⟨service, hfound, hpublication.of_inOrder⟩

/-- The small project with an environment file, in which another endpoint was published. -/
def publishedTree : FileTree :=
  { smallTree with nodes := smallTree.nodes ++ [(["p", ".fleetml"], .directory),
      (["p", ".fleetml", "dev"], .directory),
      (["p", ".fleetml", "dev", ".env"],
        .file (.text "A='1'\nAZUREML_ENDPOINT_NAME=old # before\n") false)] }

theorem openIn_after_provision_publishedTree :
    let st : Setting := ⟨KeyMap.empty, false, fun _ => 7, default⟩
    let options : Options := ⟨some "sub", some "rg", some "ws", "dev"⟩
    let first : DotenvFile := ⟨"/p/.fleetml/dev/.env",
      KeyMap.ofList [("A", "1"), ("AZUREML_ENDPOINT_NAME", "old")], KeyMap.empty⟩
    let steps := stepRunsFor countingWorld st options "s" [] 0 publishedTree
    let outcome :=
      Invocation.run (.ok countingWorld) st ⟨options, .provision "s" []⟩ 0 publishedTree
    steps.map (fun x => (x.kind, x.failure?)) = [(.endpoint, none),
        (.flow, some (.operation (.resultParse .flow "ep-7" "" ⟨.endInValue, 0⟩)))] ∧
      ∃ published,
        DotenvFile.openIn st.environment "/p" "dev" outcome.disk = .ok (first.insertAll published) ∧
        (first.insertAll published).values =
          KeyMap.ofList [("A", "1"), ("AZUREML_ENDPOINT_NAME", "ep")] := by
  intro st options first steps outcome
  have hproject : Project.discover st.environment publishedTree =
      .ok ⟨"/p", ⟨"", KeyMap.ofList [("s", smallService)]⟩⟩ := by decide +kernel
  have hopen : DotenvFile.openIn st.environment "/p" "dev" publishedTree = .ok first := by
    decide +kernel
  have hsteps : steps.map (fun x => (x.kind, x.failure?)) = [(.endpoint, none),
      (.flow, some (.operation (.resultParse .flow "ep-7" "" ⟨.endInValue, 0⟩)))] := by
    decide +kernel
  have hwrites : ∀ x ∈ steps, ¬ x.WriteFailed := by
    rintro x hx ⟨e, he⟩
    have hmem : (x.kind, x.failure?) ∈ steps.map fun x => (x.kind, x.failure?) :=
      List.mem_map_of_mem hx
    rw [hsteps, he] at hmem
    simp at hmem
  have hlast : DotenvFile.openIn st.environment "/p" "dev" outcome.disk =
      .ok ⟨first.path, KeyMap.ofList [("A", "1"), ("AZUREML_ENDPOINT_NAME", "ep")],
        first.environment⟩ := by decide +kernel
  obtain ⟨published, -, hread, -⟩ :=
    (openIn_after_provision options hproject hopen "s" [] 0).2 countingWorld hwrites
  refine ⟨hsteps, published.flatten, hread, ?_⟩
  rw [← Except.ok.inj (hlast.symm.trans hread)]

end Provisioner.Cli
