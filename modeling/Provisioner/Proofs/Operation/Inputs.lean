import Provisioner.Proofs.Operation.Request
import Provisioner.Proofs.Override

/-!
# Inputs come first

An operation fills its inputs in before it does anything else.

* `Inputs` are the templates and the definition that a request gives, and `Inputs.Faulty` are the
  errors that are in them.  `Request.faulty_of_fill` and `Request.not_faulty_of_fill` say that
  filling them in finds one of these errors if there is any.
* `Follows.not_isAboutInput`: from the first await on no error is one of the inputs.
* `inputs_first` puts the two together.
-/

namespace Provisioner

variable {σ κ δ α β : Type}

/-- Whether an error is about what an operation was given, and not about what it did. -/
def ProvisionError.isAboutInput : ProvisionError → Bool
  | .fileNotFound .. => true
  | .template .. => true
  | _ => false

/-! ## What is given -/

/-- What has to be filled in: names, each of a kind of resource, the path of a definition, which
has to be there, and overrides. -/
structure Inputs where
  names : List (Kind × Template)
  definition? : Option (Kind × String)
  overrides : Overrides

namespace Inputs

/-- The errors in inputs. -/
inductive Faulty [Disk δ] (i : Inputs) (store : Store) (disk : δ) : ProvisionError → Prop
  | name {kind : Kind} {t : Template} {e : TemplateError} : (kind, t) ∈ i.names →
    t.resolve store.lookup = .error e →
    Faulty i store disk (.template (kind.name ++ " name value") e)
  | definition {kind : Kind} {path : String} {e : IoError} : i.definition? = some (kind, path) →
    Disk.stat disk path = .error e → Faulty i store disk (.fileNotFound kind path e)
  | override {key : String} {t : Template} {e : TemplateError} : (key, t) ∈ i.overrides.entries →
    t.resolve store.lookup = .error e →
    Faulty i store disk (.template ("override '" ++ key ++ "'") e)

/-- The inputs of a component. -/
def ofComponent (kind : Kind) (service : String) (c : Component) : Inputs :=
  ⟨[(kind, c.name)], some (kind, Path.join service c.path), c.overrides⟩

/-- The inputs of a deployment.  It has no name template of its own, and of the environment and
the model it looks at nothing but the names. -/
def ofDeployment (service : String) (d : DeploymentSpec) : Inputs :=
  ⟨[(.environment, d.environment.name), (.model, d.model.name)],
    some (.deployment, Path.join service d.deployment.path), d.deployment.overrides⟩

variable [Disk δ] {i : Inputs} {store : Store} {disk : δ} {e : ProvisionError}

theorem Faulty.isAboutInput (h : i.Faulty store disk e) : e.isAboutInput = true := by
  cases h <;> rfl

/-- Inputs of which every one can be filled in have no error. -/
theorem not_faulty {filled : Arguments}
    (hnames : ∀ kind t, (kind, t) ∈ i.names → ∃ name, t.resolve store.lookup = .ok name)
    (hdefinition : ∀ kind path, i.definition? = some (kind, path) →
      ∃ found, Disk.stat disk path = .ok found)
    (hoverrides : i.overrides.arguments store.lookup = .ok filled) : ¬ i.Faulty store disk e := by
  intro h
  cases h with
  | name hmem hresolve =>
    obtain ⟨name, hname⟩ := hnames _ _ hmem
    cases hname.symm.trans hresolve
  | definition hpath hstat =>
    obtain ⟨found, hfound⟩ := hdefinition _ _ hpath
    cases hfound.symm.trans hstat
  | override hmem hresolve =>
    obtain ⟨e, he⟩ := Overrides.exists_error hmem hresolve
    cases he.symm.trans hoverrides

end Inputs

/-! ## Filling in -/

namespace Prepared

open Inputs (Faulty)

variable [Disk δ] {i : Inputs} {store : Store} {disk : δ} {kind : Kind} {service : String}
  {c : Component} {e : ProvisionError}

theorem faulty_of_resolveName {t : Template} (hmem : (kind, t) ∈ i.names)
    (h : resolveName store kind t = .error e) : i.Faulty store disk e := by
  obtain ⟨source, hresolve, rfl⟩ := exists_of_mapError_eq_error h
  exact .name hmem hresolve

theorem faulty_of_findDefinition {relative : String}
    (hpath : i.definition? = some (kind, Path.join service relative))
    (h : findDefinition disk kind service relative = .error e) : i.Faulty store disk e := by
  rw [findDefinition] at h
  cases hstat : Disk.stat disk (Path.join service relative) with
  | ok found =>
    rw [hstat] at h
    cases h
  | error io =>
    rw [hstat] at h
    cases h
    exact .definition hpath hstat

theorem exists_stat_of_findDefinition {relative path : String}
    (h : findDefinition disk kind service relative = .ok path) :
    path = Path.join service relative ∧
      ∃ found, Disk.stat disk (Path.join service relative) = .ok found := by
  rw [findDefinition] at h
  cases hstat : Disk.stat disk (Path.join service relative) with
  | ok found =>
    rw [hstat] at h
    cases h
    exact ⟨rfl, found, rfl⟩
  | error io =>
    rw [hstat] at h
    cases h

theorem faulty_of_resolveOverrides (h : resolveOverrides store i.overrides = .error e) :
    i.Faulty store disk e := by
  obtain ⟨source, hsource, rfl⟩ := exists_of_mapError_eq_error h
  obtain ⟨t, hmem, hresolve⟩ := Overrides.exists_of_error hsource
  exact .override hmem hresolve

theorem faulty_of_definitionFirst (h : definitionFirst store disk kind service c = .error e) :
    (Inputs.ofComponent kind service c).Faulty store disk e := by
  rcases exists_of_bind_eq_error h with h | ⟨definition, -, h⟩
  · exact faulty_of_findDefinition rfl h
  rcases exists_of_bind_eq_error h with h | ⟨name, -, h⟩
  · exact faulty_of_resolveName List.mem_cons_self h
  rcases exists_of_bind_eq_error h with h | ⟨overrides, -, h⟩
  · exact faulty_of_resolveOverrides h
  · cases h

theorem faulty_of_nameFirst (h : nameFirst store disk kind service c = .error e) :
    (Inputs.ofComponent kind service c).Faulty store disk e := by
  rcases exists_of_bind_eq_error h with h | ⟨name, -, h⟩
  · exact faulty_of_resolveName List.mem_cons_self h
  rcases exists_of_bind_eq_error h with h | ⟨definition, -, h⟩
  · exact faulty_of_findDefinition rfl h
  rcases exists_of_bind_eq_error h with h | ⟨overrides, -, h⟩
  · exact faulty_of_resolveOverrides h
  · cases h

/-- A component that is filled in: its name and its overrides from the store, and the path of a
definition that is there. -/
structure FilledIn (store : Store) (disk : δ) (service : String) (c : Component) (p : Prepared) :
    Prop where
  name : c.name.resolve store.lookup = .ok p.name
  definition : p.definition = Path.join service c.path
  found : ∃ found, Disk.stat disk p.definition = .ok found
  overrides : c.overrides.arguments store.lookup = .ok p.overrides

theorem filledIn_of_definitionFirst {p : Prepared}
    (h : definitionFirst store disk kind service c = .ok p) :
    FilledIn store disk service c p := by
  obtain ⟨definition, hdefinition, h⟩ := exists_of_bind_eq_ok h
  obtain ⟨name, hname, h⟩ := exists_of_bind_eq_ok h
  obtain ⟨overrides, hoverrides, h⟩ := exists_of_bind_eq_ok h
  obtain rfl := Except.ok.inj h
  obtain ⟨rfl, hfound⟩ := exists_stat_of_findDefinition hdefinition
  exact ⟨resolve_of_resolveName hname, rfl, hfound, eq_ok_of_mapError_eq_ok hoverrides⟩

theorem filledIn_of_nameFirst {p : Prepared} (h : nameFirst store disk kind service c = .ok p) :
    FilledIn store disk service c p := by
  obtain ⟨name, hname, h⟩ := exists_of_bind_eq_ok h
  obtain ⟨definition, hdefinition, h⟩ := exists_of_bind_eq_ok h
  obtain ⟨overrides, hoverrides, h⟩ := exists_of_bind_eq_ok h
  obtain rfl := Except.ok.inj h
  obtain ⟨rfl, hfound⟩ := exists_stat_of_findDefinition hdefinition
  exact ⟨resolve_of_resolveName hname, rfl, hfound, eq_ok_of_mapError_eq_ok hoverrides⟩

theorem FilledIn.not_faulty {p : Prepared} (h : FilledIn store disk service c p) :
    ¬ (Inputs.ofComponent kind service c).Faulty store disk e := by
  refine Inputs.not_faulty (fun other t hmem => ?_) (fun other path hpath => ?_) h.overrides
  · cases List.mem_singleton.1 hmem
    exact ⟨p.name, h.name⟩
  · cases hpath
    rw [← h.definition]
    exact h.found

end Prepared

namespace Deployment

open Prepared

variable [Disk δ] {store : Store} {disk : δ} {service parent : String} {d : DeploymentSpec}
  {now : Int} {e : ProvisionError} {p : Input}

theorem faulty_of_prepare (h : prepare store disk service parent d now = .error e) :
    (Inputs.ofDeployment service d).Faulty store disk e := by
  rcases exists_of_bind_eq_error h with h | ⟨environment, -, h⟩
  · exact faulty_of_resolveName List.mem_cons_self h
  rcases exists_of_bind_eq_error h with h | ⟨model, -, h⟩
  · exact faulty_of_resolveName (List.mem_cons_of_mem _ List.mem_cons_self) h
  rcases exists_of_bind_eq_error h with h | ⟨definition, -, h⟩
  · exact faulty_of_findDefinition rfl h
  rcases exists_of_bind_eq_error h with h | ⟨overrides, -, h⟩
  · exact faulty_of_resolveOverrides h
  · cases h

/-- A deployment that is filled in. -/
structure FilledIn (store : Store) (disk : δ) (service parent : String) (d : DeploymentSpec)
    (now : Int) (p : Input) : Prop where
  name : p.name = freshName nameStart now
  endpoint : p.endpoint = parent
  environment : d.environment.name.resolve store.lookup = .ok p.environment
  model : d.model.name.resolve store.lookup = .ok p.model
  definition : p.definition = Path.join service d.deployment.path
  found : ∃ found, Disk.stat disk p.definition = .ok found
  overrides : d.deployment.overrides.arguments store.lookup = .ok p.overrides

theorem filledIn_of_prepare (h : prepare store disk service parent d now = .ok p) :
    FilledIn store disk service parent d now p := by
  obtain ⟨environment, henvironment, h⟩ := exists_of_bind_eq_ok h
  obtain ⟨model, hmodel, h⟩ := exists_of_bind_eq_ok h
  obtain ⟨definition, hdefinition, h⟩ := exists_of_bind_eq_ok h
  obtain ⟨overrides, hoverrides, h⟩ := exists_of_bind_eq_ok h
  obtain rfl := Except.ok.inj h
  obtain ⟨rfl, hfound⟩ := exists_stat_of_findDefinition hdefinition
  exact ⟨rfl, rfl, resolve_of_resolveName henvironment, resolve_of_resolveName hmodel, rfl, hfound,
    eq_ok_of_mapError_eq_ok hoverrides⟩

theorem FilledIn.not_faulty (h : FilledIn store disk service parent d now p) :
    ¬ (Inputs.ofDeployment service d).Faulty store disk e := by
  refine Inputs.not_faulty (fun kind t hmem => ?_) (fun kind path hpath => ?_) h.overrides
  · rcases List.mem_cons.1 hmem with heq | hmem
    · cases heq
      exact ⟨p.environment, h.environment⟩
    · cases List.mem_singleton.1 hmem
      exact ⟨p.model, h.model⟩
  · cases hpath
    rw [← h.definition]
    exact h.found

end Deployment

namespace Flow

variable [Disk δ] {store : Store} {disk : δ} {service : String} {c : Component} {now : Int}

theorem faulty_of_prepare {e : ProvisionError} (h : prepare store disk service c now = .error e) :
    (Inputs.ofComponent .flow service c).Faulty store disk e := by
  rcases exists_of_bind_eq_error h with h | ⟨p, -, h⟩
  · exact Prepared.faulty_of_nameFirst h
  · cases h

/-- Only the name of a flow depends on the time. -/
theorem exists_filledIn_of_prepare {p : Prepared} (h : prepare store disk service c now = .ok p) :
    ∃ q : Prepared, q.FilledIn store disk service c ∧
      p = { q with name := uniqueName q.name now } := by
  obtain ⟨q, hq, h⟩ := exists_of_bind_eq_ok h
  exact ⟨q, Prepared.filledIn_of_nameFirst hq, (Except.ok.inj h).symm⟩

end Flow

namespace Request

/-- The inputs that a request gives. -/
def inputs : Request → Inputs
  | .environment _ service c => .ofComponent .environment service c
  | .model _ service c => .ofComponent .model service c
  | .endpoint _ service c => .ofComponent .endpoint service c
  | .deployment _ service _ d _ => .ofDeployment service d
  | .flow _ service c _ => .ofComponent .flow service c
  | .workspace _ => ⟨[], none, .empty⟩
  | .endpointRecord .. => ⟨[], none, .empty⟩

variable [Disk δ] {store : Store} {disk : δ} {q : Request} {e : ProvisionError}

/-- The error with which inputs are refused is one that is in them. -/
theorem faulty_of_fill (h : q.fill store disk = .error e) : q.inputs.Faulty store disk e := by
  cases q with
  | environment => exact Prepared.faulty_of_definitionFirst h
  | model => exact Prepared.faulty_of_definitionFirst h
  | endpoint => exact Prepared.faulty_of_nameFirst h
  | deployment => exact Deployment.faulty_of_prepare h
  | flow => exact Flow.faulty_of_prepare h
  | workspace | endpointRecord => cases h

/-- Inputs that are filled in have no error. -/
theorem not_faulty_of_fill {p : q.Input} (h : q.fill store disk = .ok p) :
    ¬ q.inputs.Faulty store disk e := by
  cases q with
  | environment => exact (Prepared.filledIn_of_definitionFirst h).not_faulty
  | model => exact (Prepared.filledIn_of_definitionFirst h).not_faulty
  | endpoint => exact (Prepared.filledIn_of_nameFirst h).not_faulty
  | deployment => exact (Deployment.filledIn_of_prepare h).not_faulty
  | flow =>
    obtain ⟨q, hq, -⟩ := Flow.exists_filledIn_of_prepare h
    exact hq.not_faulty
  | workspace | endpointRecord => exact Inputs.not_faulty nofun nofun rfl

end Request

/-! ## From the first await on -/

/-- A course whose result is never an error in the inputs. -/
def Course.NeverAboutInput (course : Course κ α) : Prop :=
  ∀ xs e, course xs = .done (.error e) → e.isAboutInput = false

theorem Stage.isAboutInput_of_failure? {stage : Stage κ} {x : Exchange κ} {e : ProvisionError}
    (h : stage.failure? x = some e) : e.isAboutInput = false := by
  cases x with
  | run program arguments ended =>
    rw [Course.failure?_run] at h
    obtain ⟨failure, -, rfl⟩ := Option.map_eq_some_iff.1 h
    rfl
  | read client scope query answer =>
    rw [Course.failure?_read] at h
    obtain ⟨failure, -, rfl⟩ := Option.map_eq_some_iff.1 h
    rfl

theorem Op.Opens.isAboutInput {w : World σ κ} {kind : Kind} {name : String} {scope : Scope}
    {s s' : Session σ κ δ} {e : ProvisionError}
    (h : Op.Opens w kind name scope s (.error e, s')) : e.isAboutInput = false := by
  cases h <;> rfl

section

variable [Disk δ] {w : World σ κ} {publication? : Option (List (String × String))}
  {s : Session σ κ δ} {r : Except ProvisionError α × Session σ κ δ} {e : ProvisionError}

theorem Course.isAboutInput_of_conclude {a : α} {s : Session σ κ δ}
    (he : (conclude publication? a s).1 = .error e) : e.isAboutInput = false := by
  cases publication? with
  | none => cases he
  | some pairs =>
    rcases hset : s.store.setAll pairs s.disk with ⟨answer, store, disk⟩
    cases answer with
    | ok _ =>
      rw [conclude_of_ok hset] at he
      cases he
    | error failure =>
      rw [conclude_of_error hset] at he
      cases he
      rfl

theorem Course.Unfolds.isAboutInput {course : Course κ α}
    (h : Unfolds w publication? course s r) (hcourse : course.NeverAboutInput)
    (he : r.1 = .error e) : e.isAboutInput = false := by
  induction h with
  | cancelled =>
    cases he
    rfl
  | failed _ _ hfailure =>
    cases he
    exact Stage.isAboutInput_of_failure? hfailure
  | @next course _ _ _ x _ _ _ _ _ ih => exact ih (fun xs e' => hcourse ([x] ++ xs) e') he
  | useless hdone =>
    cases he
    exact hcourse [] _ hdone
  | finished => exact isAboutInput_of_conclude he

/-- An operation that has come to its first await does not fail on its inputs any more. -/
theorem Follows.isAboutInput {kind : Kind} {name : String} {scope : Scope} {course : κ → Course κ α}
    (h : Follows w kind name scope course publication? s r)
    (hcourse : ∀ client, (course client).NeverAboutInput) (he : r.1 = .error e) :
    e.isAboutInput = false := by
  cases h with
  | unopened hopens =>
    cases he
    exact hopens.isAboutInput
  | opened _ hrest => exact hrest.isAboutInput (hcourse _) he

end

namespace Course

variable (client : κ) (scope : Scope)

theorem neverAboutInput_environment (p : Prepared) :
    (environment client scope p).NeverAboutInput := by
  intro xs e h
  unfold environment at h
  split at h <;> cases h

theorem neverAboutInput_model (p : Prepared) : (model client scope p).NeverAboutInput := by
  intro xs e h
  unfold model at h
  split at h <;> cases h

theorem neverAboutInput_endpoint (p : Prepared) : (endpoint client scope p).NeverAboutInput := by
  intro xs e h
  unfold endpoint at h
  split at h <;> try split at h
  all_goals cases h

theorem neverAboutInput_deployment (p : Deployment.Input) :
    (deployment client scope p).NeverAboutInput := by
  intro xs e h
  unfold deployment at h
  split at h <;> cases h

theorem neverAboutInput_flow (p : Prepared) : (flow (κ := κ) scope p).NeverAboutInput := by
  intro xs e h
  unfold flow at h
  split at h
  · cases h
  · cases h
  · next output _ =>
    obtain ⟨fault, -, rfl⟩ := exists_of_mapError_eq_error (Next.done.inj h)
    rfl
  · cases h

theorem neverAboutInput_workspace : (workspace client scope).NeverAboutInput := by
  intro xs e h
  unfold workspace at h
  split at h
  · cases h
  · dsimp only at h
    split at h <;> cases h
    rfl
  · cases h

theorem neverAboutInput_endpointRecord (name : String) :
    (endpointRecord client scope name).NeverAboutInput := by
  intro xs e h
  unfold endpointRecord at h
  split at h <;> cases h

end Course

theorem Request.neverAboutInput (q : Request) (p : q.Input) (client : κ) :
    (q.course p client).NeverAboutInput := by
  cases q with
  | environment scope => exact Course.neverAboutInput_environment client scope p
  | model scope => exact Course.neverAboutInput_model client scope p
  | endpoint scope => exact Course.neverAboutInput_endpoint client scope p
  | deployment scope => exact Course.neverAboutInput_deployment client scope p
  | flow scope => exact Course.neverAboutInput_flow scope p
  | workspace scope => exact Course.neverAboutInput_workspace client scope
  | endpointRecord scope name => exact Course.neverAboutInput_endpointRecord client scope name

/-! ## All operations -/

/-- An operation with an error in its inputs fails with one of them, and leaves everything as it
was: nobody is called, and nothing is stored or opened.  An operation that has called anybody does
not fail on its inputs. -/
theorem inputs_first [Disk δ] (w : World σ κ) (q : Request) (s : Session σ κ δ) :
    ((∃ e, q.inputs.Faulty s.store s.disk e) →
      ∃ e, q.inputs.Faulty s.store s.disk e ∧ e.isAboutInput = true ∧
        (q.op w).run.run s = (.error e, s)) ∧
    (((q.op w).run.run s).2.calls ≠ s.calls →
      ∀ e, ((q.op w).run.run s).1 = .error e → e.isAboutInput = false) := by
  have hfollows := q.follows w s
  cases hfill : q.fill s.store s.disk with
  | error e =>
    rw [hfill] at hfollows
    obtain ⟨hrun, -⟩ := hfollows.1 e rfl
    have hfaulty := Request.faulty_of_fill hfill
    rw [hrun]
    exact ⟨fun _ => ⟨e, hfaulty, hfaulty.isAboutInput, rfl⟩, fun hcalls => absurd rfl hcalls⟩
  | ok p =>
    rw [hfill] at hfollows
    refine ⟨fun ⟨e, he⟩ => absurd he (Request.not_faulty_of_fill hfill), fun _ e he => ?_⟩
    exact (hfollows.2 p rfl).isAboutInput (q.neverAboutInput p) he

theorem inputs_first_emptyWorld :
    let w := Course.emptyWorld
    let s := Course.connectedSession
    let unset : Session Unit Unit FileTree :=
      { s with store := .memory ⟨KeyMap.empty⟩, client? := none }
    let q : Request := .deployment ⟨"sub", "rg", "ws"⟩ "svc" "parent"
      ⟨none, Course.thing, Course.thing, Course.thing⟩ 7
    (∃ e, q.inputs.Faulty unset.store unset.disk e ∧ e.isAboutInput = true ∧
        (q.op w).run.run unset = (.error e, unset)) ∧
      ∀ e, ((q.op w).run.run s).1 = .error e → e.isAboutInput = false := by
  intro w s unset q
  have hunset : Course.thing.name.resolve unset.store.lookup =
      .error (.unresolved "NAME" "$\x7bNAME\x7d") := by decide +kernel
  have hcalls : ((q.op w).run.run s).2.calls ≠ s.calls :=
    fun h => absurd (congrArg List.length h) (by decide +kernel)
  exact ⟨(inputs_first w q unset).1 ⟨_, .name List.mem_cons_self hunset⟩,
    (inputs_first w q s).2 hcalls⟩

end Provisioner
