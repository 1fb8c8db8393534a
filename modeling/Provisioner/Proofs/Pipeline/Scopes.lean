import Provisioner.Proofs.Operation.Scoped
import Provisioner.Proofs.Pipeline.Split

/-!
# The scope of a run

Everything that a run of the command line asks for, it asks for in one scope.  The scope comes
from the options and the store, where no part may be blank; but a service that names a workspace
replaces the last part, and nobody looks at that again.

* `Job.Calls` says what the calls of a job are like.  `Plan.calls_provision` and its siblings
  find those of every command in one scope.
* `scopeOf_isFilled` is the scope that a session is opened with.
* `Invocation.Switches` says that a service names a workspace.
* `isFilled_of_names` is what follows for the scope that a call names, and `not_forall_isFilled`
  that a service can leave the workspace blank.
-/

namespace Provisioner

variable {σ κ δ α β : Type}

deriving instance DecidableEq for Call

/-! ## The scope that a call names -/

/-- A call that names a scope: a program is told of it, or the control plane is asked about it. -/
inductive Call.Names (scope : Scope) : Call κ → Prop
  | run {program : Program} {arguments : Arguments}
      (h : Options.InScope scope (program.options arguments)) : Names scope (.run program arguments)
  | read (client : κ) (q : ControlPlane.Query) : Names scope (.read client scope q)

theorem Options.InScope.unique {scope scope' : Scope} {options : List (String × String)}
    (h : InScope scope options) (h' : InScope scope' options) : scope = scope' := by
  have hsubscription := List.singleton_inj.1 (h.subscription.symm.trans h'.subscription)
  have hgroup := List.singleton_inj.1 (h.resourceGroup.symm.trans h'.resourceGroup)
  have hworkspace := List.singleton_inj.1 (h.workspace.symm.trans h'.workspace)
  cases scope
  cases scope'
  simp_all

/-- A call in a scope names no other one. -/
theorem Call.Names.eq {scope scope' : Scope} {call : Call κ} (h : call.Names scope)
    (hscope : call.InScope scope') : scope = scope' := by
  cases h with
  | run h => exact h.unique hscope
  | read => exact hscope

/-- A scope no part of which is blank. -/
structure Scope.IsFilled (scope : Scope) : Prop where
  subscription : Text.allBlank scope.subscription = false
  resourceGroup : Text.allBlank scope.resourceGroup = false
  workspace : Text.allBlank scope.workspace = false

/-- The scope of a service is the base scope, unless the service names a workspace. -/
theorem Scope.resolve_eq_ok {store : Store} {base scope : Scope} {workspace? : Option Template}
    (h : Scope.resolve store base workspace? = .ok scope) :
    (workspace?.filter (fun t => !t.isEmpty) = none ∧ scope = base) ∨
      ∃ t name, workspace? = some t ∧ t.isEmpty = false ∧ t.resolve store.lookup = .ok name ∧
        scope = base.withWorkspace name := by
  unfold resolve at h
  split at h
  · next hnone => exact .inl ⟨hnone, (Except.ok.inj h).symm⟩
  · next t hsome =>
    obtain ⟨rfl, hempty⟩ := Option.filter_eq_some_iff.1 hsome
    split at h
    · next name hname =>
      exact .inr ⟨t, name, rfl, Bool.not_eq_true' _ ▸ hempty, hname, (Except.ok.inj h).symm⟩
    · cases h

namespace Cli

/-! ## The calls of a job -/

namespace Job

/-- A job whose calls have a property, whatever comes of it. -/
def Calls (P : Call κ → Prop) (job : Job σ κ δ α) : Prop :=
  ∀ t s, ∃ calls, (job.run.run (t, s)).2.2.calls = s.calls ++ calls ∧ ∀ call ∈ calls, P call

variable {P : Call κ → Prop} {job : Job σ κ δ α}

theorem calls_of_unchanged (h : ∀ t s, (job.run.run (t, s)).2.2 = s) : Calls P job := by
  intro t s
  exact ⟨[], by rw [h, List.append_nil], nofun⟩

theorem calls_pure (a : α) : Calls P (pure a : Job σ κ δ α) :=
  calls_of_unchanged fun _ _ => rfl

theorem OnlyPrints.calls (h : OnlyPrints job) : Calls P job := by
  refine calls_of_unchanged fun t s => ?_
  obtain ⟨a, output, hrun⟩ := h t s
  rw [hrun]

theorem calls_print (line : String) : Calls P (print line : Job σ κ δ Unit) :=
  (onlyPrints_print line).calls

theorem Calls.bind {next : α → Job σ κ δ β} (hjob : Calls P job)
    (hnext : ∀ a, Calls P (next a)) : Calls P (job >>= next) := by
  intro t s
  obtain ⟨calls, hcalls, hall⟩ := hjob t s
  rw [run_bind]
  rcases hrun : job.run.run (t, s) with ⟨answer, t', s'⟩
  rw [hrun] at hcalls
  cases answer with
  | error e => exact ⟨calls, hcalls, hall⟩
  | ok a =>
    obtain ⟨more, hmore, hall'⟩ := hnext a t' s'
    refine ⟨calls ++ more, ?_, List.forall_mem_append.2 ⟨hall, hall'⟩⟩
    rw [← List.append_assoc, ← hcalls]
    exact hmore

theorem Calls.map {f : α → β} (hjob : Calls P job) : Calls P (f <$> job) := by
  intro t s
  rw [run_map]
  exact hjob t s

theorem calls_discard_bind {next : PUnit → Job σ κ δ β} (hjob : Calls P job)
    (hnext : Calls P (next ⟨⟩)) : Calls P (discard job >>= next) := by
  intro t s
  rw [run_discard_bind]
  exact hjob.bind (fun _ => hnext) t s

theorem calls_orExplain (st : Setting) (answer : Except ProvisionError α) :
    Calls P (orExplain st answer : Job σ κ δ α) := by
  refine calls_of_unchanged fun t s => ?_
  cases answer with
  | ok a => rfl
  | error e =>
    obtain ⟨lines, hfails⟩ := exists_run_orExplain_error (σ := σ) (κ := κ) (δ := δ) (α := α) st e
    rw [hfails]

theorem calls_perform (st : Setting) {op : Op σ κ δ α}
    (hop : ∀ s, ∃ calls, (op.run.run s).2.calls = s.calls ++ calls ∧ ∀ call ∈ calls, P call) :
    Calls P (perform st op) := by
  intro t s
  obtain ⟨calls, hcalls, hall⟩ := hop s
  rw [run_perform]
  obtain ⟨none, hnone, hall'⟩ := calls_orExplain (P := P) st (op.run.run s).1 t (op.run.run s).2
  refine ⟨calls ++ none, ?_, List.forall_mem_append.2 ⟨hall, hall'⟩⟩
  rw [hnone, hcalls, List.append_assoc]

/-- What a request is asked for in a command is in the scope of the request. -/
theorem calls_request [Disk δ] (w : World σ κ) (st : Setting) (q : Request) :
    Calls (Call.InScope q.scope) (perform st (q.op w : Op σ κ δ q.Record)) :=
  calls_perform st (q.inScope w)

end Job

open Job

/-! ## The commands -/

variable [Disk δ] {w : World σ κ} {st : Setting} {scope : Scope}

namespace Plan

variable {p : Plan} {made? : Option String}

omit [Disk δ] in
theorem calls_endpointFor (P : Call κ → Prop) :
    Calls P (p.endpointFor made? : Job σ κ δ String) := by
  refine calls_of_unchanged fun t s => ?_
  rw [run_endpointFor]
  cases made?.or (s.store.get? Failure.endpointKey) <;> rfl

theorem calls_provisionEndpoint (c : Component) :
    Calls (Call.InScope scope) (provisionEndpoint w st scope p c : Job σ κ δ String) := by
  refine (calls_request w st (.endpoint scope p.directory c)).bind fun record => ?_
  refine (onlyPrints_publishedName st _).calls.bind fun _ => ?_
  refine (onlyPrints_printDone st _).calls.bind fun _ => ?_
  have hname : ∀ f : Store → String, Calls (Call.InScope scope)
      (do return f (← Job.store) : Job σ κ δ String) :=
    fun _ => (onlyPrints_store.bind fun _ => onlyPrints_pure _).calls
  split
  · exact (calls_print _).bind fun _ => hname _
  · exact hname _

theorem calls_provisionKind (kind : Kind) :
    Calls (Call.InScope scope)
      (provisionKind w st scope p made? kind : Job σ κ δ (Option String)) := by
  unfold provisionKind
  cases kind with
  | workspace => exact calls_pure _
  | environment =>
    cases p.resources.environment? with
    | none => exact calls_pure _
    | some c =>
      refine (calls_request w st (.environment scope p.directory c)).bind fun _ => ?_
      exact (onlyPrints_printVersion st _ _).calls.bind fun _ => calls_pure _
  | model =>
    cases p.resources.model? with
    | none => exact calls_pure _
    | some c =>
      refine (calls_request w st (.model scope p.directory c)).bind fun _ => ?_
      exact (onlyPrints_printVersion st _ _).calls.bind fun _ => calls_pure _
  | endpoint =>
    cases p.resources.endpoint? with
    | none => exact calls_pure _
    | some c => exact (calls_provisionEndpoint c).map
  | deployment =>
    cases p.deployment? with
    | none => exact calls_pure _
    | some d =>
      refine Calls.bind ?_ fun _ => calls_pure _
      refine (calls_endpointFor _).bind fun endpoint => ?_
      refine (calls_request w st
        (.deployment scope p.directory endpoint d (st.clock .deployment))).bind fun record => ?_
      exact (onlyPrints_deployment st endpoint record).calls
  | flow =>
    cases p.resources.flow? with
    | none => exact calls_pure _
    | some c =>
      refine Calls.bind ?_ fun _ => calls_pure _
      refine (calls_request w st (.flow scope p.directory c (st.clock .flow))).bind fun record => ?_
      exact (onlyPrints_flow st record).calls

theorem calls_provisionKinds (kinds : List Kind) (made? : Option String) :
    Calls (Call.InScope scope) (provisionKinds w st scope p kinds made? : Job σ κ δ Unit) := by
  induction kinds generalizing made? with
  | nil => exact calls_pure _
  | cons kind rest ih => exact (calls_provisionKind kind).bind fun made? => ih made?

/-- What is done once the scope of the service is known. -/
theorem calls_afterResolve (w : World σ κ) (st : Setting) (p : Plan) (scope : Scope) :
    Calls (Call.InScope scope) (do
      Job.print ("🚀 Provisioning service: " ++ st.paint .cyan p.service)
      Job.print ("   Workspace: " ++ st.paint .dimmed scope.display)
      Job.print ""
      discard <| Job.perform st (Op.ensureWorkspace w scope)
      printDone st ("workspace " ++ scope.workspace)
      provisionKinds w st scope p p.kinds none
      Job.print ""
      Job.print (st.paint .boldGreen "✓ Provisioning complete") : Job σ κ δ Unit) := by
  refine (calls_print _).bind fun _ => ?_
  refine (calls_print _).bind fun _ => ?_
  refine (calls_print _).bind fun _ => ?_
  refine calls_discard_bind (calls_request w st (.workspace scope)) ?_
  refine (onlyPrints_printDone st _).calls.bind fun _ => ?_
  refine (calls_provisionKinds p.kinds none).bind fun _ => ?_
  exact (calls_print _).bind fun _ => calls_print _

/-- A plan is carried out in the scope that the service comes to, if it comes to one. -/
theorem calls_provision (w : World σ κ) (st : Setting) (p : Plan) (base : Scope) (t : Transcript)
    (s : Session σ κ δ) :
    ∃ calls, ((p.provision w st base).run.run (t, s)).2.2.calls = s.calls ++ calls ∧
      ∀ call ∈ calls, ∃ scope, Scope.resolve s.store base p.resources.workspace? = .ok scope ∧
        call.InScope scope := by
  have hrun : (p.provision w st base).run.run (t, s) =
      (Job.orExplain st (Scope.resolve s.store base p.resources.workspace?) >>= fun scope => do
        Job.print ("🚀 Provisioning service: " ++ st.paint .cyan p.service)
        Job.print ("   Workspace: " ++ st.paint .dimmed scope.display)
        Job.print ""
        discard <| Job.perform st (Op.ensureWorkspace w scope)
        printDone st ("workspace " ++ scope.workspace)
        provisionKinds w st scope p p.kinds none
        Job.print ""
        Job.print (st.paint .boldGreen "✓ Provisioning complete")).run.run (t, s) := rfl
  rw [hrun]
  cases Scope.resolve s.store base p.resources.workspace? with
  | error e =>
    obtain ⟨lines, hfails⟩ :=
      exists_run_orExplain_error (σ := σ) (κ := κ) (δ := δ) (α := Scope) st e
    rw [run_bind_of_error (hfails t s)]
    exact ⟨[], (List.append_nil _).symm, nofun⟩
  | ok scope =>
    obtain ⟨calls, hcalls, hall⟩ := calls_afterResolve w st p scope t s
    exact ⟨calls, hcalls, fun call hmem => ⟨scope, rfl, hall call hmem⟩⟩

end Plan

omit [Disk δ] in
theorem onlyPrints_printTraffic (st : Setting) (traffic : KeyMap Nat) :
    OnlyPrints (printTraffic st traffic : Job σ κ δ Unit) := by
  unfold printTraffic
  split
  · exact onlyPrints_print _
  · refine (onlyPrints_print _).bind fun _ => ?_
    induction traffic.entries with
    | nil => exact onlyPrints_pure _
    | cons entry rest ih =>
      simp only [List.forIn_cons, bind_assoc]
      exact (onlyPrints_print _).bind fun _ => ih

theorem calls_showEndpoint (w : World σ κ) (st : Setting) (scope : Scope) (name : String) :
    Calls (Call.InScope scope) (showEndpoint w st scope name : Job σ κ δ Unit) := by
  refine (calls_request w st (.endpointRecord scope name)).bind fun record => ?_
  refine (calls_print _).bind fun _ => (calls_print _).bind fun _ => ?_
  refine (calls_print _).bind fun _ => (calls_print _).bind fun _ => ?_
  exact (onlyPrints_printTraffic st _).calls

theorem calls_checkWorkspace (w : World σ κ) (st : Setting) (scope : Scope) :
    Calls (Call.InScope scope) (checkWorkspace w st scope : Job σ κ δ Unit) := by
  refine (calls_print _).bind fun _ => ?_
  refine (calls_request w st (.workspace scope)).bind fun record => ?_
  rcases record.properties.friendlyName with _ | name <;>
    rcases record.properties.provisioningState with _ | state
  · exact calls_print _
  · exact (calls_print _).bind fun _ => calls_print _
  · exact (calls_print _).bind fun _ => calls_print _
  · exact (calls_print _).bind fun _ => (calls_print _).bind fun _ => calls_print _

/-! ## Opening the session -/

omit [Disk δ] in
theorem scopePart_isFilled {store : Store} {given? : Option String} {flag : Flag} {value : String}
    (h : scopePart store given? flag = .ok value) : Text.allBlank value = false := by
  unfold scopePart at h
  split at h
  · next hvalue =>
    obtain rfl := Except.ok.inj h
    exact Bool.not_eq_true' _ ▸ (Option.filter_eq_some_iff.1 hvalue).2
  · cases h

/-- No part of the scope that a session is opened with is blank. -/
theorem scopeOf_isFilled {options : Options} {store : Store}
    (h : scopeOf options store = .ok scope) : scope.IsFilled := by
  obtain ⟨subscription, hsubscription, h⟩ := exists_of_bind_eq_ok h
  obtain ⟨group, hgroup, h⟩ := exists_of_bind_eq_ok h
  obtain ⟨workspace, hworkspace, h⟩ := exists_of_bind_eq_ok h
  obtain rfl := Except.ok.inj h
  exact ⟨scopePart_isFilled hsubscription, scopePart_isFilled hgroup,
    scopePart_isFilled hworkspace⟩

/-! ## The command line -/

/-- A command that provisions a service which names a workspace: where the service is found, the
template that it gives and what this comes to in the store of the environment. -/
def Invocation.Switches (st : Setting) (d : δ) (i : Invocation) (workspace : String) : Prop :=
  ∃ (service : String) (only : List Kind) (project : Project) (found : Service) (t : Template)
    (file : Store.DotenvFile),
    i.command = .provision service only ∧ Project.discover st.environment d = .ok project ∧
      project.service service = .ok found ∧ found.resources.workspace? = some t ∧
      t.isEmpty = false ∧
      Store.DotenvFile.openIn st.environment project.root i.options.environment d = .ok file ∧
      t.resolve (Store.dotenv file).lookup = .ok workspace

/-- The scope that a command works in: the one that its session is opened with, with the
workspace that the service names, if it names one. -/
inductive Invocation.WorksIn (st : Setting) (d : δ) (i : Invocation) : Scope → Prop
  | opened {scope : Scope} (hfilled : scope.IsFilled)
    (h : ∀ workspace, ¬ i.Switches st d workspace) : WorksIn st d i scope
  | switched {base : Scope} {workspace : String} (hfilled : base.IsFilled)
    (h : i.Switches st d workspace) : WorksIn st d i (base.withWorkspace workspace)

theorem Plan.exists_of_make {service : String} {only : List Kind} {d : δ} {p : Plan}
    (h : Plan.make st service only d = .ok p) :
    ∃ project found, Project.discover st.environment d = .ok project ∧
      project.service service = .ok found ∧ p.root = project.root ∧
      p.resources.workspace? = found.resources.workspace? := by
  obtain ⟨project, hproject, h⟩ := exists_of_bind_eq_ok h
  obtain ⟨ordered, hordered, h⟩ := exists_of_bind_eq_ok h
  obtain ⟨deployment?, -, h⟩ := exists_of_bind_eq_ok h
  obtain rfl := Except.ok.inj h
  obtain ⟨found, hfound, rfl⟩ := exists_of_map_eq_ok (eq_ok_of_mapError_eq_ok hordered)
  exact ⟨project, found, eq_ok_of_mapError_eq_ok hproject, hfound, rfl, rfl⟩

theorem Invocation.Switches.command {d : δ} {i : Invocation} {workspace : String}
    (h : i.Switches st d workspace) : ∃ service only, i.command = .provision service only := by
  obtain ⟨service, only, -, -, -, -, hcommand, -⟩ := h
  exact ⟨service, only, hcommand⟩

/-- A command switches to one workspace. -/
theorem Invocation.Switches.unique {d : δ} {i : Invocation} {workspace workspace' : String}
    (h : i.Switches st d workspace) (h' : i.Switches st d workspace') : workspace = workspace' := by
  obtain ⟨service, only, project, found, t, file, hcommand, hproject, hfound, ht, -, hfile,
    hname⟩ := h
  obtain ⟨service', only', project', found', t', file', hcommand', hproject', hfound', ht', -,
    hfile', hname'⟩ := h'
  obtain ⟨rfl, rfl⟩ := Command.provision.inj (hcommand.symm.trans hcommand')
  obtain rfl := Except.ok.inj (hproject.symm.trans hproject')
  obtain rfl := Except.ok.inj (hfound.symm.trans hfound')
  obtain rfl := Option.some.inj (ht.symm.trans ht')
  obtain rfl := Except.ok.inj (hfile.symm.trans hfile')
  exact Except.ok.inj (hname.symm.trans hname')

/-- Only the command that provisions a service switches to another workspace. -/
theorem Invocation.WorksIn.of_command {d : δ} {i : Invocation} (hfilled : scope.IsFilled)
    (h : ∀ service only, i.command ≠ .provision service only) : i.WorksIn st d scope := by
  refine .opened hfilled fun workspace hswitches => ?_
  obtain ⟨service, only, hcommand⟩ := hswitches.command
  exact h service only hcommand

theorem Invocation.WorksIn.of_resolve {d : δ} {i : Invocation} {service : String}
    {only : List Kind} {project : Project} {found : Service} {file : Store.DotenvFile}
    {base : Scope}
    (hcommand : i.command = .provision service only)
    (hproject : Project.discover st.environment d = .ok project)
    (hfound : project.service service = .ok found)
    (hfile : Store.DotenvFile.openIn st.environment project.root i.options.environment d = .ok file)
    (hfilled : base.IsFilled)
    (h : Scope.resolve (.dotenv file) base found.resources.workspace? = .ok scope) :
    i.WorksIn st d scope := by
  rcases Scope.resolve_eq_ok h with ⟨hnone, rfl⟩ | ⟨t, workspace, ht, hempty, hname, rfl⟩
  · refine .opened hfilled fun workspace hswitches => ?_
    obtain ⟨service', only', project', found', t, -, hcommand', hproject', hfound', ht, hempty,
      -⟩ := hswitches
    obtain ⟨rfl, rfl⟩ := Command.provision.inj (hcommand.symm.trans hcommand')
    obtain rfl := Except.ok.inj (hproject.symm.trans hproject')
    obtain rfl := Except.ok.inj (hfound.symm.trans hfound')
    rw [ht, Option.filter_some, hempty] at hnone
    cases hnone
  · exact .switched hfilled ⟨service, only, project, found, t, file, hcommand, hproject, hfound, ht,
      hempty, hfile, hname⟩

omit [Disk δ] in
theorem calls_ofJob (r : Except Failure Unit × Transcript × Session σ κ δ) :
    (Outcome.ofJob r).calls = r.2.2.calls := by
  obtain ⟨_ | _, t, s⟩ := r <;> rfl

omit [Disk δ] in
/-- What a job asks for that begins a session. -/
theorem Job.Calls.of_mem {P : Call κ → Prop} {job : Job σ κ δ Unit} (h : Calls P job)
    {t : Transcript} {s : σ} {d : δ} {store : Store} {call : Call κ}
    (hcall : call ∈ (Outcome.ofJob (job.run.run (t, ⟨s, d, store, none, []⟩))).calls) : P call := by
  obtain ⟨calls, hcalls, hall⟩ := h t ⟨s, d, store, none, []⟩
  rw [calls_ofJob, hcalls] at hcall
  exact hall call hcall

/-- The calls of a task come after its session is open. -/
theorem Task.exists_opened {w? : Except Azure.Failure (World σ κ)} {options : Options}
    {task : Task σ κ δ} {s : σ} {d : δ} {call : Call κ}
    (h : call ∈ (task.run w? st options s d).calls) :
    ∃ w store base, openSession st options task.root d = .ok (store, base) ∧
      call ∈ (Outcome.ofJob ((task.job w base).run.run
        (default, ⟨s, d, store, none, []⟩))).calls := by
  unfold Task.run at h
  split at h
  · cases h
  · next store base hopen =>
    split at h
    · cases h
    · next w => exact ⟨w, store, base, hopen, h⟩

/-- Everything that a command asks for is in the scope that it works in. -/
theorem Invocation.exists_worksIn {w? : Except Azure.Failure (World σ κ)} {i : Invocation} {s : σ}
    {d : δ} {call : Call κ} (h : call ∈ (i.run w? st s d).calls) :
    ∃ scope, call.InScope scope ∧ i.WorksIn st d scope := by
  unfold Invocation.run at h
  split at h
  · cases h
  · cases h
  · next task htask =>
    obtain ⟨w, store, base, hopen, hcall⟩ := Task.exists_opened h
    obtain ⟨file, rfl, hfile, hbase⟩ := exists_of_openSession hopen
    have hfilled := scopeOf_isFilled hbase
    obtain ⟨options, command⟩ := i
    cases command with
    | version => cases htask
    | showEndpoint name =>
      obtain ⟨root, -, htask⟩ := exists_of_bind_eq_ok htask
      obtain rfl := Sum.inl.inj (Except.ok.inj htask)
      exact ⟨base, (calls_showEndpoint w st base name).of_mem hcall, .of_command hfilled nofun⟩
    | checkWorkspace =>
      obtain ⟨root, -, htask⟩ := exists_of_bind_eq_ok htask
      obtain rfl := Sum.inl.inj (Except.ok.inj htask)
      exact ⟨base, (calls_checkWorkspace w st base).of_mem hcall, .of_command hfilled nofun⟩
    | provision service only =>
      obtain ⟨p, hmake, htask⟩ := exists_of_bind_eq_ok htask
      split at htask
      · cases htask
      obtain rfl := Sum.inl.inj (Except.ok.inj htask)
      obtain ⟨project, found, hproject, hfound, hroot, hworkspace⟩ := Plan.exists_of_make hmake
      obtain ⟨calls, hcalls, hall⟩ :=
        p.calls_provision w st base default ⟨s, d, .dotenv file, none, []⟩
      rw [calls_ofJob, hcalls] at hcall
      obtain ⟨scope, hscope, hcall⟩ := hall call hcall
      rw [hworkspace] at hscope
      exact ⟨scope, hcall, .of_resolve rfl hproject hfound (hroot ▸ hfile) hfilled hscope⟩

/-- What becomes of the scope that a call of a command line names.  Its subscription and its
resource group are never blank.  Its workspace is blank exactly if a service is provisioned that
switches to a blank workspace. -/
theorem isFilled_of_names {w? : Except Azure.Failure (World σ κ)} {words : List String} {s : σ}
    {d : δ} {call : Call κ} (hcall : call ∈ (Cli.run w? st words s d).calls)
    (hnames : call.Names scope) :
    Text.allBlank scope.subscription = false ∧ Text.allBlank scope.resourceGroup = false ∧
      (Text.allBlank scope.workspace = true ↔ ∃ i workspace,
        Invocation.parse st.environment words = .ok i ∧ i.Switches st d workspace ∧
          Text.allBlank workspace = true) := by
  unfold Cli.run at hcall
  split at hcall
  · next i hparse =>
    obtain ⟨scope', hscope, hworks⟩ := i.exists_worksIn hcall
    obtain rfl := hnames.eq hscope
    have hunique : ∀ {i'}, Invocation.parse st.environment words = .ok i' → i = i' :=
      fun hparse' => Except.ok.inj (hparse.symm.trans hparse')
    cases hworks with
    | opened hfilled hnot =>
      refine ⟨hfilled.subscription, hfilled.resourceGroup, fun hblank => ?_, ?_⟩
      · exact absurd (hfilled.workspace.symm.trans hblank) Bool.false_ne_true
      · rintro ⟨i', workspace, hparse', hswitches, -⟩
        obtain rfl := hunique hparse'
        exact absurd hswitches (hnot workspace)
    | @switched base workspace hfilled hswitches =>
      refine ⟨hfilled.subscription, hfilled.resourceGroup, fun hblank => ?_, ?_⟩
      · exact ⟨i, workspace, hparse, hswitches, hblank⟩
      · rintro ⟨i', workspace', hparse', hswitches', hblank⟩
        obtain rfl := hunique hparse'
        obtain rfl := hswitches.unique hswitches'
        exact hblank
  all_goals cases hcall

/-- A disk with a project file for a service whose workspace is what a variable says. -/
def switchingTree : FileTree :=
  ⟨[(["p"], .directory), (["p", "fleetml.yaml"], .file (.text
    ("\"services\":\n \"s\":\n  \"config\":\n   \"workspace\": \"$WORKSPACE\"\n"
      ++ "   \"endpoint\":\n    \"name\": \"ep\"\n")) false)], ["p"]⟩

/-- A setting in which that variable is blank. -/
def blankSetting : Setting :=
  ⟨KeyMap.ofList [("AZURE_SUBSCRIPTION_ID", "sub"), ("AZURE_RESOURCE_GROUP", "rg"),
    ("AZUREML_WORKSPACE_NAME", "ws"), ("WORKSPACE", " ")], false, fun _ => 7, default⟩

theorem read_mem_calls_switchingTree :
    .read () ⟨"sub", "rg", " "⟩ .workspace ∈
      (Cli.run (.ok countingWorld) blankSetting ["provision", "s"] 0 switchingTree).calls := by
  decide +kernel

theorem isFilled_of_names_switchingTree :
    ∃ i workspace, Invocation.parse blankSetting.environment ["provision", "s"] = .ok i ∧
      i.Switches blankSetting switchingTree workspace ∧ Text.allBlank workspace = true :=
  (isFilled_of_names read_mem_calls_switchingTree (.read () .workspace)).2.2.1 (by decide)

/-- A service can leave the workspace blank: nobody looks at what its template comes to. -/
theorem not_forall_isFilled :
    ¬ ∀ (w : World Nat Unit) (st : Setting) (words : List String) (s : Nat) (d : FileTree)
      (call : Call Unit) (scope : Scope), call ∈ (Cli.run (.ok w) st words s d).calls →
      call.Names scope → scope.IsFilled := by
  intro hall
  have hfilled := hall countingWorld blankSetting ["provision", "s"] 0 switchingTree _ _
    read_mem_calls_switchingTree (.read () .workspace)
  exact absurd hfilled.workspace (by decide)

end Cli

end Provisioner
