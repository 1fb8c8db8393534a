import Provisioner.Cli.Provision
import Provisioner.Proofs.Operation.Agreement
import Provisioner.Proofs.Store.Reload

/-!
# Steps of the pipeline

The step of a kind ends alike whether it follows the steps before it in one run or is a
run of its own, in a session that is opened on the file, and in whichever order each of the two
goes through overrides.

* `Job.OnlyPrints` are the parts of a step that print and do nothing else.
* `Quiet` and `Told` relate sessions with what they have reported.
* `Carried` is what a run carries from step to step in memory, and what a session that is
  opened on the file has all the same: the values, and the endpoint that was made.
* `Plan.Rearranged` says of two plans that they differ in the order of overrides, and
  `alike_provisionKind` is the step of a kind.
-/

namespace Provisioner

/-- What a service deploys is its deployment. -/
theorem Resources.deployment_of_deploymentSpec {r : Resources} {name : String}
    {d? : Option DeploymentSpec} (h : r.deploymentSpec name = .ok d?) :
    r.deployment? = d?.map (·.deployment) := by
  unfold deploymentSpec at h
  split at h
  · next hnone =>
    cases h
    exact hnone
  · cases h
  · cases h
  · next hdeployment _ _ =>
    cases h
    exact hdeployment

namespace Cli

open Session Store

variable {σ τ κ δ α β : Type} {free : Prop}

/-! ## Printing -/

namespace Job

/-- A job that prints, but reports no errors and leaves the session alone. -/
def OnlyPrints (job : Job σ κ δ α) : Prop :=
  ∀ t s, ∃ a output, job.run.run (t, s) = (.ok a, ⟨output, t.errors⟩, s)

theorem onlyPrints_pure (a : α) : OnlyPrints (pure a : Job σ κ δ α) :=
  fun t _ => ⟨a, t.output, rfl⟩

theorem onlyPrints_print (line : String) : OnlyPrints (print line : Job σ κ δ Unit) :=
  fun t _ => ⟨(), t.output ++ [line], rfl⟩

theorem onlyPrints_store : OnlyPrints (store : Job σ κ δ Store) :=
  fun t s => ⟨s.store, t.output, rfl⟩

theorem OnlyPrints.bind {job : Job σ κ δ α} {next : α → Job σ κ δ β} (hjob : OnlyPrints job)
    (hnext : ∀ a, OnlyPrints (next a)) : OnlyPrints (job >>= next) := by
  intro t s
  obtain ⟨a, output, hrun⟩ := hjob t s
  obtain ⟨b, output', hrun'⟩ := hnext a ⟨output, t.errors⟩ s
  exact ⟨b, output', by rw [run_bind_of_ok hrun, hrun']⟩

/-- A job that reports the same errors in every session, and does nothing else. -/
def OnlyReports (job : Job σ κ δ Unit) : Prop :=
  ∃ lines, ∀ t s, job.run.run (t, s) = (.ok (), { t with errors := t.errors ++ lines }, s)

theorem onlyReports_pure : OnlyReports (pure () : Job σ κ δ Unit) :=
  ⟨[], fun t s => by rw [List.append_nil]; rfl⟩

theorem onlyReports_printError (line : String) :
    OnlyReports (printError line : Job σ κ δ Unit) :=
  ⟨[line], fun _ _ => rfl⟩

theorem OnlyReports.bind {job next : Job σ κ δ Unit} (hjob : OnlyReports job)
    (hnext : OnlyReports next) : OnlyReports (job >>= fun _ => next) := by
  obtain ⟨lines, hrun⟩ := hjob
  obtain ⟨more, hrun'⟩ := hnext
  refine ⟨lines ++ more, fun t s => ?_⟩
  rw [run_bind_of_ok (hrun t s), hrun', List.append_assoc]

theorem onlyReports_printStream (st : Setting) (title text : String) :
    OnlyReports (printStream st title text : Job σ κ δ Unit) := by
  unfold printStream
  split
  · exact (onlyReports_printError _).bind (onlyReports_printError _)
  · exact onlyReports_pure

theorem onlyReports_explain (st : Setting) (e : ProvisionError) :
    OnlyReports (explain st e : Job σ κ δ Unit) := by
  have hstreams : ∀ output : Program.Output, OnlyReports (do
      printStream st "--- tool stdout ---" output.stdout
      printStream st "--- tool stderr ---" output.stderr : Job σ κ δ Unit) :=
    fun output => (onlyReports_printStream st _ _).bind (onlyReports_printStream st _ _)
  unfold explain
  cases e.isCancelled with
  | true =>
    refine (onlyReports_printError _).bind ?_
    cases e.output? with
    | none => exact onlyReports_pure
    | some output => exact hstreams output
  | false =>
    cases e.output? with
    | none => exact onlyReports_pure
    | some output => exact hstreams output

theorem run_perform (st : Setting) (op : Op σ κ δ α) (t : Transcript) (s : Session σ κ δ) :
    (perform st op).run.run (t, s) =
      (orExplain st (op.run.run s).1).run.run (t, (op.run.run s).2) :=
  rfl

/-- Nothing is said of an override that cannot be filled in beyond the report. -/
theorem run_orExplain_of_refuses (st : Setting) {overrides : Overrides}
    {lookup : Template.Lookup} {e : ProvisionError} (h : overrides.Refuses lookup e)
    (t : Transcript) (s : Session σ κ δ) : (orExplain st (.error e) : Job σ κ δ α).run.run (t, s) =
      (.error (.operation e), t, s) := by
  obtain ⟨key, t, source, -, -, rfl⟩ := h
  rfl

/-- A failed operation is explained in the same words in every session. -/
theorem exists_run_orExplain_error (st : Setting) (e : ProvisionError) :
    ∃ lines, ∀ t s, (orExplain st (.error e) : Job σ κ δ α).run.run (t, s) =
      (.error (.operation e), { t with errors := t.errors ++ lines }, s) := by
  obtain ⟨lines, hexplain⟩ := onlyReports_explain (σ := σ) (κ := κ) (δ := δ) st e
  refine ⟨lines, fun t s => ?_⟩
  show (explain st e >>= fun _ => throw (.operation e)).run.run (t, s) = _
  rw [run_bind_of_ok (hexplain t s)]
  rfl

end Job

/-! ## Jobs side by side -/

/-- Sessions that are related, and have reported no errors. -/
def Quiet (R : Session σ κ δ → Session σ κ δ → Prop) (ts ts' : Transcript × Session σ κ δ) :
    Prop :=
  ts.1.errors = [] ∧ ts'.1.errors = [] ∧ R ts.2 ts'.2

/-- The failure of a job at an override that cannot be filled in. -/
def StopsAt (overrides : Overrides) (lookup : Template.Lookup) (e : Failure) : Prop :=
  ∃ source, e = .operation source ∧ overrides.Refuses lookup source

/-- How jobs fail alike: they report the same errors and the same failure or, if the order of
overrides is free, failures that stop them before they have reported or done anything. -/
def Told (free : Prop) (view : σ → τ) (before : List (Call Unit)) (store : Store) (disk : δ)
    (Stops : Failure → Prop) (e e' : Failure) (ts ts' : Transcript × Session σ κ δ) : Prop :=
  ts.1.errors = ts'.1.errors ∧ Same (Ended free view before) e e' ts.2 ts'.2 ∨
    free ∧ Stops e ∧ Stops e' ∧ Quiet (Agree free view before store disk) ts ts'

theorem Told.mono {view : σ → τ} {before : List (Call Unit)} {store : Store} {disk : δ}
    {Stops Stops' : Failure → Prop} {e e' : Failure} {ts ts' : Transcript × Session σ κ δ}
    (h : Told free view before store disk Stops e e' ts ts') (hstops : ∀ e, Stops e → Stops' e) :
    Told free view before store disk Stops' e e' ts ts' :=
  h.imp_right fun ⟨hfree, he, he', hs⟩ => ⟨hfree, hstops e he, hstops e' he', hs⟩

namespace Job

variable {R : Session σ κ δ → Session σ κ δ → Prop}

theorem alike_onlyPrints {job job' : Job σ κ δ α}
    {E : Failure → Failure → Transcript × Session σ κ δ → Transcript × Session σ κ δ → Prop}
    (hjob : OnlyPrints job) (hjob' : OnlyPrints job') :
    Alike (Quiet R) job job' (fun _ _ => Quiet R) E := by
  rintro ⟨t, s⟩ ⟨t', s'⟩ ⟨ht, ht', hs⟩
  obtain ⟨a, output, hrun⟩ := hjob t s
  obtain ⟨a', output', hrun'⟩ := hjob' t' s'
  rw [hrun, hrun']
  exact .ok ⟨ht, ht', hs⟩

/-- An operation that ends alike is performed alike. -/
theorem alike_perform {P : Session σ κ δ → Session σ κ δ → Prop} (st : Setting)
    {op op' : Op σ κ δ α} {view : σ → τ} {before : List (Call Unit)} {store : Store} {disk : δ}
    {overrides : Overrides}
    (hop : Alike P op op' (Same R) (Failed free view before store disk overrides)) :
    Alike (Quiet P) (perform st op) (perform st op') (Same (Quiet R))
      (Told free view before store disk (StopsAt overrides store.lookup)) := by
  rintro ⟨t, s⟩ ⟨t', s'⟩ ⟨ht, ht', hs⟩
  have hends := hop s s' hs
  rw [run_perform, run_perform]
  generalize op.run.run s = r at hends ⊢
  generalize op'.run.run s' = r' at hends ⊢
  cases hends with
  | ok hR =>
    obtain ⟨rfl, hR⟩ := hR
    exact .ok ⟨rfl, ht, ht', hR⟩
  | @error e e' s s' hfailed =>
    rcases hfailed with ⟨rfl, hended⟩ | ⟨hfree, he, he', hagree⟩
    · obtain ⟨lines, hfails⟩ :=
        exists_run_orExplain_error (σ := σ) (κ := κ) (δ := δ) (α := α) st e
      rw [hfails, hfails]
      exact .error (.inl ⟨by rw [ht, ht'], rfl, hended⟩)
    · rw [run_orExplain_of_refuses st he, run_orExplain_of_refuses st he']
      exact .error (.inr ⟨hfree, ⟨e, rfl, he⟩, ⟨e', rfl, he'⟩, ht, ht', hagree⟩)

end Job

/-! ## What is carried from step to step -/

section

variable [Disk δ]

/-- What a run that began with the store `first` on the disk `origin` carries after some steps: the
store, the disk, and the endpoint that was made.  Only the file of the store was written, it is
read as the store, only names were published, and the endpoint that was made is the one that was
published. -/
structure Carried (first : DotenvFile) (origin : δ) (made? : Option String) (file : DotenvFile)
    (disk : δ) : Prop where
  written : DotenvFile.Written first.path origin disk
  load : DotenvFile.load first.environment first.path disk = .ok file
  get? : ∀ key, key ∉ Kind.publishKeys → file.get? key = first.get? key
  made : made? = none ∨ made? = file.get? Failure.endpointKey

theorem notMem_of_publishKeys {pairs : List (String × String)} {key : String}
    (hpairs : ∀ p ∈ pairs, p.1 ∈ Kind.publishKeys) (hkey : key ∉ Kind.publishKeys) :
    key ∉ pairs.map Prod.fst := by
  intro hmem
  obtain ⟨p, hp, rfl⟩ := List.mem_map.1 hmem
  exact hkey (hpairs p hp)

/-- After a step the file is read as the store once more. -/
theorem Carried.setAll [LawfulDisk δ] {first file : DotenvFile} {made? made?' : Option String}
    {origin disk disk' : δ} {store : Store} {pairs : List (String × String)}
    (h : Carried first origin made? file disk) (hpairs : ∀ p ∈ pairs, p.1 ∈ Kind.publishKeys)
    (hset : Store.setAll pairs (.dotenv file) disk = (.ok (), store, disk'))
    (hmade : made?' = none ∨ made?' = (file.insertAll pairs).get? Failure.endpointKey) :
    store = .dotenv (file.insertAll pairs) ∧
      Carried first origin made?' (file.insertAll pairs) disk' := by
  rcases hfile : DotenvFile.setAll pairs file disk with ⟨answer, file', disk''⟩
  have hset : (answer, Store.dotenv file', disk'') = (.ok (), store, disk') := by
    rw [← hset, Store.setAll, hfile]
  obtain ⟨rfl, hrest⟩ := Prod.mk.inj hset
  obtain ⟨rfl, rfl⟩ := Prod.mk.inj hrest
  obtain ⟨hkeys, rfl, hsave⟩ := DotenvFile.setAll_of_ok hfile
  obtain ⟨values, hvalues, hfile⟩ := exists_of_map_eq_ok h.load
  refine ⟨rfl, ⟨h.written.saved ?_ hsave, ?_, ?_, hmade⟩⟩
  · rw [← hfile]
    rfl
  · have hgood := DotenvFile.hasKeys_insertAll (DotenvFile.hasKeys_of_load h.load) hkeys
    have hread := DotenvFile.readValues_of_save hgood hsave first.environment
    rw [← hfile] at hread ⊢
    rw [DotenvFile.load, show DotenvFile.readValues first.environment first.path disk'' = _
      from hread]
    rfl
  · intro key hkey
    rw [DotenvFile.get?_insertAll, h.get? key hkey,
      KeyMap.lookup_reverse_eq_none (notMem_of_publishKeys hpairs hkey), Option.none_or]

end

/-! ## The steps -/

namespace Plan

open Job

theorem onlyPrints_printDone (st : Setting) (text : String) :
    OnlyPrints (printDone st text : Job σ κ δ Unit) :=
  onlyPrints_print _

theorem onlyPrints_publishedName (st : Setting) (kind : Kind) :
    OnlyPrints (publishedName st kind : Job σ κ δ String) :=
  onlyPrints_store.bind fun _ => onlyPrints_pure _

theorem onlyPrints_printVersion (st : Setting) (kind : Kind) (version? : Option String) :
    OnlyPrints (printVersion st kind version? : Job σ κ δ Unit) :=
  (onlyPrints_publishedName st kind).bind fun _ => onlyPrints_printDone st _

/-- What is printed when a deployment is made. -/
theorem onlyPrints_deployment (st : Setting) (endpoint : String) (record : Deployment) :
    OnlyPrints (do
      printDone st ("deployment " ++ (← publishedName st .deployment) ++ " → " ++ endpoint)
      match record.properties.environmentId, record.properties.model with
      | some environment, some model => printDetail st [environment, model]
      | _, _ => pure () : Job σ κ δ Unit) := by
  refine (onlyPrints_publishedName st _).bind fun _ => ?_
  refine (onlyPrints_printDone st _).bind fun _ => ?_
  split
  · exact onlyPrints_print _
  · exact onlyPrints_pure _

/-- What is printed when a flow is made. -/
theorem onlyPrints_flow (st : Setting) (record : Flow) :
    OnlyPrints (do
      printDone st ("flow " ++ (← publishedName st .flow))
      match record.portalUrl with
      | some url => printDetail st [url]
      | none => pure () : Job σ κ δ Unit) := by
  refine (onlyPrints_publishedName st _).bind fun _ => ?_
  refine (onlyPrints_printDone st _).bind fun _ => ?_
  cases record.portalUrl with
  | some url => exact onlyPrints_print _
  | none => exact onlyPrints_pure _

variable [Disk δ] [LawfulDisk δ] {w : World σ κ} {view : σ → τ} (hw : w.DependsOnly free view)
  {before : List (Call Unit)} {st : Setting} {scope : Scope} {p : Plan}
  {first file : DotenvFile} {made? : Option String} {origin disk : δ}

/-- Sessions after a step: they agree on what is carried further. -/
def Advanced (free : Prop) (view : σ → τ) (before : List (Call Unit)) (first : DotenvFile)
    (origin : δ) (made? : Option String) (ts ts' : Transcript × Session σ κ δ) : Prop :=
  ∃ file disk, Carried first origin made? file disk ∧
    Quiet (Agree free view before (.dotenv file) disk) ts ts'

omit [LawfulDisk δ] in
theorem Advanced.refl (h : Carried first origin made? file disk)
    {ts ts' : Transcript × Session σ κ δ}
    (hs : Quiet (Agree free view before (.dotenv file) disk) ts ts') :
    Advanced free view before first origin made? ts ts' :=
  ⟨file, disk, h, hs⟩

/-- Names that were published are carried further. -/
theorem Advanced.of_published (h : Carried first origin made? file disk)
    {pairs : List (String × String)} {made?' : Option String}
    {ts ts' : Transcript × Session σ κ δ} (hpairs : ∀ p ∈ pairs, p.1 ∈ Kind.publishKeys)
    (hs : Quiet (Published free view before (.dotenv file) disk pairs) ts ts')
    (hmade : made?' = none ∨ made?' = (file.insertAll pairs).get? Failure.endpointKey) :
    Advanced free view before first origin made?' ts ts' := by
  obtain ⟨ht, ht', store, disk', hset, hagree⟩ := hs
  obtain ⟨rfl, hcarried⟩ := h.setAll hpairs hset hmade
  exact ⟨_, disk', hcarried, ht, ht', hagree⟩

theorem publishKey?_of_mem {kind : Kind} {name : String} {p : String × String}
    (h : p ∈ kind.publication name) : kind.publishKey? = some p.1 := by
  obtain ⟨key, hkey, rfl⟩ := Option.map_eq_some_iff.1 (Option.mem_toList.1 h)
  exact hkey

theorem mem_publishKeys {kind : Kind} {name : String} {p : String × String}
    (h : p ∈ kind.publication name) : p.1 ∈ Kind.publishKeys := by
  refine List.mem_filterMap.2 ⟨kind, ?_, publishKey?_of_mem h⟩
  cases kind with
  | workspace => cases h
  | _ => decide

/-- Only the name of an endpoint is published as an endpoint. -/
theorem endpointKey_notMem_publication {kind : Kind} (h : kind ≠ .endpoint) (name : String) :
    Failure.endpointKey ∉ (kind.publication name).map Prod.fst := by
  intro hmem
  obtain ⟨p, hp, heq⟩ := List.mem_map.1 hmem
  have hkey := publishKey?_of_mem hp
  rw [heq] at hkey
  cases kind with
  | endpoint => exact h rfl
  | _ => exact absurd hkey (by decide)

theorem get?_endpointKey_of_ne {kind : Kind} (h : kind ≠ .endpoint) (file : DotenvFile)
    (name : String) :
    (file.insertAll (kind.publication name)).get? Failure.endpointKey =
      file.get? Failure.endpointKey := by
  rw [DotenvFile.get?_insertAll,
    KeyMap.lookup_reverse_eq_none (endpointKey_notMem_publication h name), Option.none_or]

/-- A kind that is no endpoint publishes its name. -/
theorem Advanced.of_publication (h : Carried first origin made? file disk) {kind : Kind}
    (hkind : kind ≠ .endpoint) {ts ts' : Transcript × Session σ κ δ}
    (hs : Quiet (fun s s' => ∃ name, Published free view before (.dotenv file) disk
      (kind.publication name) s s') ts ts') :
    Advanced free view before first origin made? ts ts' := by
  obtain ⟨ht, ht', name, hpublished⟩ := hs
  refine .of_published h (fun _ => mem_publishKeys) ⟨ht, ht', hpublished⟩ ?_
  rw [get?_endpointKey_of_ne hkind]
  exact h.made

theorem get?_endpointKey_publication (file : DotenvFile) (endpoint : String)
    (more : List (String × String)) (hmore : more.reverse.lookup Failure.endpointKey = none) :
    (file.insertAll (Kind.endpoint.publication endpoint ++ more)).get? Failure.endpointKey =
      some endpoint := by
  rw [DotenvFile.get?_insertAll, List.reverse_append, List.lookup_append, hmore]
  rfl

/-- Plans for the same service.  As far as they are for a kind, they differ in the order of
overrides alone. -/
structure Rearranged (free : Prop) (kind : Kind) (p p' : Plan) : Prop where
  service : p'.service = p.service
  directory : p'.directory = p.directory
  component : Option.Rel (Component.Rearranged free) (p.resources.component? kind)
    (p'.resources.component? kind)
  deployment : kind = .deployment →
    Option.Rel (DeploymentSpec.Rearranged free) p.deployment? p'.deployment?

theorem Rearranged.component_cases {kind : Kind} {p p' : Plan} (h : p.Rearranged free kind p') :
    (p.resources.component? kind = none ∧ p'.resources.component? kind = none) ∨
      ∃ c c', p.resources.component? kind = some c ∧ p'.resources.component? kind = some c' ∧
        c.Rearranged free c' := by
  have hrel := h.component
  generalize p.resources.component? kind = c? at hrel ⊢
  generalize p'.resources.component? kind = c'? at hrel ⊢
  cases hrel with
  | some hc => exact .inr ⟨_, _, rfl, rfl, hc⟩
  | none => exact .inl ⟨rfl, rfl⟩

/-- The failure of the step of a kind at an override that cannot be filled in. -/
def StopsAt (p : Plan) (kind : Kind) (lookup : Template.Lookup) (e : Failure) : Prop :=
  ∃ c, p.resources.component? kind = some c ∧ Cli.StopsAt c.overrides lookup e

variable {kind : Kind} {p' : Plan} (hp : p.Rearranged free kind p')

include hw hp

theorem alike_provisionEndpoint (h : Carried first origin made? file disk) {c c' : Component}
    (hc : c.Rearranged free c') :
    Alike (Quiet (Agree free view before (.dotenv file) disk)) (provisionEndpoint w st scope p c)
      (provisionEndpoint w st scope p' c')
      (fun name _ => Advanced free view before first origin (some name))
      (Told free view before (.dotenv file) disk
        (Cli.StopsAt c.overrides (Store.dotenv file).lookup)) := by
  rw [provisionEndpoint, provisionEndpoint, hp.directory]
  refine (alike_perform st (Op.alike_createEndpoint hw scope p.directory hc)).bind_same
    fun record => ?_
  have hname : ∀ {E : Failure → Failure → Transcript × Session σ κ δ →
      Transcript × Session σ κ δ → Prop},
      Alike (Quiet fun s s' => ∃ name, Published free view before (.dotenv file) disk
          (Kind.endpoint.publication name) s s')
        (do return (← Job.store).published .endpoint)
        (do return (← Job.store).published .endpoint)
        (fun name _ => Advanced free view before first origin (some name)) E := by
    rintro E ⟨t, s⟩ ⟨t', s'⟩ ⟨ht, ht', name, store, disk', hset, hagree⟩
    have hmade : (file.insertAll (Kind.endpoint.publication name)).get? Failure.endpointKey =
        some name := get?_endpointKey_publication file name [] rfl
    obtain ⟨rfl, hcarried⟩ := h.setAll (fun _ => mem_publishKeys) hset (.inr hmade.symm)
    have hpublished : s.store.published .endpoint = name := by
      rw [hagree.store_left]
      exact congrArg (·.getD "") hmade
    refine .ok ⟨_, disk', ?_, ht, ht', hagree⟩
    rw [hpublished]
    exact hcarried
  refine (alike_onlyPrints (onlyPrints_publishedName st _)
    (onlyPrints_publishedName st _)).bind fun _ _ => ?_
  refine (alike_onlyPrints (onlyPrints_printDone st _) (onlyPrints_printDone st _)).bind
    fun _ _ => ?_
  cases record.properties.scoringUri with
  | none => exact hname
  | some uri =>
    exact (alike_onlyPrints (onlyPrints_print _) (onlyPrints_print _)).bind fun _ _ => hname

omit [Disk δ] hw hp in
theorem run_endpointFor (p : Plan) (made? : Option String) (t : Transcript)
    (s : Session σ κ δ) :
    (p.endpointFor made?).run.run (t, s) =
      match made?.or (s.store.get? Failure.endpointKey) with
      | some endpoint => (.ok endpoint, t, s)
      | none => (.error (.noEndpoint p.service), t, s) := by
  show (match made?.or (s.store.get? Failure.endpointKey) with
    | some endpoint => pure endpoint
    | none => throw (.noEndpoint p.service) : Job σ κ δ String).run.run (t, s) = _
  cases made?.or (s.store.get? Failure.endpointKey) <;> rfl

omit [LawfulDisk δ] hw in
/-- The endpoint that was made is the one that the file names. -/
theorem alike_endpointFor (h : Carried first origin made? file disk) {Stops : Failure → Prop} :
    Alike (Quiet (Agree (κ := κ) free view before (.dotenv file) disk)) (p.endpointFor made?)
      (p'.endpointFor none)
      (fun endpoint endpoint' ts ts' => endpoint = endpoint' ∧
        (made? = none ∨ made? = some endpoint) ∧
        Quiet (Agree free view before (.dotenv file) disk) ts ts')
      (Told free view before (.dotenv file) disk Stops) := by
  rintro ⟨t, s⟩ ⟨t', s'⟩ ⟨ht, ht', hs⟩
  have hsame : made?.or (file.get? Failure.endpointKey) = file.get? Failure.endpointKey := by
    rcases h.made with hmade | hmade
    · rw [hmade]
      rfl
    · rw [hmade, Option.or_self]
  have hleft : s.store.get? Failure.endpointKey = file.get? Failure.endpointKey := by
    rw [hs.store_left]
    rfl
  have hright : s'.store.get? Failure.endpointKey = file.get? Failure.endpointKey := by
    rw [hs.store_right]
    rfl
  rw [run_endpointFor, run_endpointFor, hleft, hright, hsame, Option.none_or, hp.service]
  cases hnamed : file.get? Failure.endpointKey with
  | none => exact .error (.inl ⟨ht.trans ht'.symm, rfl, .dotenv file, disk, hs⟩)
  | some endpoint => exact .ok ⟨rfl, hnamed ▸ h.made, ht, ht', hs⟩

theorem alike_provisionDeployment (h : Carried first origin made? file disk)
    {d d' : DeploymentSpec} (hd : d.Rearranged free d') :
    Alike (Quiet (Agree free view before (.dotenv file) disk))
      (provisionDeployment w st scope p made? d) (provisionDeployment w st scope p' none d')
      (fun _ _ => Advanced free view before first origin made?)
      (Told free view before (.dotenv file) disk
        (Cli.StopsAt d.deployment.overrides (Store.dotenv file).lookup)) := by
  rw [provisionDeployment, provisionDeployment, hp.directory]
  refine (alike_endpointFor hp h).bind fun endpoint endpoint' => ?_
  rintro ts ts' ⟨rfl, hmade, hs⟩
  refine ((alike_perform st (Op.alike_deploy hw scope p.directory endpoint hd _)).bind_same
    fun record => ?_) ts ts' hs
  have hprint := onlyPrints_deployment (σ := σ) (κ := κ) (δ := δ) st endpoint record
  refine (alike_onlyPrints hprint hprint).mono ?_ fun _ _ _ _ => id
  rintro _ _ ts ts' ⟨ht, ht', name, hpublished⟩
  refine .of_published h (fun pair hpair => ?_) ⟨ht, ht', hpublished⟩ ?_
  · rcases List.mem_append.1 hpair with hpair | hpair
    · exact mem_publishKeys hpair
    · exact mem_publishKeys hpair
  · rw [get?_endpointKey_publication file endpoint _ (by rfl)]
    exact hmade

theorem alike_provisionFlow (h : Carried first origin made? file disk) {c c' : Component}
    (hc : c.Rearranged free c') :
    Alike (Quiet (Agree free view before (.dotenv file) disk)) (provisionFlow w st scope p c)
      (provisionFlow w st scope p' c')
      (fun _ _ => Advanced free view before first origin made?)
      (Told free view before (.dotenv file) disk
        (Cli.StopsAt c.overrides (Store.dotenv file).lookup)) := by
  rw [provisionFlow, provisionFlow, hp.directory]
  refine (alike_perform st (Op.alike_createFlow hw scope p.directory hc _)).bind_same
    fun record => ?_
  have hprint := onlyPrints_flow (σ := σ) (κ := κ) (δ := δ) st record
  refine (alike_onlyPrints hprint hprint).mono ?_ fun _ _ _ _ => id
  exact fun _ _ _ _ hs => .of_publication h (by decide) hs

omit hw hp in
/-- A step that makes a version and says which one, and makes no endpoint. -/
theorem alike_performVersion (h : Carried first origin made? file disk)
    (hkind : kind ≠ .endpoint) {op op' : Op σ κ δ α} {overrides : Overrides}
    (hop : Alike (Agree free view before (.dotenv file) disk) op op'
      (Same fun s s' => ∃ name, Published free view before (.dotenv file) disk
        (kind.publication name) s s')
      (Failed free view before (.dotenv file) disk overrides)) (version? : α → Option String) :
    Alike (Quiet (Agree free view before (.dotenv file) disk))
      (do
        let record ← perform st op
        printVersion st kind (version? record)
        return made? : Job σ κ δ (Option String))
      (do
        let record ← perform st op'
        printVersion st kind (version? record)
        return none : Job σ κ δ (Option String))
      (fun made? _ => Advanced free view before first origin made?)
      (Told free view before (.dotenv file) disk
        (Cli.StopsAt overrides (Store.dotenv file).lookup)) := by
  refine (alike_perform st hop).bind_same fun record => ?_
  refine (alike_onlyPrints (onlyPrints_printVersion st _ _)
    (onlyPrints_printVersion st _ _)).bind fun _ _ => .pure fun _ _ hs => ?_
  exact .of_publication h hkind hs

omit [LawfulDisk δ] hw hp in
/-- A kind that the service does not have is passed over. -/
theorem provisionKind_of_none (made? : Option String)
    (hnone : p.resources.component? kind = none)
    (hdeployment : kind = .deployment → p.deployment? = none) :
    (provisionKind w st scope p made? kind : Job σ κ δ (Option String)) = pure made? := by
  cases kind with
  | workspace => rfl
  | deployment => rw [provisionKind, hdeployment rfl]
  | environment | model | endpoint | flow =>
    rw [Resources.component?] at hnone
    rw [provisionKind, hnone]

/-- The step of a kind ends alike with what was carried to it, and with what a session that
is opened on the file has. -/
theorem alike_provisionKind (hspec : p.resources.deploymentSpec p.service = .ok p.deployment?)
    (h : Carried first origin made? file disk) :
    Alike (Quiet (Agree free view before (.dotenv file) disk))
      (provisionKind w st scope p made? kind) (provisionKind w st scope p' none kind)
      (fun made? _ => Advanced free view before first origin made?)
      (Told free view before (.dotenv file) disk (p.StopsAt kind (Store.dotenv file).lookup)) := by
  rcases hp.component_cases with ⟨hnone, hnone'⟩ | ⟨c, c', hsome, hsome', hc⟩
  · have hdeployment : kind = .deployment → p.deployment? = none := by
      rintro rfl
      exact Option.map_eq_none_iff.1
        ((Resources.deployment_of_deploymentSpec hspec).symm.trans hnone)
    have hdeployment' : kind = .deployment → p'.deployment? = none := by
      intro hkind
      have hrel := hp.deployment hkind
      rw [hdeployment hkind] at hrel
      generalize p'.deployment? = d'? at hrel ⊢
      cases hrel with
      | none => rfl
    rw [provisionKind_of_none made? hnone hdeployment,
      provisionKind_of_none none hnone' hdeployment']
    exact .pure fun _ _ hs => .refl h hs
  have hstops : ∀ e, Cli.StopsAt c.overrides (Store.dotenv file).lookup e →
      p.StopsAt kind (Store.dotenv file).lookup e :=
    fun _ he => ⟨c, hsome, he⟩
  refine .mono_error ?_ fun _ _ _ _ htold => Told.mono htold hstops
  cases kind with
  | workspace => cases hsome
  | environment =>
    rw [Resources.component?] at hsome hsome'
    rw [provisionKind, provisionKind, hp.directory, hsome, hsome']
    exact alike_performVersion h (by decide)
      (Op.alike_createEnvironmentVersion hw scope p.directory hc) Resource.name?
  | model =>
    rw [Resources.component?] at hsome hsome'
    rw [provisionKind, provisionKind, hp.directory, hsome, hsome']
    exact alike_performVersion h (by decide)
      (Op.alike_createModelVersion hw scope p.directory hc) Resource.name?
  | endpoint =>
    rw [Resources.component?] at hsome hsome'
    rw [provisionKind, provisionKind, hsome, hsome']
    exact .map (alike_provisionEndpoint hw hp h hc)
  | deployment =>
    rw [provisionKind, provisionKind]
    have hrel := hp.deployment rfl
    generalize p.deployment? = d? at hrel hspec ⊢
    generalize p'.deployment? = d'? at hrel ⊢
    have hdeployment := (Resources.deployment_of_deploymentSpec hspec).symm.trans hsome
    cases hrel with
    | none => cases hdeployment
    | some hd =>
      obtain rfl := Option.some.inj hdeployment
      exact (alike_provisionDeployment hw hp h hd).bind fun _ _ => .pure fun _ _ hs => hs
  | flow =>
    rw [Resources.component?] at hsome hsome'
    rw [provisionKind, provisionKind, hsome, hsome']
    exact (alike_provisionFlow hw hp h hc).bind fun _ _ => .pure fun _ _ hs => hs

end Plan

end Cli

end Provisioner
