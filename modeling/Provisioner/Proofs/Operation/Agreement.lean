import Mathlib.Data.List.Forall2
import Mathlib.Data.Option.Defs
import Provisioner.Proofs.Alike
import Provisioner.Proofs.Operation.Rearranged
import Provisioner.Proofs.Operation.Run

/-!
# Operations in sessions that agree

Two sessions agree if they work on equal stores and disks and if their worlds cannot be
told apart by work on resources.  They may have different clients, may have been set up in
different ways, and may go through overrides in different orders.

* `World.DependsOnly` says that the answers about resources follow from a view of the
  world, and that setting up and checking the workspace leave the view alone.
* `Session.Agree` is the relation.  `resourceCalls` are the calls that count in it, and
  `Call.Alike` compares them.
* Every operation that makes something ends alike in sessions that agree, and publishes
  the same: `alike_createEnvironmentVersion` and its siblings.  `Session.Failed` says how it
  fails.
-/

namespace Provisioner

variable {σ τ κ δ α β ε : Type} {free : Prop}

/-! ## What the world shows -/

/-- A call as far as it is about a resource: whoever the client is, and without the calls
that only set up or check the workspace. -/
def Call.resource? : Call κ → Option (Call Unit)
  | .connect _ => none
  | .startTools => none
  | .run program arguments => some (.run program arguments)
  | .read _ scope query => if query = .workspace then none else some (.read () scope query)

/-- The calls about resources, in order. -/
def resourceCalls (calls : List (Call κ)) : List (Call Unit) :=
  calls.filterMap Call.resource?

theorem resourceCalls_append (calls more : List (Call κ)) :
    resourceCalls (calls ++ more) = resourceCalls calls ++ resourceCalls more :=
  List.filterMap_append

/-- Calls that are the same but for the order of overrides. -/
inductive Call.Alike (free : Prop) : Call Unit → Call Unit → Prop
  | same (call : Call Unit) : Alike free call call
  | run {program : Program} {args args' : Arguments} : args.Rearranged free args' →
    Alike free (.run program args) (.run program args')

/-- Calls in turn, of which two more are alike if they count. -/
theorem forall₂_resourceCalls_concat {before : List (Call Unit)} {calls calls' : List (Call κ)}
    {call call' : Call κ}
    (h : List.Forall₂ (Call.Alike free) (resourceCalls calls) (before ++ resourceCalls calls'))
    (hcall : Option.Rel (Call.Alike free) call.resource? call'.resource?) :
    List.Forall₂ (Call.Alike free) (resourceCalls (calls ++ [call]))
      (before ++ resourceCalls (calls' ++ [call'])) := by
  have hlast : List.Forall₂ (Call.Alike free) (resourceCalls [call]) (resourceCalls [call']) := by
    simp only [resourceCalls, List.filterMap_cons, List.filterMap_nil]
    generalize call.resource? = counted at hcall ⊢
    generalize call'.resource? = counted' at hcall ⊢
    cases hcall with
    | some hcounted => exact .cons hcounted .nil
    | none => exact .nil
  rw [resourceCalls_append, resourceCalls_append, ← List.append_assoc]
  exact List.rel_append h hlast

/-- A world whose answers about resources depend on nothing but a view of it, whoever asks and, if
their order is free, in whichever order a program is given overrides.  Setting up and checking the
workspace cannot be seen. -/
structure World.DependsOnly (w : World σ κ) (free : Prop) (view : σ → τ) : Prop where
  connect : ∀ subscription s, view (w.connect subscription s).2 = view s
  startTools : ∀ s, view (w.startTools s).2 = view s
  workspace : ∀ client scope s, view (w.read client scope .workspace s).2 = view s
  cancelled : ∀ {s s'}, view s = view s' → w.cancelled s = w.cancelled s'
  run : ∀ {s s'}, view s = view s' → ∀ program {args args' : Arguments},
    args.Rearranged free args' → (w.run program args s).1 = (w.run program args' s').1 ∧
      view (w.run program args s).2 = view (w.run program args' s').2
  read : ∀ {s s'}, view s = view s' → ∀ client client' scope query, query ≠ .workspace →
    (w.read client scope query s).1 = (w.read client' scope query s').1 ∧
      view (w.read client scope query s).2 = view (w.read client' scope query s').2

/-! ## Sessions that agree -/

/-- Sessions with a store and a disk in common.  The first one has made some calls about
resources before those that both have made, up to the order of overrides. -/
structure Session.Agree (free : Prop) (view : σ → τ) (before : List (Call Unit)) (store : Store)
    (disk : δ) (s s' : Session σ κ δ) : Prop where
  world : view s.world = view s'.world
  store_left : s.store = store
  store_right : s'.store = store
  disk_left : s.disk = disk
  disk_right : s'.disk = disk
  client_left : s.client?.isSome
  client_right : s'.client?.isSome
  calls : List.Forall₂ (Call.Alike free) (resourceCalls s.calls) (before ++ resourceCalls s'.calls)

/-- Sessions that agree on some store and disk. -/
def Session.Ended (free : Prop) (view : σ → τ) (before : List (Call Unit))
    (s s' : Session σ κ δ) : Prop :=
  ∃ store disk, Agree free view before store disk s s'

/-- How operations fail alike: with the same error, or both because of an override that cannot be
filled in, before they have done anything. -/
def Session.Failed (free : Prop) (view : σ → τ) (before : List (Call Unit)) (store : Store)
    (disk : δ) (overrides : Overrides) (e e' : ProvisionError) (s s' : Session σ κ δ) : Prop :=
  Same (Ended free view before) e e' s s' ∨ free ∧
    overrides.Refuses store.lookup e ∧ overrides.Refuses store.lookup e' ∧
      Agree free view before store disk s s'

/-- Sessions that agree after pairs have been stored. -/
def Session.Published [Disk δ] (free : Prop) (view : σ → τ) (before : List (Call Unit))
    (store : Store) (disk : δ) (pairs : List (String × String)) (s s' : Session σ κ δ) : Prop :=
  ∃ store' disk', store.setAll pairs disk = (.ok (), store', disk') ∧
    Agree free view before store' disk' s s'

open Session

section

variable {w : World σ κ} {view : σ → τ} (hw : w.DependsOnly free view) {before : List (Call Unit)}
  {store : Store} {disk : δ}

namespace Op

theorem alike_orFail (wrap : ε → ProvisionError) (answer : Except ε α) :
    Alike (Agree (κ := κ) free view before store disk) (orFail wrap answer) (orFail wrap answer)
      (Same (Agree free view before store disk)) (Same (Ended free view before)) := by
  cases answer with
  | ok a => exact .pure fun s s' hs => ⟨rfl, hs⟩
  | error e => exact .throw fun s s' hs => ⟨rfl, store, disk, hs⟩

theorem alike_orCancelled (kind : Kind) (name : String) (answer : Option α) :
    Alike (Agree (κ := κ) free view before store disk) (orCancelled kind name answer)
      (orCancelled kind name answer) (Same (Agree free view before store disk))
      (Same (Ended free view before)) := by
  cases answer with
  | some a => exact .pure fun s s' hs => ⟨rfl, hs⟩
  | none => exact .throw fun s s' hs => ⟨rfl, store, disk, hs⟩

theorem alike_prepared {fill fill' : Store → δ → Except ProvisionError α} {Like : α → α → Prop}
    {overrides : Overrides} (h : FillAlike free Like (overrides.Refuses store.lookup)
      (fill store disk) (fill' store disk)) :
    Alike (Agree (κ := κ) free view before store disk) (prepared fill) (prepared fill')
      (fun a a' s s' => Like a a' ∧ fill store disk = .ok a ∧
        Agree free view before store disk s s')
      (Failed free view before store disk overrides) := by
  intro s s' hs
  rw [run_prepared, run_prepared, hs.store_left, hs.store_right, hs.disk_left, hs.disk_right]
  generalize fill store disk = filled at h ⊢
  generalize fill' store disk = filled' at h ⊢
  cases h with
  | ok hlike => exact .ok ⟨hlike, rfl, hs⟩
  | same e => exact .error (.inl ⟨rfl, store, disk, hs⟩)
  | refused hfree he he' => exact .error (.inr ⟨hfree, he, he', hs⟩)

include hw in
theorem alike_checkCancelled (kind : Kind) (name : String) :
    Alike (Agree (κ := κ) free view before store disk) (checkCancelled w kind name)
      (checkCancelled w kind name) (Same (Agree free view before store disk))
      (Same (Ended free view before)) := by
  intro s s' hs
  rw [run_checkCancelled, run_checkCancelled, hw.cancelled hs.world]
  cases w.cancelled s'.world with
  | true => exact .error ⟨rfl, store, disk, hs⟩
  | false => exact .ok ⟨rfl, hs⟩

include hw in
/-- Calls that count alike and are answered alike. -/
theorem alike_await (kind : Kind) (name : String) {call call' : Call κ}
    {answer answer' : σ → Option α × σ}
    (hcall : Option.Rel (Call.Alike free) call.resource? call'.resource?)
    (hanswer : ∀ {s s'}, view s = view s' →
      (answer s).1 = (answer' s').1 ∧ view (answer s).2 = view (answer' s').2) :
    Alike (Agree free view before store disk) (await w kind name call answer)
      (await w kind name call' answer') (Same (Agree free view before store disk))
      (Same (Ended free view before)) := by
  have hperform : Alike (Agree free view before store disk) (perform call answer)
      (perform call' answer') (Same (Agree free view before store disk))
      (Same (Ended free view before)) := by
    intro s s' hs
    rw [run_perform, run_perform]
    obtain ⟨hsame, hview⟩ := hanswer hs.world
    exact .ok ⟨hsame, { hs with
      world := hview, calls := forall₂_resourceCalls_concat hs.calls hcall }⟩
  refine (alike_checkCancelled hw kind name).bind_same fun _ => ?_
  exact hperform.bind_same (alike_orCancelled kind name)

include hw in
/-- An operation goes on with its client, whoever that is. -/
theorem alike_connected (kind : Kind) (name : String) (scope : Scope)
    {body body' : Context σ κ → Op σ κ δ α} {Q : α → α → Session σ κ δ → Session σ κ δ → Prop}
    (hbody : ∀ client client', Alike (Agree free view before store disk) (body ⟨w, client, scope⟩)
      (body' ⟨w, client', scope⟩) Q (Same (Ended free view before))) :
    Alike (Agree free view before store disk) (connected w kind name scope body)
      (connected w kind name scope body') Q (Same (Ended free view before)) := by
  intro s s' hs
  obtain ⟨client, hclient⟩ := Option.isSome_iff_exists.1 hs.client_left
  obtain ⟨client', hclient'⟩ := Option.isSome_iff_exists.1 hs.client_right
  cases hgo : w.cancelled s.world with
  | false =>
    have hgo' : w.cancelled s'.world = false := by rw [← hw.cancelled hs.world, hgo]
    rw [run_connected_of_some hgo hclient, run_connected_of_some hgo' hclient']
    exact hbody client client' s s' hs
  | true =>
    have hgo' : w.cancelled s'.world = true := by rw [← hw.cancelled hs.world, hgo]
    rw [run_connected_of_cancelled hgo, run_connected_of_cancelled hgo']
    exact .error ⟨rfl, store, disk, hs⟩

variable [Disk δ]

/-- Publishing ends a step: what it returns was known before. -/
theorem alike_publish (pairs : List (String × String)) (a : α) :
    Alike (Agree (κ := κ) free view before store disk) (do publish pairs; return a)
      (do publish pairs; return a) (Same (Published free view before store disk pairs))
      (Same (Ended free view before)) := by
  have hpublish : Alike (Agree (κ := κ) free view before store disk) (publish pairs) (publish pairs)
      (fun _ _ => Published free view before store disk pairs) (Same (Ended free view before)) := by
    intro s s' hs
    rw [run_publish, run_publish, hs.store_left, hs.store_right, hs.disk_left, hs.disk_right]
    rcases hset : store.setAll pairs disk with ⟨answer, store', disk'⟩
    have hagree : Agree free view before store' disk'
        { s with store := store', disk := disk' } { s' with store := store', disk := disk' } :=
      { hs with store_left := rfl, store_right := rfl, disk_left := rfl, disk_right := rfl }
    cases answer with
    | ok _ => exact .ok ⟨store', disk', hset, hagree⟩
    | error e => exact .error ⟨rfl, store', disk', hagree⟩
  exact hpublish.bind fun _ _ => .pure fun s s' hs => ⟨rfl, hs⟩

end Op

/-! ## The steps -/

namespace Context

variable (kind : Kind) (name : String) (client client' : κ) (scope : Scope)
include hw

theorem alike_ask {q : ControlPlane.Query} (hq : q ≠ .workspace)
    (judge : ControlPlane.Answer q → Except ControlPlane.Failure α) :
    Alike (Agree free view before store disk) (ask ⟨w, client, scope⟩ kind name q judge)
      (ask ⟨w, client', scope⟩ kind name q judge) (Same (Agree free view before store disk))
      (Same (Ended free view before)) := by
  have hcall : Option.Rel (Call.Alike free) (Call.read client scope q).resource?
      (Call.read client' scope q).resource? := by
    rw [Call.resource?, Call.resource?, if_neg hq]
    exact .some (.same _)
  refine (Op.alike_await hw kind name hcall fun hview => ?_).bind_same fun answer => ?_
  · exact hw.read hview client client' scope q hq
  · exact Op.alike_orFail _ (judge answer)

theorem alike_attempt {args args' : Arguments} (hargs : args.Rearranged free args')
    (judge : Except Program.Failure Program.Output → Except Program.Failure α) :
    Alike (Agree free view before store disk) (attempt ⟨w, client, scope⟩ kind name args judge)
      (attempt ⟨w, client', scope⟩ kind name args' judge)
      (Same (Agree free view before store disk)) (Same (Ended free view before)) := by
  have hcall : Option.Rel (Call.Alike free) (Call.run (κ := κ) kind.program args).resource?
      (Call.run (κ := κ) kind.program args').resource? := .some (.run hargs)
  refine (Op.alike_await hw kind name hcall fun hview => ?_).bind_same fun ended => ?_
  · exact hw.run hview kind.program hargs
  · exact Op.alike_orFail _ (judge ended)

end Context

variable [Disk δ] (client client' : κ) (scope : Scope)
include hw

theorem EnvironmentVersion.alike_provision {p p' : Prepared} (h : p.Rearranged free p') :
    Alike (Agree free view before store disk) (provision ⟨w, client, scope⟩ p)
      (provision ⟨w, client', scope⟩ p')
      (Same (Published free view before store disk (publication p)))
      (Same (Ended free view before)) := by
  obtain ⟨overrides, rfl, hargs⟩ := h
  refine (Context.alike_ask hw _ _ client client' scope (by nofun) _).bind_same fun version => ?_
  refine (Context.alike_attempt hw _ _ client client' scope (hargs.append _) _).bind_discard ?_
  refine (Context.alike_ask hw _ _ client client' scope (by nofun) _).bind_same fun record => ?_
  exact Op.alike_publish (publication p) record

theorem ModelVersion.alike_provision {p p' : Prepared} (h : p.Rearranged free p') :
    Alike (Agree free view before store disk) (provision ⟨w, client, scope⟩ p)
      (provision ⟨w, client', scope⟩ p')
      (Same (Published free view before store disk (publication p)))
      (Same (Ended free view before)) := by
  obtain ⟨overrides, rfl, hargs⟩ := h
  refine (Context.alike_attempt hw _ _ client client' scope (hargs.append _) _).bind_discard ?_
  refine (Context.alike_ask hw _ _ client client' scope (by nofun) _).bind_same fun latest => ?_
  refine (Context.alike_ask hw _ _ client client' scope (by nofun) _).bind_same fun record => ?_
  exact Op.alike_publish (publication p) record

theorem Endpoint.alike_provision {p p' : Prepared} (h : p.Rearranged free p') :
    Alike (Agree free view before store disk) (provision ⟨w, client, scope⟩ p)
      (provision ⟨w, client', scope⟩ p')
      (Same (Published free view before store disk (publication p)))
      (Same (Ended free view before)) := by
  obtain ⟨overrides, rfl, hargs⟩ := h
  have hread : Alike (Agree free view before store disk)
      (do let record ← Context.read ⟨w, client, scope⟩ .endpoint p.name (.endpoint p.name)
          Op.publish (publication p)
          return record)
      (do let record ← Context.read ⟨w, client', scope⟩ .endpoint p.name (.endpoint p.name)
          Op.publish (publication p)
          return record)
      (Same (Published free view before store disk (publication p)))
      (Same (Ended free view before)) := by
    refine (Context.alike_ask hw _ _ client client' scope (by nofun) _).bind_same fun record => ?_
    exact Op.alike_publish (publication p) record
  refine (Context.alike_ask hw _ _ client client' scope (by nofun) _).bind_same fun there => ?_
  cases there with
  | true => exact hread
  | false =>
    exact (Context.alike_attempt hw _ _ client client' scope (hargs.append _) _).bind_discard hread

theorem Deployment.alike_provision {p p' : Input} (h : p.Rearranged free p') :
    Alike (Agree free view before store disk) (provision ⟨w, client, scope⟩ p)
      (provision ⟨w, client', scope⟩ p')
      (Same (Published free view before store disk (publication p)))
      (Same (Ended free view before)) := by
  obtain ⟨overrides, rfl, hargs⟩ := h
  refine (Context.alike_ask hw _ _ client client' scope (by nofun) _).bind_same
    fun environment => ?_
  refine (Context.alike_ask hw _ _ client client' scope (by nofun) _).bind_same fun model => ?_
  refine (Context.alike_attempt hw _ _ client client' scope (hargs.append _) _).bind_discard ?_
  refine (Context.alike_ask hw _ _ client client' scope (by nofun) _).bind_same fun record => ?_
  exact Op.alike_publish (publication p) record

theorem Flow.alike_provision {p p' : Prepared} (h : p.Rearranged free p') :
    Alike (Agree free view before store disk) (provision ⟨w, client, scope⟩ p)
      (provision ⟨w, client', scope⟩ p')
      (Same (Published free view before store disk (publication p)))
      (Same (Ended free view before)) := by
  obtain ⟨overrides, rfl, hargs⟩ := h
  refine (Context.alike_attempt hw _ _ client client' scope (.refl _) _).bind_same fun verb => ?_
  refine (Context.alike_attempt hw _ _ client client' scope (hargs.append _) _).bind_same
    fun output => ?_
  refine (Op.alike_orFail id _).bind_same fun record => ?_
  exact Op.alike_publish (publication p) record

/-! ## The operations -/

namespace Op

omit client client'

/-- An operation fills in its inputs, connects, and ends with what its step publishes. -/
theorem alike_prepared_connected {fill fill' : Store → δ → Except ProvisionError β}
    {Like : β → β → Prop} {overrides : Overrides} (kind : Kind) (name : β → String)
    {body : β → Context σ κ → Op σ κ δ α} {publication : β → List (String × String)}
    (hfill : FillAlike free Like (overrides.Refuses store.lookup) (fill store disk)
      (fill' store disk))
    (hname : ∀ p p', Like p p' → name p' = name p)
    (hbody : ∀ p p' client client', Like p p' → Alike (Agree free view before store disk)
      (body p ⟨w, client, scope⟩) (body p' ⟨w, client', scope⟩)
      (Same (Published free view before store disk (publication p)))
      (Same (Ended free view before))) :
    Alike (Agree free view before store disk)
      (do let p ← prepared fill; connected w kind (name p) scope (body p))
      (do let p ← prepared fill'; connected w kind (name p) scope (body p))
      (Same fun s s' => ∃ p, fill store disk = .ok p ∧
        Published free view before store disk (publication p) s s')
      (Failed free view before store disk overrides) := by
  refine (alike_prepared hfill).bind fun p p' => ?_
  rintro s s' ⟨hlike, hp, hs⟩
  rw [hname p p' hlike]
  refine (alike_connected hw kind (name p) scope fun client client' =>
    hbody p p' client client' hlike).mono ?_ (fun _ _ _ _ => .inl) s s' hs
  rintro a a' t t' ⟨rfl, hpublished⟩
  exact ⟨rfl, p, hp, hpublished⟩

/-- An operation on a prepared component, in whichever order its overrides are. -/
theorem alike_prepared_component {c : Component}
    {fill fill' : Store → δ → Except ProvisionError Prepared} (kind : Kind)
    {body : Prepared → Context σ κ → Op σ κ δ α}
    (hfill : FillAlike free (Prepared.Rearranged free) (c.overrides.Refuses store.lookup)
      (fill store disk) (fill' store disk))
    (hbody : ∀ p p' client client', p.Rearranged free p' → Alike (Agree free view before store disk)
      (body p ⟨w, client, scope⟩) (body p' ⟨w, client', scope⟩)
      (Same (Published free view before store disk (kind.publication p.name)))
      (Same (Ended free view before))) :
    Alike (Agree free view before store disk)
      (do let p ← prepared fill; connected w kind p.name scope (body p))
      (do let p ← prepared fill'; connected w kind p.name scope (body p))
      (Same fun s s' => ∃ name, Published free view before store disk (kind.publication name) s s')
      (Failed free view before store disk c.overrides) := by
  have hname : ∀ p p' : Prepared, p.Rearranged free p' → p'.name = p.name := by
    rintro p _ ⟨overrides, rfl, -⟩
    rfl
  refine (alike_prepared_connected hw scope kind Prepared.name hfill hname hbody).mono ?_
    fun _ _ _ _ => id
  rintro a a' s s' ⟨rfl, p, -, hpublished⟩
  exact ⟨rfl, p.name, hpublished⟩

variable (service : String) {c c' : Component} (h : c.Rearranged free c')

include h

theorem alike_createEnvironmentVersion :
    Alike (Agree free view before store disk) (createEnvironmentVersion w scope service c)
      (createEnvironmentVersion w scope service c')
      (Same fun s s' => ∃ name, Published free view before store disk
        (Kind.environment.publication name) s s')
      (Failed free view before store disk c.overrides) :=
  alike_prepared_component hw scope .environment
    (Prepared.fillAlike_definitionFirst store disk .environment service h)
    fun _ _ client client' => EnvironmentVersion.alike_provision hw client client' scope

theorem alike_createModelVersion :
    Alike (Agree free view before store disk) (createModelVersion w scope service c)
      (createModelVersion w scope service c')
      (Same fun s s' => ∃ name, Published free view before store disk
        (Kind.model.publication name) s s')
      (Failed free view before store disk c.overrides) :=
  alike_prepared_component hw scope .model
    (Prepared.fillAlike_definitionFirst store disk .model service h)
    fun _ _ client client' => ModelVersion.alike_provision hw client client' scope

theorem alike_createEndpoint :
    Alike (Agree free view before store disk) (createEndpoint w scope service c)
      (createEndpoint w scope service c')
      (Same fun s s' => ∃ name, Published free view before store disk
        (Kind.endpoint.publication name) s s')
      (Failed free view before store disk c.overrides) :=
  alike_prepared_component hw scope .endpoint
    (Prepared.fillAlike_nameFirst store disk .endpoint service h)
    fun _ _ client client' => Endpoint.alike_provision hw client client' scope

theorem alike_createFlow (now : Int) :
    Alike (Agree free view before store disk) (createFlow w scope service c now)
      (createFlow w scope service c' now)
      (Same fun s s' => ∃ name, Published free view before store disk
        (Kind.flow.publication name) s s')
      (Failed free view before store disk c.overrides) :=
  alike_prepared_component hw scope .flow (Flow.fillAlike_prepare store disk service h now)
    fun _ _ client client' => Flow.alike_provision hw client client' scope

omit h

theorem alike_deploy (endpoint : String) {d d' : DeploymentSpec} (h : d.Rearranged free d')
    (now : Int) :
    Alike (Agree free view before store disk) (deploy w scope service endpoint d now)
      (deploy w scope service endpoint d' now)
      (Same fun s s' => ∃ name, Published free view before store disk
        (Kind.endpoint.publication endpoint ++ Kind.deployment.publication name) s s')
      (Failed free view before store disk d.deployment.overrides) := by
  have hname : ∀ p p' : Deployment.Input, p.Rearranged free p' → p'.name = p.name := by
    rintro p _ ⟨overrides, rfl, -⟩
    rfl
  refine (alike_prepared_connected hw scope .deployment Deployment.Input.name
    (Deployment.fillAlike_prepare store disk service h endpoint now) hname
    fun p p' client client' => Deployment.alike_provision hw client client' scope).mono ?_
      fun _ _ _ _ => id
  rintro a a' s s' ⟨rfl, p, hp, hpublished⟩
  obtain ⟨environment, -, hp⟩ := exists_of_bind_eq_ok hp
  obtain ⟨model, -, hp⟩ := exists_of_bind_eq_ok hp
  obtain ⟨definition, -, hp⟩ := exists_of_bind_eq_ok hp
  obtain ⟨overrides, -, hp⟩ := exists_of_bind_eq_ok hp
  obtain rfl := Except.ok.inj hp
  exact ⟨rfl, Deployment.freshName Deployment.nameStart now, hpublished⟩

end Op

end

end Provisioner
