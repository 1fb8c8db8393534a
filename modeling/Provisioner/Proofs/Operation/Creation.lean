import Provisioner.Proofs.Operation.Identity

/-!
# Endpoints are made once

Several orchestrators may ask for the same endpoint, at any time and as often as they like.  As
long as the control plane shows what was made, it is made once.

* `Arguments.MakesEndpoint` is what a vector says that asks for an endpoint, and
  `Exchange.creates` is a run that made one.
* `World.KeepsEndpoints` is what is asked of the world: an endpoint that was made is there from
  then on, and one that is there is never reported missing.
* `CreatedOnce` is the invariant: no endpoint was made twice, and whatever was made is there.
  `Awaits.createdOnce` is its step, and `Request.createdOnce` says that every operation keeps it.
* `History` is any sequence of operations, and `endpoints_created_once` is what holds of all of
  them.
-/

namespace Provisioner

variable {σ κ δ α : Type}

/-! ## Making an endpoint -/

instance Options.decidableInScope (scope : Scope) (options : List (String × String)) :
    Decidable (Options.InScope scope options) :=
  decidable_of_iff (values "-s" options = [scope.subscription] ∧
      values "-g" options = [scope.resourceGroup] ∧ values "-w" options = [scope.workspace])
    ⟨fun ⟨hs, hg, hw⟩ => ⟨hs, hg, hw⟩, fun h => ⟨h.subscription, h.resourceGroup, h.workspace⟩⟩

/-- A vector that asks for an endpoint of one name in one scope. -/
structure Arguments.MakesEndpoint (scope : Scope) (name : String) (args : Arguments) : Prop where
  type : Options.values "-t" args.options = ["online-endpoint"]
  inScope : Options.InScope scope args.options
  name : Options.settings "name" args.options = [name]

namespace Arguments.MakesEndpoint

variable {scope scope' : Scope} {name name' : String} {args : Arguments}

instance decidable (scope : Scope) (name : String) (args : Arguments) :
    Decidable (args.MakesEndpoint scope name) :=
  decidable_of_iff (Options.values "-t" args.options = ["online-endpoint"] ∧
      Options.InScope scope args.options ∧ Options.settings "name" args.options = [name])
    ⟨fun ⟨htype, hscope, hname⟩ => ⟨htype, hscope, hname⟩,
      fun h => ⟨h.type, h.inScope, h.name⟩⟩

/-- A vector asks for one endpoint at most. -/
theorem unique (h : args.MakesEndpoint scope name) (h' : args.MakesEndpoint scope' name') :
    scope = scope' ∧ name = name' := by
  have hs := List.singleton_inj.1 (h.inScope.subscription.symm.trans h'.inScope.subscription)
  have hg := List.singleton_inj.1 (h.inScope.resourceGroup.symm.trans h'.inScope.resourceGroup)
  have hw := List.singleton_inj.1 (h.inScope.workspace.symm.trans h'.inScope.workspace)
  obtain ⟨subscription, resourceGroup, workspace⟩ := scope
  obtain ⟨subscription', resourceGroup', workspace'⟩ := scope'
  cases hs
  cases hg
  cases hw
  exact ⟨rfl, List.singleton_inj.1 (h.name.symm.trans h'.name)⟩

/-- The vector of the step asks for the endpoint of the step, unless an override names another
one. -/
theorem of_arguments {overrides : Overrides} {lookup : Template.Lookup} {p : Prepared}
    (h : overrides.arguments lookup = .ok p.overrides)
    (hname : ∀ e ∈ overrides.entries, fieldOf e.1 ≠ "name") :
    (Endpoint.arguments scope p).MakesEndpoint scope p.name where
  type := (Endpoint.orders scope h).type
  inScope := (Endpoint.orders scope h).inScope
  name := ((Endpoint.orders scope h).decides _ List.mem_cons_self).alone.2 hname

/-- A vector that orders a resource of another type asks for no endpoint. -/
theorem not_of_orders {type : String} {own : List (String × String)} {overrides : Overrides}
    (horders : Options.Orders type scope' own overrides args.options)
    (hne : type ≠ "online-endpoint") : ¬ args.MakesEndpoint scope name :=
  fun h => hne (List.singleton_inj.1 (horders.type.symm.trans h.type))

end Arguments.MakesEndpoint

/-- A call that asks for an endpoint. -/
def Call.Creates (scope : Scope) (name : String) : Call κ → Prop
  | .run .mlClient args => args.MakesEndpoint scope name
  | _ => False

/-- Whether an exchange made an endpoint: a run that asked for it and succeeded. -/
def Exchange.creates (scope : Scope) (name : String) : Exchange κ → Bool
  | .run .mlClient args (.ok _) => args.MakesEndpoint scope name
  | _ => false

theorem Exchange.creates_call {scope : Scope} {name : String} {x : Exchange κ}
    (h : x.creates scope name = true) : x.call.Creates scope name := by
  cases x with
  | read => cases h
  | run program args ended =>
    cases program with
    | promptFlowClient => cases h
    | mlClient =>
      cases ended with
      | error => cases h
      | ok output => exact of_decide_eq_true (p := args.MakesEndpoint scope name) h

/-- How often an endpoint was made. -/
def Logbook.creations (l : Logbook σ κ) (scope : Scope) (name : String) : Nat :=
  l.answered.countP (Exchange.creates scope name)

/-! ## Worlds that keep endpoints -/

/-- A world in which an endpoint that was made is there from then on.  Questions about it may
fail, but the answer is not that it does not exist. -/
structure World.KeepsEndpoints (w : World σ κ) (there : σ → Scope → String → Prop) : Prop where
  created : ∀ scope name args output world world', args.MakesEndpoint scope name →
    w.run .mlClient args world = (some (.ok output), world') → there world' scope name
  missed : ∀ client scope name what world world',
    w.read client scope (.endpoint name) world = (some (.error (.notFound what)), world') →
    ¬ there world scope name
  connect : ∀ subscription world scope name, there world scope name →
    there (w.connect subscription world).2 scope name
  startTools : ∀ world scope name, there world scope name →
    there (w.startTools world).2 scope name
  run : ∀ program args world scope name, there world scope name →
    there (w.run program args world).2 scope name
  read : ∀ client scope' query world scope name, there world scope name →
    there (w.read client scope' query world).2 scope name

/-- Every endpoint that is there in a state is there in another. -/
def Keeps (there : σ → Scope → String → Prop) (world world' : σ) : Prop :=
  ∀ scope name, there world scope name → there world' scope name

section

variable {w : World σ κ} {there : σ → Scope → String → Prop} (hw : w.KeepsEndpoints there)
  {world world' : σ}
include hw

theorem Exchange.Given.keeps {x : Exchange κ} (h : x.Given w world world') :
    Keeps there world world' := by
  intro scope name hthere
  cases x with
  | run program args ended =>
    have hkept := hw.run program args world scope name hthere
    rw [show w.run program args world = _ from h] at hkept
    exact hkept
  | read client scope' query answer =>
    have hkept := hw.read client scope' query world scope name hthere
    rw [show w.read client scope' query world = _ from h] at hkept
    exact hkept

theorem Call.Dropped.keeps {call : Call κ} (h : call.Dropped w world world') :
    Keeps there world world' := by
  intro scope name hthere
  cases call with
  | connect | startTools => exact absurd h id
  | run program args =>
    have hkept := hw.run program args world scope name hthere
    rw [show w.run program args world = _ from h] at hkept
    exact hkept
  | read client scope' query =>
    have hkept := hw.read client scope' query world scope name hthere
    rw [show w.read client scope' query world = _ from h] at hkept
    exact hkept

theorem Op.Opens.keeps {kind : Kind} {name : String} {scope : Scope} {s : Session σ κ δ}
    {r : Except ProvisionError κ × Session σ κ δ} (h : Op.Opens w kind name scope s r) :
    Keeps there s.world r.2.world := by
  intro scope' name' hthere
  have hconnected := hw.connect scope.subscription s.world scope' name' hthere
  cases h with
  | cancelled h =>
    cases h with
    | before => exact hthere
    | connecting _ _ hconnect =>
      rw [hconnect] at hconnected
      exact hconnected
    | starting _ _ hconnect htools =>
      rw [hconnect] at hconnected
      have hstarted := hw.startTools _ _ _ hconnected
      rw [htools] at hstarted
      exact hstarted
  | there => exact hthere
  | unconnected _ _ hconnect =>
    rw [hconnect] at hconnected
    exact hconnected
  | unready _ _ hconnect htools | opened _ _ hconnect htools =>
    rw [hconnect] at hconnected
    have hstarted := hw.startTools _ _ _ hconnected
    rw [htools] at hstarted
    exact hstarted

end

/-! ## The invariant -/

/-- No endpoint was made twice, and whatever was made is there. -/
structure CreatedOnce (there : σ → Scope → String → Prop) (l : Logbook σ κ) : Prop where
  once : ∀ scope name, l.creations scope name ≤ 1
  shown : ∀ scope name, 0 < l.creations scope name → there l.state scope name

namespace CreatedOnce

variable {there : σ → Scope → String → Prop} {l l' : Logbook σ κ}

theorem start (state : σ) : CreatedOnce (κ := κ) there ⟨state, []⟩ where
  once _ _ := Nat.zero_le 1
  shown _ _ hcreated := absurd hcreated (Nat.lt_irrefl 0)

/-- Nothing new in the logbook. -/
theorem of_same (h : CreatedOnce there l) (hsame : l'.answered = l.answered)
    (hkeeps : Keeps there l.state l'.state) : CreatedOnce there l' := by
  have hcreations (scope : Scope) (name : String) :
      l'.creations scope name = l.creations scope name := by
    rw [Logbook.creations, hsame]
    rfl
  refine ⟨fun scope name => ?_, fun scope name hcreated => ?_⟩
  · rw [hcreations]
    exact h.once scope name
  · rw [hcreations] at hcreated
    exact hkeeps scope name (h.shown scope name hcreated)

/-- One more exchange.  An endpoint that it made was not made before, and is there now. -/
theorem of_exchange {x : Exchange κ} (h : CreatedOnce there l)
    (hnext : l'.answered = l.answered ++ [x]) (hkeeps : Keeps there l.state l'.state)
    (hnew : ∀ scope name, x.creates scope name = true →
      l.creations scope name = 0 ∧ there l'.state scope name) : CreatedOnce there l' := by
  have hcreations (scope : Scope) (name : String) : l'.creations scope name =
      l.creations scope name + if x.creates scope name then 1 else 0 := by
    rw [Logbook.creations, hnext, List.countP_append, List.countP_singleton]
    rfl
  refine ⟨fun scope name => ?_, fun scope name hcreated => ?_⟩
  · rw [hcreations]
    by_cases hx : x.creates scope name = true
    · rw [if_pos hx, (hnew scope name hx).1]
    · rw [if_neg hx]
      exact h.once scope name
  · rw [hcreations] at hcreated
    by_cases hx : x.creates scope name = true
    · exact (hnew scope name hx).2
    · rw [if_neg hx] at hcreated
      exact hkeeps scope name (h.shown scope name hcreated)

end CreatedOnce

section

variable {w : World σ κ} {there : σ → Scope → String → Prop} (hw : w.KeepsEndpoints there)
include hw

theorem Exchange.Given.there_of_creates {x : Exchange κ} {world world' : σ}
    (h : x.Given w world world') {scope : Scope} {name : String}
    (hx : x.creates scope name = true) : there world' scope name := by
  cases x with
  | read => cases hx
  | run program args ended =>
    cases program with
    | promptFlowClient => cases hx
    | mlClient =>
      cases ended with
      | error => cases hx
      | ok output => exact hw.created scope name args output _ _ (creates_call hx) h

variable {s s' : Session (Logbook σ κ) κ δ}

omit hw in
theorem Awaits.call_eq {w : World σ κ} {call : Call κ} {x : Exchange κ} {s s' : Session σ κ δ}
    (h : Awaits w call s (some x) s') : x.call = call := by
  cases h with
  | answered _ hcall => exact hcall

/-- An await keeps the invariant, if it asks for no endpoint but one that was not made yet. -/
theorem Awaits.createdOnce {call : Call κ} {x? : Option (Exchange κ)}
    (h : Awaits w.logged call s x? s') (hs : CreatedOnce there s.world)
    (hcall : ∀ scope name, call.Creates scope name → s.world.creations scope name = 0) :
    CreatedOnce there s'.world := by
  cases h with
  | stopped => exact hs
  | dropped _ hdropped =>
    obtain ⟨hdropped, hsame⟩ := hdropped.of_logged
    exact hs.of_same hsame (hdropped.keeps hw)
  | answered _ hx hgiven =>
    obtain ⟨hgiven, hnext⟩ := hgiven.of_logged
    refine hs.of_exchange hnext (hgiven.keeps hw) fun scope name hcreates => ?_
    exact ⟨hcall scope name (hx ▸ Exchange.creates_call hcreates),
      hgiven.there_of_creates hw hcreates⟩

theorem Op.Opens.createdOnce {kind : Kind} {name : String} {scope : Scope}
    {r : Except ProvisionError κ × Session (Logbook σ κ) κ δ}
    (h : Op.Opens w.logged kind name scope s r) (hs : CreatedOnce there s.world) :
    CreatedOnce there r.2.world :=
  hs.of_same h.answered_eq (Op.Opens.keeps hw h.unlogged)

end

/-! ## Courses -/

namespace Course

section

variable [Disk δ] {w : World σ κ} {course : Course κ α}
  {publication? : Option (List (String × String))} {stage : Stage κ}

/-- An operation comes to an end at its next await, or goes on after it. -/
theorem Unfolds.stage_cases {s : Session σ κ δ} {r : Except ProvisionError α × Session σ κ δ}
    (h : Unfolds w publication? course s r) (hstage : course [] = .call stage) :
    (∃ x?, Awaits w stage.call s x? r.2) ∨
      ∃ x s', Awaits w stage.call s (some x) s' ∧ stage.failure? x = none ∧
        Unfolds w publication? (course.after [x]) s' r := by
  cases h with
  | cancelled hstage' hawaits =>
    cases hstage.symm.trans hstage'
    exact .inl ⟨none, hawaits⟩
  | failed hstage' hawaits =>
    cases hstage.symm.trans hstage'
    exact .inl ⟨_, hawaits⟩
  | next hstage' hawaits hnone hrest =>
    cases hstage.symm.trans hstage'
    exact .inr ⟨_, _, hawaits, hnone, hrest⟩
  | useless hdone | finished hdone => cases hstage.symm.trans hdone

/-- A course that never asks for an endpoint keeps the invariant. -/
theorem Unfolds.createdOnce {there : σ → Scope → String → Prop} (hw : w.KeepsEndpoints there)
    {s : Session (Logbook σ κ) κ δ} {r : Except ProvisionError α × Session (Logbook σ κ) κ δ}
    (h : Unfolds w.logged publication? course s r) (hs : CreatedOnce there s.world)
    (hnone : course.Asks fun call => ∀ scope name, ¬ call.Creates scope name) :
    CreatedOnce there r.2.world := by
  induction h with
  | cancelled hstage hawaits | failed hstage hawaits =>
    exact hawaits.createdOnce hw hs fun scope name hcreates =>
      absurd hcreates (hnone _ _ hstage scope name)
  | @next _ _ _ _ x _ hstage hawaits _ _ ih =>
    have hs' := hawaits.createdOnce hw hs fun scope name hcreates =>
      absurd hcreates (hnone _ _ hstage scope name)
    exact ih hs' fun ys stage => hnone ([x] ++ ys) stage
  | useless => exact hs
  | finished =>
    rw [(world_conclude publication? _ _).1]
    exact hs

end

variable {client : κ} {scope : Scope} {p : Prepared}

/-- After an endpoint is found nothing is run. -/
theorem endpoint_after_found (found : Endpoint) :
    ((endpoint client scope p).after [.read client scope (.endpoint p.name) (.ok found)]).Asks
      (· = .read client scope (.endpoint p.name)) := by
  intro ys stage hstage
  rcases call_of_endpoint hstage with hread | ⟨x, hx, hmiss, -⟩
  · exact hread
  · cases hx
    cases hmiss

/-- After a run the endpoint is only read. -/
theorem endpoint_after_run (x y : Exchange κ) :
    (((endpoint client scope p).after [x]).after [y]).Asks
      (· = .read client scope (.endpoint p.name)) := by
  intro ys stage hstage
  rcases call_of_endpoint hstage with hread | ⟨z, hz, -⟩
  · exact hread
  · cases hz

/-- What was not found was not made, so it is about to be made for the first time. -/
theorem creations_eq_zero_of_missed [Disk δ] {w : World σ κ} {there : σ → Scope → String → Prop}
    (hw : w.KeepsEndpoints there) {s s' : Session (Logbook σ κ) κ δ} {name what : String}
    {call : Call κ} (hs : CreatedOnce there s.world)
    (h : Awaits w.logged call s
      (some (.read client scope (.endpoint name) (.error (.notFound what)))) s') :
    s'.world.creations scope name = 0 := by
  cases h with
  | answered _ _ hgiven =>
    obtain ⟨hgiven, hnext⟩ := hgiven.of_logged
    have hmissing : ¬ there s.world.state scope name := hw.missed _ _ _ _ _ _ hgiven
    have hzero : s.world.creations scope name = 0 :=
      Nat.eq_zero_of_not_pos fun hcreated => hmissing (hs.shown scope name hcreated)
    rw [Logbook.creations, Session.after, hnext, List.countP_append]
    exact hzero

/-- The step of an endpoint keeps the invariant, if its vector asks for that endpoint. -/
theorem Unfolds.createdOnce_endpoint [Disk δ] {w : World σ κ}
    {there : σ → Scope → String → Prop} (hw : w.KeepsEndpoints there)
    {publication? : Option (List (String × String))} {s : Session (Logbook σ κ) κ δ}
    {r : Except ProvisionError Endpoint × Session (Logbook σ κ) κ δ}
    (h : Unfolds w.logged publication? (endpoint client scope p) s r)
    (hs : CreatedOnce there s.world)
    (hmakes : (Endpoint.arguments scope p).MakesEndpoint scope p.name) :
    CreatedOnce there r.2.world := by
  have hread (call : Call κ) (hcall : call = .read client scope (.endpoint p.name)) :
      ∀ scope name, ¬ call.Creates scope name := by
    rintro scope name hcreates
    rw [hcall] at hcreates
    exact hcreates
  rcases h.stage_cases rfl with ⟨x?, hprobe⟩ | ⟨x, s₁, hprobe, hnone, hrest⟩
  · exact hprobe.createdOnce hw hs fun scope name hcreates => absurd hcreates id
  have hs₁ := hprobe.createdOnce hw hs fun scope name hcreates => absurd hcreates id
  obtain ⟨answer, rfl, ⟨found, rfl⟩ | ⟨-, what, rfl⟩⟩ :=
    exists_answer_of_read hprobe.call_eq hnone
  · exact hrest.createdOnce hw hs₁ ((endpoint_after_found found).mono hread)
  have hrun (scope' : Scope) (name : String)
      (hcreates : (Endpoint.arguments scope p).MakesEndpoint scope' name) :
      s₁.world.creations scope' name = 0 := by
    obtain ⟨rfl, rfl⟩ := hmakes.unique hcreates
    exact creations_eq_zero_of_missed hw hs hprobe
  rcases hrest.stage_cases rfl with ⟨y?, hmake⟩ | ⟨y, s₂, hmake, -, hrest⟩
  · exact hmake.createdOnce hw hs₁ hrun
  · exact hrest.createdOnce hw (hmake.createdOnce hw hs₁ hrun)
      ((endpoint_after_run _ y).mono hread)

end Course

/-! ## Operations -/

/-- A request that names the resource itself: no override names another endpoint. -/
def Request.NamesItself : Request → Prop
  | .endpoint _ _ c => ∀ e ∈ c.overrides.entries, fieldOf e.1 ≠ "name"
  | _ => True

namespace Course

open Arguments.MakesEndpoint (not_of_orders)

variable {client : κ} {scope : Scope} {overrides : Overrides} {lookup : Template.Lookup}

/-- A course that asks for no endpoint. -/
abbrev AsksNoEndpoint (course : Course κ α) : Prop :=
  course.Asks fun call => ∀ scope name, ¬ call.Creates scope name

theorem asksNoEndpoint_environment {p : Prepared}
    (h : overrides.arguments lookup = .ok p.overrides) :
    (environment client scope p).AsksNoEndpoint := by
  intro xs stage hstage
  rcases call_of_environment hstage with ⟨-, hcall⟩ | ⟨x, -, hcall⟩ | ⟨x, y, -, hcall⟩ <;>
    rw [hcall]
  · exact fun _ _ => id
  · exact fun _ _ => not_of_orders (EnvironmentVersion.orders scope h _) (by decide)
  · exact fun _ _ => id

theorem asksNoEndpoint_model {p : Prepared} (h : overrides.arguments lookup = .ok p.overrides) :
    (model client scope p).AsksNoEndpoint := by
  intro xs stage hstage
  rcases call_of_model hstage with ⟨-, hcall⟩ | ⟨x, -, hcall⟩ | ⟨x, y, -, hcall⟩ <;> rw [hcall]
  · exact fun _ _ => not_of_orders (ModelVersion.orders scope h) (by decide)
  · exact fun _ _ => id
  · exact fun _ _ => id

theorem asksNoEndpoint_deployment {p : Deployment.Input}
    (h : overrides.arguments lookup = .ok p.overrides) :
    (deployment client scope p).AsksNoEndpoint := by
  intro xs stage hstage
  rcases call_of_deployment hstage with
    ⟨-, hcall⟩ | ⟨e, -, hcall⟩ | ⟨e, m, -, hcall⟩ | ⟨e, m, y, -, hcall⟩ <;> rw [hcall]
  · exact fun _ _ => id
  · exact fun _ _ => id
  · exact fun _ _ => not_of_orders (Deployment.orders scope h _ _) (by decide)
  · exact fun _ _ => id

theorem asksNoEndpoint_flow (p : Prepared) : (flow (κ := κ) scope p).AsksNoEndpoint := by
  intro xs stage hstage
  rcases call_of_flow hstage with ⟨-, hcall⟩ | ⟨x, verb, -, hcall⟩ <;> rw [hcall]
  · exact fun _ _ => id
  · exact fun _ _ => id

end Course

section

variable [Disk δ] {w : World σ κ} {there : σ → Scope → String → Prop}
  (hw : w.KeepsEndpoints there)
include hw

/-- Every operation keeps the invariant, whatever it is answered. -/
theorem Request.createdOnce {s : Session (Logbook σ κ) κ δ} (q : Request) (hq : q.NamesItself)
    (hs : CreatedOnce there s.world) :
    CreatedOnce there ((q.op w.logged).run.run s).2.world := by
  rcases (q.follows w.logged s).refused_or_good with ⟨e, -, hr⟩ | ⟨p, hfill, hfollows⟩
  · rw [hr]
    exact hs
  generalize (q.op w.logged).run.run s = r at hfollows
  cases hfollows with
  | unopened hopens => exact hopens.createdOnce hw hs
  | @opened client s₁ _ hopens hrest =>
    have hs₁ : CreatedOnce there s₁.world := hopens.createdOnce hw hs
    cases q with
    | environment =>
      exact hrest.createdOnce hw hs₁ (Course.asksNoEndpoint_environment
        (Prepared.filledIn_of_definitionFirst hfill).overrides)
    | model =>
      exact hrest.createdOnce hw hs₁ (Course.asksNoEndpoint_model
        (Prepared.filledIn_of_definitionFirst hfill).overrides)
    | endpoint =>
      exact hrest.createdOnce_endpoint hw hs₁
        (.of_arguments (Prepared.filledIn_of_nameFirst hfill).overrides hq)
    | deployment =>
      exact hrest.createdOnce hw hs₁ (Course.asksNoEndpoint_deployment
        (Deployment.filledIn_of_prepare hfill).overrides)
    | flow => exact hrest.createdOnce hw hs₁ (Course.asksNoEndpoint_flow p)
    | workspace =>
      refine hrest.createdOnce hw hs₁ fun xs stage hstage => ?_
      rw [(Course.call_of_workspace hstage).2]
      exact fun _ _ => id
    | endpointRecord =>
      refine hrest.createdOnce hw hs₁ fun xs stage hstage => ?_
      rw [(Course.call_of_endpointRecord hstage).2]
      exact fun _ _ => id

end

/-! ## One call for an endpoint -/

/-- What a call for an endpoint has done when it ends, with or without a result. -/
structure Endpoint.Called (there : σ → Scope → String → Prop) (scope : Scope) (name : String)
    (s : Session (Logbook σ κ) κ δ)
    (r : Except ProvisionError Endpoint × Session (Logbook σ κ) κ δ) (xs : List (Exchange κ)) :
    Prop where
  answered : r.2.world.answered = s.world.answered ++ xs
  /-- It runs nothing else than what makes this endpoint. -/
  creates : ∀ x ∈ xs, ∀ run, x.call.program? = some run → x.call.Creates scope name
  /-- It runs nothing if the endpoint is there from the start. -/
  idle : there s.world.state scope name → Ran [] s r
  /-- It runs nothing if it finds the endpoint. -/
  found : ∀ client found rest, xs = .read client scope (.endpoint name) (.ok found) :: rest →
    Ran [] s r
  /-- Its result is what it read last, after the answer with which it began. -/
  latest : ∀ record, r.1 = .ok record → ∃ client first between,
    xs = .read client scope (.endpoint name) first :: between ++
      [.read client scope (.endpoint name) (.ok record)]

theorem programsRun_eq_nil {calls : List (Call κ)} (h : ∀ call ∈ calls, call.program? = none) :
    programsRun calls = [] :=
  List.filterMap_eq_nil_iff.2 h

theorem Awaits.ran_nothing {w : World σ κ} {call : Call κ} {s : Session σ κ δ}
    {x? : Option (Exchange κ)} {r : Except ProvisionError α × Session σ κ δ}
    (h : Awaits w call s x? r.2) (hcall : call.program? = none) : Ran [] s r := by
  generalize hs' : r.2 = s' at h
  rw [Ran, hs']
  cases h with
  | stopped => exact ⟨[], (List.append_nil _).symm, rfl⟩
  | dropped => exact ⟨[call], rfl, programsRun_eq_nil (List.forall_mem_singleton.2 hcall)⟩
  | @answered x _ _ hx =>
    refine ⟨[x.call], rfl, programsRun_eq_nil (List.forall_mem_singleton.2 ?_)⟩
    rw [hx]
    exact hcall

namespace Course

variable {client : κ} {scope : Scope} {p : Prepared}

/-- The only program that the step of an endpoint runs is the one that makes it. -/
theorem asks_endpoint_creates
    (hmakes : (Endpoint.arguments scope p).MakesEndpoint scope p.name) :
    (endpoint client scope p).Asks fun call =>
      ∀ run, call.program? = some run → call.Creates scope p.name := by
  intro xs stage hstage
  rcases call_of_endpoint hstage with hcall | ⟨x, -, -, hcall⟩ <;> rw [hcall]
  · exact fun run hrun => nomatch hrun
  · exact fun _ _ => hmakes

/-- An endpoint that is there is not made again. -/
theorem Unfolds.ran_nothing_of_there [Disk δ] {w : World σ κ}
    {there : σ → Scope → String → Prop} (hw : w.KeepsEndpoints there)
    {publication? : Option (List (String × String))} {s : Session (Logbook σ κ) κ δ}
    {r : Except ProvisionError Endpoint × Session (Logbook σ κ) κ δ}
    (h : Unfolds w.logged publication? (endpoint client scope p) s r)
    (hthere : there s.world.state scope p.name) : Ran [] s r := by
  rcases h.stage_cases rfl with ⟨x?, hprobe⟩ | ⟨x, s₁, hprobe, hnone, hrest⟩
  · exact hprobe.ran_nothing rfl
  obtain ⟨answer, rfl, hanswer⟩ := exists_answer_of_read hprobe.call_eq hnone
  cases hprobe with
  | answered _ _ hgiven =>
  rcases hanswer with ⟨found, rfl⟩ | ⟨-, what, rfl⟩
  · refine Ran.of_after (hrest.ran_nothing fun ys stage hstage => ?_)
    rw [endpoint_after_found found ys stage hstage]
    rfl
  · exact absurd hthere (hw.missed _ _ _ _ _ _ hgiven.of_logged.1)

/-- An endpoint that is found is not made again. -/
theorem Trace.programsRun_eq_nil_of_found {asked : κ} {found : Endpoint}
    {rest : List (Exchange κ)} {last? : Option (Call κ)} {record? : Option Endpoint}
    (h : (endpoint client scope p).Trace
      (.read asked scope (.endpoint p.name) (.ok found) :: rest) last? record?) :
    programsRun (traceCalls (.read asked scope (.endpoint p.name) (.ok found) :: rest) last?) =
      [] := by
  refine programsRun_eq_nil fun call hmem => ?_
  rcases h.stage_cases rfl with hfew | ⟨x, rest', hx, hcall, -, hrest⟩
  · rw [List.mem_singleton.1 (hfew.subset hmem)]
    rfl
  · cases hx
    cases hcall
    rcases List.mem_cons.1 hmem with rfl | hmem
    · rfl
    · rw [hrest.forall_calls (endpoint_after_found found) call hmem]
      rfl

end Course

/-- A call for an endpoint makes it only if it is missing, and answers with a record that it has
read afterwards. -/
theorem Endpoint.exists_called [Disk δ] {w : World σ κ} {there : σ → Scope → String → Prop}
    (hw : w.KeepsEndpoints there) (s : Session (Logbook σ κ) κ δ) (scope : Scope)
    (service : String) {c : Component} {name : String}
    (hname : c.name.resolve s.store.lookup = .ok name)
    (hc : ∀ e ∈ c.overrides.entries, fieldOf e.1 ≠ "name") :
    ∃ xs, Called there scope name s
      ((Op.createEndpoint w.logged scope service c).run.run s) xs := by
  rcases (follows_createEndpoint w.logged scope s service c).refused_or_good with
    ⟨e, -, hr⟩ | ⟨p, hfill, hfollows⟩
  · rw [hr]
    refine ⟨[], (List.append_nil _).symm, fun x hx => absurd hx List.not_mem_nil,
      fun _ => .none s _, fun _ _ _ hxs => absurd hxs.symm (List.cons_ne_nil _ _),
      fun record hrecord => ?_⟩
    cases hrecord
  have hp := Prepared.filledIn_of_nameFirst hfill
  obtain rfl := Except.ok.inj (hp.name.symm.trans hname)
  have hmakes : (arguments scope p).MakesEndpoint scope p.name := .of_arguments hp.overrides hc
  obtain ⟨opening, xs, last?, htraced⟩ := hfollows.traced
  generalize (Op.createEndpoint w.logged scope service c).run.run s = r at hfollows htraced
  refine ⟨xs, htraced.answered, ?creates, ?idle, ?found, ?latest⟩
  case creates =>
    intro x hx
    have htrace := htraced.trace
    generalize r.1.toOption = record? at htrace
    cases htrace with
    | unopened => cases hx
    | opened htrace =>
      exact htrace.forall_calls (Course.asks_endpoint_creates hmakes) x.call
        (List.mem_append_left _ (List.mem_map_of_mem hx))
  case idle =>
    intro hthere
    cases hfollows with
    | unopened hopens => exact hopens.ran (.none _ _)
    | opened hopens hrest =>
      have hthere := Op.Opens.keeps hw hopens.unlogged scope p.name hthere
      exact hopens.ran (hrest.ran_nothing_of_there hw hthere)
  case found =>
    rintro client found rest rfl
    have htrace := htraced.trace
    generalize r.1.toOption = record? at htrace
    cases htrace with
    | opened htrace =>
    refine ⟨_, htraced.calls, ?_⟩
    rw [programsRun_append_of_opening htraced.opens, htrace.programsRun_eq_nil_of_found]
  case latest =>
    intro record hrecord
    have htrace := htraced.trace
    rw [hrecord] at htrace
    cases htrace with
    | @opened client _ _ _ htrace =>
    cases exchanged htrace hp.overrides with
    | @there found => exact ⟨client, .ok found, [], rfl⟩
    | @made what args output =>
      exact ⟨client, .error (.notFound what), [.run .mlClient args (.ok output)], rfl⟩

/-! ## Any sequence of operations -/

/-- One operation of a sequence: the session in which an orchestrator begins it, and what it is
asked for. -/
structure Turn (σ κ δ : Type) where
  session : Session (Logbook σ κ) κ δ
  request : Request

/-- Operations one after the other, from one state of the world to another.  Whose turn it is does
not matter: an orchestrator begins with whatever store, disk and client it has, and with the world
as it is by then.  Between two operations the world may change, if it keeps its endpoints. -/
inductive History [Disk δ] (w : World σ κ) (there : σ → Scope → String → Prop)
    (start : Logbook σ κ) : List (Turn σ κ δ) → Logbook σ κ → Prop
  | nil : History w there start [] start
  | operate {turns : List (Turn σ κ δ)} (s : Session (Logbook σ κ) κ δ) (q : Request) :
    History w there start turns s.world →
    History w there start (turns ++ [⟨s, q⟩]) ((q.op w.logged).run.run s).2.world
  | elsewhere {turns : List (Turn σ κ δ)} {l : Logbook σ κ} {state : σ} :
    History w there start turns l → Keeps there l.state state →
    History w there start turns { l with state := state }

variable [Disk δ]

theorem History.createdOnce {w : World σ κ} {there : σ → Scope → String → Prop}
    (hw : w.KeepsEndpoints there) {start last : Logbook σ κ} {turns : List (Turn σ κ δ)}
    (h : History w there start turns last) (hstart : CreatedOnce there start)
    (hturns : ∀ t ∈ turns, t.request.NamesItself) : CreatedOnce there last := by
  induction h with
  | nil => exact hstart
  | operate s q _ ih =>
    have hs := ih fun t ht => hturns t (List.mem_append_left _ ht)
    exact q.createdOnce hw (hturns ⟨s, q⟩ (List.mem_append_right _ List.mem_cons_self)) hs
  | elsewhere _ hkeeps ih => exact (ih hturns).of_same rfl hkeeps

/-- However often and by whomever an endpoint is asked for, and whatever fails, it is made once at
most.  A call that finds it runs nothing, and one that succeeds answers with what it has read
after its first look. -/
theorem endpoints_created_once {w : World σ κ} {there : σ → Scope → String → Prop}
    (hw : w.KeepsEndpoints there) {start : σ} {last : Logbook σ κ} {turns : List (Turn σ κ δ)}
    (h : History w there ⟨start, []⟩ turns last) (hturns : ∀ t ∈ turns, t.request.NamesItself) :
    (∀ scope name, last.creations scope name ≤ 1) ∧
      ∀ s scope service c name, ⟨s, .endpoint scope service c⟩ ∈ turns →
        c.name.resolve s.store.lookup = .ok name →
        ∃ xs, Endpoint.Called there scope name s
          ((Op.createEndpoint w.logged scope service c).run.run s) xs :=
  ⟨(h.createdOnce hw (.start start) hturns).once, fun s scope service _ _ hturn hname =>
    Endpoint.exists_called hw s scope service hname (hturns _ hturn)⟩

/-! ## A world that registers endpoints -/

/-- The endpoints that exist, with their scopes. -/
abbrev Registry := List (Scope × String)

/-- The registry after a run of the ML client. -/
def Registry.after (r : Registry) (args : Arguments) : Registry :=
  match Options.values "-s" args.options, Options.values "-g" args.options,
    Options.values "-w" args.options, Options.settings "name" args.options with
  | [subscription], [resourceGroup], [workspace], [name] =>
    if Options.values "-t" args.options = ["online-endpoint"] then
      (⟨subscription, resourceGroup, workspace⟩, name) :: r
    else r
  | _, _, _, _ => r

/-- What the registry answers. -/
def Registry.answer (r : Registry) (scope : Scope) :
    (q : ControlPlane.Query) → ControlPlane.Answer q
  | .endpoint name =>
    if (scope, name) ∈ r then .ok (Resource.named name .blank) else .error (.notFound name)
  | q => .ok q.sample

/-- A world in which every run succeeds, and registers the endpoint that it makes. -/
def registryWorld : World Registry Unit where
  cancelled _ := false
  connect _ r := (some (.ok ()), r)
  startTools r := (some (.ok ()), r)
  run program args r := (some (.ok default), match program with
    | .mlClient => r.after args
    | .promptFlowClient => r)
  read _ scope q r := (some (r.answer scope q), r)

theorem Registry.mem_after {r : Registry} {e : Scope × String} (h : e ∈ r) (args : Arguments) :
    e ∈ r.after args := by
  rw [after]
  split
  · split
    · exact List.mem_cons_of_mem _ h
    · exact h
  · exact h

theorem registryWorld_keepsEndpoints :
    registryWorld.KeepsEndpoints fun r scope name => (scope, name) ∈ r where
  created := by
    intro scope name args output r r' h hrun
    obtain rfl : r.after args = r' := congrArg Prod.snd hrun
    rw [Registry.after, h.inScope.subscription, h.inScope.resourceGroup, h.inScope.workspace,
      h.name]
    dsimp only
    rw [if_pos h.type]
    exact List.mem_cons_self
  missed := by
    intro client scope name what r r' hread hmem
    have hanswer : r.answer scope (.endpoint name) = .error (.notFound what) :=
      Option.some.inj (congrArg Prod.fst hread)
    rw [Registry.answer, if_pos hmem] at hanswer
    cases hanswer
  connect _ _ _ _ h := h
  startTools _ _ _ h := h
  run program args _ _ _ h := by
    cases program with
    | mlClient => exact Registry.mem_after h args
    | promptFlowClient => exact h
  read _ _ _ _ _ _ h := h

theorem endpoints_created_once_registryWorld :
    let w := registryWorld
    let scope : Scope := ⟨"sub", "rg", "ws"⟩
    let q : Request := .endpoint scope "svc" Course.thing
    let first : Session (Logbook Registry Unit) Unit FileTree :=
      { Course.connectedSession with world := ⟨[], []⟩, client? := none }
    let second := { first with world := ((q.op w.logged).run.run first).2.world }
    let last := ((q.op w.logged).run.run second).2.world
    (∀ scope name, last.creations scope name ≤ 1) ∧ last.creations scope "thing" = 1 ∧
      ∃ xs, Endpoint.Called (fun r scope name => (scope, name) ∈ r) scope "thing" second
        ((Op.createEndpoint w.logged scope "svc" Course.thing).run.run second) xs := by
  intro w scope q first second last
  have hhistory : History w (fun r scope name => (scope, name) ∈ r) ⟨[], []⟩
      [⟨first, q⟩, ⟨second, q⟩] last := .operate second q (.operate first q .nil)
  have hnames : ∀ t ∈ [Turn.mk first q, ⟨second, q⟩], t.request.NamesItself := by
    intro t ht
    rcases List.mem_cons.1 ht with rfl | ht
    · exact fun e he => absurd he List.not_mem_nil
    · obtain rfl := List.mem_singleton.1 ht
      exact fun e he => absurd he List.not_mem_nil
  obtain ⟨honce, hcalls⟩ :=
    endpoints_created_once registryWorld_keepsEndpoints hhistory hnames
  refine ⟨honce, by decide +kernel, ?_⟩
  have hturn : (⟨second, q⟩ : Turn Registry Unit FileTree) ∈ [⟨first, q⟩, ⟨second, q⟩] :=
    List.mem_cons_of_mem _ List.mem_cons_self
  have hname : Course.thing.name.resolve second.store.lookup = .ok "thing" := by decide +kernel
  exact hcalls second scope "svc" Course.thing "thing" hturn hname

end Provisioner
