import Provisioner.Proofs.Operation.Kinds
import Provisioner.Proofs.Operation.Opening

/-!
# Cancellation

An operation can be cancelled at every await: while it waits for its client, and at every
call that it makes.

* `Follows` is what an operation does from its first await on: it waits for its client, and
  then `Course.Unfolds` says what it does.  There is just one way in which it can go on
  (`Follows.unique`).
* `NeverCancelled` and `OnceFilled` are what comes before: inputs are filled in, or refused.
* `Cancellable` is what cancellation does to an operation, and `operations_cancel` says it of
  all operations.
-/

namespace Provisioner

variable {σ κ δ α β : Type}

/-! ## One way to go on -/

section

variable {w : World σ κ} {call : Call κ}

theorem Exchange.eq_of_given {x y : Exchange κ} {world world' world'' : σ}
    (hcall : x.call = y.call) (hx : x.Given w world world') (hy : y.Given w world world'') :
    x = y ∧ world' = world'' := by
  cases x with
  | run program arguments ended =>
    cases y with
    | read => cases hcall
    | run =>
      cases hcall
      cases (show w.run program arguments world = _ from hx).symm.trans hy
      exact ⟨rfl, rfl⟩
  | read client scope query answer =>
    cases y with
    | run => cases hcall
    | read =>
      cases hcall
      cases (show w.read client scope query world = _ from hx).symm.trans hy
      exact ⟨rfl, rfl⟩

/-- A call that was answered was not dropped. -/
theorem Exchange.not_dropped_of_given {x : Exchange κ} {world world' world'' : σ}
    (hx : x.Given w world world') : ¬ x.call.Dropped w world world'' := by
  intro hdropped
  cases x with
  | run program arguments ended =>
    cases (show w.run program arguments world = _ from hx).symm.trans hdropped
  | read client scope query answer =>
    cases (show w.read client scope query world = _ from hx).symm.trans hdropped

theorem Call.eq_of_dropped {world world' world'' : σ} (h : call.Dropped w world world')
    (h' : call.Dropped w world world'') : world' = world'' := by
  cases call with
  | connect | startTools => exact absurd h id
  | run program arguments =>
    cases (show w.run program arguments world = _ from h).symm.trans h'
    rfl
  | read client scope query =>
    cases (show w.read client scope query world = _ from h).symm.trans h'
    rfl

theorem Awaits.unique {s s' s'' : Session σ κ δ} {x? y? : Option (Exchange κ)}
    (h : Awaits w call s x? s') (h' : Awaits w call s y? s'') : x? = y? ∧ s' = s'' := by
  cases h with
  | stopped hstop =>
    cases h' with
    | stopped => exact ⟨rfl, rfl⟩
    | dropped hgo | answered hgo => exact Bool.noConfusion (hstop.symm.trans hgo)
  | dropped hgo hdropped =>
    cases h' with
    | stopped hstop => exact Bool.noConfusion (hstop.symm.trans hgo)
    | dropped _ hdropped' =>
      obtain rfl := Call.eq_of_dropped hdropped hdropped'
      exact ⟨rfl, rfl⟩
    | answered _ hcall hgiven =>
      subst hcall
      exact absurd hdropped (Exchange.not_dropped_of_given hgiven)
  | answered hgo hcall hgiven =>
    cases h' with
    | stopped hstop => exact Bool.noConfusion (hstop.symm.trans hgo)
    | dropped _ hdropped =>
      subst hcall
      exact absurd hdropped (Exchange.not_dropped_of_given hgiven)
    | answered _ hcall' hgiven' =>
      obtain ⟨rfl, rfl⟩ := Exchange.eq_of_given (hcall.trans hcall'.symm) hgiven hgiven'
      exact ⟨rfl, rfl⟩

/-- An await leaves the store and the disk alone. -/
theorem Awaits.frame {s s' : Session σ κ δ} {x? : Option (Exchange κ)}
    (h : Awaits w call s x? s') : s'.store = s.store ∧ s'.disk = s.disk := by
  cases h <;> exact ⟨rfl, rfl⟩

end

namespace Course

variable [Disk δ] {w : World σ κ} {course : Course κ α}
  {publication? : Option (List (String × String))} {s s' : Session σ κ δ}

/-- The world and the course leave an operation one way to go on. -/
theorem Unfolds.unique {r r' : Except ProvisionError α × Session σ κ δ}
    (h : Unfolds w publication? course s r) (h' : Unfolds w publication? course s r') :
    r = r' := by
  induction h with
  | cancelled hstage hawaits =>
    cases h' with
    | cancelled hstage' hawaits' =>
      cases hstage.symm.trans hstage'
      obtain ⟨-, rfl⟩ := hawaits.unique hawaits'
      rfl
    | failed hstage' hawaits' | next hstage' hawaits' =>
      cases hstage.symm.trans hstage'
      cases (hawaits.unique hawaits').1
    | useless hdone | finished hdone => cases hstage.symm.trans hdone
  | failed hstage hawaits hfailure =>
    cases h' with
    | cancelled hstage' hawaits' =>
      cases hstage.symm.trans hstage'
      cases (hawaits.unique hawaits').1
    | failed hstage' hawaits' hfailure' =>
      cases hstage.symm.trans hstage'
      obtain ⟨hx, rfl⟩ := hawaits.unique hawaits'
      cases hx
      cases hfailure.symm.trans hfailure'
      rfl
    | next hstage' hawaits' hfailure' =>
      cases hstage.symm.trans hstage'
      cases (hawaits.unique hawaits').1
      cases hfailure.symm.trans hfailure'
    | useless hdone | finished hdone => cases hstage.symm.trans hdone
  | next hstage hawaits hfailure _ ih =>
    cases h' with
    | cancelled hstage' hawaits' =>
      cases hstage.symm.trans hstage'
      cases (hawaits.unique hawaits').1
    | failed hstage' hawaits' hfailure' =>
      cases hstage.symm.trans hstage'
      cases (hawaits.unique hawaits').1
      cases hfailure.symm.trans hfailure'
    | next hstage' hawaits' hfailure' hrest =>
      cases hstage.symm.trans hstage'
      obtain ⟨hx, rfl⟩ := hawaits.unique hawaits'
      cases hx
      exact ih hrest
    | useless hdone | finished hdone => cases hstage.symm.trans hdone
  | useless hdone =>
    cases h' with
    | cancelled hstage | failed hstage | next hstage => cases hdone.symm.trans hstage
    | useless hdone' =>
      cases hdone.symm.trans hdone'
      rfl
    | finished hdone' => cases hdone.symm.trans hdone'
  | finished hdone =>
    cases h' with
    | cancelled hstage | failed hstage | next hstage => cases hdone.symm.trans hstage
    | useless hdone' => cases hdone.symm.trans hdone'
    | finished hdone' =>
      cases hdone.symm.trans hdone'
      rfl

/-- Only the end of a course stores anything.  An operation that has not come to it has failed,
and has left the store and the disk alone. -/
theorem Unfolds.exists_conclude {r : Except ProvisionError α × Session σ κ δ}
    (h : Unfolds w publication? course s r) :
    ((∃ e, r.1 = .error e) ∧ r.2.store = s.store ∧ r.2.disk = s.disk) ∨
      ∃ a s', s'.store = s.store ∧ s'.disk = s.disk ∧ r = conclude publication? a s' := by
  induction h with
  | cancelled _ hawaits | failed _ hawaits => exact .inl ⟨⟨_, rfl⟩, hawaits.frame⟩
  | next _ hawaits _ _ ih =>
    obtain ⟨hstore, hdisk⟩ := hawaits.frame
    rw [hstore, hdisk] at ih
    exact ih
  | useless => exact .inl ⟨⟨_, rfl⟩, rfl, rfl⟩
  | @finished _ s a => exact .inr ⟨a, s, rfl, rfl, rfl⟩

/-- An operation that is cancelled has stored nothing. -/
theorem Unfolds.frame_of_cancelled {r : Except ProvisionError α × Session σ κ δ}
    (h : Unfolds w publication? course s r) {kind : Kind} {name : String}
    (hr : r.1 = .error (.cancelled kind name)) : r.2.store = s.store ∧ r.2.disk = s.disk := by
  rcases h.exists_conclude with ⟨-, hframe⟩ | ⟨a, s', -, -, rfl⟩
  · exact hframe
  · -- What the store refuses is an error of the store.
    cases publication? with
    | none => cases hr
    | some pairs =>
      rcases hset : s'.store.setAll pairs s'.disk with ⟨answer, store, disk⟩
      cases answer with
      | ok _ =>
        rw [conclude_of_ok hset] at hr
        cases hr
      | error e =>
        rw [conclude_of_error hset] at hr
        cases hr

end Course

/-! ## From the first await on -/

section

variable [Disk δ] {w : World σ κ} {kind : Kind} {name : String} {scope : Scope}
  {course : κ → Course κ α} {publication? : Option (List (String × String))}
  {s : Session σ κ δ} {r r' : Except ProvisionError α × Session σ κ δ}

/-- What an operation on a resource does: it waits for its client, and with this client keeps
to a course. -/
inductive Follows (w : World σ κ) (kind : Kind) (name : String) (scope : Scope)
    (course : κ → Course κ α) (publication? : Option (List (String × String)))
    (s : Session σ κ δ) : Except ProvisionError α × Session σ κ δ → Prop
  | unopened {e : ProvisionError} {s' : Session σ κ δ} :
    Op.Opens w kind name scope s (.error e, s') →
    Follows w kind name scope course publication? s (.error e, s')
  | opened {client : κ} {s' : Session σ κ δ} {r : Except ProvisionError α × Session σ κ δ} :
    Op.Opens w kind name scope s (.ok client, s') →
    Course.Unfolds w publication? (course client) s' r →
    Follows w kind name scope course publication? s r

theorem Follows.unique (h : Follows w kind name scope course publication? s r)
    (h' : Follows w kind name scope course publication? s r') : r = r' := by
  cases h with
  | unopened hopens =>
    cases h' with
    | unopened hopens' =>
      cases hopens.unique hopens'
      rfl
    | opened hopens' => cases hopens.unique hopens'
  | opened hopens hrest =>
    cases h' with
    | unopened hopens' => cases hopens.unique hopens'
    | opened hopens' hrest' =>
      cases hopens.unique hopens'
      exact hrest.unique hrest'

/-- What cancellation does to an operation on a resource. -/
structure Cancellable (w : World σ κ) (kind : Kind) (name : String) (scope : Scope)
    (course : κ → Course κ α) (publication? : Option (List (String × String)))
    (s : Session σ κ δ) (r : Except ProvisionError α × Session σ κ δ) : Prop where
  /-- From the first await that notices the cancellation on nothing is done. -/
  follows : Follows w kind name scope course publication? s r
  /-- There is no other way for the operation to go on. -/
  unique : ∀ r', Follows w kind name scope course publication? s r' → r' = r
  /-- An operation that is cancelled stores nothing. -/
  kept : ∀ kind' name', r.1 = .error (.cancelled kind' name') →
    r.2.store = s.store ∧ r.2.disk = s.disk
  /-- An operation that is cancelled from the start does nothing, client or not. -/
  idle : w.cancelled s.world = true → r = (.error (.cancelled kind name), s)
  /-- An operation that is cancelled while it opens a client leaves that to the next one. -/
  interrupted : ∀ s', Op.Interrupted w scope s s' →
    r = (.error (.cancelled kind name), s') ∧ s'.client? = s.client? ∧
      (s.client? = none → s'.OpensNext)

theorem Follows.cancellable (h : Follows w kind name scope course publication? s r) :
    Cancellable w kind name scope course publication? s r where
  follows := h
  unique r' h' := h'.unique h
  kept kind' name' hr := by
    cases h with
    | unopened hopens => exact hopens.frame
    | opened hopens hrest =>
      obtain ⟨hstore, hdisk⟩ := hrest.frame_of_cancelled hr
      exact ⟨hstore.trans hopens.frame.1, hdisk.trans hopens.frame.2⟩
  idle hstop := h.unique (.unopened (.cancelled (.before hstop)))
  interrupted s' hinterrupted := by
    refine ⟨h.unique (.unopened (.cancelled hinterrupted)), hinterrupted.client?_eq, ?_⟩
    intro hnone
    exact Session.opensNext_of_none (hinterrupted.client?_eq.trans hnone)

/-- An operation that keeps to a course with every client it may get. -/
theorem follows_connected {body : Context σ κ → Op σ κ δ α}
    (h : ∀ client s', Course.Unfolds w publication? (course client) s'
      ((body ⟨w, client, scope⟩).run.run s')) :
    Follows w kind name scope course publication? s
      ((Op.connected w kind name scope body).run.run s) := by
  have hopens := Op.opens_client w kind name scope s
  rcases hclient : (Op.client w kind name scope).run.run s with ⟨answer, s'⟩
  rw [hclient] at hopens
  cases answer with
  | error e =>
    rw [Op.connected, run_bind_of_error hclient]
    exact .unopened hopens
  | ok client =>
    rw [Op.connected, run_bind_of_ok hclient]
    exact .opened hopens (h client s')

end

/-! ## Inputs that are refused -/

/-- Inputs that cannot be filled in were not cancelled. -/
def NeverCancelled (filled : Except ProvisionError β) : Prop :=
  ∀ e, filled = .error e → e.isCancelled = false

namespace NeverCancelled

theorem bind {first : Except ProvisionError α} {second : α → Except ProvisionError β}
    (hfirst : NeverCancelled first) (hsecond : ∀ a, NeverCancelled (second a)) :
    NeverCancelled (first >>= second) := by
  intro e he
  cases first with
  | error e' =>
    cases he
    exact hfirst e rfl
  | ok a => exact hsecond a e he

theorem ok (b : β) : NeverCancelled (.ok b) := nofun

variable (store : Store) (disk : δ) [Disk δ] (kind : Kind)

theorem resolveName (name : Template) : NeverCancelled (Prepared.resolveName store kind name) := by
  intro e he
  rw [Prepared.resolveName] at he
  cases hname : name.resolve store.lookup with
  | ok _ =>
    rw [hname] at he
    cases he
  | error _ =>
    rw [hname] at he
    cases he
    rfl

theorem findDefinition (service relative : String) :
    NeverCancelled (Prepared.findDefinition disk kind service relative) := by
  intro e he
  rw [Prepared.findDefinition] at he
  split at he
  · cases he
  · cases he
    rfl

theorem resolveOverrides (overrides : Overrides) :
    NeverCancelled (Prepared.resolveOverrides store overrides) := by
  intro e he
  rw [Prepared.resolveOverrides] at he
  cases hoverrides : overrides.arguments store.lookup with
  | ok _ =>
    rw [hoverrides] at he
    cases he
  | error _ =>
    rw [hoverrides] at he
    cases he
    rfl

theorem definitionFirst (service : String) (c : Component) :
    NeverCancelled (Prepared.definitionFirst store disk kind service c) := by
  refine (findDefinition disk kind service c.path).bind fun _ => ?_
  refine (resolveName store kind c.name).bind fun _ => ?_
  exact (resolveOverrides store c.overrides).bind fun _ => ok _

theorem nameFirst (service : String) (c : Component) :
    NeverCancelled (Prepared.nameFirst store disk kind service c) := by
  refine (resolveName store kind c.name).bind fun _ => ?_
  refine (findDefinition disk kind service c.path).bind fun _ => ?_
  exact (resolveOverrides store c.overrides).bind fun _ => ok _

theorem flow (service : String) (c : Component) (now : Int) :
    NeverCancelled (Flow.prepare store disk service c now) :=
  (nameFirst store disk .flow service c).bind fun _ => ok _

theorem deployment (service endpoint : String) (d : DeploymentSpec) (now : Int) :
    NeverCancelled (Deployment.prepare store disk service endpoint d now) := by
  refine (resolveName store .environment d.environment.name).bind fun _ => ?_
  refine (resolveName store .model d.model.name).bind fun _ => ?_
  refine (findDefinition disk .deployment service d.deployment.path).bind fun _ => ?_
  exact (resolveOverrides store d.deployment.overrides).bind fun _ => ok _

end NeverCancelled

/-- An operation that fills its inputs in first.  Inputs that are refused end it, which is not
a cancellation; with good inputs it does as they say. -/
def OnceFilled (filled : Except ProvisionError β) (s : Session σ κ δ)
    (good : β → Except ProvisionError α × Session σ κ δ → Prop)
    (r : Except ProvisionError α × Session σ κ δ) : Prop :=
  (∀ e, filled = .error e → r = (.error e, s) ∧ e.isCancelled = false) ∧
    ∀ p, filled = .ok p → good p r

theorem onceFilled_prepared (fill : Store → δ → Except ProvisionError β) {s : Session σ κ δ}
    {body : β → Op σ κ δ α} {good : β → Except ProvisionError α × Session σ κ δ → Prop}
    (hnever : NeverCancelled (fill s.store s.disk))
    (hgood : ∀ p, good p ((body p).run.run s)) :
    OnceFilled (fill s.store s.disk) s good ((Op.prepared fill >>= body).run.run s) := by
  have hrun := Op.run_prepared (σ := σ) (κ := κ) fill s
  refine ⟨fun e he => ⟨?_, hnever e he⟩, fun p hp => ?_⟩
  · rw [he] at hrun
    rw [run_bind_of_error hrun]
  · rw [hp] at hrun
    rw [run_bind_of_ok hrun]
    exact hgood p

/-! ## All operations -/

namespace Course

variable (client : κ) (scope : Scope)

/-- The record of a workspace has to have the name that was asked for. -/
def workspace : Course κ Workspace
  | [] => .call ⟨.workspace, scope.workspace, .read client scope .workspace, false⟩
  | [.read _ _ .workspace (.ok record)] =>
    let actual := record.nameOr scope.workspace
    if actual.map Char.toLower != scope.workspace.map Char.toLower then
      .done (.error (.workspaceMismatch scope.workspace actual))
    else .done (.ok record)
  | _ => .astray

/-- An endpoint that is only read. -/
def endpointRecord (name : String) : Course κ Endpoint
  | [] => .call ⟨.endpoint, name, .read client scope (.endpoint name), false⟩
  | [.read _ _ (.endpoint _) (.ok record)] => .done (.ok record)
  | _ => .astray

variable [Disk δ] (w : World σ κ) (s : Session σ κ δ)

theorem follows_ensureWorkspace :
    Follows w .workspace scope.workspace scope (workspace · scope) none s
      ((Op.ensureWorkspace w scope).run.run s) := by
  refine follows_connected fun client s' => ?_
  refine .read rfl fun record world => ?_
  dsimp only
  split
  · next hother => exact .useless_of_error (if_pos hother) rfl
  · next hsame => exact .finished (if_neg hsame)

theorem follows_getEndpoint (name : String) :
    Follows w .endpoint name scope (endpointRecord · scope name) none s
      ((Op.getEndpoint w scope name).run.run s) := by
  refine follows_connected fun client s' => ?_
  rw [← bind_pure (Context.read _ _ _ _)]
  refine .read rfl fun record world => ?_
  exact .finished rfl

end Course

/-- Whenever an operation is cancelled, it does nothing from the first await on that notices,
and stores nothing. -/
theorem operations_cancel [Disk δ] (w : World σ κ) (scope : Scope) (s : Session σ κ δ)
    (service : String) :
    (∀ c, OnceFilled (EnvironmentVersion.prepare s.store s.disk service c) s
      (fun p => Cancellable w .environment p.name scope (Course.environment · scope p)
        (some (EnvironmentVersion.publication p)) s)
      ((Op.createEnvironmentVersion w scope service c).run.run s)) ∧
    (∀ c, OnceFilled (ModelVersion.prepare s.store s.disk service c) s
      (fun p => Cancellable w .model p.name scope (Course.model · scope p)
        (some (ModelVersion.publication p)) s)
      ((Op.createModelVersion w scope service c).run.run s)) ∧
    (∀ c, OnceFilled (Endpoint.prepare s.store s.disk service c) s
      (fun p => Cancellable w .endpoint p.name scope (Course.endpoint · scope p)
        (some (Endpoint.publication p)) s)
      ((Op.createEndpoint w scope service c).run.run s)) ∧
    (∀ parent d now, OnceFilled (Deployment.prepare s.store s.disk service parent d now) s
      (fun p => Cancellable w .deployment p.name scope (Course.deployment · scope p)
        (some (Deployment.publication p)) s)
      ((Op.deploy w scope service parent d now).run.run s)) ∧
    (∀ c now, OnceFilled (Flow.prepare s.store s.disk service c now) s
      (fun p => Cancellable w .flow p.name scope (fun _ => Course.flow scope p)
        (some (Flow.publication p)) s)
      ((Op.createFlow w scope service c now).run.run s)) ∧
    Cancellable w .workspace scope.workspace scope (Course.workspace · scope) none s
      ((Op.ensureWorkspace w scope).run.run s) ∧
    ∀ name, Cancellable w .endpoint name scope (Course.endpointRecord · scope name) none s
      ((Op.getEndpoint w scope name).run.run s) := by
  refine ⟨?environment, ?model, ?endpoint, ?deployment, ?flow, ?workspace, ?record⟩
  case environment =>
    intro c
    refine onceFilled_prepared (EnvironmentVersion.prepare · · service c)
      (.definitionFirst s.store s.disk _ service c) fun p => Follows.cancellable ?_
    exact follows_connected fun client s' => Course.unfolds_environment w client scope s' p
  case model =>
    intro c
    refine onceFilled_prepared (ModelVersion.prepare · · service c)
      (.definitionFirst s.store s.disk _ service c) fun p => Follows.cancellable ?_
    exact follows_connected fun client s' => Course.unfolds_model w client scope s' p
  case endpoint =>
    intro c
    refine onceFilled_prepared (Endpoint.prepare · · service c)
      (.nameFirst s.store s.disk _ service c) fun p => Follows.cancellable ?_
    exact follows_connected fun client s' => Course.unfolds_endpoint w client scope s' p
  case deployment =>
    intro parent d now
    refine onceFilled_prepared (Deployment.prepare · · service parent d now)
      (.deployment s.store s.disk service parent d now) fun p => Follows.cancellable ?_
    exact follows_connected fun client s' => Course.unfolds_deployment w client scope s' p
  case flow =>
    intro c now
    refine onceFilled_prepared (Flow.prepare · · service c now)
      (.flow s.store s.disk service c now) fun p => Follows.cancellable ?_
    exact follows_connected fun client s' => Course.unfolds_flow w client scope s' p
  case workspace => exact (Course.follows_ensureWorkspace scope w s).cancellable
  case record => exact fun name => (Course.follows_getEndpoint scope w s name).cancellable

/-- A world in which operations are cancelled as soon as a program runs. -/
def cancellingWorld : World Bool Unit where
  cancelled s := s
  connect _ s := (some (.ok ()), s)
  startTools s := (some (.ok ()), s)
  run _ _ _ := (none, true)
  read _ _ _ s := (some (.error (.notFound "")), s)

theorem operations_cancel_cancellingWorld :
    let scope : Scope := ⟨"sub", "rg", "ws"⟩
    let p : Prepared := ⟨"thing", "svc/thing.yml", []⟩
    let s : Session Bool Unit FileTree :=
      ⟨false, Course.definitionTree, .memory ⟨KeyMap.ofList [("NAME", "thing")]⟩, none, []⟩
    let stopped := { s with world := true }
    (Op.createModelVersion cancellingWorld scope "svc" Course.thing).run.run s =
        (.error (.cancelled .model "thing"),
          { s with world := true, client? := some (),
                   calls := [.connect "sub", .startTools,
                     .run .mlClient (ModelVersion.arguments scope p)] }) ∧
      (Op.createModelVersion cancellingWorld scope "svc" Course.thing).run.run stopped =
        (.error (.cancelled .model "thing"), stopped) := by
  intro scope p s stopped
  have hp : ModelVersion.prepare s.store s.disk "svc" Course.thing = .ok p := by decide +kernel
  have hcancel := ((operations_cancel cancellingWorld scope s "svc").2.1 Course.thing).2 p hp
  have hstopped := ((operations_cancel cancellingWorld scope stopped "svc").2.1 Course.thing).2 p hp
  refine ⟨(hcancel.unique _ (.opened (.opened rfl rfl rfl rfl) ?_)).symm, hstopped.idle rfl⟩
  have hstage : Course.model () scope p [] =
      .call ⟨.model, "thing", .run .mlClient (ModelVersion.arguments scope p), false⟩ := rfl
  exact .cancelled hstage (.dropped rfl rfl)

end Provisioner
