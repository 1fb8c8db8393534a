import Provisioner.Proofs.Azure.Replies
import Provisioner.Proofs.Operation.Effects

/-!
# When a resource counts as absent

Only one status of the resource manager means that a resource is not there, and only then is
something made that may be there already.

* `Reply.nextVersion?` and `Reply.latest?` are what a reply about a container says about versions.
* `GoesOn` is how an operation goes on after a reply, and `FailedReading` how it fails on one.
* `made_iff_absent`: which replies make the operations run a program.
-/

namespace Provisioner

variable {σ κ δ α : Type}

/-! ## The runs of the courses -/

namespace Course

variable {client : κ} {scope : Scope} {x y z : Exchange κ} {xs : List (Exchange κ)}
  {stage : Stage κ}

/-- After two exchanges nothing more is run for an endpoint. -/
theorem program?_endpoint {p : Prepared}
    (h : endpoint client scope p (x :: y :: xs) = .call stage) : stage.call.program? = none := by
  unfold endpoint at h
  split at h
  · next hlist => cases hlist
  · next hlist => cases hlist
  · cases h
    rfl
  · cases h
  · cases h
  · cases h

/-- Nothing at all is run for an endpoint that is there. -/
theorem program?_endpoint_of_there {p : Prepared} (hthere : x.isMiss = false)
    (h : endpoint client scope p (x :: xs) = .call stage) : stage.call.program? = none := by
  cases xs with
  | nil =>
    rw [endpoint, hthere] at h
    cases h
    rfl
  | cons y xs => exact program?_endpoint h

/-- After two exchanges nothing more is run for an environment. -/
theorem program?_environment {p : Prepared}
    (h : environment client scope p (x :: y :: xs) = .call stage) :
    stage.call.program? = none := by
  unfold environment at h
  split at h
  · next hlist => cases hlist
  · next hlist => cases hlist
  · cases h
    rfl
  · cases h
  · cases h

/-- After three exchanges nothing more is run for a deployment. -/
theorem program?_deployment {p : Deployment.Input}
    (h : deployment client scope p (x :: y :: z :: xs) = .call stage) :
    stage.call.program? = none := by
  unfold deployment at h
  split at h
  · next hlist => cases hlist
  · next hlist => cases hlist
  · next hlist => cases hlist
  · cases h
    rfl
  · cases h
  · cases h

end Course

namespace Azure

open ControlPlane (Family Query Answer)

/-! ## What a reply says about versions -/

namespace Reply

/-- A reply that there is no such resource has no record. -/
theorem record?_of_isAbsent {reply : Reply} (h : reply.isAbsent = true) (q : Query) :
    reply.record? q = none := by
  cases reply with
  | response r =>
    obtain ⟨status, body⟩ := r
    obtain rfl : status = 404 := beq_iff_eq.1 h
    cases body <;> rfl
  | _ => rfl

/-- The version of a family to create: the first one if there is no container, and else the one
that the container proposes. -/
def nextVersion? (family : Family) (name : String) (reply : Reply) : Option String :=
  if reply.isAbsent then some "1"
  else (reply.record? (.container family name)).map fun (container : Container) =>
    container.properties.nextVersion.getD "1"

/-- The latest version in a container. -/
def latest? (family : Family) (name : String) (reply : Reply) : Option VersionRef :=
  (reply.record? (.container family name)).map fun (container : Container) =>
    ⟨container.nameOr name, container.properties.latestVersion.getD "1"⟩

section

variable {family : Family} {name : String} {reply : Reply}

theorem latest?_of_record {container : Container}
    (h : reply.record? (.container family name) = some container) :
    reply.latest? family name =
      some ⟨container.nameOr name, container.properties.latestVersion.getD "1"⟩ := by
  rw [latest?, h]
  rfl

theorem latest?_of_none (h : reply.record? (.container family name) = none) :
    reply.latest? family name = none := by
  rw [latest?, h]
  rfl

end

end Reply

/-! ## How an operation takes a reply -/

/-- An operation failed on an answer of the control plane, which says nothing about whether the
resource is there.  It did nothing but ask. -/
structure FailedReading (kind : Kind) (name : String) (call : Call κ) (s : Session σ κ δ)
    (r : Except ProvisionError α × Session σ κ δ) : Prop where
  error : ∃ e, r.1 = .error (.controlPlane kind name e) ∧ e.isNotFound = false
  calls : r.2.calls = s.calls ++ [call]
  store : r.2.store = s.store
  disk : r.2.disk = s.disk

section

variable [Disk δ]

/-- How an operation goes on after a reply.  An absence is an answer only if a miss counts. -/
inductive GoesOn (w : World (Connection σ) ResourceManager)
    (publication? : Option (List (String × String))) (course : Course ResourceManager α)
    (kind : Kind) (name : String) (client : ResourceManager) (scope : Scope) (q : Query)
    (missCounts : Bool) (reply : Reply) (s : Session (Connection σ) ResourceManager δ)
    (s' : Connection σ)
    (r : Except ProvisionError α × Session (Connection σ) ResourceManager δ) : Prop
  | absent {what : String} : reply.isAbsent = true → missCounts = true →
    Course.Unfolds w publication? (course.after [.read client scope q (.error (.notFound what))])
      (s.after [.read client scope q (.error (.notFound what))] s') r →
    GoesOn w publication? course kind name client scope q missCounts reply s s' r
  | decoded {record : q.Record} : reply.isAbsent = false → reply.record? q = some record →
    Course.Unfolds w publication? (course.after [.read client scope q (.ok record)])
      (s.after [.read client scope q (.ok record)] s') r →
    GoesOn w publication? course kind name client scope q missCounts reply s s' r
  | failed {e : ControlPlane.Failure} : reply.record? q = none →
    (missCounts = true → reply.isAbsent = false ∧ e.isNotFound = false) →
    r = (.error (.controlPlane kind name e), s.after [.read client scope q (.error e)] s') →
    GoesOn w publication? course kind name client scope q missCounts reply s s' r

variable {m : Machine σ} (hm : m.NeverCancels) {p : Provider} {client : ResourceManager}
  {scope : Scope} {q : Query} {reply : Reply} {s' : Connection σ}
  {s : Session (Connection σ) ResourceManager δ}
  {r : Except ProvisionError α × Session (Connection σ) ResourceManager δ}
  {course : Course ResourceManager α} {publication? : Option (List (String × String))}
  {kind : Kind} {name : String} {missCounts : Bool}

include hm in
/-- An operation that asks the resource manager goes on after the reply. -/
theorem goesOn_of_replies (h : Course.Unfolds (p.world m) publication? course s r)
    (hstage : course [] = .call ⟨kind, name, .read client scope q, missCounts⟩)
    (hreplies : p.Replies m client scope q s.world reply s') :
    GoesOn (p.world m) publication? course kind name client scope q missCounts reply s s' r := by
  obtain ⟨answer, hread, hmeans⟩ := Provider.read_of_replies hreplies
  have hgiven : (Exchange.read client scope q answer).Given (p.world m) s.world s' := hread
  obtain ⟨hfailed, hnext⟩ :=
    h.of_given hstage (Provider.not_cancelled_world hm p _) rfl hgiven
  rw [Course.failure?_read] at hfailed hnext
  cases hmeans with
  | decoded hthere hrecord => exact .decoded hthere hrecord (hnext rfl)
  | absent habsent =>
    cases missCounts with
    | true => exact .absent habsent rfl (hnext rfl)
    | false => exact .failed (Reply.record?_of_isAbsent habsent q) nofun (hfailed _ rfl)
  | @failed e hthere hnone hother =>
    refine .failed hnone (fun _ => ⟨hthere, hother⟩) (hfailed _ ?_)
    cases missCounts with
    | false => rfl
    | true =>
      show (if true && e.isNotFound then none else some e).map _ = _
      rw [hother]
      rfl

end

/-! ## The three operations -/

section

variable [Disk δ] {m : Machine σ} (hm : m.NeverCancels) {p : Provider}
  {client : ResourceManager} {scope : Scope} {s : Session (Connection σ) ResourceManager δ}
  (hclient : s.client? = some client) {service : String} {reply : Reply} {s' : Connection σ}
include hm hclient

/-- An endpoint is made if the reply is that there is none, and only then. -/
theorem createEndpoint_of_replies {c : Component} {q : Prepared}
    (hq : Endpoint.prepare s.store s.disk service c = .ok q)
    (hreplies : p.Replies m client scope (.endpoint q.name) s.world reply s') :
    let r := (Op.createEndpoint (p.world m) scope service c).run.run s
    Ran (if reply.isAbsent then [(.mlClient, Endpoint.arguments scope q)] else []) s r ∧
      (reply.isAbsent = false → reply.record? (.endpoint q.name) = none →
        FailedReading .endpoint q.name (.read client scope (.endpoint q.name)) s r) := by
  intro r
  have hgo := Provider.not_cancelled_world hm p
  have hunfolds : Course.Unfolds (p.world m) (some (Endpoint.publication q))
      (Course.endpoint client scope q) s r :=
    ((follows_createEndpoint (p.world m) scope s service c).2 q hq).unfolds (hgo _) hclient
  cases goesOn_of_replies hm hunfolds rfl hreplies with
  | absent habsent _ hrest =>
    have hran := hrest.ran_program rfl rfl (hgo _)
      fun _ _ _ hstage => Course.program?_endpoint hstage
    rw [if_pos habsent]
    refine ⟨hran.of_after, fun hthere => ?_⟩
    rw [habsent] at hthere
    cases hthere
  | decoded hthere hrecord hrest =>
    have hran := hrest.ran_nothing fun _ _ hstage => Course.program?_endpoint_of_there rfl hstage
    rw [hthere]
    refine ⟨hran.of_after, fun _ hnone => ?_⟩
    rw [hrecord] at hnone
    cases hnone
  | failed _ hfailed hr =>
    obtain ⟨hthere, hother⟩ := hfailed rfl
    rw [hr, hthere]
    exact ⟨⟨_, rfl, rfl⟩, fun _ _ => ⟨⟨_, rfl, hother⟩, rfl, rfl, rfl⟩⟩

/-- An environment version is made if the reply says which one, and only then. -/
theorem createEnvironmentVersion_of_replies {c : Component} {q : Prepared}
    (hq : EnvironmentVersion.prepare s.store s.disk service c = .ok q)
    (hreplies : p.Replies m client scope (.container .environment q.name) s.world reply s') :
    let r := (Op.createEnvironmentVersion (p.world m) scope service c).run.run s
    Ran (match reply.nextVersion? .environment q.name with
        | some version => [(.mlClient, EnvironmentVersion.arguments scope q version)]
        | none => []) s r ∧
      (reply.nextVersion? .environment q.name = none →
        FailedReading .environment q.name (.read client scope (.container .environment q.name))
          s r) := by
  intro r
  have hgo := Provider.not_cancelled_world hm p
  have hunfolds : Course.Unfolds (p.world m) (some (EnvironmentVersion.publication q))
      (Course.environment client scope q) s r :=
    ((follows_createEnvironmentVersion (p.world m) scope s service c).2 q hq).unfolds
      (hgo _) hclient
  cases goesOn_of_replies hm hunfolds rfl hreplies with
  | absent habsent _ hrest =>
    have hran := hrest.ran_program rfl rfl (hgo _)
      fun _ _ _ hstage => Course.program?_environment hstage
    have hversion : reply.nextVersion? .environment q.name = some "1" := if_pos habsent
    rw [hversion]
    exact ⟨hran.of_after, nofun⟩
  | @decoded container hthere hrecord hrest =>
    have hran := hrest.ran_program rfl rfl (hgo _)
      fun _ _ _ hstage => Course.program?_environment hstage
    have hversion : reply.nextVersion? .environment q.name =
        some ((container : Container).properties.nextVersion.getD "1") := by
      rw [Reply.nextVersion?, hthere, hrecord]
      rfl
    rw [hversion]
    exact ⟨hran.of_after, nofun⟩
  | failed hnone hfailed hr =>
    obtain ⟨hthere, hother⟩ := hfailed rfl
    have hversion : reply.nextVersion? .environment q.name = none := by
      rw [Reply.nextVersion?, hthere, hnone]
      rfl
    rw [hr, hversion]
    exact ⟨⟨_, rfl, rfl⟩, fun _ => ⟨⟨_, rfl, hother⟩, rfl, rfl, rfl⟩⟩

/-- A deployment is made if the replies about both containers say which versions to bind, and only
then. -/
theorem deploy_of_replies {endpoint : String} {d : DeploymentSpec} {now : Int}
    {q : Deployment.Input} {reply' : Reply} {s'' : Connection σ}
    (hq : Deployment.prepare s.store s.disk service endpoint d now = .ok q)
    (hreplies : p.Replies m client scope (.container .environment q.environment) s.world reply s')
    (hreplies' : p.Replies m client scope (.container .model q.model) s' reply' s'') :
    Ran (match reply.latest? .environment q.environment, reply'.latest? .model q.model with
        | some environment, some model =>
          [(.mlClient, Deployment.arguments scope q environment model)]
        | _, _ => []) s ((Op.deploy (p.world m) scope service endpoint d now).run.run s) := by
  have hgo := Provider.not_cancelled_world hm p
  have hunfolds : Course.Unfolds (p.world m) (some (Deployment.publication q))
      (Course.deployment client scope q) s
      ((Op.deploy (p.world m) scope service endpoint d now).run.run s) :=
    ((follows_deploy (p.world m) scope s service endpoint d now).2 q hq).unfolds
      (hgo _) hclient
  cases goesOn_of_replies hm hunfolds rfl hreplies with
  | absent _ hcounts => cases hcounts
  | failed hnone _ hr =>
    rw [hr, Reply.latest?_of_none hnone]
    exact (Ran.none _ _).of_after
  | decoded _ hrecord hrest =>
  rw [Reply.latest?_of_record hrecord]
  cases goesOn_of_replies hm hrest rfl hreplies' with
  | absent _ hcounts => cases hcounts
  | failed hnone _ hr =>
    rw [hr, Reply.latest?_of_none hnone]
    exact (Ran.none _ _).of_after.of_after
  | decoded _ hrecord' hrest' =>
    rw [Reply.latest?_of_record hrecord']
    have hran := hrest'.ran_program rfl rfl (hgo _)
      fun _ _ _ hstage => Course.program?_deployment hstage
    exact hran.of_after.of_after

end

/-! ## All of it -/

section

variable [Disk δ]

/-- Only one reply of the resource manager means that something is not there: a response with the
status 404.  Then, and only then, an endpoint is made, and an environment version is made as
the first one; a container that is read and decoded says which version to make.  After any other
reply an operation that makes something fails and does nothing, and without both containers
nothing is deployed. -/
theorem made_iff_absent {m : Machine σ} (hm : m.NeverCancels) (p : Provider)
    {client : ResourceManager} {s : Session (Connection σ) ResourceManager δ}
    (hclient : s.client? = some client) (scope : Scope) (service : String) :
    (∀ c q reply s', Endpoint.prepare s.store s.disk service c = .ok q →
      p.Replies m client scope (.endpoint q.name) s.world reply s' →
      let r := (Op.createEndpoint (p.world m) scope service c).run.run s
      Ran (if reply.isAbsent then [(.mlClient, Endpoint.arguments scope q)] else []) s r ∧
        (reply.isAbsent = false → reply.record? (.endpoint q.name) = none →
          FailedReading .endpoint q.name (.read client scope (.endpoint q.name)) s r)) ∧
    (∀ c q reply s', EnvironmentVersion.prepare s.store s.disk service c = .ok q →
      p.Replies m client scope (.container .environment q.name) s.world reply s' →
      let r := (Op.createEnvironmentVersion (p.world m) scope service c).run.run s
      Ran (match reply.nextVersion? .environment q.name with
          | some version => [(.mlClient, EnvironmentVersion.arguments scope q version)]
          | none => []) s r ∧
        (reply.nextVersion? .environment q.name = none →
          FailedReading .environment q.name (.read client scope (.container .environment q.name))
            s r)) ∧
    (∀ endpoint d now q reply s' reply' s'',
      Deployment.prepare s.store s.disk service endpoint d now = .ok q →
      p.Replies m client scope (.container .environment q.environment) s.world reply s' →
      p.Replies m client scope (.container .model q.model) s' reply' s'' →
      Ran (match reply.latest? .environment q.environment, reply'.latest? .model q.model with
          | some environment, some model =>
            [(.mlClient, Deployment.arguments scope q environment model)]
          | _, _ => []) s ((Op.deploy (p.world m) scope service endpoint d now).run.run s)) := by
  refine ⟨?endpoint, ?environment, ?deployment⟩
  case endpoint =>
    intro c q reply s' hq hreplies
    exact createEndpoint_of_replies hm hclient hq hreplies
  case environment =>
    intro c q reply s' hq hreplies
    exact createEnvironmentVersion_of_replies hm hclient hq hreplies
  case deployment =>
    intro endpoint d now q reply s' reply' s'' hq hreplies hreplies'
    exact deploy_of_replies hm hclient hq hreplies hreplies'

end

/-- A machine that answers all requests alike, and on which every program succeeds. -/
def respondingMachine (response : Machine.Response) : Machine Unit where
  cancelled _ := false
  now s := (0, s)
  isFile _ _ := true
  execute _ _ s := (some (.ok ⟨some 0, [], []⟩), s)
  request _ s := (some (.ok response), s)

theorem made_iff_absent_respondingMachine :
    let client : ResourceManager := ⟨ResourceManager.publicBase⟩
    let scope : Scope := ⟨"sub", "rg", "ws"⟩
    let q : Prepared := ⟨"thing", "svc/thing.yml", []⟩
    let deployed : Deployment.Input :=
      ⟨"fleetml-7", "parent", "thing", "thing", "svc/thing.yml", []⟩
    let s : Session (Connection Unit) ResourceManager FileTree :=
      ⟨.new (), Course.definitionTree, .memory ⟨KeyMap.ofList [("NAME", "thing")]⟩,
        some client, []⟩
    let world (status : Nat) (body : String) :=
      publicProvider.world (respondingMachine ⟨status, .ok body⟩)
    let numbered := "\x7b\"properties\":\x7b\"nextVersion\":\"7\"\x7d\x7d"
    Ran [(.mlClient, Endpoint.arguments scope q)] s
        ((Op.createEndpoint (world 404 "") scope "svc" Course.thing).run.run s) ∧
      FailedReading .endpoint "thing" (.read client scope (.endpoint "thing")) s
        ((Op.createEndpoint (world 403 "") scope "svc" Course.thing).run.run s) ∧
      Ran [(.mlClient, EnvironmentVersion.arguments scope q "7")] s
        ((Op.createEnvironmentVersion (world 200 numbered) scope "svc" Course.thing).run.run s) ∧
      Ran [(.mlClient, Deployment.arguments scope deployed ⟨"thing", "1"⟩ ⟨"thing", "1"⟩)] s
        ((Op.deploy (world 200 numbered) scope "svc" "parent"
          ⟨none, Course.thing, Course.thing, Course.thing⟩ 7).run.run s) := by
  intro client scope q deployed s world numbered
  have hm : ∀ response, (respondingMachine response).NeverCancels :=
    fun _ => ⟨fun _ => rfl, fun _ _ _ => rfl, fun _ _ => rfl⟩
  have hreplies : ∀ (query : Query) (response : Machine.Response) (c : Connection Unit),
      (client.resourceUrl? scope (ResourceManager.segments query)).isSome →
      c.credential?.getD (.known "token") = .known "token" →
      publicProvider.Replies (respondingMachine response) client scope query c
        (.response response) ⟨(), some (.known "token"), c.panicked⟩ := by
    intro query response c hurl hcredential
    obtain ⟨u, hurl⟩ := Option.isSome_iff_exists.1 hurl
    refine ⟨.known "token", (), rfl, ?_⟩
    have hcredential : c.credential?.getD
        (publicProvider.source.credential scope.subscription) = .known "token" := hcredential
    rw [hcredential]
    exact .response hurl rfl rfl
  have hq : Endpoint.prepare s.store s.disk "svc" Course.thing = .ok q := by decide +kernel
  have hq' : EnvironmentVersion.prepare s.store s.disk "svc" Course.thing = .ok q := by
    decide +kernel
  have hdeployed : Deployment.prepare s.store s.disk "svc" "parent"
      ⟨none, Course.thing, Course.thing, Course.thing⟩ 7 = .ok deployed := by decide +kernel
  have hall (response : Machine.Response) :=
    made_iff_absent (hm response) publicProvider (s := s) rfl scope "svc"
  refine ⟨?_, ?_, ?_, ?_⟩
  · exact ((hall ⟨404, .ok ""⟩).1 Course.thing q _ _ hq
      (hreplies _ _ _ (by decide +kernel) rfl)).1
  · exact ((hall ⟨403, .ok ""⟩).1 Course.thing q _ _ hq
      (hreplies _ _ _ (by decide +kernel) rfl)).2 rfl rfl
  · have hran := ((hall ⟨200, .ok numbered⟩).2.1 Course.thing q _ _ hq'
      (hreplies _ _ _ (by decide +kernel) rfl)).1
    have hversion : (Reply.response ⟨200, .ok numbered⟩).nextVersion? .environment q.name =
        some "7" := by decide +kernel
    rw [hversion] at hran
    exact hran
  · have hran := (hall ⟨200, .ok numbered⟩).2.2 "parent" _ 7 deployed _ _ _ _ hdeployed
      (hreplies _ _ _ (by decide +kernel) rfl) (hreplies _ _ _ (by decide +kernel) rfl)
    have hlatest : ∀ family, (Reply.response ⟨200, .ok numbered⟩).latest? family "thing" =
        some ⟨"thing", "1"⟩ := by
      intro family
      cases family <;> decide +kernel
    rw [hlatest, hlatest] at hran
    exact hran

end Azure

end Provisioner
