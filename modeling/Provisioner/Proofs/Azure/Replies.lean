import Provisioner.Azure
import Provisioner.Proofs.Operation.Course

/-!
# Replies of the resource manager

What comes of asking the resource manager about a resource, before anybody judges it.

* `Reply` is what comes back: a response with a status and a body, or the reason why there is
  none.  `ResourceManager.Replies` and `Provider.Replies` say when it does, and
  `Provider.exists_replies` that something always comes back unless one cancels or the program
  panics.
* `Reply.isAbsent` and `Reply.record?` are the two things that a reply can say about a resource.
* `Reply.Means` is how a reply is understood; `Provider.read_of_replies` says that the world of
  Azure understands it so.
-/

namespace Provisioner

variable {σ : Type}

/-- A machine on which nobody cancels an operation. -/
structure Machine.NeverCancels (m : Machine σ) : Prop where
  cancelled : ∀ s, m.cancelled s = false
  execute : ∀ program arguments s, (m.execute program arguments s).1.isSome
  request : ∀ request s, (m.request request s).1.isSome

namespace Azure

open ControlPlane (Query Answer)

/-- What comes back: nothing is asked without an address or a token, and a request may fail. -/
inductive Reply
  | noAddress
  | noToken (e : Failure)
  | noResponse (explanation : String)
  | response (r : Machine.Response)

namespace Reply

/-- Whether the status of a response is that there is no such resource. -/
def isAbsent : Reply → Bool
  | .response r => r.status == 404
  | _ => false

/-- The record in a response, if its status is a success and its body is read and decoded. -/
def record? (q : Query) : Reply → Option q.Record
  | .response ⟨status, .ok body⟩ =>
    if 200 ≤ status ∧ status < 300 then (Json.decodeText q.decode body).toOption else none
  | _ => none

/-- How a reply is understood. -/
inductive Means (q : Query) (reply : Reply) : Answer q → Prop
  | absent {what : String} : reply.isAbsent = true → Means q reply (.error (.notFound what))
  | decoded {record : q.Record} : reply.isAbsent = false → reply.record? q = some record →
    Means q reply (.ok record)
  | failed {e : ControlPlane.Failure} : reply.isAbsent = false → reply.record? q = none →
    e.isNotFound = false → Means q reply (.error e)

end Reply

theorem ResourceManager.isNotFound_refusal (status : Nat) (body : String) :
    (refusal status body).isNotFound = false := by
  unfold refusal
  split <;> rfl

/-- A response is understood by its status first, and by its body only with success. -/
theorem Reply.means_response (scope : Scope) (q : Query) (response : Machine.Response) :
    (Reply.response response).Means q (ResourceManager.judge scope q (.ok response)) := by
  obtain ⟨status, body⟩ := response
  unfold ResourceManager.judge
  dsimp only
  split
  · next habsent => exact .absent (beq_iff_eq.2 habsent)
  next hthere =>
  have hpresent : (Reply.response ⟨status, body⟩).isAbsent = false := beq_eq_false_iff_ne.2 hthere
  cases body with
  | error explanation => exact .failed hpresent rfl rfl
  | ok text =>
    dsimp only
    cases hsuccess : ResourceManager.isSuccess status with
    | false =>
      have hnone : (Reply.response ⟨status, .ok text⟩).record? q = none := by
        refine if_neg fun h => ?_
        have htrue : ResourceManager.isSuccess status = true := by
          simpa [ResourceManager.isSuccess] using h
        rw [htrue] at hsuccess
        cases hsuccess
      exact .failed hpresent hnone (ResourceManager.isNotFound_refusal status text)
    | true =>
      have hrange : 200 ≤ status ∧ status < 300 := by
        simpa [ResourceManager.isSuccess] using hsuccess
      have hrecord : (Reply.response ⟨status, .ok text⟩).record? q =
          (Json.decodeText q.decode text).toOption := if_pos hrange
      cases hdecode : Json.decodeText q.decode text with
      | ok record =>
        rw [hdecode] at hrecord
        exact .decoded hpresent hrecord
      | error fault =>
        rw [hdecode] at hrecord
        exact .failed hpresent hrecord rfl

namespace ResourceManager

/-- What comes back from the resource manager, and the credential and the machine afterwards. -/
inductive Replies (m : Machine σ) (r : ResourceManager) (scope : Scope) (q : Query)
    (credential : Credential) (s : σ) : Reply → Credential → σ → Prop
  | noAddress : r.resourceUrl? scope (segments q) = none →
    Replies m r scope q credential s .noAddress credential s
  | noToken {u : Url} {e : Failure} {credential' : Credential} {s' : σ} :
    r.resourceUrl? scope (segments q) = some u →
    credential.token m s = (.answer (.error e), credential', s') →
    Replies m r scope q credential s (.noToken e) credential' s'
  | noResponse {u : Url} {token explanation : String} {credential' : Credential} {s' s'' : σ} :
    r.resourceUrl? scope (segments q) = some u →
    credential.token m s = (.answer (.ok token), credential', s') →
    m.request ⟨(withField u "api-version" apiVersion).render, token⟩ s' =
      (some (.error explanation), s'') →
    Replies m r scope q credential s (.noResponse explanation) credential' s''
  | response {u : Url} {token : String} {response : Machine.Response}
    {credential' : Credential} {s' s'' : σ} :
    r.resourceUrl? scope (segments q) = some u →
    credential.token m s = (.answer (.ok token), credential', s') →
    m.request ⟨(withField u "api-version" apiVersion).render, token⟩ s' =
      (some (.ok response), s'') →
    Replies m r scope q credential s (.response response) credential' s''

variable {m : Machine σ} {r : ResourceManager} {scope : Scope} {q : Query}
  {credential credential' : Credential} {s s' : σ} {reply : Reply}

theorem read_of_replies (h : r.Replies m scope q credential s reply credential' s') :
    ∃ answer, r.read m scope q credential s = (.answer answer, credential', s') ∧
      reply.Means q answer := by
  cases h with
  | noAddress hurl =>
    simp only [read, resourceUrl, hurl]
    exact ⟨_, rfl, .failed rfl rfl rfl⟩
  | noToken hurl htoken =>
    simp only [read, resourceUrl, hurl, htoken]
    exact ⟨_, rfl, .failed rfl rfl rfl⟩
  | noResponse hurl htoken hrequest =>
    simp only [read, resourceUrl, hurl, htoken, hrequest, Option.map_some]
    exact ⟨_, rfl, .failed rfl rfl rfl⟩
  | response hurl htoken hrequest =>
    simp only [read, resourceUrl, hurl, htoken, hrequest, Option.map_some]
    exact ⟨_, rfl, Reply.means_response scope q _⟩

end ResourceManager

theorem Credential.token_ne_dropped {m : Machine σ} (hm : m.NeverCancels) (credential : Credential)
    (s : σ) : (credential.token m s).1 ≠ .dropped := by
  cases credential with
  | known token => nofun
  | commandLine c =>
    show (c.token m s).1 ≠ .dropped
    unfold CommandLine.token
    dsimp only
    split
    · nofun
    · nofun
    · obtain ⟨ended, hended⟩ :=
        Option.isSome_iff_exists.1 (hm.execute c.program c.arguments (m.now s).2)
      rw [hended, Option.map_some]
      cases CommandLine.judge ended <;> nofun

theorem ResourceManager.exists_replies {m : Machine σ} (hm : m.NeverCancels)
    {r : ResourceManager} {scope : Scope} {q : Query} {credential : Credential} {s : σ}
    (hpanic : (r.read m scope q credential s).1 ≠ .panicked) :
    ∃ reply credential' s', r.Replies m scope q credential s reply credential' s' := by
  cases hurl : r.resourceUrl? scope (segments q) with
  | none => exact ⟨_, _, _, .noAddress hurl⟩
  | some u =>
  rcases htoken : credential.token m s with ⟨asked, credential', s'⟩
  cases asked with
  | dropped => exact absurd (congrArg Prod.fst htoken) (credential.token_ne_dropped hm s)
  | panicked =>
    simp only [read, resourceUrl, hurl, htoken] at hpanic
    exact absurd rfl hpanic
  | answer answer =>
  cases answer with
  | error e => exact ⟨_, _, _, .noToken hurl htoken⟩
  | ok token =>
  let request : Machine.Request := ⟨(withField u "api-version" apiVersion).render, token⟩
  rcases hrequest : m.request request s' with ⟨response?, s''⟩
  have hsome := hm.request request s'
  rw [hrequest] at hsome
  obtain ⟨answer, rfl⟩ := Option.isSome_iff_exists.1 hsome
  cases answer with
  | error explanation => exact ⟨_, _, _, .noResponse hurl htoken hrequest⟩
  | ok response => exact ⟨_, _, _, .response hurl htoken hrequest⟩

/-! ## The world of Azure -/

namespace Provider

variable {m : Machine σ} {p : Provider} {client : ResourceManager} {scope : Scope} {q : Query}
  {s s' : Connection σ} {reply : Reply}

/-- What comes back when a client asks with its credential. -/
def Replies (m : Machine σ) (p : Provider) (client : ResourceManager) (scope : Scope) (q : Query)
    (s : Connection σ) (reply : Reply) (s' : Connection σ) : Prop :=
  ∃ credential machine, s' = ⟨machine, some credential, s.panicked⟩ ∧
    client.Replies m scope q (s.credential?.getD (p.source.credential scope.subscription))
      s.machine reply credential machine

/-- The world of Azure understands what comes back. -/
theorem read_of_replies (h : p.Replies m client scope q s reply s') :
    ∃ answer, (p.world m).read client scope q s = (some answer, s') ∧ reply.Means q answer := by
  obtain ⟨credential, machine, rfl, hreplies⟩ := h
  obtain ⟨answer, hread, hmeans⟩ := ResourceManager.read_of_replies hreplies
  refine ⟨answer, ?_, hmeans⟩
  show p.read m client scope q s = _
  rw [read, hread]
  simp only [Connection.after, Asked.answer?, Asked.isPanic, Bool.or_false]

/-- Something always comes back, unless the program panics. -/
theorem exists_replies (hm : m.NeverCancels)
    (hpanic : ((p.world m).read client scope q s).2.panicked = false) :
    ∃ reply s', p.Replies m client scope q s reply s' := by
  have hread : (client.read m scope q
      (s.credential?.getD (p.source.credential scope.subscription)) s.machine).1 ≠ .panicked := by
    intro hpanicked
    have hflag : (s.panicked || Asked.isPanic (client.read m scope q
      (s.credential?.getD (p.source.credential scope.subscription)) s.machine).1) = false := hpanic
    rw [hpanicked, Asked.isPanic, Bool.or_true] at hflag
    cases hflag
  obtain ⟨reply, credential, machine, hreplies⟩ := ResourceManager.exists_replies hm hread
  exact ⟨reply, _, credential, machine, rfl, hreplies⟩

theorem not_cancelled_world (hm : m.NeverCancels) (p : Provider) (s : Connection σ) :
    (p.world m).cancelled s = false :=
  hm.cancelled s.machine

end Provider

/-- The public cloud, for one whose token is known. -/
def publicProvider : Provider :=
  ⟨ResourceManager.publicBase, .known "token", ⟨"python3", "/scripts"⟩⟩

end Azure

end Provisioner
