import Provisioner.Proofs.Operation.Lifetime

/-!
# Whose client it is

The client of an orchestrator is opened for one subscription, that of the operation that opened
it.  Operations for other subscriptions use the same client.

* `Lifetime.inScope`: whatever is called is in the scope of one of the requests.
* `read_through_opener` says for which subscription the client was connected that a question goes
  through.
* `not_forall_read_through_own`: it need not be the one that is asked about.
-/

namespace Provisioner

variable {σ κ δ : Type} [Disk δ]

/-- Every call of an orchestrator is in the scope of something that it was asked for. -/
theorem Lifetime.inScope {w : World σ κ} {qs : List Request} {s : Session (Transcript σ κ) κ δ}
    (h : Lifetime w qs s) : ∀ call ∈ s.calls, ∃ q ∈ qs, call.InScope q.scope := by
  induction h with
  | new => exact fun call hcall => absurd hcall List.not_mem_nil
  | @operate qs s q _ ih =>
    obtain ⟨calls, hcalls, hscope⟩ := q.inScope w.recorded s
    intro call hcall
    rw [hcalls] at hcall
    rcases List.mem_append.1 hcall with hcall | hcall
    · obtain ⟨q', hq', hin⟩ := ih call hcall
      exact ⟨q', List.mem_append_left _ hq', hin⟩
    · exact ⟨q, List.mem_append_right _ List.mem_cons_self, hscope call hcall⟩
  | elsewhere _ _ _ _ ih => exact ih

/-- A question goes through the client that was connected for the subscription of the request
whose attempt succeeded, so for its own subscription exactly if that is the same. -/
theorem read_through_opener {w : World σ κ} {qs : List Request}
    {s : Session (Transcript σ κ) κ δ} (h : Lifetime w qs s) {before after : List (Event κ)}
    {client : κ} {scope : Scope} {query : ControlPlane.Query}
    {answer? : Option (ControlPlane.Answer query)}
    (hread : s.world.events = before ++ .read client scope query answer? :: after) :
    ∃ opener ∈ qs, ∃ asker ∈ qs, scope = asker.scope ∧
      (∀ subscription, Opened subscription client before ↔
        subscription = opener.scope.subscription) ∧
      ((∀ q ∈ qs, ∀ q' ∈ qs, q.scope.subscription = q'.scope.subscription) →
        Opened scope.subscription client before) := by
  obtain ⟨opener, hopener, client', hopened, huses⟩ :=
    h.chronicle.exists_opened_of_isWork hread trivial
  obtain rfl : client = client' := huses
  have hcall : .read client scope query ∈ s.calls := by
    rw [← h.calls_eq, hread, List.map_append]
    exact List.mem_append_right _ List.mem_cons_self
  obtain ⟨asker, hasker, hscope⟩ := h.inScope _ hcall
  obtain rfl : scope = asker.scope := hscope
  refine ⟨opener, hopener, asker, hasker, rfl, fun subscription => ⟨?_, ?_⟩, fun hall => ?_⟩
  · rintro ⟨earlier, later, hother⟩
    obtain ⟨earlier', later', hown⟩ := hopened
    have hsplit := hread
    rw [hother, List.append_assoc, List.append_assoc] at hsplit
    rw [hown, List.append_assoc, List.append_assoc] at hread
    exact h.chronicle.subscription_eq hsplit hread
  · rintro rfl
    exact hopened
  · rw [hall asker hasker opener hopener]
    exact hopened

/-- A world in which a client is named after the subscription that it is connected for. -/
def namingWorld : World Unit String where
  cancelled _ := false
  connect subscription s := (some (.ok subscription), s)
  startTools s := (some (.ok ()), s)
  run _ _ s := (some (.ok default), s)
  read _ _ q s := (some (.ok q.sample), s)

/-- An orchestrator that is asked about two subscriptions, one after the other. -/
def twoSubscriptions : List Request :=
  [.endpointRecord ⟨"first", "rg", "ws"⟩ "ep", .endpointRecord ⟨"second", "rg", "ws"⟩ "ep"]

/-- What it has on record then. -/
def twoSubscriptionsSession : Session (Transcript Unit String) String FileTree :=
  ⟨⟨(), Event.connected "first" "first" ++
      [.read "first" ⟨"first", "rg", "ws"⟩ (.endpoint "ep")
          (some (.ok (Resource.named "ep" .blank))),
        .read "first" ⟨"second", "rg", "ws"⟩ (.endpoint "ep")
          (some (.ok (Resource.named "ep" .blank)))]⟩,
    FileTree.empty, .memory ⟨KeyMap.empty⟩, some "first",
    [.connect "first", .startTools, .read "first" ⟨"first", "rg", "ws"⟩ (.endpoint "ep"),
      .read "first" ⟨"second", "rg", "ws"⟩ (.endpoint "ep")]⟩

theorem lifetime_twoSubscriptions :
    Lifetime namingWorld twoSubscriptions twoSubscriptionsSession := by
  have hnew : Lifetime namingWorld [] ⟨⟨(), []⟩, FileTree.empty, _, none, []⟩ :=
    .new () FileTree.empty (.memory ⟨KeyMap.empty⟩)
  exact (hnew.operate (.endpointRecord ⟨"first", "rg", "ws"⟩ "ep")).operate
    (.endpointRecord ⟨"second", "rg", "ws"⟩ "ep")

theorem read_through_opener_twoSubscriptions :
    let scope : Scope := ⟨"second", "rg", "ws"⟩
    let before := twoSubscriptionsSession.world.events.take 3
    ∃ opener ∈ twoSubscriptions, ∃ asker ∈ twoSubscriptions, scope = asker.scope ∧
      (∀ subscription, Opened subscription "first" before ↔
        subscription = opener.scope.subscription) ∧
      ((∀ q ∈ twoSubscriptions, ∀ q' ∈ twoSubscriptions,
          q.scope.subscription = q'.scope.subscription) →
        Opened scope.subscription "first" before) := by
  intro scope before
  have hread : twoSubscriptionsSession.world.events = before ++
      [.read "first" scope (.endpoint "ep") (some (.ok (Resource.named "ep" .blank)))] := rfl
  exact read_through_opener lifetime_twoSubscriptions hread

/-- A question may go through a client that was connected for another subscription. -/
theorem not_forall_read_through_own :
    ¬ ∀ (σ κ δ : Type) [Disk δ] (w : World σ κ) (qs : List Request)
      (s : Session (Transcript σ κ) κ δ), Lifetime w qs s →
      ∀ (before after : List (Event κ)) (client : κ) (scope : Scope)
        (query : ControlPlane.Query) (answer? : Option (ControlPlane.Answer query)),
        s.world.events = before ++ .read client scope query answer? :: after →
        .connect scope.subscription (some (.ok client)) ∈ before := by
  intro hall
  have hown := hall Unit String FileTree namingWorld twoSubscriptions twoSubscriptionsSession
    lifetime_twoSubscriptions (twoSubscriptionsSession.world.events.take 3) [] "first"
    ⟨"second", "rg", "ws"⟩ (.endpoint "ep") (some (.ok (Resource.named "ep" .blank))) rfl
  simp [twoSubscriptionsSession, Event.connected] at hown

end Provisioner
