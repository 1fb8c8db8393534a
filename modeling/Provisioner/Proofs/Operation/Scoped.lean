import Provisioner.Proofs.Arguments
import Provisioner.Proofs.Operation.Inputs
import Provisioner.Proofs.Operation.Stages

/-!
# The scope of an operation

An operation works on one scope: it connects to the subscription, asks the control plane about
the scope and names the scope to every program that it runs.

* `Call.InScope` says so of one call.
* `Course.inScope_environment` and its siblings say so of all that a course asks for.
* `Request.inScope` says of every operation that its calls are in its scope, however it ends.
-/

namespace Provisioner

variable {σ κ δ α : Type}

/-- A call that is about one scope. -/
def Call.InScope (scope : Scope) : Call κ → Prop
  | .connect subscription => subscription = scope.subscription
  | .startTools => True
  | .run program arguments => Options.InScope scope (program.options arguments)
  | .read _ there _ => there = scope

/-! ## Courses -/

namespace Course

variable {client : κ} {scope : Scope} {lookup : Template.Lookup} {overrides : Overrides}

section

variable {p : Prepared} (h : overrides.arguments lookup = .ok p.overrides)
include h

theorem inScope_environment : (environment client scope p).Asks (Call.InScope scope) := by
  intro xs stage hstage
  rcases call_of_environment hstage with ⟨-, hcall⟩ | ⟨x, -, hcall⟩ | ⟨x, y, -, hcall⟩ <;>
    rw [hcall]
  · rfl
  · exact (EnvironmentVersion.orders scope h _).inScope
  · rfl

theorem inScope_model : (model client scope p).Asks (Call.InScope scope) := by
  intro xs stage hstage
  rcases call_of_model hstage with ⟨-, hcall⟩ | ⟨x, -, hcall⟩ | ⟨x, y, -, hcall⟩ <;> rw [hcall]
  · exact (ModelVersion.orders scope h).inScope
  · rfl
  · rfl

theorem inScope_endpoint : (endpoint client scope p).Asks (Call.InScope scope) := by
  intro xs stage hstage
  rcases call_of_endpoint hstage with hcall | ⟨x, -, -, hcall⟩ <;> rw [hcall]
  · rfl
  · exact (Endpoint.orders scope h).inScope

theorem inScope_flow : (flow (κ := κ) scope p).Asks (Call.InScope scope) := by
  intro xs stage hstage
  rcases call_of_flow hstage with ⟨-, hcall⟩ | ⟨x, verb, -, hcall⟩ <;> rw [hcall]
  · exact Flow.inScope_showArguments scope p.name
  · exact Flow.inScope_arguments scope h verb

end

theorem inScope_deployment {p : Deployment.Input}
    (h : overrides.arguments lookup = .ok p.overrides) :
    (deployment client scope p).Asks (Call.InScope scope) := by
  intro xs stage hstage
  rcases call_of_deployment hstage with
    ⟨-, hcall⟩ | ⟨e, -, hcall⟩ | ⟨e, m, -, hcall⟩ | ⟨e, m, y, -, hcall⟩ <;> rw [hcall]
  · rfl
  · rfl
  · exact (Deployment.orders scope h _ _).inScope
  · rfl

theorem inScope_workspace : (workspace client scope).Asks (Call.InScope scope) := by
  intro xs stage hstage
  rw [(call_of_workspace hstage).2]
  rfl

theorem inScope_endpointRecord (name : String) :
    (endpointRecord client scope name).Asks (Call.InScope scope) := by
  intro xs stage hstage
  rw [(call_of_endpointRecord hstage).2]
  rfl

end Course

/-! ## All operations -/

namespace Request

variable [Disk δ] {store : Store} {disk : δ}

theorem inScope_course {q : Request} {p : q.Input} (h : q.fill store disk = .ok p) (client : κ) :
    (q.course p client).Asks (Call.InScope q.scope) := by
  cases q with
  | environment =>
    exact Course.inScope_environment (Prepared.filledIn_of_definitionFirst h).overrides
  | model => exact Course.inScope_model (Prepared.filledIn_of_definitionFirst h).overrides
  | endpoint => exact Course.inScope_endpoint (Prepared.filledIn_of_nameFirst h).overrides
  | deployment => exact Course.inScope_deployment (Deployment.filledIn_of_prepare h).overrides
  | flow =>
    obtain ⟨q, hq, rfl⟩ := Flow.exists_filledIn_of_prepare h
    exact Course.inScope_flow hq.overrides
  | workspace => exact Course.inScope_workspace
  | endpointRecord scope name => exact Course.inScope_endpointRecord name

end Request

variable [Disk δ]

/-- To open a client is to connect to the subscription of the scope, and then to start the
programs. -/
theorem eq_of_mem_opening {scope : Scope} {opening : List (Call κ)} {call : Call κ}
    (h : opening <+: [.connect scope.subscription, .startTools]) (hmem : call ∈ opening) :
    call = .connect scope.subscription ∨ call = .startTools :=
  (List.mem_cons.1 (h.subset hmem)).imp_right List.mem_singleton.1

theorem Traced.inScope {store : Store} {disk : δ} {q : Request} {p : q.Input}
    {s : Session (Logbook σ κ) κ δ}
    {r : Except ProvisionError q.Record × Session (Logbook σ κ) κ δ} {opening : List (Call κ)}
    {xs : List (Exchange κ)} {last? : Option (Call κ)}
    (h : Traced (q.course p) q.scope s r opening xs last?) (hfill : q.fill store disk = .ok p) :
    ∀ call ∈ opening ++ Course.traceCalls xs last?, call.InScope q.scope := by
  intro call hmem
  rcases List.mem_append.1 hmem with hmem | hmem
  · rcases eq_of_mem_opening h.opens hmem with rfl | rfl
    · rfl
    · trivial
  · have htrace := h.trace
    generalize r.1.toOption = a? at htrace
    cases htrace with
    | unopened => cases hmem
    | opened htrace => exact htrace.forall_calls (Request.inScope_course hfill _) call hmem

/-- Whatever an operation is answered, all that it calls is about the scope that it is given. -/
theorem Request.inScope (w : World σ κ) (q : Request) (s : Session σ κ δ) :
    ∃ calls, ((q.op w).run.run s).2.calls = s.calls ++ calls ∧
      ∀ call ∈ calls, call.InScope q.scope := by
  let logged : Session (Logbook σ κ) κ δ := { s with world := ⟨s.world, []⟩ }
  have hrun : (q.op w).run.run s = _ := q.run_logged w logged
  rw [hrun]
  rcases (q.follows w.logged logged).refused_or_good with ⟨e, -, hr⟩ | ⟨p, hfill, hfollows⟩
  · rw [hr]
    exact ⟨[], (List.append_nil _).symm, nofun⟩
  · obtain ⟨opening, xs, last?, htraced⟩ := hfollows.traced
    exact ⟨_, htraced.calls, htraced.inScope hfill⟩

end Provisioner
