import Provisioner.Proofs.Operation.Workspace
import Provisioner.Proofs.Pipeline.Run
import Provisioner.Proofs.Pipeline.Step
import Provisioner.Proofs.Template.References

/-!
# Starting again

What a run finds that starts where others have published their names: the session that it
opens has the store that is carried, and the scope that the others had.

* `Carried.openSession_eq` and `Carried.resolve_eq` open the session and complete its scope.
* `Plan.run_check` is the check before the steps, `Plan.run_check_of_ok` one that succeeds, and
  `Plan.run_check_of_error` one without a scope.
-/

namespace Provisioner.Cli

open Session Store

variable {σ τ κ δ : Type}

/-! ## Opening the session again -/

section

variable [Disk δ] {st : Setting} {options : Options} {root : String} {base : Scope}
  {first file : DotenvFile} {made? : Option String} {origin disk d : δ}

theorem exists_of_openSession {store : Store}
    (h : openSession st options root d = .ok (store, base)) :
    ∃ first, store = .dotenv first ∧
      DotenvFile.openIn st.environment root options.environment d = .ok first ∧
      scopeOf options (.dotenv first) = .ok base := by
  obtain ⟨first, hopen, h⟩ := exists_of_bind_eq_ok h
  obtain ⟨base', hbase, h⟩ := exists_of_bind_eq_ok h
  obtain ⟨rfl, rfl⟩ := Prod.mk.inj (Except.ok.inj h)
  exact ⟨first, rfl, eq_ok_of_mapError_eq_ok hopen, hbase⟩

theorem openSession_of_openIn
    (hopen : DotenvFile.openIn st.environment root options.environment d = .ok first)
    (hbase : scopeOf options (.dotenv first) = .ok base) :
    openSession st options root d = .ok (.dotenv first, base) := by
  rw [openSession, bind_of_ok (mapError_of_ok hopen _), bind_of_ok hbase]
  rfl

theorem environment_of_openIn {name : String}
    (h : DotenvFile.openIn st.environment root name d = .ok first) :
    first.environment = st.environment ∧ first.path = DotenvFile.filePath root name := by
  obtain ⟨values, -, rfl⟩ := exists_of_map_eq_ok h
  exact ⟨rfl, rfl⟩

/-- What a session has that is opened on the file at first. -/
theorem carried_of_openIn {name : String}
    (h : DotenvFile.openIn st.environment root name d = .ok first) :
    Carried first d none first d := by
  obtain ⟨henvironment, hpath⟩ := environment_of_openIn h
  refine ⟨.not, ?_, fun _ _ => rfl, .inl rfl⟩
  rw [henvironment, hpath]
  exact h

omit [Disk δ] in
/-- The scope is not made of names that are published. -/
theorem variableName_notMem_publishKeys (flag : Flag) :
    flag.variableName ∉ Kind.publishKeys := by
  cases flag <;> decide

theorem Carried.scopeOf_eq (h : Carried first origin made? file disk) :
    scopeOf options (.dotenv file) = scopeOf options (.dotenv first) := by
  have hpart : ∀ given? flag,
      scopePart (.dotenv file) given? flag = scopePart (.dotenv first) given? flag := by
    intro given? flag
    have hget : (Store.dotenv file).get? flag.variableName =
        (Store.dotenv first).get? flag.variableName :=
      h.get? _ (variableName_notMem_publishKeys flag)
    simp only [scopePart, hget]
  simp only [scopeOf, hpart]

/-- A session that is opened again has the store that is carried, and the same scope. -/
theorem Carried.openSession_eq (h : Carried first origin made? file disk)
    (hopen : DotenvFile.openIn st.environment root options.environment d = .ok first)
    (hbase : scopeOf options (.dotenv first) = .ok base) :
    openSession st options root disk = .ok (.dotenv file, base) := by
  obtain ⟨henvironment, hpath⟩ := environment_of_openIn hopen
  refine openSession_of_openIn ?_ (h.scopeOf_eq.trans hbase)
  have hload := h.load
  rw [henvironment, hpath] at hload
  exact hload

theorem Carried.resolve_eq (h : Carried first origin made? file disk) {workspace? : Option Template}
    (htemplate : ∀ t ∈ workspace?, ∀ name ∈ t.references, name ∉ Kind.publishKeys) :
    Scope.resolve (.dotenv file) base workspace? =
      Scope.resolve (.dotenv first) base workspace? := by
  unfold Scope.resolve
  cases hnamed : workspace?.filter fun t => !t.isEmpty with
  | none => rfl
  | some t =>
    have ht : t ∈ workspace? := (Option.filter_eq_some_iff.1 hnamed).1
    have hsame : t.resolve (Store.dotenv file).lookup = t.resolve (Store.dotenv first).lookup :=
      Template.resolve_congr fun name hname => h.get? name (htemplate t ht name hname)
    simp only [hsame]

end

/-! ## Checking the workspace again -/

namespace Plan

variable {free : Prop} {w : World σ κ} {view : σ → τ} {st : Setting} {base scope : Scope} {p : Plan}
  {s : Session σ κ δ}

theorem run_store (t : Transcript) (s : Session σ κ δ) :
    (Job.store : Job σ κ δ Store).run.run (t, s) = (.ok s.store, t, s) :=
  rfl

/-- Without a scope nothing but the failure is reported. -/
theorem exists_run_check_of_error {e : ProvisionError}
    (h : Scope.resolve s.store base p.resources.workspace? = .error e) (t : Transcript) :
    ∃ t', (p.check w st base).run.run (t, s) = (.error (.operation e), t', s) := by
  obtain ⟨lines, hfails⟩ :=
    Job.exists_run_orExplain_error (σ := σ) (κ := κ) (δ := δ) (α := Scope) st e
  unfold check
  rw [run_bind_of_ok (run_store _ _), h, run_bind_of_error (hfails _ _)]
  exact ⟨_, rfl⟩

/-- Without a scope there is no check. -/
theorem run_check_of_error {e : ProvisionError}
    (h : Scope.resolve s.store base p.resources.workspace? = .error e) :
    ∃ ts, (p.check w st base).run.run (default, s) = (.error (.operation e), ts) := by
  obtain ⟨t, hrun⟩ := exists_run_check_of_error h default
  exact ⟨_, hrun⟩

/-- With a scope, the check prints and then depends on the workspace. -/
theorem run_check (st : Setting) {answer : Except ProvisionError Workspace}
    {s' : Session σ κ δ}
    (h : Scope.resolve s.store base p.resources.workspace? = .ok scope)
    (hensure : (Op.ensureWorkspace w scope).run.run s = (answer, s')) (t : Transcript) :
    ∃ output, (p.check w st base).run.run (t, s) =
      (do
        let _ ← Job.orExplain st answer
        printDone st ("workspace " ++ scope.workspace)
        return scope : Job σ κ δ Scope).run.run (⟨output, t.errors⟩, s') := by
  have hscope : (Job.orExplain st (Scope.resolve s.store base p.resources.workspace?)).run.run
      (t, s) = (.ok scope, t, s) := by
    rw [h]
    rfl
  have hprint : ∀ (t : Transcript) (s : Session σ κ δ) (line : String),
      (Job.print line : Job σ κ δ Unit).run.run (t, s) =
        (.ok (), ⟨t.output ++ [line], t.errors⟩, s) := fun _ _ _ => rfl
  unfold check
  rw [run_bind_of_ok (run_store _ _), run_bind_of_ok hscope, run_bind_of_ok (hprint _ _ _),
    run_bind_of_ok (hprint _ _ _), run_bind_of_ok (hprint _ _ _), run_discard_bind, run_bind,
    Job.run_perform, hensure]
  simp only [run_bind]
  exact ⟨_, rfl⟩

/-- A check that succeeds reports nothing, and leaves the session ready for steps. -/
theorem run_check_of_ok (hw : w.DependsOnly free view)
    (h : Scope.resolve s.store base p.resources.workspace? = .ok scope)
    (hcheck : ∃ record s', (Op.ensureWorkspace w scope).run.run s = (.ok record, s')) :
    ∃ output s', (p.check w st base).run.run (default, s) = (.ok scope, ⟨output, []⟩, s') ∧
      Ready view s s' ∧ s'.client?.isSome := by
  obtain ⟨record, s', hensure⟩ := hcheck
  obtain ⟨output, hrun⟩ := run_check st h hensure default
  rw [hrun]
  exact ⟨_, s', rfl, Op.ready_of_ensureWorkspace hw hensure⟩

end Plan

end Provisioner.Cli
