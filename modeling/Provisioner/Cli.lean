import Provisioner.Cli.Inspect
import Provisioner.Cli.Provision

/-!
# The command line

`Cli.run` runs a command line from its words to its end, and says what is printed and
with which exit code the program ends.
-/

namespace Provisioner.Cli

variable {σ κ δ : Type}

/-- The name and the version of the program. -/
def versionLine : String := "fleetml 0.3.0"

/-- How the program is used. -/
def usage : List String :=
  ["Provision versioned Azure ML resources",
    "",
    "Usage: fleetml [OPTIONS] <COMMAND>",
    "",
    "Commands:",
    "  provision <SERVICE> [--only <KINDS>]  Provision a service's resources",
    "  endpoint show <NAME>                  Show an online endpoint",
    "  workspace check                       Check that the workspace is reachable",
    "  version                               Show version information",
    "",
    "Options:",
    "      --subscription <ID>      [env: AZURE_SUBSCRIPTION_ID]",
    "      --resource-group <NAME>  [env: AZURE_RESOURCE_GROUP]",
    "      --workspace <NAME>       [env: AZUREML_WORKSPACE_NAME]",
    "  -e, --environment <NAME>     [env: FLEETML_ENV] [default: default]",
    "  -h, --help",
    "  -V, --version"]

/-- How a run of the program ended, and the state that it left behind. -/
structure Outcome (σ κ δ : Type) where
  exitCode : Nat
  transcript : Transcript
  world : σ
  disk : δ
  calls : List (Call κ)

namespace Outcome

/-- The end of a run that met nobody. -/
def quiet (exitCode : Nat) (transcript : Transcript) (s : σ) (d : δ) : Outcome σ κ δ :=
  ⟨exitCode, transcript, s, d, []⟩

/-- The end of a run that fails before it meets anybody. -/
def failure (e : Failure) (s : σ) (d : δ) : Outcome σ κ δ :=
  quiet 1 ⟨[], [e.render]⟩ s d

/-- The end of a job. -/
def ofJob : Except Failure Unit × Transcript × Session σ κ δ → Outcome σ κ δ
  | (.ok (), t, s) => ⟨0, t, s.world, s.disk, s.calls⟩
  | (.error e, t, s) =>
    ⟨1, { t with errors := t.errors ++ [e.render] }, s.world, s.disk, s.calls⟩

end Outcome

/-- What a command does in its session, and the root at which that is opened; without a
job there is only something to print. -/
structure Task (σ κ δ : Type) where
  root : String
  job : World σ κ → Scope → Job σ κ δ Unit

variable [Disk δ]

/-- What a command has to do. -/
def taskOf (st : Setting) (d : δ) : Command → Except Failure (Task σ κ δ ⊕ String)
  | .version => .ok (.inr versionLine)
  | .showEndpoint name => do
    return .inl ⟨← standardRoot st d, fun w scope => showEndpoint w st scope name⟩
  | .checkWorkspace => do
    return .inl ⟨← standardRoot st d, fun w scope => checkWorkspace w st scope⟩
  | .provision service only => do
    let p ← Plan.make st service only d
    if p.kinds.isEmpty then
      return .inr (st.paint .yellow ("Service '" ++ service ++ "' has nothing to provision"))
    else return .inl ⟨p.root, fun w scope => p.provision w st scope⟩

/-- Opens the session of a task, and does it. -/
def Task.run (w? : Except Azure.Failure (World σ κ)) (st : Setting) (options : Options)
    (task : Task σ κ δ) (s : σ) (d : δ) : Outcome σ κ δ :=
  match openSession st options task.root d with
  | .error e => .failure e s d
  | .ok (store, scope) =>
    match w? with
    | .error e => .failure (.clients e) s d
    | .ok w => .ofJob ((task.job w scope).run.run (default, ⟨s, d, store, none, []⟩))

/-- Runs a command. -/
def Invocation.run (w? : Except Azure.Failure (World σ κ)) (st : Setting) (i : Invocation)
    (s : σ) (d : δ) : Outcome σ κ δ :=
  match taskOf st d i.command with
  | .error e => .failure e s d
  | .ok (.inr line) => .quiet 0 ⟨[line], []⟩ s d
  | .ok (.inl task) => task.run w? st i.options s d

/-- Runs a command line.  `w?` is the world, or why there is none. -/
def run (w? : Except Azure.Failure (World σ κ)) (st : Setting) (words : List String) (s : σ)
    (d : δ) : Outcome σ κ δ :=
  match Invocation.parse st.environment words with
  | .ok i => i.run w? st s d
  | .error .version => .quiet 0 ⟨[versionLine], []⟩ s d
  | .error .help => .quiet 0 ⟨usage, []⟩ s d
  | .error .usage => .quiet 2 ⟨[], usage⟩ s d

end Provisioner.Cli
