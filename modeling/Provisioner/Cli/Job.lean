import Provisioner.Cli.Failure
import Provisioner.Cli.Style
import Provisioner.Project.Discovery
import Provisioner.World

/-!
# Jobs

A `Job` is what a command does once its session is open: it runs operations, and prints
lines.  What a failed operation has to say comes before the report of the failure.

* `Setting` is what a command knows about its surroundings.
* `Job.print` and `Job.perform` are what a job can do.
* `openSession` opens the store of an environment and completes the scope from it.
-/

namespace Provisioner.Cli

variable {σ κ δ α : Type}

/-- The surroundings of a command: the process environment, whether the output goes to a
terminal, the reading of the clock, in seconds, for the step of each kind, and the order in
which the process goes through the overrides of the component of each kind. -/
structure Setting where
  environment : KeyMap String
  isTerminal : Bool
  clock : Kind → Int
  order : Kind → Overrides.Order

/-- A text in a style, if output has styles. -/
def Setting.paint (st : Setting) (s : Style) (text : String) : String :=
  s.apply (Style.isEnabled st.environment st.isTerminal) text

/-- The service of a name as the process has it, with overrides in its own order. -/
def Setting.service (st : Setting) (project : Project) (name : String) :
    Except ProjectError Service :=
  (project.service name).map (·.inOrder st.order)

/-- The lines that a command printed. -/
structure Transcript where
  output : List String
  errors : List String
deriving DecidableEq, Repr, Inhabited

/-- The lines as texts. -/
def Transcript.render (lines : List String) : String :=
  String.join (lines.map (· ++ "\n"))

/-- A computation on a session that prints, and may fail. -/
abbrev Job (σ κ δ α : Type) := ExceptT Failure (StateM (Transcript × Session σ κ δ)) α

namespace Job

/-- Prints a line. -/
def print (line : String) : Job σ κ δ Unit :=
  modify fun (t, s) => ({ t with output := t.output ++ [line] }, s)

/-- Prints a line of errors. -/
def printError (line : String) : Job σ κ δ Unit :=
  modify fun (t, s) => ({ t with errors := t.errors ++ [line] }, s)

/-- The store of the session. -/
def store : Job σ κ δ Store := do
  return (← get).2.store

/-- Prints a stream of a program, unless it is blank. -/
def printStream (st : Setting) (title text : String) : Job σ κ δ Unit := do
  if !Text.allBlank text then
    printError (st.paint .dimmed title)
    printError (Text.trimEnd text)

/-- Prints what a failed operation has to say beyond its report. -/
def explain (st : Setting) (e : ProvisionError) : Job σ κ δ Unit := do
  if e.isCancelled then printError (st.paint .yellow "Cancelled")
  match e.output? with
  | none => pure ()
  | some output =>
    printStream st "--- tool stdout ---" output.stdout
    printStream st "--- tool stderr ---" output.stderr

/-- Succeeds with an answer, or fails after an explanation. -/
def orExplain (st : Setting) : Except ProvisionError α → Job σ κ δ α
  | .ok a => pure a
  | .error e => do
    explain st e
    throw (.operation e)

/-- Runs an operation. -/
def perform (st : Setting) (op : Op σ κ δ α) : Job σ κ δ α := do
  let (t, s) ← get
  let (answer, s) := op.run.run s
  set (t, s)
  orExplain st answer

end Job

/-! ## Opening a session -/

/-- A part of the scope: the value that is given, or else that of the store, which must
not be blank.  A given value that is blank hides the store's. -/
def scopePart (store : Store) (given? : Option String) (flag : Flag) : Except Failure String :=
  match (given?.or (store.get? flag.variableName)).filter (fun v => !Text.allBlank v) with
  | some value => .ok value
  | none => .error (.missing flag)

/-- The scope of the options and a store. -/
def scopeOf (options : Options) (store : Store) : Except Failure Scope := do
  let subscription ← scopePart store options.subscription? .subscription
  let resourceGroup ← scopePart store options.resourceGroup? .resourceGroup
  let workspace ← scopePart store options.workspace? .workspace
  return ⟨subscription, resourceGroup, workspace⟩

/-- The store of the environment below a root, and the scope. -/
def openSession [Disk δ] (st : Setting) (options : Options) (root : String) (disk : δ) :
    Except Failure (Store × Scope) := do
  let file ← (Store.DotenvFile.openIn st.environment root options.environment disk).mapError
    (.environment options.environment)
  return (.dotenv file, ← scopeOf options (.dotenv file))

/-- The root for commands that need no project: that of the project file, if there is
one, or else the current directory. -/
def standardRoot [Disk δ] (st : Setting) (disk : δ) : Except Failure String :=
  match Project.find st.environment disk with
  | .ok path => .ok ((Path.parent? path).getD ".")
  | .error _ => (Disk.currentDir disk).mapError .currentDirectory

end Provisioner.Cli
