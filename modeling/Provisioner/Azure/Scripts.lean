import Provisioner.Azure.Failure
import Provisioner.Machine
import Provisioner.Project.Discovery

/-!
# Scripts

The two programs are Python scripts in one directory, run by an interpreter.

* `Scripts.ofEnvironment` finds interpreter and directory.
* `Scripts.check` makes sure that the programs can be run, and `Scripts.run` runs one.
-/

namespace Provisioner.Azure

variable {σ : Type}

/-- An interpreter, and the directory of the scripts. -/
structure Scripts where
  interpreter : String
  directory : String
deriving DecidableEq, Repr

namespace Scripts

/-- The variable that names the interpreter. -/
def interpreterVariable : String := "FLEETML_PYTHON"

/-- The variable that names the directory. -/
def directoryVariable : String := "FLEETML_SCRIPTS_DIR"

/-- The interpreter, unless another is named. -/
def standardInterpreter : String := "python3"

/-- The directory, unless another is named: below that of the user's data. -/
def standardDirectory (environment : KeyMap String) : Except Failure String :=
  match Project.userDirectory? environment "XDG_DATA_HOME" ".local/share" with
  | some directory => .ok (Path.join (Path.join directory "fleetml") "scripts")
  | none =>
    .error (.invalidConfiguration
      ("cannot determine scripts directory; set " ++ directoryVariable))

/-- The scripts that the process environment asks for. -/
def ofEnvironment (environment : KeyMap String) : Except Failure Scripts := do
  let directory ← match environment.get? directoryVariable with
    | some directory => .ok directory
    | none => standardDirectory environment
  return ⟨(environment.get? interpreterVariable).getD standardInterpreter, directory⟩

/-- The script of a program. -/
def path (s : Scripts) (program : Program) : String :=
  Path.join s.directory program.script

/-- Finds the first program without a script. -/
def missing? (m : Machine σ) (s : Scripts) (state : σ) : Option Program :=
  [.mlClient, .promptFlowClient].find? fun program => !m.isFile state (s.path program)

/-- How the interpreter answers to being asked for its version. -/
def judgeVersion (s : Scripts) : Except IoError Machine.Exit → Except Program.Failure Unit
  | .error e => .error (.unavailable ("cannot run " ++ s.interpreter ++ ": " ++ e.message))
  | .ok ended =>
    if ended.isSuccess then .ok ()
    else .error (.unavailable (s.interpreter ++ " --version failed: "
      ++ Text.trim (Text.Utf8.decodeLossy ended.stderr)))

/-- Makes sure that the interpreter runs, and that both scripts are there. -/
def check (m : Machine σ) (s : Scripts) (state : σ) :
    Option (Except Program.Failure Unit) × σ :=
  let (ended?, state) := m.execute s.interpreter ["--version"] state
  match ended?.map s.judgeVersion with
  | some (.ok ()) =>
    match s.missing? m state with
    | none => (some (.ok ()), state)
    | some program =>
      (some (.error (.unavailable (program.name ++ " script not found: " ++ s.path program))),
        state)
  | answer? => (answer?, state)

/-- How a run of a program ended. -/
def judgeRun (program : Program) :
    Except IoError Machine.Exit → Except Program.Failure Program.Output
  | .error e => .error (.launch program e.message)
  | .ok ended =>
    let output : Program.Output :=
      ⟨Text.Utf8.decodeLossy ended.stdout, Text.Utf8.decodeLossy ended.stderr⟩
    if ended.isSuccess then .ok output else .error (.failed program ended.code? output)

/-- Runs a program. -/
def run (m : Machine σ) (s : Scripts) (program : Program) (arguments : Arguments) (state : σ) :
    Option (Except Program.Failure Program.Output) × σ :=
  let (ended?, state) := m.execute s.interpreter (s.path program :: arguments) state
  (ended?.map (judgeRun program), state)

end Scripts

end Provisioner.Azure
