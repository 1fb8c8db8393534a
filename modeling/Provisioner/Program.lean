import Provisioner.Override
import Provisioner.Scope
import Provisioner.Text.Split
import Provisioner.Text.Blank

/-!
# Provisioning programs

Resources are made by two external programs.  This module says what they are
called, what they are given and what comes back.

* `Program` names them, and `Program.script` is the file that each one is.
* `Arguments` builds an argument vector; `Arguments.ml` starts one for the ML client.
* `Program.Output` is what a successful run prints, and `Program.Failure` what can go
  wrong with a run.
-/

namespace Provisioner

/-- The two programs: one for prompt flows, one for everything else. -/
inductive Program
  | mlClient
  | promptFlowClient
deriving DecidableEq, Repr

namespace Program

/-- The name of the program in messages. -/
def name : Program → String
  | .mlClient => "ml-client"
  | .promptFlowClient => "prompt-flow-client"

/-- The file that holds the program. -/
def script : Program → String
  | .mlClient => "ml_client.py"
  | .promptFlowClient => "pf_client.py"

/-- What a successful run prints. -/
structure Output where
  stdout : String
  stderr : String
deriving DecidableEq, Repr, Inhabited

/-- How a run fails: the program reports failure, with its exit code unless a signal
ended it; it cannot be started, for the given reason; or there is no way to run it. -/
inductive Failure
  | failed (program : Program) (exitCode? : Option Int) (output : Output)
  | launch (program : Program) (reason : String)
  | unavailable (explanation : String)
deriving DecidableEq, Repr

namespace Failure

/-- How a run ended, in words. -/
def describeStatus : Option Int → String
  | some code => "status " ++ toString code
  | none => "no status (terminated by signal)"

/-- The wording of a failure. -/
def message : Failure → String
  | .failed program exitCode? output =>
    program.name ++ " exited with " ++ describeStatus exitCode? ++ ": " ++ Text.trim output.stderr
  | .launch program reason => "failed to launch " ++ program.name ++ ": " ++ reason
  | .unavailable explanation => "tool bridge unavailable: " ++ explanation

/-- The reasons behind a failure, the nearest first. -/
def causes : Failure → List String
  | .launch _ reason => [reason]
  | _ => []

/-- Whether the program ran and reported failure. -/
def isFailedRun : Failure → Bool
  | .failed .. => true
  | _ => false

/-- What a failed run printed. -/
def output? : Failure → Option Output
  | .failed _ _ output => some output
  | _ => none

end Failure

end Program

/-- An argument vector. -/
abbrev Arguments := List String

namespace Arguments

/-- The vector with one more argument. -/
def arg (args : Arguments) (value : String) : Arguments :=
  args ++ [value]

/-- The vector with a flag and its value. -/
def flag (args : Arguments) (name value : String) : Arguments :=
  (args.arg name).arg value

/-- The vector with a field set to a value. -/
def set (args : Arguments) (key value : String) : Arguments :=
  args ++ setArguments key value

/-- The start of a vector for the ML client: resource type, scope and definition file. -/
def ml (resourceType : String) (scope : Scope) (file : String) : Arguments :=
  ["-t", resourceType, "-s", scope.subscription, "-g", scope.resourceGroup,
    "-w", scope.workspace, "-f", file]

/-- The argument behind the first occurrence of a flag. -/
def after? (flag : String) : Arguments → Option String
  | name :: value :: rest => if name = flag then some value else after? flag (value :: rest)
  | _ => none

/-- The pairs of a field and its value that arguments set. -/
def fieldPairs : Arguments → List (String × String)
  | "--set" :: pair :: rest =>
    match Text.cut? '=' pair.toList with
    | some (key, value) => (String.ofList key, String.ofList value) :: fieldPairs rest
    | none => fieldPairs rest
  | _ :: rest => fieldPairs rest
  | [] => []

/-- The fields that arguments set; of two values for a field the later one counts. -/
def fields (args : Arguments) : KeyMap String :=
  KeyMap.ofList args.fieldPairs

end Arguments

end Provisioner
