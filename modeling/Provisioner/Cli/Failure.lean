import Provisioner.Azure.Failure
import Provisioner.Cli.CommandLine
import Provisioner.Project
import Provisioner.ProvisionError

/-!
# Failures of commands

Why a command ends early, and how that is reported: the message, and below it the
causes, numbered if there are several.
-/

namespace Provisioner.Cli

/-- Why a command fails. -/
inductive Failure
  | project (source : ProjectError)
  | currentDirectory (error : IoError)
  | environment (name : String) (source : Store.Failure)
  | missing (flag : Flag)
  | clients (source : Azure.Failure)
  | noEndpoint (service : String)
  | operation (source : ProvisionError)
deriving DecidableEq, Repr

namespace Failure

/-- The key under which the name of an endpoint is stored. -/
def endpointKey : String := (Kind.publishKey? .endpoint).getD ""

/-- The wording of a failure. -/
def message : Failure → String
  | .project source => source.message
  | .currentDirectory _ => "Failed to read current directory"
  | .environment name _ => "Failed to open environment '" ++ name ++ "'"
  | .missing flag => "--" ++ flag.name ++ " or " ++ flag.variableName ++ " is required"
  | .clients _ => "Failed to set up Azure ML clients"
  | .noEndpoint service =>
    "Deployment needs an endpoint: configure one for '" ++ service ++ "' or set " ++ endpointKey
  | .operation source => source.message

/-- The reasons behind a failure, the nearest first. -/
def causes : Failure → List String
  | .project source => source.causes
  | .currentDirectory error => [error.message]
  | .environment _ source => source.message :: source.causes
  | .missing _ => []
  | .clients source => source.message :: source.causes
  | .noEndpoint _ => []
  | .operation source => source.causes

/-- A text whose lines, all but the first, are moved to the right. -/
def indentRest (indent text : String) : String :=
  text.replace "\n" ("\n" ++ indent)

/-- A cause that is the only one. -/
def renderOnly (cause : String) : String :=
  "\n    " ++ indentRest "    " cause

/-- Causes with numbers before them. -/
def renderNumbered : Nat → List String → String
  | _, [] => ""
  | n, cause :: rest =>
    let number := toString n
    let blanks := String.ofList (List.replicate (5 - number.length) ' ')
    "\n" ++ blanks ++ number ++ ": " ++ indentRest "       " cause ++ renderNumbered (n + 1) rest

/-- The report of a failure. -/
def render (e : Failure) : String :=
  "Error: " ++ e.message
    ++ (match e.causes with
      | [] => ""
      | [cause] => "\n\nCaused by:" ++ renderOnly cause
      | causes => "\n\nCaused by:" ++ renderNumbered 0 causes)

end Failure

end Provisioner.Cli
