import Provisioner.ControlPlane
import Provisioner.Kind
import Provisioner.Store.Failure

/-!
# Provisioning errors

Everything that can end a provisioning operation.  An error that belongs to a step
carries the kind and the resolved name of its resource.

* `ProvisionError.message` is the wording, and `ProvisionError.causes` lists the
  reasons behind it, the nearest first.
* `ProvisionError.output?` is what a failed program printed.
-/

namespace Provisioner

/-- Why an operation fails. -/
inductive ProvisionError
  | fileNotFound (kind : Kind) (path : String) (error : IoError)
  | template (what : String) (source : TemplateError)
  | controlPlane (kind : Kind) (name : String) (source : ControlPlane.Failure)
  | toolInvocation (kind : Kind) (name : String) (source : Program.Failure)
  | resultParse (kind : Kind) (name stdout : String) (fault : Json.Fault)
  | cancelled (kind : Kind) (name : String)
  | controlPlaneInit (source : ControlPlane.Failure)
  | toolInit (source : Program.Failure)
  | workspaceMismatch (expected actual : String)
  | store (source : Store.Failure)
deriving DecidableEq, Repr

namespace ProvisionError

/-- The error of an override that cannot be filled in. -/
def ofOverride (e : OverrideError) : ProvisionError :=
  .template ("override '" ++ e.key ++ "'") e.source

/-- The wording of an error in the output of a program; the output counts without the
blanks around it. -/
def parseMessage (stdout : String) (fault : Json.Fault) : String :=
  fault.message (Text.trim stdout)

/-- The wording of an error. -/
def message : ProvisionError → String
  | .fileNotFound kind path _ => kind.name ++ " definition file not found: " ++ path
  | .template what source => "failed parsing " ++ what ++ ": " ++ source.message
  | .controlPlane kind name source =>
    "control plane read failed for " ++ kind.name ++ " '" ++ name ++ "': " ++ source.message
  | .toolInvocation kind name source =>
    kind.name ++ " '" ++ name ++ "' tool invocation failed: " ++ source.message
  | .resultParse kind name stdout fault =>
    "failed to parse " ++ kind.name ++ " '" ++ name ++ "' tool result: "
      ++ parseMessage stdout fault
  | .cancelled kind name => kind.name ++ " '" ++ name ++ "' provisioning was cancelled"
  | .controlPlaneInit source =>
    "control plane client initialization failed: " ++ source.message
  | .toolInit source => "tool bridge initialization failed: " ++ source.message
  | .workspaceMismatch expected actual =>
    "workspace mismatch: expected '" ++ expected ++ "', control plane returned '" ++ actual ++ "'"
  | .store source => "environment store error: " ++ source.message

/-- The reasons behind an error, the nearest first. -/
def causes : ProvisionError → List String
  | .fileNotFound _ _ error => [error.message]
  | .template _ source => [source.message]
  | .controlPlane _ _ source => [source.message]
  | .toolInvocation _ _ source => source.message :: source.causes
  | .resultParse _ _ stdout fault => [parseMessage stdout fault]
  | .cancelled .. => []
  | .controlPlaneInit source => [source.message]
  | .toolInit source => source.message :: source.causes
  | .workspaceMismatch .. => []
  | .store source => source.message :: source.causes

/-- What the program printed, if the error is a failed run. -/
def output? : ProvisionError → Option Program.Output
  | .toolInvocation _ _ source => source.output?
  | _ => none

/-- Whether the operation was cancelled. -/
def isCancelled : ProvisionError → Bool
  | .cancelled .. => true
  | _ => false

end ProvisionError

end Provisioner
