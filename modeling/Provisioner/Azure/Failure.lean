import Provisioner.ControlPlane
import Provisioner.Disk
import Provisioner.Json.Fault

/-!
# Failures of the Azure services

What can go wrong before the control plane answers: with the Azure command line that
hands out tokens, and with the configuration.
-/

namespace Provisioner.Azure

/-- Why there is no token, or no configuration. -/
inductive Failure
  | commandLineMissing
  | commandFailed (explanation : String)
  | missingVariable (name : String)
  | invalidConfiguration (explanation : String)
  | json (explanation : String)
  | io (error : IoError)
deriving DecidableEq, Repr

namespace Failure

/-- The wording of a failure. -/
def message : Failure → String
  | .commandLineMissing => "Azure CLI not found. Please install: https://aka.ms/azure-cli"
  | .commandFailed explanation => "az command failed: " ++ explanation
  | .missingVariable name => "missing environment variable: " ++ name
  | .invalidConfiguration explanation => "invalid configuration: " ++ explanation
  | .json explanation => "JSON parse error: " ++ explanation
  | .io error => "IO error: " ++ error.message

/-- The reasons behind a failure. -/
def causes : Failure → List String
  | .json explanation => [explanation]
  | .io error => [error.message]
  | _ => []

/-- A failure as one of the control plane. -/
def toControlPlane (e : Failure) : ControlPlane.Failure :=
  match e with
  | .commandLineMissing => .authentication e.message
  | .commandFailed _ => .authentication e.message
  | .missingVariable _ => .authentication e.message
  | .invalidConfiguration _ => .transport e.message
  | .io _ => .transport e.message
  | .json _ => .decode e.message

end Failure

end Provisioner.Azure
