import Provisioner.Cli.Job
import Provisioner.Orchestrator

/-!
# Looking at what is there

The commands that show an endpoint and that check the workspace.
-/

namespace Provisioner.Cli

variable {σ κ δ : Type}

/-- Prints a value, or a dash. -/
def printValue (title : String) (value? : Option String) : Job σ κ δ Unit :=
  Job.print ("   " ++ title ++ value?.getD "-")

/-- Prints how the traffic of an endpoint is divided. -/
def printTraffic (st : Setting) (traffic : KeyMap Nat) : Job σ κ δ Unit := do
  if traffic.isEmpty then Job.print ("   Traffic:     " ++ st.paint .dimmed "none")
  else
    Job.print "   Traffic:"
    for (deployment, share) in traffic.entries do
      Job.print ("     " ++ deployment ++ " " ++ toString share ++ "%")

/-- Shows an endpoint. -/
def showEndpoint (w : World σ κ) (st : Setting) (scope : Scope) (name : String) :
    Job σ κ δ Unit := do
  let record ← Job.perform st (Op.getEndpoint w scope name)
  Job.print ("🔎 Endpoint: " ++ st.paint .cyan (record.nameOr name))
  printValue "State:       " record.properties.provisioningState
  printValue "Auth mode:   " record.properties.authMode
  printValue "Scoring URI: " record.properties.scoringUri
  printTraffic st (record.properties.traffic.getD .empty)

/-- Checks that the workspace of a scope can be reached. -/
def checkWorkspace (w : World σ κ) (st : Setting) (scope : Scope) : Job σ κ δ Unit := do
  Job.print ("🔍 Checking workspace: " ++ st.paint .dimmed scope.display)
  let record ← Job.perform st (Op.ensureWorkspace w scope)
  if let some name := record.properties.friendlyName then
    Job.print ("   Friendly name: " ++ name)
  if let some state := record.properties.provisioningState then
    Job.print ("   State: " ++ state)
  Job.print (st.paint .boldGreen ("✓ Workspace " ++ scope.workspace ++ " is reachable"))

end Provisioner.Cli
