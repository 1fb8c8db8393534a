import Provisioner.Step.Prepared

/-!
# Making a flow

The prompt flow program itself is asked whether a flow is there, with `show`.  If the
run fails the flow is made, and if it succeeds the flow is updated; if the program
cannot be run at all nothing is known, and the step fails.  The record of the flow is
what the program prints.
-/

namespace Provisioner.Flow

variable {σ κ δ : Type} [Disk δ]

/-- What is done to a flow. -/
inductive Verb
  | create
  | update
deriving DecidableEq, Repr

/-- The word for it. -/
def Verb.name : Verb → String
  | .create => "create"
  | .update => "update"

/-- What is to be done, from how the run of `show` ended. -/
def verbOf : Except Program.Failure Program.Output → Except Program.Failure Verb
  | .ok _ => .ok .update
  | .error e => if e.isFailedRun then .ok .create else .error e

/-- A name with the time appended, in seconds, so that repeated runs do not clash. -/
def uniqueName (name : String) (now : Int) : String :=
  name ++ "-" ++ toString now

/-- The inputs of the step. -/
def prepare (store : Store) (disk : δ) (service : String) (c : Component) (now : Int) :
    Except ProvisionError Prepared := do
  let p ← Prepared.nameFirst store disk .flow service c
  return { p with name := uniqueName p.name now }

/-- The arguments that show a flow. -/
def showArguments (scope : Scope) (name : String) : Arguments :=
  ["show", "-s", scope.subscription, "-w", scope.workspace, "-g", scope.resourceGroup,
    "-n", name]

/-- The arguments that make or update a flow; only a new one is given its directory. -/
def arguments (verb : Verb) (scope : Scope) (p : Prepared) : Arguments :=
  [verb.name, "-n", p.name]
    ++ (match verb with
      | .create => ["-f", p.definition]
      | .update => [])
    ++ ["-s", scope.subscription, "-w", scope.workspace, "-g", scope.resourceGroup]
    ++ p.overrides

/-- What the step publishes. -/
def publication (p : Prepared) : List (String × String) :=
  Kind.flow.publication p.name

/-- The record in what the program printed. -/
def ofOutput (name : String) (output : Program.Output) : Except ProvisionError Flow :=
  (Json.decodeText decode (Text.trim output.stdout)).mapError
    (.resultParse .flow name output.stdout)

/-- Makes the flow, or updates it. -/
def provision (cx : Context σ κ) (p : Prepared) : Op σ κ δ Flow := do
  let verb ← cx.attempt .flow p.name (showArguments cx.scope p.name) verbOf
  let output ← cx.invoke .flow p.name (arguments verb cx.scope p)
  let record ← Op.orFail id (ofOutput p.name output)
  Op.publish (publication p)
  return record

end Provisioner.Flow
