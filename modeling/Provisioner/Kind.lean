import Provisioner.Program

/-!
# Resource kinds

The kinds of resource that the pipeline knows, how they are spelled, which program
makes them and under which key their name is published.

* `Kind.provisionable` lists the kinds that can be made, in the order of the pipeline.
* `Kind.parse` reads a kind as a user writes it: blanks around it, any case of letters
  and a few other names are accepted.
* `Kind.ofName?` accepts the names of `Kind.name` alone.
-/

namespace Provisioner

/-- A kind of resource.  The workspace is only ever read. -/
inductive Kind
  | workspace
  | environment
  | model
  | endpoint
  | deployment
  | flow
deriving DecidableEq, Repr

namespace Kind

/-- The kinds that can be made, in pipeline order. -/
def provisionable : List Kind :=
  [.environment, .model, .endpoint, .deployment, .flow]

/-- The name of a kind. -/
def name : Kind → String
  | .workspace => "workspace"
  | .environment => "environment"
  | .model => "model"
  | .endpoint => "endpoint"
  | .deployment => "deployment"
  | .flow => "flow"

/-- The kind with exactly this name. -/
def ofName? : String → Option Kind
  | "workspace" => some .workspace
  | "environment" => some .environment
  | "model" => some .model
  | "endpoint" => some .endpoint
  | "deployment" => some .deployment
  | "flow" => some .flow
  | _ => none

/-- The kind that a user's text names; for any other text, the text as it was compared. -/
def parse (text : String) : Except String Kind :=
  let spelled := String.ofList ((Text.trimChars text.toList).map Char.toLower)
  match spelled with
  | "env" => .ok .environment
  | "online-endpoint" => .ok .endpoint
  | "online-deployment" => .ok .deployment
  | other =>
    match ofName? other with
    | some kind => .ok kind
    | none => .error other

/-- The wording for a text that names no kind. -/
def unknownMessage (spelled : String) : String :=
  "unknown resource kind: " ++ spelled

/-- The program that makes resources of this kind. -/
def program : Kind → Program
  | .flow => .promptFlowClient
  | _ => .mlClient

/-- The key under which the name of a made resource is published. -/
def publishKey? : Kind → Option String
  | .environment => some "AZUREML_ENVIRONMENT_NAME"
  | .model => some "AZUREML_MODEL_NAME"
  | .endpoint => some "AZUREML_ENDPOINT_NAME"
  | .deployment => some "AZUREML_DEPLOYMENT_NAME"
  | .flow => some "AZUREML_FLOW_NAME"
  | .workspace => none

/-- What a made resource publishes: its name, under the key of its kind. -/
def publication (k : Kind) (name : String) : List (String × String) :=
  (k.publishKey?.map (·, name)).toList

/-- The place of a kind in the pipeline. -/
def position? (k : Kind) : Option Nat :=
  provisionable.findIdx? (· == k)

/-- The keys under which names are published. -/
def publishKeys : List String :=
  provisionable.filterMap publishKey?

end Kind

end Provisioner
