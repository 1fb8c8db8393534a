import Provisioner.Resource
import Provisioner.Scope

/-!
# The control plane

The control plane knows what exists in a scope.  It is only ever read.

* `ControlPlane.Family` are the two kinds of resource that come in versions.
* `ControlPlane.Query` is a question about one resource, and `Query.Record` the type
  of the record that answers it.
* `ControlPlane.Failure` is why there is no answer.  Only `notFound` says something
  about the resource itself.
-/

namespace Provisioner.ControlPlane

/-- A kind of resource that comes in numbered versions. -/
inductive Family
  | environment
  | model
deriving DecidableEq, Repr

/-- The name of a family. -/
def Family.name : Family → String
  | .environment => "environment"
  | .model => "model"

/-- Why a question has no answer. -/
inductive Failure
  | notFound (what : String)
  | authentication (explanation : String)
  | api (status : Nat) (explanation : String)
  | transport (explanation : String)
  | decode (explanation : String)
deriving DecidableEq, Repr

namespace Failure

/-- The wording of a failure. -/
def message : Failure → String
  | .notFound what => "resource not found: " ++ what
  | .authentication explanation => "authentication failed: " ++ explanation
  | .api status explanation => "API error (" ++ toString status ++ "): " ++ explanation
  | .transport explanation => "transport error: " ++ explanation
  | .decode explanation => "unexpected response: " ++ explanation

/-- Whether the answer is that there is no such resource. -/
def isNotFound : Failure → Bool
  | .notFound _ => true
  | _ => false

end Failure

/-- A question about one resource of a scope. -/
inductive Query
  | workspace
  | container (family : Family) (name : String)
  | environmentVersion (name version : String)
  | modelVersion (name version : String)
  | endpoint (name : String)
  | deployment (endpoint name : String)
deriving DecidableEq, Repr

/-- The type of the record that answers a question. -/
def Query.Record : Query → Type
  | .workspace => Workspace
  | .container .. => Container
  | .environmentVersion .. => EnvironmentVersion
  | .modelVersion .. => ModelVersion
  | .endpoint _ => Endpoint
  | .deployment .. => Deployment

/-- What a question names, the outermost first. -/
def Query.details (scope : Scope) : Query → List String
  | .workspace => [scope.workspace]
  | .container family name => [family.name, name]
  | .environmentVersion name version => [name, version]
  | .modelVersion name version => [name, version]
  | .endpoint name => [name]
  | .deployment parent name => [parent, name]

/-- Reads the JSON form of a record. -/
def Query.decode : (q : Query) → Json.Tree → Except Json.Fault q.Record
  | .workspace => Workspace.decode
  | .container .. => Container.decode
  | .environmentVersion .. => EnvironmentVersion.decode
  | .modelVersion .. => ModelVersion.decode
  | .endpoint _ => Endpoint.decode
  | .deployment .. => Deployment.decode

/-- The JSON form of a record. -/
def Query.encode : (q : Query) → q.Record → Json
  | .workspace => Workspace.encode
  | .container .. => Container.encode
  | .environmentVersion .. => EnvironmentVersion.encode
  | .modelVersion .. => ModelVersion.encode
  | .endpoint _ => Endpoint.encode
  | .deployment .. => Deployment.encode

/-- An answer to a question. -/
abbrev Answer (q : Query) := Except Failure q.Record

end Provisioner.ControlPlane
