import Provisioner.Azure.Credential
import Provisioner.ControlPlane
import Provisioner.Url

/-!
# The resource manager

The control plane of Azure is read over HTTP.  Every resource has a URL below that of
its workspace, and answers come with a status: one of them says that there is no such
resource, some others that the token is not accepted, and only with success comes a
record.

* `ResourceManager.resourceUrl?` is the URL of a resource.
* `ResourceManager.judge` reads a response.
* `ResourceManager.read` asks about a resource.
-/

namespace Provisioner.Azure

open ControlPlane (Family Query Answer)

variable {σ : Type}

/-- The resource manager at an address. -/
structure ResourceManager where
  base : String
deriving DecidableEq, Repr

namespace ResourceManager

/-- The public resource manager. -/
def publicBase : String := "https://management.azure.com"

/-- The version of the interface that is spoken. -/
def apiVersion : String := "2024-04-01"

/-- The provider of machine learning resources. -/
def provider : String := "Microsoft.MachineLearningServices"

/-- The resource manager at an address; slashes at its end do not count. -/
def ofAddress (address : String) : ResourceManager :=
  ⟨String.ofList (address.toList.reverse.dropWhile (· == '/')).reverse⟩

/-- The segments that lead to the workspace of a scope. -/
def workspaceSegments (scope : Scope) : List String :=
  ["subscriptions", scope.subscription, "resourceGroups", scope.resourceGroup, "providers",
    provider, "workspaces", scope.workspace]

/-- The URL of a resource: that of its workspace, and further segments. -/
def resourceUrl? (r : ResourceManager) (scope : Scope) (segments : List String) : Option Url :=
  (Url.parse? r.base).map fun u => u.dropEmptyEnd.extend (workspaceSegments scope ++ segments)

/-- The URL of a resource, or the failure of an address that is no URL. -/
def resourceUrl (r : ResourceManager) (scope : Scope) (segments : List String) :
    Except ControlPlane.Failure Url :=
  match r.resourceUrl? scope segments with
  | some u => .ok u
  | none => .error (.transport ("invalid ARM endpoint '" ++ r.base ++ "'"))

/-- The collection of a family. -/
def collection : Family → String
  | .environment => "environments"
  | .model => "models"

/-- The segments that lead from a workspace to a resource. -/
def segments : Query → List String
  | .workspace => []
  | .container family name => [collection family, name]
  | .environmentVersion name version => ["environments", name, "versions", version]
  | .modelVersion name version => ["models", name, "versions", version]
  | .endpoint name => ["onlineEndpoints", name]
  | .deployment endpoint name => ["onlineEndpoints", endpoint, "deployments", name]

/-- What a resource is called in failures. -/
def describe (scope : Scope) : Query → String
  | .workspace => "workspace " ++ scope.workspace
  | .container family name => family.name ++ " " ++ name
  | .environmentVersion name version => "environment " ++ name ++ ":" ++ version
  | .modelVersion name version => "model " ++ name ++ ":" ++ version
  | .endpoint name => "online endpoint " ++ name
  | .deployment endpoint name => "online deployment " ++ endpoint ++ "/" ++ name

/-- The fields of the part of an error body that explains the error. -/
def detailShape : Json.Shape String where
  title := "struct ErrorDetail"
  initial := ""
  fields := [
    ⟨"code", false, fun t r => do discard (Json.readText "a string" t); return r⟩,
    ⟨"message", true, fun t _ => Json.readText "a string" t⟩]

/-- The fields of an error body. -/
def errorShape : Json.Shape String where
  title := "struct ErrorResponse"
  initial := ""
  fields := [⟨"error", true, fun t _ => detailShape.read t⟩]

/-- The explanation in an error body, or else the body itself without blanks around it. -/
def explanation (body : String) : String :=
  match Json.decodeText errorShape.read body with
  | .ok message => message
  | .error _ => Text.trim body

/-- The failure of a response whose status is no success. -/
def refusal (status : Nat) (body : String) : ControlPlane.Failure :=
  if status = 401 ∨ status = 403 then .authentication (explanation body)
  else .api status (explanation body)

/-- Whether a status is a success. -/
def isSuccess (status : Nat) : Bool :=
  200 ≤ status && status < 300

/-- Reads a response.  That there is no such resource is known from the status alone. -/
def judge (scope : Scope) (q : Query) : Except String Machine.Response → Answer q
  | .error explanation => .error (.transport explanation)
  | .ok response =>
    if response.status = 404 then .error (.notFound (describe scope q))
    else
      match response.body with
      | .error explanation => .error (.transport explanation)
      | .ok body =>
        if isSuccess response.status then
          (Json.decodeText q.decode body).mapError fun fault =>
            .decode (describe scope q ++ ": " ++ fault.message body)
        else .error (refusal response.status body)

/-- The URL with one more field in its query. -/
def withField (u : Url) (name value : String) : Url :=
  let field := name ++ "=" ++ value
  match u.query? with
  | none => { u with query? := some field }
  | some query => { u with query? := some (if query.isEmpty then field else query ++ "&" ++ field) }

/-- Asks about a resource: the URL comes first, then the token, and then the request. -/
def read (m : Machine σ) (r : ResourceManager) (scope : Scope) (q : Query)
    (credential : Credential) (s : σ) : Asked (Answer q) × Credential × σ :=
  match r.resourceUrl scope (segments q) with
  | .error e => (.answer (.error e), credential, s)
  | .ok u =>
    let (asked, credential, s) := credential.token m s
    match asked with
    | .dropped => (.dropped, credential, s)
    | .panicked => (.panicked, credential, s)
    | .answer (.error e) => (.answer (.error (.authentication e.message)), credential, s)
    | .answer (.ok token) =>
      let url := (withField u "api-version" apiVersion).render
      let (response?, s) := m.request ⟨url, token⟩ s
      (.ofOption (response?.map (judge scope q)), credential, s)

end ResourceManager

end Provisioner.Azure
