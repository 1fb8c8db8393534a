import Provisioner.Json.Shape

/-!
# Resource records

What the control plane and the prompt flow program say about a resource.  A
`Resource` is the common envelope; its properties differ from kind to kind.  The
properties and the `Flow` record keep every member that they do not name, in `extra`.

For each record there are its fields in JSON, a reader and a writer.  Unset
properties are written as null, unset parts of the envelope are left out.
-/

namespace Provisioner

/-- The envelope of a resource around its properties. -/
structure Resource (P : Type) where
  id? : Option String
  name? : Option String
  type? : Option String
  properties : P

namespace Resource

variable {P : Type}

/-- A resource with a name and properties alone. -/
def named (name : String) (properties : P) : Resource P :=
  ⟨none, some name, none, properties⟩

/-- The name of the resource, or `fallback` if it has none. -/
def nameOr (r : Resource P) (fallback : String) : String :=
  r.name?.getD fallback

/-- Reads a text or null. -/
def text? : Json.Tree → Except Json.Fault (Option String) :=
  Json.readOptional (Json.readText "a string")

/-- The fields of an envelope in JSON; only the properties are required. -/
def shape (initial : P) (decode : Json.Tree → Except Json.Fault P) :
    Json.Shape (Resource P) where
  title := "struct ArmResource"
  initial := ⟨none, none, none, initial⟩
  fields := [
    ⟨"id", false, fun t r => do return { r with id? := ← text? t }⟩,
    ⟨"name", false, fun t r => do return { r with name? := ← text? t }⟩,
    ⟨"type", false, fun t r => do return { r with type? := ← text? t }⟩,
    ⟨"properties", true, fun t r => do return { r with properties := ← decode t }⟩]

/-- A member for a value that is set. -/
def member (name : String) : Option String → List (String × Json)
  | some value => [(name, .str value)]
  | none => []

/-- The JSON form of a resource. -/
def encode (encodeProperties : P → Json) (r : Resource P) : Json :=
  .obj (member "id" r.id? ++ member "name" r.name? ++ member "type" r.type?
    ++ [("properties", encodeProperties r.properties)])

end Resource

/-! ## Containers -/

/-- What is known of all versions of an environment or a model. -/
structure ContainerProperties where
  nextVersion : Option String
  latestVersion : Option String
  description : Option String
  extra : KeyMap Json

namespace ContainerProperties

/-- No property set. -/
def blank : ContainerProperties := ⟨none, none, none, .empty⟩

/-- The fields of a container's properties in JSON. -/
def shape : Json.Shape ContainerProperties where
  title := "struct ContainerProperties"
  initial := blank
  fields := [
    ⟨"nextVersion", false, fun t r => do return { r with nextVersion := ← Resource.text? t }⟩,
    ⟨"latestVersion", false, fun t r => do
      return { r with latestVersion := ← Resource.text? t }⟩,
    ⟨"description", false, fun t r => do return { r with description := ← Resource.text? t }⟩]

/-- Reads a container's properties. -/
def decode (t : Json.Tree) : Except Json.Fault ContainerProperties :=
  shape.readOpen (fun k v r => { r with extra := r.extra.insert k v }) t

/-- The JSON form of a container's properties. -/
def encode (p : ContainerProperties) : Json :=
  .obj ([("nextVersion", .optional p.nextVersion), ("latestVersion", .optional p.latestVersion),
    ("description", .optional p.description)] ++ p.extra.entries)

end ContainerProperties

/-- The record of all versions of an environment or a model. -/
abbrev Container := Resource ContainerProperties

/-- Reads a container. -/
def Container.decode (t : Json.Tree) : Except Json.Fault Container :=
  (Resource.shape ContainerProperties.blank ContainerProperties.decode).read t

/-- The JSON form of a container. -/
def Container.encode (r : Container) : Json :=
  Resource.encode ContainerProperties.encode r

/-! ## Environment versions -/

/-- What is known of one version of an environment. -/
structure EnvironmentVersionProperties where
  image : Option String
  description : Option String
  provisioningState : Option String
  extra : KeyMap Json

namespace EnvironmentVersionProperties

/-- No property set. -/
def blank : EnvironmentVersionProperties := ⟨none, none, none, .empty⟩

/-- The fields of an environment version's properties in JSON. -/
def shape : Json.Shape EnvironmentVersionProperties where
  title := "struct EnvironmentVersionProperties"
  initial := blank
  fields := [
    ⟨"image", false, fun t r => do return { r with image := ← Resource.text? t }⟩,
    ⟨"description", false, fun t r => do return { r with description := ← Resource.text? t }⟩,
    ⟨"provisioningState", false, fun t r => do
      return { r with provisioningState := ← Resource.text? t }⟩]

/-- Reads an environment version's properties. -/
def decode (t : Json.Tree) : Except Json.Fault EnvironmentVersionProperties :=
  shape.readOpen (fun k v r => { r with extra := r.extra.insert k v }) t

/-- The JSON form of an environment version's properties. -/
def encode (p : EnvironmentVersionProperties) : Json :=
  .obj ([("image", .optional p.image), ("description", .optional p.description),
    ("provisioningState", .optional p.provisioningState)] ++ p.extra.entries)

end EnvironmentVersionProperties

/-- The record of one version of an environment. -/
abbrev EnvironmentVersion := Resource EnvironmentVersionProperties

/-- Reads an environment version. -/
def EnvironmentVersion.decode (t : Json.Tree) : Except Json.Fault EnvironmentVersion :=
  (Resource.shape EnvironmentVersionProperties.blank EnvironmentVersionProperties.decode).read t

/-- The JSON form of an environment version. -/
def EnvironmentVersion.encode (r : EnvironmentVersion) : Json :=
  Resource.encode EnvironmentVersionProperties.encode r

/-! ## Model versions -/

/-- What is known of one version of a model. -/
structure ModelVersionProperties where
  modelUri : Option String
  modelType : Option String
  description : Option String
  provisioningState : Option String
  extra : KeyMap Json

namespace ModelVersionProperties

/-- No property set. -/
def blank : ModelVersionProperties := ⟨none, none, none, none, .empty⟩

/-- The fields of a model version's properties in JSON. -/
def shape : Json.Shape ModelVersionProperties where
  title := "struct ModelVersionProperties"
  initial := blank
  fields := [
    ⟨"modelUri", false, fun t r => do return { r with modelUri := ← Resource.text? t }⟩,
    ⟨"modelType", false, fun t r => do return { r with modelType := ← Resource.text? t }⟩,
    ⟨"description", false, fun t r => do return { r with description := ← Resource.text? t }⟩,
    ⟨"provisioningState", false, fun t r => do
      return { r with provisioningState := ← Resource.text? t }⟩]

/-- Reads a model version's properties. -/
def decode (t : Json.Tree) : Except Json.Fault ModelVersionProperties :=
  shape.readOpen (fun k v r => { r with extra := r.extra.insert k v }) t

/-- The JSON form of a model version's properties. -/
def encode (p : ModelVersionProperties) : Json :=
  .obj ([("modelUri", .optional p.modelUri), ("modelType", .optional p.modelType),
    ("description", .optional p.description),
    ("provisioningState", .optional p.provisioningState)] ++ p.extra.entries)

end ModelVersionProperties

/-- The record of one version of a model. -/
abbrev ModelVersion := Resource ModelVersionProperties

/-- Reads a model version. -/
def ModelVersion.decode (t : Json.Tree) : Except Json.Fault ModelVersion :=
  (Resource.shape ModelVersionProperties.blank ModelVersionProperties.decode).read t

/-- The JSON form of a model version. -/
def ModelVersion.encode (r : ModelVersion) : Json :=
  Resource.encode ModelVersionProperties.encode r

/-! ## Online endpoints -/

/-- What is known of an online endpoint; the traffic is in percent, by deployment. -/
structure EndpointProperties where
  authMode : Option String
  scoringUri : Option String
  swaggerUri : Option String
  provisioningState : Option String
  traffic : Option (KeyMap Nat)
  extra : KeyMap Json

namespace EndpointProperties

/-- No property set. -/
def blank : EndpointProperties := ⟨none, none, none, none, none, .empty⟩

/-- The fields of an endpoint's properties in JSON. -/
def shape : Json.Shape EndpointProperties where
  title := "struct OnlineEndpointProperties"
  initial := blank
  fields := [
    ⟨"authMode", false, fun t r => do return { r with authMode := ← Resource.text? t }⟩,
    ⟨"scoringUri", false, fun t r => do return { r with scoringUri := ← Resource.text? t }⟩,
    ⟨"swaggerUri", false, fun t r => do return { r with swaggerUri := ← Resource.text? t }⟩,
    ⟨"provisioningState", false, fun t r => do
      return { r with provisioningState := ← Resource.text? t }⟩,
    ⟨"traffic", false, fun t r => do
      return { r with traffic := ← Json.readOptional (Json.readMap Json.readUInt32) t }⟩]

/-- Reads an endpoint's properties. -/
def decode (t : Json.Tree) : Except Json.Fault EndpointProperties :=
  shape.readOpen (fun k v r => { r with extra := r.extra.insert k v }) t

/-- Traffic as an object of integers, or null. -/
def encodeTraffic : Option (KeyMap Nat) → Json
  | none => .null
  | some m => .obj (m.entries.map (fun e => (e.1, .int e.2)))

/-- The JSON form of an endpoint's properties. -/
def encode (p : EndpointProperties) : Json :=
  .obj ([("authMode", .optional p.authMode), ("scoringUri", .optional p.scoringUri),
    ("swaggerUri", .optional p.swaggerUri),
    ("provisioningState", .optional p.provisioningState),
    ("traffic", encodeTraffic p.traffic)] ++ p.extra.entries)

end EndpointProperties

/-- The record of an online endpoint. -/
abbrev Endpoint := Resource EndpointProperties

/-- Reads an endpoint. -/
def Endpoint.decode (t : Json.Tree) : Except Json.Fault Endpoint :=
  (Resource.shape EndpointProperties.blank EndpointProperties.decode).read t

/-- The JSON form of an endpoint. -/
def Endpoint.encode (r : Endpoint) : Json :=
  Resource.encode EndpointProperties.encode r

/-! ## Online deployments -/

/-- What is known of an online deployment. -/
structure DeploymentProperties where
  model : Option String
  environmentId : Option String
  instanceType : Option String
  endpointComputeType : Option String
  provisioningState : Option String
  extra : KeyMap Json

namespace DeploymentProperties

/-- No property set. -/
def blank : DeploymentProperties := ⟨none, none, none, none, none, .empty⟩

/-- The fields of a deployment's properties in JSON. -/
def shape : Json.Shape DeploymentProperties where
  title := "struct OnlineDeploymentProperties"
  initial := blank
  fields := [
    ⟨"model", false, fun t r => do return { r with model := ← Resource.text? t }⟩,
    ⟨"environmentId", false, fun t r => do
      return { r with environmentId := ← Resource.text? t }⟩,
    ⟨"instanceType", false, fun t r => do return { r with instanceType := ← Resource.text? t }⟩,
    ⟨"endpointComputeType", false, fun t r => do
      return { r with endpointComputeType := ← Resource.text? t }⟩,
    ⟨"provisioningState", false, fun t r => do
      return { r with provisioningState := ← Resource.text? t }⟩]

/-- Reads a deployment's properties. -/
def decode (t : Json.Tree) : Except Json.Fault DeploymentProperties :=
  shape.readOpen (fun k v r => { r with extra := r.extra.insert k v }) t

/-- The JSON form of a deployment's properties. -/
def encode (p : DeploymentProperties) : Json :=
  .obj ([("model", .optional p.model), ("environmentId", .optional p.environmentId),
    ("instanceType", .optional p.instanceType),
    ("endpointComputeType", .optional p.endpointComputeType),
    ("provisioningState", .optional p.provisioningState)] ++ p.extra.entries)

end DeploymentProperties

/-- The record of an online deployment. -/
abbrev Deployment := Resource DeploymentProperties

/-- Reads a deployment. -/
def Deployment.decode (t : Json.Tree) : Except Json.Fault Deployment :=
  (Resource.shape DeploymentProperties.blank DeploymentProperties.decode).read t

/-- The JSON form of a deployment. -/
def Deployment.encode (r : Deployment) : Json :=
  Resource.encode DeploymentProperties.encode r

/-! ## Workspaces -/

/-- What is known of a workspace. -/
structure WorkspaceProperties where
  friendlyName : Option String
  discoveryUrl : Option String
  provisioningState : Option String
  extra : KeyMap Json

namespace WorkspaceProperties

/-- No property set. -/
def blank : WorkspaceProperties := ⟨none, none, none, .empty⟩

/-- The fields of a workspace's properties in JSON. -/
def shape : Json.Shape WorkspaceProperties where
  title := "struct WorkspaceProperties"
  initial := blank
  fields := [
    ⟨"friendlyName", false, fun t r => do return { r with friendlyName := ← Resource.text? t }⟩,
    ⟨"discoveryUrl", false, fun t r => do return { r with discoveryUrl := ← Resource.text? t }⟩,
    ⟨"provisioningState", false, fun t r => do
      return { r with provisioningState := ← Resource.text? t }⟩]

/-- Reads a workspace's properties. -/
def decode (t : Json.Tree) : Except Json.Fault WorkspaceProperties :=
  shape.readOpen (fun k v r => { r with extra := r.extra.insert k v }) t

/-- The JSON form of a workspace's properties. -/
def encode (p : WorkspaceProperties) : Json :=
  .obj ([("friendlyName", .optional p.friendlyName), ("discoveryUrl", .optional p.discoveryUrl),
    ("provisioningState", .optional p.provisioningState)] ++ p.extra.entries)

end WorkspaceProperties

/-- The record of a workspace. -/
abbrev Workspace := Resource WorkspaceProperties

/-- Reads a workspace. -/
def Workspace.decode (t : Json.Tree) : Except Json.Fault Workspace :=
  (Resource.shape WorkspaceProperties.blank WorkspaceProperties.decode).read t

/-- The JSON form of a workspace. -/
def Workspace.encode (r : Workspace) : Json :=
  Resource.encode WorkspaceProperties.encode r

/-! ## Prompt flows -/

/-- The record of a prompt flow, as its program prints it. -/
structure Flow where
  name : Option String
  displayName : Option String
  type : Option String
  path : Option String
  code : Option String
  description : Option String
  tags : Option (KeyMap String)
  createdDate : Option String
  portalUrl : Option String
  extra : KeyMap Json

namespace Flow

/-- A flow of which nothing is known. -/
def blank : Flow := ⟨none, none, none, none, none, none, none, none, none, .empty⟩

/-- The fields of a flow in JSON. -/
def shape : Json.Shape Flow where
  title := "struct Flow"
  initial := blank
  fields := [
    ⟨"name", false, fun t r => do return { r with name := ← Resource.text? t }⟩,
    ⟨"display_name", false, fun t r => do return { r with displayName := ← Resource.text? t }⟩,
    ⟨"type", false, fun t r => do return { r with type := ← Resource.text? t }⟩,
    ⟨"path", false, fun t r => do return { r with path := ← Resource.text? t }⟩,
    ⟨"code", false, fun t r => do return { r with code := ← Resource.text? t }⟩,
    ⟨"description", false, fun t r => do return { r with description := ← Resource.text? t }⟩,
    ⟨"tags", false, fun t r => do
      return { r with tags := ← Json.readOptional (Json.readMap (Json.readText "a string")) t }⟩,
    ⟨"created_date", false, fun t r => do return { r with createdDate := ← Resource.text? t }⟩,
    ⟨"flow_portal_url", false, fun t r => do
      return { r with portalUrl := ← Resource.text? t }⟩]

/-- Reads a flow. -/
def decode (t : Json.Tree) : Except Json.Fault Flow :=
  shape.readOpen (fun k v r => { r with extra := r.extra.insert k v }) t

/-- Tags as an object of texts, or null. -/
def encodeTags : Option (KeyMap String) → Json
  | none => .null
  | some m => .obj (m.entries.map (fun e => (e.1, .str e.2)))

/-- The JSON form of a flow. -/
def encode (f : Flow) : Json :=
  .obj ([("name", .optional f.name), ("display_name", .optional f.displayName),
    ("type", .optional f.type), ("path", .optional f.path), ("code", .optional f.code),
    ("description", .optional f.description), ("tags", encodeTags f.tags),
    ("created_date", .optional f.createdDate), ("flow_portal_url", .optional f.portalUrl)]
    ++ f.extra.entries)

end Flow

end Provisioner
