import Provisioner.Component
import Provisioner.Disk
import Provisioner.Kind
import Provisioner.Yaml.Shape

/-!
# Project files

A project file names the services of a project, where the directory of each lies, and
which resources it needs.

* `Resources` lists the components of a service by kind; `Resources.kinds` are those it
  has, in pipeline order, and `Resources.deploymentSpec` joins what a deployment binds.
* `Service`, `ProjectFile` and `Project` are the parts around it.
* `ProjectFile.ofText` reads a project file, and `encode` and `decode` are the JSON forms.
-/

namespace Provisioner

/-- Why a project cannot be used. -/
inductive ProjectError
  | fileNotFound
  | parse (path : String) (fault : Yaml.Fault)
  | unknownService (name : String)
  | incompleteDeployment (service missing : String)
  | io (error : IoError)
deriving DecidableEq, Repr

namespace ProjectError

/-- The wording of an error. -/
def message : ProjectError → String
  | .fileNotFound =>
    "project file not found. Looked in:\n"
      ++ "- current directory: fleetml.local.yaml, .fleetml.local.yaml, fleetml.yaml, "
      ++ ".fleetml.yaml\n"
      ++ "- ./.fleetml/ directory\n"
      ++ "- ~/.config/fleetml/fleetml.yaml\n"
      ++ "Set FLEETML_CONFIG_PATH to point at a file directly"
  | .parse path fault => "failed to parse " ++ path ++ ": " ++ fault.message
  | .unknownService name => "service '" ++ name ++ "' is not defined in the project file"
  | .incompleteDeployment service missing =>
    "service '" ++ service ++ "' has an incomplete deployment: missing " ++ missing
  | .io error => "IO error: " ++ error.message

/-- The reasons behind an error. -/
def causes : ProjectError → List String
  | .parse _ fault => [fault.message]
  | .io error => [error.message]
  | _ => []

end ProjectError

/-! ## Resources of a service -/

/-- What a service needs.  Every component may be missing. -/
structure Resources where
  workspace? : Option Template
  environment? : Option Component
  model? : Option Component
  endpoint? : Option Component
  deployment? : Option Component
  flow? : Option Component
deriving DecidableEq, Repr

namespace Resources

/-- Nothing at all. -/
def none : Resources := ⟨.none, .none, .none, .none, .none, .none⟩

instance : Inhabited Resources := ⟨none⟩

/-- The component of a kind. -/
def component? (r : Resources) : Kind → Option Component
  | .workspace => .none
  | .environment => r.environment?
  | .model => r.model?
  | .endpoint => r.endpoint?
  | .deployment => r.deployment?
  | .flow => r.flow?

/-- The kinds that the service has a component for, in pipeline order. -/
def kinds (r : Resources) : List Kind :=
  Kind.provisionable.filter (fun k => (r.component? k).isSome)

/-- What the service's deployment binds, if it has one; an environment and a model have to
be there. -/
def deploymentSpec (r : Resources) (service : String) :
    Except ProjectError (Option DeploymentSpec) :=
  match r.deployment?, r.environment?, r.model? with
  | .none, _, _ => .ok .none
  | some _, .none, _ => .error (.incompleteDeployment service "environment")
  | some _, some _, .none => .error (.incompleteDeployment service "model")
  | some deployment, some environment, some model =>
    .ok (some ⟨r.workspace?, environment, model, deployment⟩)

/-- The resources with all overrides in the order of a process, which differs from component
to component. -/
def inOrder (order : Kind → Overrides.Order) (r : Resources) : Resources where
  workspace? := r.workspace?
  environment? := r.environment?.map (·.inOrder (order .environment))
  model? := r.model?.map (·.inOrder (order .model))
  endpoint? := r.endpoint?.map (·.inOrder (order .endpoint))
  deployment? := r.deployment?.map (·.inOrder (order .deployment))
  flow? := r.flow?.map (·.inOrder (order .flow))

/-- The fields of resources in JSON. -/
def shape : Json.Shape Resources where
  title := "struct MlServiceConfig"
  initial := none
  fields := [
    ⟨"workspace", false, fun t r => do
      return { r with workspace? := ← Json.readOptional Component.decodeTemplate t }⟩,
    ⟨"environment", false, fun t r => do
      return { r with environment? := ← Json.readOptional Component.decode t }⟩,
    ⟨"model", false, fun t r => do
      return { r with model? := ← Json.readOptional Component.decode t }⟩,
    ⟨"endpoint", false, fun t r => do
      return { r with endpoint? := ← Json.readOptional Component.decode t }⟩,
    ⟨"deployment", false, fun t r => do
      return { r with deployment? := ← Json.readOptional Component.decode t }⟩,
    ⟨"flow", false, fun t r => do
      return { r with flow? := ← Json.readOptional Component.decode t }⟩]

/-- Reads the JSON form of resources. -/
def decode (t : Json.Tree) : Except Json.Fault Resources := shape.read t

/-- A member for a component that is there. -/
def member (name : String) : Option Component → List (String × Json)
  | some c => [(name, c.encode)]
  | .none => []

/-- The JSON form of resources; what is missing is left out. -/
def encode (r : Resources) : Json :=
  .obj ((match r.workspace? with
      | some w => [("workspace", .str w.text)]
      | .none => [])
    ++ member "environment" r.environment? ++ member "model" r.model?
    ++ member "endpoint" r.endpoint? ++ member "deployment" r.deployment?
    ++ member "flow" r.flow?)

end Resources

/-! ## Services and projects -/

/-- A service: its directory, seen from that of the project, and what it needs. -/
structure Service where
  directory : String
  resources : Resources
deriving DecidableEq, Repr

namespace Service

/-- A service that nothing is said about lies in the directory of the project. -/
def blank : Service := ⟨".", .none⟩

instance : Inhabited Service := ⟨blank⟩

/-- The service with all overrides in the order of a process. -/
def inOrder (order : Kind → Overrides.Order) (s : Service) : Service :=
  { s with resources := s.resources.inOrder order }

/-- The fields of a service in JSON. -/
def shape : Json.Shape Service where
  title := "struct ServiceConfig"
  initial := blank
  fields := [
    ⟨"project", false, fun t r => do
      return { r with directory := ← Json.readText "path string" t }⟩,
    ⟨"config", false, fun t r => do return { r with resources := ← Resources.decode t }⟩]

/-- Reads the JSON form of a service. -/
def decode (t : Json.Tree) : Except Json.Fault Service := shape.read t

/-- The JSON form of a service. -/
def encode (s : Service) : Json :=
  .obj [("project", .str s.directory), ("config", s.resources.encode)]

end Service

/-- The content of a project file. -/
structure ProjectFile where
  name : String
  services : KeyMap Service
deriving DecidableEq, Repr

namespace ProjectFile

/-- The file in which nothing is said. -/
def blank : ProjectFile := ⟨"", KeyMap.empty⟩

instance : Inhabited ProjectFile := ⟨blank⟩

/-- The fields of a project file in JSON. -/
def shape : Json.Shape ProjectFile where
  title := "struct ProjectConfig"
  initial := blank
  fields := [
    ⟨"name", false, fun t r => do return { r with name := ← Json.readText "a string" t }⟩,
    ⟨"services", false, fun t r => do
      return { r with services := ← Json.readMap Service.decode t }⟩]

/-- Reads the JSON form of a project file. -/
def decode (t : Json.Tree) : Except Json.Fault ProjectFile := shape.read t

/-- The JSON form of a project file. -/
def encode (p : ProjectFile) : Json :=
  .obj [("name", .str p.name),
    ("services", .obj (p.services.entries.map (fun e => (e.1, e.2.encode))))]

end ProjectFile

/-! ## Reading project files -/

namespace ProjectFile

/-- Reads a template. -/
def readTemplate : Yaml.Reading Template := fun d path n =>
  (Yaml.readText "a string" d path n).map Template.mk

/-- Reads overrides. -/
def readOverrides : Yaml.Reading Overrides := fun d path n =>
  (Yaml.readPairs readTemplate d path n).map Overrides.ofList

/-- Reads a component. -/
def readComponent : Yaml.Reading Component :=
  Yaml.Shape.read {
    title := "struct ComponentConfig"
    initial := .blank
    fields := [
      ⟨"name", fun d p n r => do return { r with name := ← readTemplate d p n }⟩,
      ⟨"path", fun d p n r => do return { r with path := ← Yaml.readText "path string" d p n }⟩,
      ⟨"overrides", fun d p n r => do
        return { r with overrides := ← readOverrides d p n }⟩] }

/-- Reads the resources of a service. -/
def readResources : Yaml.Reading Resources :=
  Yaml.Shape.read {
    title := "struct MlServiceConfig"
    initial := .none
    fields := [
      ⟨"workspace", fun d p n r => do
        return { r with workspace? := ← Yaml.readOptional readTemplate d p n }⟩,
      ⟨"environment", fun d p n r => do
        return { r with environment? := ← Yaml.readOptional readComponent d p n }⟩,
      ⟨"model", fun d p n r => do
        return { r with model? := ← Yaml.readOptional readComponent d p n }⟩,
      ⟨"endpoint", fun d p n r => do
        return { r with endpoint? := ← Yaml.readOptional readComponent d p n }⟩,
      ⟨"deployment", fun d p n r => do
        return { r with deployment? := ← Yaml.readOptional readComponent d p n }⟩,
      ⟨"flow", fun d p n r => do
        return { r with flow? := ← Yaml.readOptional readComponent d p n }⟩] }

/-- Reads a service. -/
def readService : Yaml.Reading Service :=
  Yaml.Shape.read {
    title := "struct ServiceConfig"
    initial := .blank
    fields := [
      ⟨"project", fun d p n r => do
        return { r with directory := ← Yaml.readText "path string" d p n }⟩,
      ⟨"config", fun d p n r => do return { r with resources := ← readResources d p n }⟩] }

/-- Reads the root of a project file. -/
def readRoot : Yaml.Reading ProjectFile :=
  Yaml.Shape.read {
    title := "struct ProjectConfig"
    initial := .blank
    fields := [
      ⟨"name", fun d p n r => do return { r with name := ← Yaml.readText "a string" d p n }⟩,
      ⟨"services", fun d p n r => do
        return { r with services := ← Yaml.readMap readService d p n }⟩] }

/-- Reads a project file. -/
def ofText (text : String) : Except Yaml.Fault ProjectFile :=
  Yaml.decodeText readRoot text

end ProjectFile

/-- A project file with the directory that it was found in. -/
structure Project where
  root : String
  file : ProjectFile
deriving DecidableEq, Repr

namespace Project

variable {δ : Type} [Disk δ]

/-- The service of a name. -/
def service (p : Project) (name : String) : Except ProjectError Service :=
  match p.file.services.get? name with
  | some s => .ok s
  | none => .error (.unknownService name)

/-- The directory of a service. -/
def servicePath (p : Project) (s : Service) : String :=
  if Path.isAbsolute s.directory then s.directory else Path.join p.root s.directory

/-- Reads the project file at a path. -/
def load (path : String) (d : δ) : Except ProjectError Project := do
  let text ← (Disk.readText d path).mapError .io
  let file ← (ProjectFile.ofText text).mapError (.parse path)
  return ⟨(Path.parent? path).getD ".", file⟩

end Project

end Provisioner
