import Provisioner.Json.Shape
import Provisioner.Override

/-!
# Components

A component is one resource that a service asks for: a name template, the path of
its definition and the overrides for it.  A deployment needs three components, its
environment, its model and its own.

The JSON forms of both are here: `Component.encode` and `Component.decode`, and the
same for `DeploymentSpec`.
-/

namespace Provisioner

/-- One resource to make.  The path is relative to the directory of the service. -/
structure Component where
  name : Template
  path : String
  overrides : Overrides
deriving DecidableEq, Repr

namespace Component

/-- A component that nothing is said about. -/
def blank : Component := ⟨⟨""⟩, "", .empty⟩

instance : Inhabited Component := ⟨blank⟩

/-- The component with its overrides in the order of a process. -/
def inOrder (order : Overrides.Order) (c : Component) : Component :=
  { c with overrides := order.arrange c.overrides }

/-- Reads a template. -/
def decodeTemplate (t : Json.Tree) : Except Json.Fault Template :=
  (Json.readText "a string" t).map Template.mk

/-- Reads overrides. -/
def decodeOverrides (t : Json.Tree) : Except Json.Fault Overrides :=
  (Json.readPairs decodeTemplate t).map Overrides.ofList

/-- The fields of a component in JSON; each may be missing. -/
def shape : Json.Shape Component where
  title := "struct ComponentConfig"
  initial := blank
  fields := [
    ⟨"name", false, fun t r => do return { r with name := ← decodeTemplate t }⟩,
    ⟨"path", false, fun t r => do return { r with path := ← Json.readText "path string" t }⟩,
    ⟨"overrides", false, fun t r => do
      return { r with overrides := ← decodeOverrides t }⟩]

/-- Reads the JSON form of a component. -/
def decode (t : Json.Tree) : Except Json.Fault Component := shape.read t

/-- Overrides as an object of templates. -/
def encodeOverrides (overrides : Overrides) : Json :=
  .obj (overrides.entries.map (fun e => (e.1, .str e.2.text)))

/-- The JSON form of a component; an empty name and empty overrides are left out. -/
def encode (c : Component) : Json :=
  .obj ((if c.name.isEmpty then [] else [("name", .str c.name.text)])
    ++ [("path", .str c.path)]
    ++ (if c.overrides.isEmpty then [] else [("overrides", encodeOverrides c.overrides)]))

end Component

/-- A deployment of the latest versions of an environment and a model.  The name in
`deployment` is not used: deployments are always named afresh. -/
structure DeploymentSpec where
  workspace? : Option Template
  environment : Component
  model : Component
  deployment : Component
deriving DecidableEq, Repr, Inhabited

namespace DeploymentSpec

/-- The fields of a deployment in JSON; only the workspace may be missing. -/
def shape : Json.Shape DeploymentSpec where
  title := "struct EndpointDeploymentConfig"
  initial := ⟨none, .blank, .blank, .blank⟩
  fields := [
    ⟨"workspace", false, fun t r => do
      return { r with workspace? := ← Json.readOptional Component.decodeTemplate t }⟩,
    ⟨"environment", true, fun t r => do return { r with environment := ← Component.decode t }⟩,
    ⟨"model", true, fun t r => do return { r with model := ← Component.decode t }⟩,
    ⟨"deployment", true, fun t r => do return { r with deployment := ← Component.decode t }⟩]

/-- Reads the JSON form of a deployment. -/
def decode (t : Json.Tree) : Except Json.Fault DeploymentSpec := shape.read t

/-- The JSON form of a deployment. -/
def encode (d : DeploymentSpec) : Json :=
  .obj ((match d.workspace? with
      | some w => [("workspace", .str w.text)]
      | none => [])
    ++ [("environment", d.environment.encode), ("model", d.model.encode),
      ("deployment", d.deployment.encode)])

end DeploymentSpec

end Provisioner
