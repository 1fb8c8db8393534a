import Provisioner.Json.Shape

/-!
# Scopes

Every operation happens in one workspace, in one resource group, in one
subscription.  A `Scope` names the three.
-/

namespace Provisioner

/-- The place that an operation works on. -/
structure Scope where
  subscription : String
  resourceGroup : String
  workspace : String
deriving DecidableEq, Repr, Inhabited

namespace Scope

/-- The same subscription and resource group with another workspace. -/
def withWorkspace (s : Scope) (workspace : String) : Scope :=
  { s with workspace := workspace }

/-- The three parts with slashes between them. -/
def display (s : Scope) : String :=
  s.subscription ++ "/" ++ s.resourceGroup ++ "/" ++ s.workspace

/-- The JSON form of a scope. -/
def encode (s : Scope) : Json :=
  .obj [("subscription_id", .str s.subscription), ("resource_group", .str s.resourceGroup),
    ("workspace", .str s.workspace)]

/-- The fields of a scope in JSON; all of them are required. -/
def shape : Json.Shape Scope where
  title := "struct Scope"
  initial := ⟨"", "", ""⟩
  fields := [
    ⟨"subscription_id", true, fun t r => do
      return { r with subscription := ← Json.readText "a string" t }⟩,
    ⟨"resource_group", true, fun t r => do
      return { r with resourceGroup := ← Json.readText "a string" t }⟩,
    ⟨"workspace", true, fun t r => do
      return { r with workspace := ← Json.readText "a string" t }⟩]

/-- Reads the JSON form of a scope. -/
def decode (t : Json.Tree) : Except Json.Fault Scope := shape.read t

end Scope

end Provisioner
