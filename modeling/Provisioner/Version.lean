import Provisioner.ControlPlane

/-!
# Versions

Environments and models come in versions, and the container of a family says which
is the latest one and which comes next.  To create a version one asks for the next;
to use one, for the latest.

* `Version.next` and `Version.latest` read the two off the answer to a container
  question.
* `VersionRef` is one version of one name, and `VersionRef.assetId` how the ML client
  spells it.
-/

namespace Provisioner

/-- One version of a name. -/
structure VersionRef where
  name : String
  version : String
deriving DecidableEq, Repr

namespace VersionRef

/-- The spelling that the ML client understands. -/
def assetId (r : VersionRef) : String :=
  "azureml:" ++ r.name ++ ":" ++ r.version

/-- The name and the version with a colon between them. -/
def display (r : VersionRef) : String :=
  r.name ++ ":" ++ r.version

end VersionRef

namespace Version

/-- The first version of a name. -/
def initial : String := "1"

/-- The version to create next.  A name without a container starts at the first version;
any other failure stays one. -/
def next : Except ControlPlane.Failure Container → Except ControlPlane.Failure String
  | .ok container => .ok (container.properties.nextVersion.getD initial)
  | .error e => if e.isNotFound then .ok initial else .error e

/-- The latest version of `name`; a container that does not say counts as being at its
first version. -/
def latest (name : String) :
    Except ControlPlane.Failure Container → Except ControlPlane.Failure VersionRef
  | .ok container =>
    .ok ⟨container.nameOr name, container.properties.latestVersion.getD initial⟩
  | .error e => .error e

end Version

end Provisioner
