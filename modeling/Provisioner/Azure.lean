import Provisioner.Azure.ResourceManager
import Provisioner.Azure.Scripts
import Provisioner.World

/-!
# The world of Azure

The world that operations meet in production: the control plane is Azure's resource
manager, and the programs are scripts on this machine.

A `Provider` says where all of these are, and `Provider.world` is the world.  Its state
is that of the machine, the credential of the client that was made last, and whether the
program has panicked.  A call in which it panics has no answer, just as one that is dropped,
so an operation does nothing after it.
-/

namespace Provisioner.Azure

variable {σ : Type}

/-- Where control plane, credentials and scripts are. -/
structure Provider where
  base : String
  source : Source
  scripts : Scripts
deriving DecidableEq, Repr

/-- A machine, the credential of the client, and whether the program has panicked. -/
structure Connection (σ : Type) where
  machine : σ
  credential? : Option Credential
  panicked : Bool

/-- The connection before there is a client. -/
def Connection.new (machine : σ) : Connection σ :=
  ⟨machine, none, false⟩

/-- The connection after asking for something. -/
def Connection.after {α : Type} (s : Connection σ) (asked : Asked α) (credential : Credential)
    (machine : σ) : Connection σ :=
  ⟨machine, some credential, s.panicked || asked.isPanic⟩

namespace Provider

/-- The provider that the process environment asks for. -/
def ofEnvironment (environment : KeyMap String) : Except Failure Provider := do
  let scripts ← Scripts.ofEnvironment environment
  return ⟨ResourceManager.publicBase, Source.ofEnvironment environment, scripts⟩

/-- Makes a client: there has to be a token for the subscription. -/
def connect (m : Machine σ) (p : Provider) (subscription : String) (s : Connection σ) :
    Option (Except ControlPlane.Failure ResourceManager) × Connection σ :=
  let (asked, credential, machine) := (p.source.credential subscription).token m s.machine
  let client : Except Failure String → Except ControlPlane.Failure ResourceManager
    | .ok _ => .ok (ResourceManager.ofAddress p.base)
    | .error e => .error e.toControlPlane
  (asked.answer?.map client, s.after asked credential machine)

/-- Asks about a resource with the credential of the client. -/
def read (m : Machine σ) (p : Provider) (client : ResourceManager) (scope : Scope)
    (q : ControlPlane.Query) (s : Connection σ) :
    Option (ControlPlane.Answer q) × Connection σ :=
  let credential := s.credential?.getD (p.source.credential scope.subscription)
  let (asked, credential, machine) := client.read m scope q credential s.machine
  (asked.answer?, s.after asked credential machine)

/-- The world on a machine. -/
def world (m : Machine σ) (p : Provider) : World (Connection σ) ResourceManager where
  cancelled s := m.cancelled s.machine
  connect := p.connect m
  startTools s :=
    let (answer?, machine) := p.scripts.check m s.machine
    (answer?, { s with machine := machine })
  run program arguments s :=
    let (answer?, machine) := p.scripts.run m program arguments s.machine
    (answer?, { s with machine := machine })
  read := p.read m

end Provider

end Provisioner.Azure
