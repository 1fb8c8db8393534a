import Provisioner.ProvisionError
import Provisioner.Store
import Provisioner.Version

/-!
# The world outside

Operations talk to the control plane and to two programs, may be cancelled at any
time, and work on a store and a disk.

* A `World σ κ` answers calls.  Its state is `σ`, and `κ` is a client of the control
  plane.  A call that is dropped because the operation was cancelled has no answer.
* A `Session` is what operations change: the states of the world and of the disk, the
  store, the client once there is one, and the list of all calls made.
* An `Op` is a computation on a session that may fail.  `Op.await` makes one
  cancellable call; the operations after it are the calls themselves.
-/

namespace Provisioner

/-- A call to the world. -/
inductive Call (κ : Type)
  | connect (subscription : String)
  | startTools
  | run (program : Program) (arguments : Arguments)
  | read (client : κ) (scope : Scope) (query : ControlPlane.Query)
deriving Repr

/-- Whoever answers the calls.  `cancelled` is asked before a call is made; a call that
answers `none` was dropped on cancellation. -/
structure World (σ κ : Type) where
  /-- Whether the operation is to stop. -/
  cancelled : σ → Bool
  /-- Makes a client of the control plane for a subscription. -/
  connect : String → σ → Option (Except ControlPlane.Failure κ) × σ
  /-- Makes the two programs ready. -/
  startTools : σ → Option (Except Program.Failure Unit) × σ
  /-- Runs a program. -/
  run : Program → Arguments → σ → Option (Except Program.Failure Program.Output) × σ
  /-- Asks the control plane. -/
  read : κ → Scope → (q : ControlPlane.Query) → σ → Option (ControlPlane.Answer q) × σ

/-- What operations work on.  `calls` lists every call made, in order. -/
structure Session (σ κ δ : Type) where
  world : σ
  disk : δ
  store : Store
  client? : Option κ
  calls : List (Call κ)

/-- A computation on a session that may fail. -/
abbrev Op (σ κ δ α : Type) := ExceptT ProvisionError (StateM (Session σ κ δ)) α

namespace Op

variable {σ κ δ α : Type}

/-- Makes a call: writes it down, and leaves the world as the call leaves it. -/
def perform (call : Call κ) (answer : σ → Option α × σ) : Op σ κ δ (Option α) := do
  let s ← get
  let (a?, world) := answer s.world
  set { s with world := world, calls := s.calls ++ [call] }
  return a?

/-- The answer to a call, or the error of a call that was dropped. -/
def orCancelled (kind : Kind) (name : String) : Option α → Op σ κ δ α
  | some a => pure a
  | none => throw (.cancelled kind name)

/-- Fails if the operation is to stop. -/
def checkCancelled (w : World σ κ) (kind : Kind) (name : String) : Op σ κ δ Unit := do
  if w.cancelled (← get).world then throw (.cancelled kind name)

/-- Makes a call on behalf of a resource, unless the operation is to stop. -/
def await (w : World σ κ) (kind : Kind) (name : String) (call : Call κ)
    (answer : σ → Option α × σ) : Op σ κ δ α := do
  checkCancelled w kind name
  orCancelled kind name (← perform call answer)

/-- Fails with an error made from that of a call. -/
def orFail {ε : Type} (wrap : ε → ProvisionError) : Except ε α → Op σ κ δ α
  | .ok a => pure a
  | .error e => throw (wrap e)

/-- Stores what a completed step publishes. -/
def publish [Disk δ] (pairs : List (String × String)) : Op σ κ δ Unit := do
  let s ← get
  let (answer, store, disk) := s.store.setAll pairs s.disk
  set { s with store := store, disk := disk }
  orFail .store answer

end Op

/-- The world as a connected operation sees it. -/
structure Context (σ κ : Type) where
  world : World σ κ
  client : κ
  scope : Scope

namespace Context

variable {σ κ δ α : Type}

/-- Asks the control plane about something on behalf of a resource, and reads its answer
with `judge`. -/
def ask (cx : Context σ κ) (kind : Kind) (name : String) (q : ControlPlane.Query)
    (judge : ControlPlane.Answer q → Except ControlPlane.Failure α) : Op σ κ δ α := do
  let answer ← Op.await cx.world kind name (.read cx.client cx.scope q)
    (cx.world.read cx.client cx.scope q)
  Op.orFail (.controlPlane kind name) (judge answer)

/-- Reads a record on behalf of a resource. -/
def read (cx : Context σ κ) (kind : Kind) (name : String) (q : ControlPlane.Query) :
    Op σ κ δ q.Record :=
  cx.ask kind name q id

/-- Runs the program of a kind on behalf of a resource, and reads how the run ended with
`judge`. -/
def attempt (cx : Context σ κ) (kind : Kind) (name : String) (arguments : Arguments)
    (judge : Except Program.Failure Program.Output → Except Program.Failure α) :
    Op σ κ δ α := do
  let ended ← Op.await cx.world kind name (.run kind.program arguments)
    (cx.world.run kind.program arguments)
  Op.orFail (.toolInvocation kind name) (judge ended)

/-- Runs the program of a kind; a failed run is an error. -/
def invoke (cx : Context σ κ) (kind : Kind) (name : String) (arguments : Arguments) :
    Op σ κ δ Program.Output :=
  cx.attempt kind name arguments id

end Context

end Provisioner
