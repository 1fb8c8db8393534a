import Provisioner.Disk
import Provisioner.Program

/-!
# Machines

What the rest of the library asks of the computer that it runs on: a clock, files,
other programs, and requests over HTTP.  A `Machine σ` has the state `σ`, and its
operations give an answer and the state after it.  A program or a request that was
dropped because the operation was cancelled has no answer.
-/

namespace Provisioner

/-- How a program ended: with an exit code, unless a signal ended it, and with what it
printed. -/
structure Machine.Exit where
  code? : Option Int
  stdout : List UInt8
  stderr : List UInt8
deriving DecidableEq, Repr, Inhabited

/-- Whether a program reported success. -/
def Machine.Exit.isSuccess (e : Machine.Exit) : Bool :=
  e.code? == some 0

/-- A request for what stands at a URL, made by the bearer of a token. -/
structure Machine.Request where
  url : String
  token : String
deriving DecidableEq, Repr

/-- An answer to a request.  The body comes after the status, and may fail to come. -/
structure Machine.Response where
  status : Nat
  body : Except String String
deriving Repr

/-- A computer. -/
structure Machine (σ : Type) where
  /-- Whether the operation is to stop. -/
  cancelled : σ → Bool
  /-- Reads the clock, in seconds. -/
  now : σ → Int64 × σ
  /-- Whether there is a file at a path. -/
  isFile : σ → String → Bool
  /-- Runs a program to its end. -/
  execute : String → Arguments → σ → Option (Except IoError Machine.Exit) × σ
  /-- Makes a request; without an answer there is an explanation. -/
  request : Machine.Request → σ → Option (Except String Machine.Response) × σ

end Provisioner
