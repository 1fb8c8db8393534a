import Provisioner.Azure.Failure
import Provisioner.Json.Bytes
import Provisioner.KeyMap
import Provisioner.Machine

/-!
# Credentials

A request is made by the bearer of a token.  The token is either known from the
beginning, or the Azure command line hands it out.

* `AccessToken` is what the command line prints.  `AccessToken.isFresh?` says whether a
  token can still be used at a time, unless a subtraction overflows.
* `Asked` is what comes of asking: an answer, unless the call was dropped, or the program
  panicked because of an overflow.
* `CommandLine` asks for tokens, and keeps the last one as long as it is fresh.
* `Credential` is either sort of credential, and `Source` says which one to take.
-/

namespace Provisioner.Azure

variable {σ : Type}

/-- A token as the command line prints it; `expiresOn?` is a time in seconds. -/
structure AccessToken where
  token : String
  expiresOn? : Option Int64
  subscription? : Option String
  tenant? : Option String
deriving DecidableEq, Repr

namespace AccessToken

/-- The fields of a token in JSON. -/
def shape : Json.Shape AccessToken where
  title := "struct AccessToken"
  initial := ⟨"", none, none, none⟩
  fields := [
    ⟨"accessToken", true, fun t r => do return { r with token := ← Json.readText "a string" t }⟩,
    ⟨"expires_on", false, fun t r => do
      return { r with expiresOn? := (← Json.readOptional Json.readInt64 t).map Int64.ofInt }⟩,
    ⟨"subscription", false, fun t r => do
      return { r with subscription? := ← Json.readOptional (Json.readText "a string") t }⟩,
    ⟨"tenant", false, fun t r => do
      return { r with tenant? := ← Json.readOptional (Json.readText "a string") t }⟩]

/-- Reads the JSON form of a token. -/
def decode (t : Json.Tree) : Except Json.Fault AccessToken := shape.read t

/-- How long before its end a token is no longer used, in seconds. -/
def margin : Int64 := 300

/-- The difference of two numbers of 64 bits, unless it overflows. -/
def checkedSub (a b : Int64) : Option Int64 :=
  let difference := a.toInt - b.toInt
  if Int64.minValue.toInt ≤ difference ∧ difference ≤ Int64.maxValue.toInt then
    some (Int64.ofInt difference)
  else none

/-- Whether a token can be used at a time.  One that does not say when it ends cannot.
There is no telling if the margin cannot be taken away from its end. -/
def isFresh? (t : AccessToken) (now : Int64) : Option Bool :=
  match t.expiresOn? with
  | some expiresOn => (checkedSub expiresOn margin).map fun lastUse => now < lastUse
  | none => some false

end AccessToken

/-- What comes of asking for something.  A call that is dropped has no answer, and neither
has one in which the program panics. -/
inductive Asked (α : Type)
  | answer (a : α)
  | dropped
  | panicked
deriving DecidableEq, Repr

namespace Asked

variable {α : Type}

/-- What comes of a call that can only be dropped. -/
def ofOption : Option α → Asked α
  | some a => .answer a
  | none => .dropped

/-- The answer, if there is one. -/
def answer? : Asked α → Option α
  | .answer a => some a
  | .dropped | .panicked => none

/-- Whether the program panicked. -/
def isPanic : Asked α → Bool
  | .panicked => true
  | .answer _ | .dropped => false

end Asked

/-- The Azure command line as a source of tokens for a subscription. -/
structure CommandLine where
  program : String
  subscription : String
  cached? : Option AccessToken
deriving DecidableEq, Repr

namespace CommandLine

/-- The service that tokens are asked for. -/
def audience : String := "https://management.azure.com/"

/-- The command line under its usual name. -/
def ofSubscription (subscription : String) : CommandLine :=
  ⟨"az", subscription, none⟩

/-- The arguments that ask for a token. -/
def arguments (c : CommandLine) : Arguments :=
  ["account", "get-access-token", "--subscription", c.subscription, "--resource", audience,
    "-o", "json"]

/-- The token in what the command line printed. -/
def judge : Except IoError Machine.Exit → Except Failure AccessToken
  | .error .notFound => .error .commandLineMissing
  | .error e => .error (.io e)
  | .ok ended =>
    if ended.isSuccess then
      (Json.decodeBytes AccessToken.decode ended.stdout).mapError fun fault =>
        .json (fault.message (Text.Utf8.decodeLossy ended.stdout))
    else .error (.commandFailed (Text.trim (Text.Utf8.decodeLossy ended.stderr)))

/-- The cached token, if it is fresh, unless there is no telling. -/
def fresh? (c : CommandLine) (now : Int64) : Option (Option AccessToken) :=
  match c.cached? with
  | none => some none
  | some t => (t.isFresh? now).map fun fresh => if fresh then some t else none

/-- The token to use: the cached one while it is fresh, or else a new one, which is
cached.  After a failure the cache is as before, and so it is after a panic. -/
def token (m : Machine σ) (c : CommandLine) (s : σ) :
    Asked (Except Failure String) × CommandLine × σ :=
  let (now, s) := m.now s
  match c.fresh? now with
  | none => (.panicked, c, s)
  | some (some t) => (.answer (.ok t.token), c, s)
  | some none =>
    let (ended?, s) := m.execute c.program c.arguments s
    match ended?.map judge with
    | none => (.dropped, c, s)
    | some (.error e) => (.answer (.error e), c, s)
    | some (.ok t) => (.answer (.ok t.token), { c with cached? := some t }, s)

end CommandLine

/-- A credential: a known token, or the command line. -/
inductive Credential
  | known (token : String)
  | commandLine (c : CommandLine)
deriving DecidableEq, Repr

/-- The token of a credential. -/
def Credential.token (m : Machine σ) (s : σ) :
    Credential → Asked (Except Failure String) × Credential × σ
  | .known token => (.answer (.ok token), .known token, s)
  | .commandLine c =>
    let (asked, c, s) := c.token m s
    (asked, .commandLine c, s)

/-- Where credentials come from. -/
inductive Source
  | known (token : String)
  | commandLine
deriving DecidableEq, Repr

namespace Source

/-- The variable that holds a known token. -/
def tokenVariable : String := "AZURE_ACCESS_TOKEN"

/-- The token in the process environment; a blank one is none. -/
def knownToken (environment : KeyMap String) : Except Failure String :=
  match environment.get? tokenVariable with
  | some text =>
    if Text.allBlank text then .error (.missingVariable tokenVariable) else .ok (Text.trim text)
  | none => .error (.missingVariable tokenVariable)

/-- The token in the process environment, or else the command line. -/
def ofEnvironment (environment : KeyMap String) : Source :=
  match knownToken environment with
  | .ok token => .known token
  | .error _ => .commandLine

/-- The credential for a subscription. -/
def credential (subscription : String) : Source → Credential
  | .known token => .known token
  | .commandLine => .commandLine (.ofSubscription subscription)

end Source

end Provisioner.Azure
