import Provisioner.KeyMap
import Provisioner.Kind
import Provisioner.Text.Split

/-!
# Command lines

A command line names a command, possibly in two words, with its arguments and options.

* `Command` are the commands, and `Options` say which workspace and which environment
  they are about.
* `Invocation.parse` reads a command line.  Options can stand before and behind every
  word of a command; the innermost one counts, and one that is not there at all is
  taken from the process environment.
* `Stop` is why there is nothing to run: the command line makes no sense, or asks for
  something that needs no command.
-/

namespace Provisioner.Cli

/-! ## What is asked for -/

/-- An option with a value. -/
inductive Flag
  | subscription
  | resourceGroup
  | workspace
  | environment
  | only
deriving DecidableEq, Repr

namespace Flag

/-- The flags, the common ones first. -/
def all : List Flag := [.subscription, .resourceGroup, .workspace, .environment, .only]

/-- The name of a flag. -/
def name : Flag → String
  | .subscription => "subscription"
  | .resourceGroup => "resource-group"
  | .workspace => "workspace"
  | .environment => "environment"
  | .only => "only"

/-- The letter of a flag that has one. -/
def letter? : Flag → Option Char
  | .environment => some 'e'
  | _ => none

/-- The variable of the process environment that stands in for a flag, and under which a
store is asked for its value. -/
def variableName : Flag → String
  | .subscription => "AZURE_SUBSCRIPTION_ID"
  | .resourceGroup => "AZURE_RESOURCE_GROUP"
  | .workspace => "AZUREML_WORKSPACE_NAME"
  | .environment => "FLEETML_ENV"
  | .only => ""

end Flag

/-- A command.  `only` lists the kinds to provision; none means all. -/
inductive Command
  | provision (service : String) (only : List Kind)
  | showEndpoint (name : String)
  | checkWorkspace
  | version
deriving DecidableEq, Repr

/-- What every command can be told. -/
structure Options where
  subscription? : Option String
  resourceGroup? : Option String
  workspace? : Option String
  environment : String
deriving DecidableEq, Repr

/-- A command with its options. -/
structure Invocation where
  options : Options
  command : Command
deriving DecidableEq, Repr

/-- Why no command is run. -/
inductive Stop
  | usage
  | help
  | version
deriving DecidableEq, Repr

/-! ## Levels -/

/-- How many words of a command have been read. -/
inductive Level
  | root
  | provision
  | endpoint
  | showEndpoint
  | workspace
  | checkWorkspace
  | version
deriving DecidableEq, Repr

namespace Level

/-- The level that a word leads to. -/
def next? : Level → String → Option Level
  | .root, "provision" => some .provision
  | .root, "endpoint" => some .endpoint
  | .root, "workspace" => some .workspace
  | .root, "version" => some .version
  | .endpoint, "show" => some .showEndpoint
  | .workspace, "check" => some .checkWorkspace
  | _, _ => none

/-- Whether further words belong to the command. -/
def isOpen : Level → Bool
  | .root => true
  | .endpoint => true
  | .workspace => true
  | _ => false

/-- How many arguments a command takes. -/
def capacity : Level → Nat
  | .provision => 1
  | .showEndpoint => 1
  | _ => 0

/-- Whether a flag can stand at a level. -/
def accepts (l : Level) (f : Flag) : Bool :=
  f != .only || l == .provision

end Level

/-! ## Words -/

/-- How a word of a command line reads. -/
inductive Word
  | divider
  | long (name : String) (value? : Option String)
  | letters (cs : List Char)
  | plain
deriving DecidableEq, Repr

/-- Reads a word. -/
def Word.ofText (text : String) : Word :=
  match text.toList with
  | ['-', '-'] => .divider
  | '-' :: '-' :: cs =>
    match Text.cut? '=' cs with
    | some (name, value) => .long (String.ofList name) (some (String.ofList value))
    | none => .long (String.ofList cs) none
  | '-' :: c :: cs => .letters (c :: cs)
  | _ => .plain

/-- The kinds in a list with commas; every part has to name one. -/
def kindsOf? (text : String) : Option (List Kind) :=
  (Text.split (· == ',') text.toList).mapM fun part =>
    (Kind.parse (String.ofList part)).toOption

/-- What has been read of a command line.  `given` are the flags at the present level,
`outer` those before it, and `awaiting?` is a flag whose value comes next. -/
structure Progress where
  level : Level
  given : List (Flag × String)
  outer : List (Flag × String)
  only : List Kind
  arguments : List String
  awaiting? : Option Flag
  isLiteral : Bool
  isHelp : Bool
deriving DecidableEq, Repr

namespace Progress

/-- Nothing has been read. -/
def start : Progress := ⟨.root, [], [], [], [], none, false, false⟩

/-- Takes the value of a flag.  Kinds can be given several times, everything else once at
every level. -/
def give (p : Progress) (f : Flag) (value : String) : Except Stop Progress :=
  let p := { p with awaiting? := none }
  if f = .only then
    match kindsOf? value with
    | some kinds => .ok { p with only := p.only ++ kinds }
    | none => .error .usage
  else if p.given.any (fun g => g.1 == f) then .error .usage
  else .ok { p with given := (f, value) :: p.given }

/-- Takes a flag, with its value if that is attached to it. -/
def flag (p : Progress) (value? : Option String) (f : Flag) : Except Stop Progress :=
  match value? with
  | some value => p.give f value
  | none => .ok { p with awaiting? := some f }

/-- Takes an argument. -/
def argument (p : Progress) (text : String) : Except Stop Progress :=
  if p.arguments.length < p.level.capacity then
    .ok { p with arguments := p.arguments ++ [text] }
  else .error .usage

/-- Takes a long option. -/
def long (p : Progress) (name : String) (value? : Option String) : Except Stop Progress :=
  match Flag.all.find? (fun f => f.name == name && p.level.accepts f) with
  | some f => p.flag value? f
  | none =>
    if value?.isSome then .error .usage
    else if name = "help" then .error .help
    else if name = "version" ∧ p.level = .root then .error .version
    else .error .usage

/-- Takes an option of one letter; what stands behind the letter of a flag is its value,
with or without `=`. -/
def letters (p : Progress) : List Char → Except Stop Progress
  | [] => .ok p
  | c :: rest =>
    match Flag.all.find? (fun f => f.letter? == some c && p.level.accepts f) with
    | some f =>
      match rest with
      | [] => p.flag none f
      | '=' :: value => p.flag (some (String.ofList value)) f
      | value => p.flag (some (String.ofList value)) f
    | none =>
      if c = 'h' then .error .help
      else if c = 'V' ∧ p.level = .root then .error .version
      else .error .usage

/-- Goes on to a level. -/
def enter (p : Progress) (l : Level) : Progress :=
  { p with level := l, outer := p.given ++ p.outer, given := [] }

/-- Takes a word that is not the value of a flag. -/
def word (p : Progress) (text : String) : Except Stop Progress :=
  if p.isLiteral then p.argument text
  else
    match p.level.next? text with
    | some l => .ok (p.enter l)
    | none =>
      if text = "help" ∧ p.level.isOpen then .ok { p with isHelp := true }
      else
        match Word.ofText text with
        | .divider => .ok { p with isLiteral := true }
        | .long name value? => p.long name value?
        | .letters cs => p.letters cs
        | .plain => p.argument text

/-- Takes the name of a command that help is asked for. -/
def topic (p : Progress) (text : String) : Except Stop Progress :=
  match p.level.next? text with
  | some l => .ok (p.enter l)
  | none => .error .usage

/-- Takes a word.  The value of a flag cannot look like an option; a single dash does
not. -/
def step (p : Progress) (text : String) : Except Stop Progress :=
  if p.isHelp then p.topic text
  else
    match p.awaiting? with
    | none => p.word text
    | some f => if Word.ofText text = .plain then p.give f text else .error .usage

/-- The command that has been read. -/
def command? (p : Progress) : Option Command :=
  match p.level, p.arguments with
  | .provision, [service] => some (.provision service p.only)
  | .showEndpoint, [name] => some (.showEndpoint name)
  | .checkWorkspace, [] => some .checkWorkspace
  | .version, [] => some .version
  | _, _ => none

/-- The value of a flag: the innermost one, or else that of the process environment. -/
def value? (p : Progress) (environment : KeyMap String) (f : Flag) : Option String :=
  match (p.given ++ p.outer).find? (fun g => g.1 == f) with
  | some g => some g.2
  | none => environment.get? f.variableName

/-- The name of the environment, unless another is given. -/
def standardEnvironment : String := "default"

/-- The options that have been read. -/
def options (p : Progress) (environment : KeyMap String) : Options where
  subscription? := p.value? environment .subscription
  resourceGroup? := p.value? environment .resourceGroup
  workspace? := p.value? environment .workspace
  environment := (p.value? environment .environment).getD standardEnvironment

/-- What has been asked for at the end of the command line. -/
def finish (p : Progress) (environment : KeyMap String) : Except Stop Invocation :=
  if p.isHelp then .error .help
  else
    match p.awaiting?, p.command? with
    | none, some command => .ok ⟨p.options environment, command⟩
    | _, _ => .error .usage

end Progress

/-- Reads a command line. -/
def Invocation.parse (environment : KeyMap String) (words : List String) :
    Except Stop Invocation := do
  (← words.foldlM Progress.step Progress.start).finish environment

end Provisioner.Cli
