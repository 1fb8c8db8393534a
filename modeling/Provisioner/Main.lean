import Provisioner.Cli.Footprint
import Std.Time.DateTime.Timestamp

/-!
# The program

The program takes a copy of the files and of the process environment, runs the command
line on the copy, and prints what that says.

It starts no other programs and has no network, so a command that has to meet the
workspace ends with the report that it cannot.  Nothing is written before that.
-/

namespace Provisioner

/-- A machine that neither starts programs nor makes requests. -/
def Machine.alone : Machine Unit where
  cancelled _ := false
  now s := (0, s)
  isFile _ _ := false
  execute _ _ s := (some (.error .notFound), s)
  request _ s := (some (.error "no network"), s)

/-- The node for a file with some bytes. -/
def Node.ofBytes (bytes : ByteArray) : Node :=
  match String.fromUTF8? bytes with
  | some text => .file (.text text) false
  | none => .file (.bytes bytes.toList) false

/-- What is at a path, if it can be read.  Error 21 is that of reading a directory. -/
def Node.fetch? (path : String) : IO (Option Node) := do
  match ← (IO.FS.readBinFile path).toBaseIO with
  | .ok bytes => return some (.ofBytes bytes)
  | .error (.inappropriateType _ 21 _) => return some .directory
  | .error _ => return none

/-- The tree with what is at some paths. -/
def FileTree.fetch (t : FileTree) (paths : List String) : IO FileTree :=
  paths.foldlM (fun t path => return ((← Node.fetch? path).map (t.plant path)).getD t) t

/-- The tree that has nothing but the current directory. -/
def FileTree.ofCurrent (path : String) : FileTree :=
  { empty.plant path .directory with current := empty.placeOf path }

namespace Cli

/-- The values of variables of the process environment. -/
def fetchVariables (names : List String) : IO (KeyMap String) :=
  names.foldlM (fun environment name =>
    return ((← IO.getEnv name).map (environment.insert name)).getD environment) KeyMap.empty

/-- The setting of this process, with some of its variables. -/
def Setting.fetch (names : List String) : IO Setting := do
  let environment ← fetchVariables names
  let isTerminal ← (← IO.getStdout).isTty
  let now ← Std.Time.Timestamp.now
  return ⟨environment, isTerminal, fun _ => now.toSecondsSinceUnixEpoch.val, default⟩

/-- How often files are fetched that others lead to: a directory, a project file in it,
and the environment file beside that. -/
def rounds : Nat := 3

/-- The files that a command line looks at. -/
def fetchFiles (st : Setting) (words : List String) : IO FileTree := do
  let start := FileTree.ofCurrent (toString (← IO.currentDir))
  (List.range rounds).foldlM (fun t _ => t.fetch (filesOf st words t)) start

/-- Runs a command line on a machine that is alone. -/
def runAlone (st : Setting) (words : List String) (t : FileTree) :
    Outcome (Azure.Connection Unit) Azure.ResourceManager FileTree :=
  run ((Azure.Provider.ofEnvironment st.environment).map (·.world Machine.alone)) st words
    (.new ()) t

end Cli

end Provisioner

open Provisioner in
/-- Runs the command line of the process. -/
def main (words : List String) : IO UInt32 := do
  let tree ← Cli.fetchFiles (← Cli.Setting.fetch Cli.ownVariables) words
  let st ← Cli.Setting.fetch (Cli.variablesOf tree)
  let outcome := Cli.runAlone st words tree
  IO.print (Cli.Transcript.render outcome.transcript.output)
  IO.eprint (Cli.Transcript.render outcome.transcript.errors)
  return outcome.exitCode.toUInt32
