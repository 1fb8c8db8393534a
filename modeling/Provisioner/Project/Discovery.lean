import Provisioner.Project

/-!
# Finding project files

A project file can be named by an environment variable.  Otherwise it is looked for in
the current directory, in a hidden directory below it, and among the files of the user.
-/

namespace Provisioner.Project

variable {δ : Type} [Disk δ]

/-- The variable that names a project file. -/
def pathVariable : String := "FLEETML_CONFIG_PATH"

/-- The names of project files, the first ones first. -/
def fileNames : List String :=
  ["fleetml.local.yaml", ".fleetml.local.yaml", "fleetml.yaml", ".fleetml.yaml"]

/-- The directory of a user's files of some sort: a variable that holds an absolute path,
or else a directory below the home directory. -/
def userDirectory? (environment : KeyMap String) (variableName below : String) : Option String :=
  match (environment.get? variableName).filter Path.isAbsolute with
  | some directory => some directory
  | none =>
    match (environment.get? "HOME").filter (fun home => !home.isEmpty) with
    | some home => some (Path.join home below)
    | none => none

/-- The project files that are looked for in turn when none is named. -/
def candidates (environment : KeyMap String) (current : String) (d : δ) : List String :=
  let hidden := Path.join current ".fleetml"
  fileNames.map (Path.join current)
    ++ (if Disk.isDirectory d hidden then fileNames.map (Path.join hidden) else [])
    ++ ((userDirectory? environment "XDG_CONFIG_HOME" ".config").map fun directory =>
      Path.join (Path.join directory "fleetml") "fleetml.yaml").toList

/-- Finds the project file. -/
def find (environment : KeyMap String) (d : δ) : Except ProjectError String := do
  if let some path := (environment.get? pathVariable).filter (Disk.isThere d) then
    return path
  let current ← (Disk.currentDir d).mapError .io
  match (candidates environment current d).find? (Disk.isThere d) with
  | some path => return path
  | none => throw .fileNotFound

/-- Finds and reads the project file. -/
def discover (environment : KeyMap String) (d : δ) : Except ProjectError Project := do
  load (← find environment d) d

end Provisioner.Project
