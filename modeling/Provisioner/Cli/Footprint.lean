import Provisioner.Azure
import Provisioner.Cli
import Provisioner.FileTree

/-!
# Footprints

Which files and which variables of the process environment a command line looks at
before it meets anybody.  A run on a copy of these is a run on the real ones.

* `FileTree.plant` adds a node with the directories above it.
* `Cli.filesOf` are the files, as far as the tree shows which; those that are added may
  lead to others.
* `Cli.variablesOf` are the variables, which the texts of files can name as well.
-/

namespace Provisioner

namespace FileTree

/-- The place that a path names if all of its parts are directories. -/
def placeOf (t : FileTree) (path : String) : Place :=
  ((Path.segments path.toList).map String.ofList).foldl step
    (if Path.isAbsolute path then [] else t.current)
where
  /-- One part further. -/
  step (place : Place) (name : String) : Place :=
    if name = "" ∨ name = "." then place
    else if name = ".." then place.dropLast
    else place ++ [name]

/-- The tree with directories down to a place. -/
def withDirectories (t : FileTree) (place : Place) : FileTree :=
  ((List.range (place.length + 1)).map place.take).foldl
    (fun t above => if t.find? above = none then t.put above .directory else t) t

/-- The tree with a node at a path, and directories down to it. -/
def plant (t : FileTree) (path : String) (node : Node) : FileTree :=
  let place := t.placeOf path
  (t.withDirectories place.dropLast).put place node

end FileTree

namespace Cli

/-- The files that a command line looks at, as far as the tree shows which. -/
def filesOf (st : Setting) (words : List String) (t : FileTree) : List String :=
  let current := FileTree.pathOf t.current
  (st.environment.get? Project.pathVariable).toList
    ++ [Path.join current ".fleetml"]
    ++ Project.candidates st.environment current t
    ++ environmentFile
where
  /-- The environment file of the session. -/
  environmentFile : List String :=
    match Invocation.parse st.environment words, standardRoot st t with
    | .ok i, .ok root => [Store.DotenvFile.filePath root i.options.environment]
    | _, _ => []

/-- The variables that are looked at in any case. -/
def ownVariables : List String :=
  Flag.all.map Flag.variableName
    ++ [Project.pathVariable, "HOME", "XDG_CONFIG_HOME", "XDG_DATA_HOME",
      Azure.Source.tokenVariable, Azure.Scripts.interpreterVariable,
      Azure.Scripts.directoryVariable, "CLICOLOR_FORCE", "NO_COLOR", "CLICOLOR"]

/-- The words of a text that can be names of variables. -/
def wordsOf (text : String) : List String :=
  ((Text.split (fun c => !(c.isAlphanum || c == '_')) text.toList).map String.ofList).filter
    (fun word => !word.isEmpty)

/-- The variables that a run on the files of a tree can look at. -/
def variablesOf (t : FileTree) : List String :=
  (ownVariables ++ t.nodes.flatMap fun
    | (_, .file (.text text) _) => wordsOf text
    | _ => []).eraseDups

end Cli

end Provisioner
