import Provisioner.Store.Failure

/-!
# Stores in environment files

A store that keeps its values in an environment file.  Values are looked up in what
was read from the file and then in the process environment.

Every write writes the whole file, after the old one has been copied to a backup
beside it.  Several values are one write, and nothing is stored if one of their keys
cannot be used.

* `DotenvFile.filePath` is where the file of a named environment lies.
* `DotenvFile.load` and `DotenvFile.openIn` read a file; a missing one is empty.
* `DotenvFile.set` and `DotenvFile.setAll` store values, and `DotenvFile.save` writes.
-/

namespace Provisioner.Store

/-- A store with its file, and the process environment behind it. -/
structure DotenvFile where
  path : String
  values : KeyMap String
  environment : KeyMap String
deriving DecidableEq, Repr

namespace DotenvFile

variable {δ : Type} [Disk δ]

/-- The file of a named environment below the root of a project. -/
def filePath (root environment : String) : String :=
  Path.join (Path.join (Path.join root ".fleetml") environment) ".env"

/-- The name of the backup. -/
def backupName : String := ".env.backup"

/-- The backup beside a file. -/
def backupPath (path : String) : String :=
  Path.withFileName path backupName

/-- The values of the file at a path; none if it is missing. -/
def readValues (environment : KeyMap String) (path : String) (d : δ) :
    Except Failure (KeyMap String) :=
  if !Disk.isThere d path then .ok KeyMap.empty
  else
    match Disk.read d path with
    | .error e => .error (.parse path (.io e))
    | .ok content => (Dotenv.parse environment content).mapError (.parse path)

/-- The store of the file at a path. -/
def load (environment : KeyMap String) (path : String) (d : δ) : Except Failure DotenvFile :=
  (readValues environment path d).map (⟨path, ·, environment⟩)

/-- The store of a named environment below the root of a project. -/
def openIn (environment : KeyMap String) (root name : String) (d : δ) :
    Except Failure DotenvFile :=
  load environment (filePath root name) d

/-- The value under a key: the file's, or else that of the process environment. -/
def get? (s : DotenvFile) (key : String) : Option String :=
  (s.values.get? key).or (s.environment.get? key)

/-- The answer of a disk operation as that of a store operation on `path`. -/
def named (path : String) : Except IoError Unit × δ → Except Failure Unit × δ
  | (.ok (), d) => (.ok (), d)
  | (.error e, d) => (.error (.io path e), d)

/-- Makes the directory of the file. -/
def makeDirectory (path : String) (d : δ) : Except Failure Unit × δ :=
  match Path.parent? path with
  | none => (.ok (), d)
  | some up => named up (Disk.createDirAll up d)

/-- Copies the file to its backup, if there is one. -/
def backUp (path : String) (d : δ) : Except Failure Unit × δ :=
  if Disk.isThere d path then named (backupPath path) (Disk.copy path (backupPath path) d)
  else (.ok (), d)

/-- Writes the file of a store: its directory, the backup, and then the file. -/
def save (s : DotenvFile) (d : δ) : Except Failure Unit × δ :=
  match makeDirectory s.path d with
  | (.error e, d) => (.error e, d)
  | (.ok (), d) =>
    match backUp s.path d with
    | (.error e, d) => (.error e, d)
    | (.ok (), d) => named s.path (Disk.write s.path (Dotenv.render s.values) d)

/-- The store with several values, in memory alone. -/
def insertAll (s : DotenvFile) (pairs : List (String × String)) : DotenvFile :=
  { s with values := s.values.insertAll pairs }

/-- Stores several values and writes the file.  The values are looked up from then on,
also if writing fails. -/
def setAll (pairs : List (String × String)) (s : DotenvFile) (d : δ) :
    Except Failure Unit × DotenvFile × δ :=
  match checkKeys pairs with
  | .error e => (.error e, s, d)
  | .ok () =>
    let (answer, d) := (s.insertAll pairs).save d
    (answer, s.insertAll pairs, d)

/-- Stores a value and writes the file. -/
def set (key value : String) (s : DotenvFile) (d : δ) :
    Except Failure Unit × DotenvFile × δ :=
  setAll [(key, value)] s d

end DotenvFile

end Provisioner.Store
