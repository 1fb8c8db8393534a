import Provisioner.Path

/-!
# Disks

What the rest of the library asks of a disk: `Disk δ` says that the state `δ` is a
disk, with the operations to look at a path, to read and write whole files, to copy
a file and to make a directory.  Every operation may fail with an `IoError`, and a
failed one may leave any state behind.

* `Content` is what a file holds: text, or bytes that are no text.
* `IoError.message` is the operating system's wording.
* `Disk.createDirAll` makes a directory with everything above it.
-/

namespace Provisioner

/-- Why an operation on a disk fails. -/
inductive IoError
  | notFound
  | permissionDenied
  | exists
  | notADirectory
  | isADirectory
  | nameTooLong
  | nulByte
  | notText
  | notAFile
  | noAncestor
  | other (explanation : String)
deriving DecidableEq, Repr

/-- The wording of an error. -/
def IoError.message : IoError → String
  | .notFound => "No such file or directory (os error 2)"
  | .permissionDenied => "Permission denied (os error 13)"
  | .exists => "File exists (os error 17)"
  | .notADirectory => "Not a directory (os error 20)"
  | .isADirectory => "Is a directory (os error 21)"
  | .nameTooLong => "File name too long (os error 36)"
  | .nulByte => "file name contained an unexpected NUL byte"
  | .notText => "stream did not contain valid UTF-8"
  | .notAFile => "the source path is neither a regular file nor a symlink to a regular file"
  | .noAncestor => "failed to create whole tree"
  | .other explanation => explanation

/-- What a file holds: text, or bytes that encode no text. -/
inductive Content
  | text (value : String)
  | bytes (value : List UInt8)
deriving DecidableEq, Repr, Inhabited

/-- The text of a content, if it is one. -/
def Content.text? : Content → Except IoError String
  | .text s => .ok s
  | .bytes _ => .error .notText

/-- What a path leads to. -/
inductive FileKind
  | file
  | directory
deriving DecidableEq, Repr

/-- The operations on the disk that is a part of `δ`. -/
class Disk (δ : Type) where
  /-- What stands at a path. -/
  stat : δ → String → Except IoError FileKind
  /-- What the file at a path holds. -/
  read : δ → String → Except IoError Content
  /-- The directory from which relative paths start. -/
  currentDir : δ → Except IoError String
  /-- Makes one directory. -/
  createDir : String → δ → Except IoError Unit × δ
  /-- Makes the second file hold what the first one holds. -/
  copy : String → String → δ → Except IoError Unit × δ
  /-- Makes a file hold a text. -/
  write : String → String → δ → Except IoError Unit × δ

namespace Disk

variable {δ : Type} [Disk δ]

/-- Whether there is anything at a path. -/
def isThere (d : δ) (path : String) : Bool :=
  (stat d path).toBool

/-- Whether there is a file at a path. -/
def isFile (d : δ) (path : String) : Bool :=
  match stat d path with
  | .ok .file => true
  | _ => false

/-- Whether there is a directory at a path. -/
def isDirectory (d : δ) (path : String) : Bool :=
  match stat d path with
  | .ok .directory => true
  | _ => false

/-- The text of a file. -/
def readText (d : δ) (path : String) : Except IoError String := do
  (← read d path).text?

/-- Makes the first of the paths a directory.  Where its parent, the next path of the
list, is missing, that is made first. -/
def createDirs : List String → δ → Except IoError Unit × δ
  | [], d => (.error .noAncestor, d)
  | path :: above, d =>
    if path.isEmpty then (.ok (), d)
    else
      match createDir path d with
      | (.ok (), d) => (.ok (), d)
      | (.error .notFound, d) =>
        match createDirs above d with
        | (.ok (), d) => settle path (createDir path d)
        | failed => failed
      | attempt => settle path attempt
where
  /-- A directory that is there already counts as made. -/
  settle (path : String) : Except IoError Unit × δ → Except IoError Unit × δ
    | (.ok (), d) => (.ok (), d)
    | (.error e, d) => if isDirectory d path then (.ok (), d) else (.error e, d)

/-- Makes a directory, with all directories above it. -/
def createDirAll (path : String) (d : δ) : Except IoError Unit × δ :=
  createDirs (Path.ancestors path) d

end Disk

end Provisioner
