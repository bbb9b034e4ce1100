import ProtoFront.Path.Basic

/-!
# Stores of files

A `FileStore` is what the loader knows of a file system: which paths name a file, the one true path
of a file, and the text of a file. The answers do not change while files are loaded. The true
paths are finitely many, and the store lists them; that is why loading ends.
-/

namespace ProtoFront

/-- Why a file cannot be found or read. -/
inductive ReadFault where
  | missing (path : Path)
  | noSuchFile
  | isDirectory
  | notDirectory
  | nameTooLong
  | tooManyLinks
  | notText
  | permissionDenied
  | brokenLink
  deriving DecidableEq, Repr, Inhabited

/-- The fault in words. -/
def ReadFault.message : ReadFault → String
  | missing path => path.text ++ " does not exist"
  | noSuchFile => "No such file or directory (os error 2)"
  | isDirectory => "Is a directory (os error 21)"
  | notDirectory => "Not a directory (os error 20)"
  | nameTooLong => "File name too long (os error 36)"
  | tooManyLinks => "Too many levels of symbolic links (os error 40)"
  | notText => "stream did not contain valid UTF-8"
  | permissionDenied => "permission denied"
  | brokenLink => "broken link"

/-- A store of files. -/
structure FileStore where
  /-- whether a path names a file -/
  contains : Path → Bool
  /-- the true path of what a path names -/
  canonicalize : Path → Except ReadFault Path
  /-- the text of the file that a path names -/
  read : Path → Except ReadFault String
  /-- every true path -/
  targets : List Path
  canonicalize_mem : ∀ {path target : Path}, canonicalize path = .ok target → target ∈ targets

/-- A file that could not be read, and why. -/
structure ReadError where
  path : Path
  fault : ReadFault
  deriving DecidableEq, Repr, Inhabited

/-- The error in words. -/
def ReadError.message (error : ReadError) : String :=
  "cannot read " ++ error.path.text ++ ": " ++ error.fault.message

namespace FileStore

variable (store : FileStore)

/-- The text of a file; a failure names the file. -/
def readSource (path : Path) : Except ReadError String :=
  (store.read path).mapError (⟨path, ·⟩)

/-- The true path of a file and its text. -/
def loadSource (path : Path) : Except ReadError (Path × String) := do
  let target ← (store.canonicalize path).mapError (⟨path, ·⟩)
  let source ← store.readSource target
  return (target, source)

end FileStore

end ProtoFront
