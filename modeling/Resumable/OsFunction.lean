/-!
# Operations on files and the environment

What a program may ask its host to do. The program itself never touches files or variables; each
of these operations pauses it, and the host answers.
-/

namespace Resumable

/-- An operation that the host performs for a program. -/
inductive OsFunction where
  | exists
  | isFile
  | isDir
  | isSymlink
  | readText
  | readBytes
  | writeText
  | writeBytes
  | mkdir
  | unlink
  | rmdir
  | iterdir
  | stat
  | rename
  | resolve
  | absolute
  | getenv
  | getEnviron
deriving DecidableEq, Repr

namespace OsFunction

/-- All operations. -/
def all : List OsFunction :=
  [.exists, .isFile, .isDir, .isSymlink, .readText, .readBytes, .writeText, .writeBytes, .mkdir,
   .unlink, .rmdir, .iterdir, .stat, .rename, .resolve, .absolute, .getenv, .getEnviron]

/-- The name of an operation; for those on files it is the name of the method of paths. -/
def name : OsFunction → String
  | .exists => "exists"
  | .isFile => "is_file"
  | .isDir => "is_dir"
  | .isSymlink => "is_symlink"
  | .readText => "read_text"
  | .readBytes => "read_bytes"
  | .writeText => "write_text"
  | .writeBytes => "write_bytes"
  | .mkdir => "mkdir"
  | .unlink => "unlink"
  | .rmdir => "rmdir"
  | .iterdir => "iterdir"
  | .stat => "stat"
  | .rename => "rename"
  | .resolve => "resolve"
  | .absolute => "absolute"
  | .getenv => "getenv"
  | .getEnviron => "get_environ"

/-- The operation of a name. -/
def ofName? (name : String) : Option OsFunction := all.find? (·.name == name)

/-- Whether an operation is on the environment and not on files. -/
def isEnvironment : OsFunction → Bool
  | .getenv | .getEnviron => true
  | _ => false

/-- The operation that a method of paths asks for. -/
def ofPathMethod? (name : String) : Option OsFunction :=
  (ofName? name).filter (!·.isEnvironment)

/-- Whether an operation changes files. -/
def isMutating : OsFunction → Bool
  | .writeText | .writeBytes | .mkdir | .unlink | .rmdir | .rename => true
  | _ => false

end OsFunction

end Resumable
