import Resumable.FileSystem.PathMap
import Resumable.Object.Basic
import Resumable.Text.Utf8

/-!
# File systems in memory

A file system is a value: its files and its directories by their paths, and environment variables.
The files and the directories are kept apart.
-/

namespace Resumable

/-- A file. -/
structure FileEntry where
  content : List UInt8
  mode : Nat
deriving DecidableEq, Repr, Inhabited

/-- A file system and the environment variables that belong to it. -/
structure FileSystem where
  entries : PathMap FileEntry
  folders : PathMap Unit
  env : List (String × String)
  /-- The time stamp of everything. -/
  time : Float
deriving Inhabited

/-- Why an operation on a file system fails, and at which path. -/
inductive FileError where
  | notFound (path : FullPath)
  | alreadyExists (path : FullPath)
  | isDirectory (path : FullPath)
  | notDirectory (path : FullPath)
  | notEmpty (path : FullPath)
  | denied (path : FullPath)
  | invalidArgument (path : FullPath)
  /-- The bytes from this position on are no UTF-8. -/
  | notText (path : FullPath) (position : Nat)
deriving DecidableEq, Repr

namespace FileError

/-- The type of exception that an error is to a program. -/
def exceptionType : FileError → ExceptionType
  | .notFound _ => .fileNotFoundError
  | .alreadyExists _ => .fileExistsError
  | .isDirectory _ => .isADirectoryError
  | .notDirectory _ => .notADirectoryError
  | .denied _ => .permissionError
  | .notEmpty _ | .invalidArgument _ => .osError
  | .notText .. => .unicodeDecodeError

/-- The message of an error. -/
def message : FileError → String
  | .notFound path => s!"[Errno 2] No such file or directory: '{path}'"
  | .alreadyExists path => s!"[Errno 17] File exists: '{path}'"
  | .isDirectory path => s!"[Errno 21] Is a directory: '{path}'"
  | .notDirectory path => s!"[Errno 20] Not a directory: '{path}'"
  | .notEmpty path => s!"[Errno 39] Directory not empty: '{path}'"
  | .denied path => s!"[Errno 13] Permission denied: '{path}'"
  | .invalidArgument path => s!"[Errno 22] Invalid argument: '{path}'"
  | .notText path position =>
    s!"'utf-8' codec can't decode '{path}' at position {position}: invalid utf-8"

end FileError

/-- What is reported of a path. -/
structure FileStatus where
  isDir : Bool
  mode : Nat
  /-- The number of bytes of a file. -/
  size : Nat
  time : Float

/-- The status as an object. -/
def FileStatus.toObject (s : FileStatus) : Object :=
  if s.isDir then .dirStat (Int64.ofNat s.mode) s.time
  else .fileStat (Int64.ofNat s.mode) (Int64.ofNat s.size) s.time

namespace FileSystem

/-- The mode of a file where nothing else is said. -/
def defaultFileMode : Nat := 0o644

/-- The mode of every directory. -/
def dirMode : Nat := 0o755

/-- A file system with nothing but the root, at time zero. -/
def empty : FileSystem := ⟨.empty, PathMap.empty.insert .root (), [], 0.0⟩

/-! ## What is there -/

/-- Whether there is a directory at a path. -/
def isDir (fs : FileSystem) (p : FullPath) : Bool := fs.folders.contains p

/-- Whether there is a file at a path. -/
def isFile (fs : FileSystem) (p : FullPath) : Bool := fs.entries.contains p

/-- Whether there is anything at a path. -/
def contains (fs : FileSystem) (p : FullPath) : Bool := fs.isFile p || fs.isDir p

/-- Whether a file stands where a directory on the way to a path should be. -/
def isBlocked (fs : FileSystem) (p : FullPath) : Bool := p.ancestors.any fs.isFile

/-- The error that there is nothing at a path. -/
def missing (fs : FileSystem) (p : FullPath) : FileError :=
  if fs.isBlocked p then .notDirectory p else .notFound p

/-- The content of a file. -/
def readBytes (fs : FileSystem) (p : FullPath) : Except FileError (List UInt8) :=
  match fs.entries.get? p with
  | some entry => .ok entry.content
  | none => if fs.isDir p then .error (.isDirectory p) else .error (fs.missing p)

/-- The content of a file as text. -/
def readText (fs : FileSystem) (p : FullPath) : Except FileError String := do
  match Text.ofUtf8 (← fs.readBytes p) with
  | .ok s => return s
  | .error position => throw (.notText p position)

/-- The status of a path. -/
def status (fs : FileSystem) (p : FullPath) : Except FileError FileStatus :=
  match fs.entries.get? p with
  | some entry => .ok ⟨false, entry.mode, entry.content.length, fs.time⟩
  | none => if fs.isDir p then .ok ⟨true, dirMode, 0, fs.time⟩ else .error (fs.missing p)

/-- The value of an environment variable. -/
def valueOf? (fs : FileSystem) (name : String) : Option String := fs.env.lookup name

/-- Whether anything lies below a directory. -/
def isOccupied (fs : FileSystem) (p : FullPath) : Bool :=
  !(fs.entries.below p).isEmpty || !(fs.folders.below p).isEmpty

/-! ## Listings -/

/-- Whether a path that begins as those below a directory do lies directly in it. -/
def isChild (dir p : FullPath) : Bool :=
  let rest := p.text.drop dir.childPrefix.length
  !rest.isEmpty && !rest.contains '/'

/-- What lies directly in a directory, in the order of the paths. -/
def children (fs : FileSystem) (dir : FullPath) : List FullPath :=
  let below := (fs.entries.below dir).map (·.1) ++ (fs.folders.below dir).map (·.1)
  (below.filter (isChild dir)).mergeSort fun p q => !(q < p : Bool)

/-- The paths in a directory. -/
def list (fs : FileSystem) (p : FullPath) : Except FileError (List FullPath) :=
  if fs.isDir p then .ok (fs.children p)
  else if fs.isFile p then .error (.notDirectory p)
  else .error (fs.missing p)

/-- All directories. -/
def dirs (fs : FileSystem) : List FullPath := fs.folders.items.map (·.1)

/-- All files with their contents and modes. -/
def files (fs : FileSystem) : List (FullPath × List UInt8 × Nat) :=
  fs.entries.items.map fun (p, entry) => (p, entry.content, entry.mode)

/-- All environment variables, in the order of their names. -/
def environment (fs : FileSystem) : List (String × String) :=
  fs.env.mergeSort fun x y => !(y.1 < x.1 : Bool)

/-- Whether two file systems hold the same; times are compared as numbers. -/
def same (a b : FileSystem) : Bool :=
  a.dirs == b.dirs && a.files == b.files && a.environment == b.environment && a.time == b.time

end FileSystem

end Resumable
