import Resumable.FileSystem.Basic

/-!
# Changes of file systems

Every change gives a new file system. Those that build a file system always succeed, and put aside
what is in their way; the others keep to the rules of files and fail if these do not allow them.
-/

namespace Resumable.FileSystem

/-- Makes the directories that a path lies in, in place of files. -/
def makeAncestors (fs : FileSystem) (p : FullPath) : FileSystem :=
  let missing := p.ancestors.filter fun dir => !fs.isDir dir
  { fs with
    entries := missing.foldl .erase fs.entries
    folders := missing.foldl (·.insert · ()) fs.folders }

/-- Removes what is at a path and everything below it. -/
def removeWithin (fs : FileSystem) (p : FullPath) : FileSystem :=
  let files := (fs.entries.below p).map (·.1)
  let dirs := (fs.folders.below p).map (·.1)
  { fs with
    entries := files.foldl .erase (fs.entries.erase p)
    folders := dirs.foldl .erase (fs.folders.erase p) }

/-- Puts a file at a path. -/
def putFile (fs : FileSystem) (p : FullPath) (entry : FileEntry) : FileSystem :=
  { fs with entries := fs.entries.insert p entry }

/-- Puts a directory at a path. -/
def putDir (fs : FileSystem) (p : FullPath) : FileSystem :=
  { fs with folders := fs.folders.insert p () }

/-! ## Building -/

/-- Puts a file at a path, whatever is there or on the way to it. The root cannot be replaced. -/
def withFile (fs : FileSystem) (p : FullPath) (content : List UInt8) (mode : Nat) : FileSystem :=
  if p == .root then fs
  else ((fs.removeWithin p).makeAncestors p).putFile p ⟨content, mode % 0o10000⟩

/-- Puts a directory at a path, whatever files are there or on the way to it. -/
def withDir (fs : FileSystem) (p : FullPath) : FileSystem :=
  ({ fs with entries := fs.entries.erase p }.makeAncestors p).putDir p

/-- Sets an environment variable. -/
def withVariable (fs : FileSystem) (name value : String) : FileSystem :=
  { fs with env := (name, value) :: fs.env.filter (·.1 != name) }

/-- Sets the time stamp. -/
def withTime (fs : FileSystem) (time : Float) : FileSystem := { fs with time }

/-! ## Operations -/

/-- Writes a file, with the directories on the way to it. A file that exists keeps its mode. -/
def write (fs : FileSystem) (p : FullPath) (content : List UInt8) : Except FileError FileSystem :=
  if fs.isDir p then .error (.isDirectory p)
  else if fs.isBlocked p then .error (.notDirectory p)
  else
    let mode := ((fs.entries.get? p).map (·.mode)).getD defaultFileMode
    .ok ((fs.makeAncestors p).putFile p ⟨content, mode⟩)

/-- Makes a directory: with the directories on the way to it if `parents` is set, and without
complaint about a directory that exists if `mayExist` is set. -/
def createDir (fs : FileSystem) (p : FullPath) (parents mayExist : Bool) :
    Except FileError FileSystem :=
  if fs.isDir p then if mayExist then .ok fs else .error (.alreadyExists p)
  else if fs.isFile p then .error (.alreadyExists p)
  else if fs.isBlocked p then .error (.notDirectory p)
  else if !p.parent?.any fs.isDir && !parents then .error (.notFound p)
  else .ok ((fs.makeAncestors p).putDir p)

/-- Removes a file. -/
def removeFile (fs : FileSystem) (p : FullPath) : Except FileError FileSystem :=
  if fs.isDir p then .error (.isDirectory p)
  else if !fs.isFile p then .error (fs.missing p)
  else .ok { fs with entries := fs.entries.erase p }

/-- Removes an empty directory. -/
def removeDir (fs : FileSystem) (p : FullPath) : Except FileError FileSystem :=
  if !fs.isDir p then
    if fs.isFile p then .error (.notDirectory p) else .error (fs.missing p)
  else if p == .root then .error (.denied p)
  else if fs.isOccupied p then .error (.notEmpty p)
  else .ok { fs with folders := fs.folders.erase p }

/-- The path at which `p`, which lies below `source`, is after `source` has become `target`. -/
def relocated (source target p : FullPath) : FullPath :=
  ⟨target.text ++ p.text.drop source.text.length⟩

/-- Moves a directory with everything in it. -/
def moveDir (fs : FileSystem) (source target : FullPath) : FileSystem :=
  let files := (fs.entries.below source).map (·.1)
  let dirs := (fs.folders.below source).map (·.1)
  let new := relocated source target
  { fs with
    entries := files.foldl (fun m old => m.move old (new old)) fs.entries
    folders := (dirs.foldl (fun m old => (m.erase old).insert (new old) ())
      (fs.folders.erase source)).insert target () }

/-- Moves a file. -/
def moveFile (fs : FileSystem) (source target : FullPath) : FileSystem :=
  { fs with entries := fs.entries.move source target }

/-- Renames a file, or a directory with everything in it. It takes the place of a file, if it is
one, or of an empty directory, if it is one. -/
def rename (fs : FileSystem) (source target : FullPath) : Except FileError FileSystem :=
  if !fs.isDir source && !fs.isFile source then .error (fs.missing source)
  else if source == target then .ok fs
  else if source == .root || target.isBelow source then .error (.invalidArgument target)
  else if fs.isBlocked target then .error (.notDirectory target)
  else if !target.parent?.any fs.isDir then .error (.notFound target)
  else if fs.isDir source then
    if fs.isFile target then .error (.notDirectory target)
    else if fs.isDir target && fs.isOccupied target then .error (.notEmpty target)
    else .ok (fs.moveDir source target)
  else if fs.isDir target then .error (.isDirectory target)
  else .ok (fs.moveFile source target)

end Resumable.FileSystem
