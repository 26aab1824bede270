import Resumable.FileSystem.Change
import Resumable.Host.Handler

/-!
# File systems as hosts

A file system can answer the calls of a program for files and variables. An answer comes with the
new file system if the call was one for a change and succeeded.

An argument is given by position or by name; a position wins.
-/

namespace Resumable

/-- A call of a program for an operation on files or variables. -/
structure OsRequest where
  function : OsFunction
  args : List Object
  named : List (String × Object)

namespace OsRequest

/-- The failure that an error of the file system is to a program. -/
def failure (e : FileError) : HandlerFailure := ⟨e.exceptionType, e.message⟩

/-- An argument, if it is given. -/
def arg? (r : OsRequest) (position : Nat) (name : String) : Option Object :=
  match r.args[position]? with
  | some v => some v
  | none => r.named.lookup name

/-- An argument that must be given, and be of a type for which `read` gives its content. -/
def required {α : Type} (r : OsRequest) (position : Nat) (name expected : String)
    (read : Object → Option α) : Except HandlerFailure α :=
  let function := r.function.name
  match r.arg? position name with
  | none => .error ⟨.typeError, s!"{function}() missing required argument: '{name}'"⟩
  | some v =>
    match read v with
    | some a => .ok a
    | none =>
      let given := v.typeName
      .error ⟨.typeError, s!"{function}() argument '{name}' must be {expected}, not {given}"⟩

/-- An argument that is a path. -/
def fullPath (r : OsRequest) (position : Nat) (name : String) : Except HandlerFailure FullPath :=
  r.required position name "str or Path" fun
    | .path p | .string p => some (.ofString p)
    | _ => none

/-- The path that the operation is on. -/
def target (r : OsRequest) : Except HandlerFailure FullPath := r.fullPath 0 "path"

/-- An argument that is a text. -/
def text (r : OsRequest) (position : Nat) (name : String) : Except HandlerFailure String :=
  r.required position name "str" fun
    | .string s => some s
    | _ => none

/-- An argument that is a byte string. -/
def bytes (r : OsRequest) (position : Nat) (name : String) : Except HandlerFailure (List UInt8) :=
  r.required position name "bytes" fun
    | .bytes data => some data
    | _ => none

/-- An argument that is a condition; it does not hold if it is not given. -/
def flag (r : OsRequest) (position : Nat) (name : String) : Bool :=
  (r.arg? position name).any Object.isTruthy

end OsRequest

namespace FileSystem

/-- A result of an operation as the result of a handler. -/
def orFailure {α : Type} (r : Except FileError α) : Except HandlerFailure α :=
  r.mapError OsRequest.failure

/-- Answers a call, with the new file system if it is one for a change. -/
def answer (fs : FileSystem) (r : OsRequest) :
    Except HandlerFailure (Object × Option FileSystem) := do
  match r.function with
  | .exists => return (.bool (fs.contains (← r.target)), none)
  | .isFile => return (.bool (fs.isFile (← r.target)), none)
  | .isDir => return (.bool (fs.isDir (← r.target)), none)
  | .isSymlink =>
    let _ ← r.target
    return (.bool false, none)
  | .readText => return (.string (← orFailure (fs.readText (← r.target))), none)
  | .readBytes => return (.bytes (← orFailure (fs.readBytes (← r.target))), none)
  | .writeText =>
    let data := Text.utf8 (← r.text 1 "data")
    let next ← orFailure (fs.write (← r.target) data)
    return (.int (Int64.ofNat data.length), some next)
  | .writeBytes =>
    let data ← r.bytes 1 "data"
    let next ← orFailure (fs.write (← r.target) data)
    return (.int (Int64.ofNat data.length), some next)
  | .mkdir =>
    let parents := r.flag 2 "parents"
    let mayExist := r.flag 3 "exist_ok"
    let next ← orFailure (fs.createDir (← r.target) parents mayExist)
    return (.none, some next)
  | .unlink => return (.none, some (← orFailure (fs.removeFile (← r.target))))
  | .rmdir => return (.none, some (← orFailure (fs.removeDir (← r.target))))
  | .iterdir =>
    let paths ← orFailure (fs.list (← r.target))
    return (.list (paths.map fun p => .path (toString p)), none)
  | .stat => return ((← orFailure (fs.status (← r.target))).toObject, none)
  | .rename =>
    let target ← r.fullPath 1 "target"
    let next ← orFailure (fs.rename (← r.target) target)
    return (.path (toString target), some next)
  | .resolve | .absolute => return (.path (toString (← r.target)), none)
  | .getenv =>
    match fs.valueOf? (← r.text 0 "key") with
    | some value => return (.string value, none)
    | none => return ((r.arg? 1 "default").getD .none, none)
  | .getEnviron =>
    return (.dict (fs.environment.map fun (name, value) => (.string name, .string value)), none)

/-- Answers a call of a program. -/
def handle (fs : FileSystem) (r : OsRequest) : HandlerResult × Option FileSystem :=
  match fs.answer r with
  | .ok (v, next) => (.success v, next)
  | .error f => (.failure f, none)

end FileSystem

end Resumable
