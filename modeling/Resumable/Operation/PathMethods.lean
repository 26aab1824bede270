import Resumable.Operation.Arguments
import Resumable.Path

/-!
# Methods and attributes of paths

The pure ones, which need no file system.
-/

namespace Resumable.PathMethod

open Heap (Action)

/-- The failure of a value where a text or a path is needed. -/
def notAPath (v : Value) : Action Failure := do
  let kind := (← get).typeName v
  return .typeError s!"argument should be a str or an os.PathLike object, not '{kind}'"

/-- A path with further parts below it. -/
def joinAll (path : List Char) : List Value → Action (List Char)
  | [] => pure path
  | .str s :: rest | .path s :: rest => joinAll (Path.join path s.toList) rest
  | v :: _ => do throw (← notAPath v)

/-- The path with another last component. -/
def withName (path : String) (newName : List Char) : Action Value :=
  match Path.withName? path.toList newName with
  | some p => pure (.path (String.ofList p))
  | none => throw (.valueError s!"'{path}' has an empty name")

/-- The path with another suffix. -/
def withSuffix (path suffix : String) : Action Value :=
  if Path.isSuffix suffix.toList then
    withName path (Path.stem path.toList ++ suffix.toList)
  else throw (.valueError s!"Invalid suffix '{suffix}'")

/-- Calls a method of a path; `none` if there is no method of that name. -/
def call (path name : String) (args : Arguments) : Option (Action Value) :=
  match name with
  | "joinpath" => some do
    return .path (String.ofList (← joinAll path.toList (← args.between name 0 none)))
  | "with_suffix" => some do
    match ← args.one name with
    | .str suffix => withSuffix path suffix
    | v => throw (← notAPath v)
  | "with_name" => some do
    match ← args.one name with
    | .str newName => withName path newName.toList
    | v => throw (← notAPath v)
  | "is_absolute" => some do
    args.nothing name
    return .bool (Path.isAbsolute path.toList)
  | "as_posix" => some do
    args.nothing name
    return .str path
  | _ => none

/-- An attribute of a path. -/
def attribute? (path name : String) : Option Value :=
  let cs := path.toList
  match name with
  | "name" => some (.str (String.ofList (Path.name cs)))
  | "parent" => some (.path (String.ofList (Path.parent cs)))
  | "suffix" => some (.str (String.ofList (Path.suffix cs)))
  | "stem" => some (.str (String.ofList (Path.stem cs)))
  | "parts" => some (.tuple ((Path.parts cs).map fun part => .str (String.ofList part)))
  | _ => none

end Resumable.PathMethod
