import Resumable.ExceptionType

/-!
# Objects

The values that pass between a program and its host: inputs, the arguments and results of host
calls, and the final value. An object holds no reference to the state of a run.
-/

namespace Resumable

/-- A value outside a run. -/
inductive Object where
  | none
  | ellipsis
  | bool (b : Bool)
  | int (i : Int64)
  | float (x : Float)
  | string (s : String)
  | bytes (data : List UInt8)
  | list (items : List Object)
  | tuple (items : List Object)
  /-- Keys and values in order of insertion. -/
  | dict (entries : List (Object × Object))
  | path (path : String)
  | namedTuple (type : String) (fields : List String) (items : List Object)
  | exception (type : ExceptionType) (message : Option String)
  /-- The text of a value that exists only inside a run. -/
  | repr (text : String)
deriving Inhabited

namespace Object

/-- The name of the type of an object. -/
def typeName : Object → String
  | .none => "NoneType"
  | .ellipsis => "ellipsis"
  | .bool _ => "bool"
  | .int _ => "int"
  | .float _ => "float"
  | .string _ => "str"
  | .bytes _ => "bytes"
  | .list _ => "list"
  | .tuple _ => "tuple"
  | .dict _ => "dict"
  | .path _ => "PosixPath"
  | .namedTuple type _ _ => type
  | .exception type _ => type.name
  | .repr _ => "object"

/-- Whether an object counts as true. -/
def isTruthy : Object → Bool
  | .none => false
  | .bool b => b
  | .int i => i != 0
  | .float x => x != 0.0
  | .string s => !s.isEmpty
  | .bytes data => !data.isEmpty
  | .list items | .tuple items => !items.isEmpty
  | .dict entries => !entries.isEmpty
  | .namedTuple _ _ items => !items.isEmpty
  | _ => true

mutual

/-- Whether two objects are built alike; floats are compared as numbers. -/
def same : Object → Object → Bool
  | .none, .none => true
  | .ellipsis, .ellipsis => true
  | .bool a, .bool b => a == b
  | .int a, .int b => a == b
  | .float a, .float b => a == b
  | .string a, .string b => a == b
  | .bytes a, .bytes b => a == b
  | .list as, .list bs => allSame as bs
  | .tuple as, .tuple bs => allSame as bs
  | .dict as, .dict bs => entriesSame as bs
  | .path a, .path b => a == b
  | .namedTuple t fs as, .namedTuple u gs bs => t == u && fs == gs && allSame as bs
  | .exception t m, .exception u n => t == u && m == n
  | .repr a, .repr b => a == b
  | _, _ => false

def allSame : List Object → List Object → Bool
  | [], [] => true
  | a :: as, b :: bs => same a b && allSame as bs
  | _, _ => false

def entriesSame : List (Object × Object) → List (Object × Object) → Bool
  | [], [] => true
  | (k, v) :: as, (l, w) :: bs => same k l && same v w && entriesSame as bs
  | _, _ => false

end

instance : BEq Object := ⟨same⟩

/-! ## File status

The answer to a request for the status of a file is a named tuple of ten fields. -/

/-- The names of the fields of a file status, in order. -/
def statFields : List String :=
  ["st_mode", "st_ino", "st_dev", "st_nlink", "st_uid", "st_gid", "st_size", "st_atime",
   "st_mtime", "st_ctime"]

/-- A file status. The file has no device, no owner and one time stamp. -/
def stat (mode : Int64) (links size : Int64) (time : Float) : Object :=
  .namedTuple "os.stat_result" statFields
    [.int mode, .int 0, .int 0, .int links, .int 0, .int 0, .int size, .float time, .float time,
     .float time]

/-- The permission bits of a mode. -/
def permissions (mode : Int64) : Int64 := mode &&& 0o7777

/-- The status of a regular file. -/
def fileStat (mode size : Int64) (time : Float) : Object :=
  stat (0o100000 ||| permissions mode) 1 size time

/-- The status of a directory. -/
def dirStat (mode : Int64) (time : Float) : Object :=
  stat (0o040000 ||| permissions mode) 2 0 time

end Object

end Resumable
