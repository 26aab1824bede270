/-!
# Builtin functions

The functions that every program can call without an import, and the three that imports provide.
-/

namespace Resumable

/-- A builtin function. -/
inductive Builtin where
  | abs
  | all
  | any
  | bool
  | dict
  | enumerate
  | float
  | int
  | isinstance
  | len
  | list
  | max
  | min
  | print
  | range
  | repr
  | reversed
  | round
  | sorted
  | str
  | sum
  | tuple
  | zip
  /-- The class of paths, from the module `pathlib`. -/
  | path
  /-- From the module `asyncio`. -/
  | gather
  /-- From the module `os`. -/
  | getenv
deriving DecidableEq, Repr, Inhabited

namespace Builtin

/-- The name of a builtin function in messages. -/
def name : Builtin → String
  | .abs => "abs"
  | .all => "all"
  | .any => "any"
  | .bool => "bool"
  | .dict => "dict"
  | .enumerate => "enumerate"
  | .float => "float"
  | .int => "int"
  | .isinstance => "isinstance"
  | .len => "len"
  | .list => "list"
  | .max => "max"
  | .min => "min"
  | .print => "print"
  | .range => "range"
  | .repr => "repr"
  | .reversed => "reversed"
  | .round => "round"
  | .sorted => "sorted"
  | .str => "str"
  | .sum => "sum"
  | .tuple => "tuple"
  | .zip => "zip"
  | .path => "Path"
  | .gather => "gather"
  | .getenv => "getenv"

/-- The functions that are known without an import. -/
def predefined : List Builtin :=
  [.abs, .all, .any, .bool, .dict, .enumerate, .float, .int, .isinstance, .len, .list, .max, .min,
   .print, .range, .repr, .reversed, .round, .sorted, .str, .sum, .tuple, .zip]

/-- The function that a name means without an import. -/
def ofName? (name : String) : Option Builtin :=
  predefined.find? (·.name == name)

end Builtin

end Resumable
