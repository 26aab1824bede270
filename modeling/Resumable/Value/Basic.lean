import Resumable.Budget
import Resumable.Builtin
import Resumable.Location
import Resumable.Program.Tree

/-!
# Values

The values of a running program. Lists, dicts and iterators can change, so they live in the heap
and a value refers to them by their number; all other values are self-contained.
-/

namespace Resumable

/-- A position in the code of a function, as an entry of a traceback. -/
structure CallSite where
  function : Nat
  span : Span
deriving DecidableEq, Repr, Inhabited

/-- An exception inside a run. -/
structure Raised where
  type : ExceptionType
  message : Option String
  /-- The frames it has left or was raised in, outermost first. -/
  traceback : List CallSite
  /-- The limit whose overrun it reports. -/
  limit : Option LimitError
deriving DecidableEq, Repr, Inhabited

/-- An exception that has not been raised yet. One that comes from another run may report a limit
of that run. -/
def Raised.fresh (type : ExceptionType) (message : Option String)
    (limit : Option LimitError := none) : Raised :=
  ⟨type, message, [], limit⟩

/-- A value of a running program. -/
inductive Value where
  /-- A variable that nothing has been assigned to. -/
  | undefined
  | none
  | ellipsis
  | bool (b : Bool)
  | int (i : Int64)
  | float (x : Float)
  | str (s : String)
  | bytes (data : List UInt8)
  | tuple (items : List Value)
  | path (p : String)
  | exception (e : Raised)
  | namedTuple (type : String) (fields : List String) (items : List Value)
  /-- A list, dict or iterator, by its number in the heap. -/
  | ref (id : Nat)
  /-- A function of the program: its code and the defaults of its last parameters. -/
  | function (code : Nat) (defaults : List Value)
  /-- A function of the host, by its index among them. -/
  | external (index : Nat)
  | builtin (function : Builtin)
  | excClass (type : ExceptionType)
  | module (module : Module)
  /-- The result of a host call that the host has not given yet. -/
  | future (id : Nat)
  /-- The results of several awaitable values. -/
  | gather (items : List Value)
  | range (start stop step : Int64)
  | slice (start stop step : Option Int64)
deriving Inhabited

/-- The float that is nearest to an integer; of two that are, the one with the even mantissa. -/
def toNearestFloat (i : Int64) : Float :=
  let magnitude := (UInt64.ofNat i.toInt.natAbs).toFloat
  if i < 0 then -magnitude else magnitude

namespace Value

/-- The value of a literal. -/
def ofLiteral : Literal → Value
  | .none => .none
  | .ellipsis => .ellipsis
  | .bool b => .bool b
  | .int i => .int i
  | .float x => .float x
  | .string s => .str s
  | .bytes data => .bytes data

/-- A value that is an integer, or a truth value taken as one. -/
def int? : Value → Option Int64
  | .bool b => some (if b then 1 else 0)
  | .int i => some i
  | _ => Option.none

/-- A value that is a number, as a float. -/
def number? : Value → Option Float
  | .float x => some x
  | .bool b => some (if b then 1.0 else 0.0)
  | .int i => some (toNearestFloat i)
  | _ => Option.none

mutual

/-- Whether two values are built alike: floats are compared as numbers, and references by what they
refer to being the same entry. -/
def same : Value → Value → Bool
  | .undefined, .undefined => true
  | .none, .none => true
  | .ellipsis, .ellipsis => true
  | .bool a, .bool b => a == b
  | .int a, .int b => a == b
  | .float a, .float b => a == b
  | .str a, .str b => a == b
  | .bytes a, .bytes b => a == b
  | .tuple as, .tuple bs => allSame as bs
  | .path a, .path b => a == b
  | .exception a, .exception b => a == b
  | .namedTuple t fs as, .namedTuple u gs bs => t == u && fs == gs && allSame as bs
  | .ref a, .ref b => a == b
  | .function c as, .function d bs => c == d && allSame as bs
  | .external a, .external b => a == b
  | .builtin a, .builtin b => a == b
  | .excClass a, .excClass b => a == b
  | .module a, .module b => a == b
  | .future a, .future b => a == b
  | .gather as, .gather bs => allSame as bs
  | .range a b c, .range d e f => a == d && b == e && c == f
  | .slice a b c, .slice d e f => a == d && b == e && c == f
  | _, _ => false

def allSame : List Value → List Value → Bool
  | [], [] => true
  | a :: as, b :: bs => same a b && allSame as bs
  | _, _ => false

end

mutual

/-- The numbers of the heap entries that a value refers to, in front of `rest`. -/
def refs (rest : List Nat) : Value → List Nat
  | .ref id => id :: rest
  | .tuple items | .gather items | .namedTuple _ _ items | .function _ items => allRefs rest items
  | _ => rest

def allRefs (rest : List Nat) : List Value → List Nat
  | [] => rest
  | v :: vs => allRefs (refs rest v) vs

end

end Value

/-- The number of integers from `start` on in steps of `step` before `stop`. The arithmetic wraps,
as that of the loop over the range does. -/
def rangeLength (start stop step : Int64) : Int64 :=
  if step > 0 && start < stop then (stop - start - 1) / step + 1
  else if step < 0 && start > stop then (start - stop - 1) / (-step) + 1
  else 0

/-- The integers of a range. -/
def rangeItems (start stop step : Int64) : List Value :=
  (List.range (rangeLength start stop step).toInt.toNat).map fun i =>
    .int (start + Int64.ofNat i * step)

end Resumable
