import Resumable.Operation.Binary
import Resumable.Operation.ContainerMethods
import Resumable.Operation.Numerals
import Resumable.Operation.PathMethods
import Resumable.OsFunction
import Resumable.Output

/-!
# Calls of builtin functions

What each builtin function does with its arguments. Most give a value; `print` gives a text to be
written, and a function that needs the host gives the request.
-/

namespace Resumable

open Heap (Action)

/-- What the call of a builtin function or a method comes to. -/
inductive Reply where
  | value (v : Value)
  /-- Pieces for the output; the value is none. -/
  | output (chunks : List Chunk)
  | request (function : OsFunction) (args : Arguments)

namespace BuiltinCall

/-- An argument of `print` that must be a text or none. -/
def textOption (name : String) : Option Value → Action (Option String)
  | none | some .none => pure none
  | some (.str s) => pure (some s)
  | some v => do
    let kind := (← get).typeName v
    throw (.typeError s!"{name} must be None or a string, not {kind}")

/-- The pieces that `print` writes for texts: a separator or an ending that is not given is one
character. -/
def printed (separator ending : Option String) (texts : List String) : List Chunk :=
  let between : Chunk := separator.elim (.char ' ') .text
  let last : Chunk := ending.elim (.char '\n') .text
  (texts.map Chunk.text).intersperse between ++ [last]

/-- The call of `print`. -/
def print (args : Arguments) : Action Reply := do
  let (separator, args) := args.take "sep"
  let separator ← textOption "sep" separator
  let (ending, args) := args.take "end"
  let ending ← textOption "end" ending
  let (_, args) := args.take "flush"
  args.noNamed "print"
  let h ← get
  let texts := args.positional.map h.text
  return .output (printed separator ending texts)

/-- The call of `len`. -/
def len (v : Value) : Action Value := do
  let h ← get
  let missing := Failure.typeError ("object of type '" ++ h.typeName v ++ "' has no len()")
  match v with
  | .str s => return .int (Int64.ofNat s.length)
  | .bytes data => return .int (Int64.ofNat data.length)
  | .tuple items | .namedTuple _ _ items => return .int (Int64.ofNat items.length)
  | .range start stop step => return .int (rangeLength start stop step)
  | .ref id =>
    match h.cell? id with
    | some (.list items) => return .int (Int64.ofNat items.size)
    | some (.dict d) => return .int (Int64.ofNat d.size)
    | _ => throw missing
  | _ => throw missing

/-- The call of `range`. -/
def range (args : Arguments) : Action Value := do
  let bounds ← (← args.between "range" 1 (some 3)).mapM fun v =>
    match v.int? with
    | some i => pure i
    | none => throw (Failure.typeError "range() arguments must be integers")
  let (start, stop, step) : Int64 × Int64 × Int64 := match bounds with
    | [stop] => (0, stop, 1)
    | [start, stop] => (start, stop, 1)
    | start :: stop :: step :: _ => (start, stop, step)
    | [] => (0, 0, 1)
  if step == 0 then throw (.valueError "range() arg 3 must not be zero")
  return .range start stop step

/-- The call of `sorted`. -/
def sorted (args : Arguments) : Action Value := do
  let (reverse, args) := args.take "reverse"
  let descending := reverse.any (← get).isTruthy
  let (key, args) := args.take "key"
  if key.isSome then
    throw (.exception .notImplementedError "sorted() does not support the key argument")
  let items ← Heap.items (← args.one "sorted")
  let (items, failed) := (← get).sorted descending items
  match failed with
  | some e => throw e
  | none => Heap.allocList items

/-- The sum of items on top of `total`. -/
def sumFrom (total : Value) : List Value → Action Value
  | [] => pure total
  | v :: rest => do
    let total ← Heap.binary .add total v
    sumFrom total rest

/-- The call of `sum`. -/
def sum (args : Arguments) : Action Value := do
  let (named, args) := args.take "start"
  let (iterable, start) ← args.oneOrTwo "sum"
  let total := (named.or start).getD (.int 0)
  if total matches .str _ then
    throw (.typeError "sum() can't sum strings [use ''.join(seq) instead]")
  sumFrom total (← Heap.items iterable).toList

/-- The first of the extreme items, of which `best` is one so far. -/
def extremeFrom (wanted : Ordering) (best : Value) : List Value → Action Value
  | [] => pure best
  | v :: rest => do
    let ordering ← Heap.compare v best
    extremeFrom wanted (if ordering == wanted then v else best) rest

/-- The items that `min` or `max` chooses from. -/
def candidates (name : String) (hasDefault : Bool) : List Value → Action (List Value)
  | [] => throw (.typeError s!"{name} expected at least 1 argument, got 0")
  | [iterable] => return (← Heap.items iterable).toList
  | items =>
    if hasDefault then
      throw (.typeError
        s!"Cannot specify a default for {name}() with multiple positional arguments")
    else pure items

/-- The call of `min` or `max`. -/
def extreme (name : String) (wanted : Ordering) (args : Arguments) : Action Value := do
  let (default, args) := args.take "default"
  args.noNamed name
  match ← candidates name default.isSome args.positional, default with
  | best :: rest, _ => extremeFrom wanted best rest
  | [], some v => return v
  | [], none => throw (.valueError s!"{name}() iterable argument is empty")

/-- Whether a value is of the type that a builtin function stands for; `none` if it stands for no
type. -/
def typeTest (h : Heap) (v : Value) : Builtin → Option Bool
  | .int => some (v matches .int _ | .bool _)
  | .bool => some (v matches .bool _)
  | .float => some (v matches .float _)
  | .str => some (v matches .str _)
  | .tuple => some (v matches .tuple _ | .namedTuple ..)
  | .list => some (cell matches some (.list _))
  | .dict => some (cell matches some (.dict _))
  | .range => some (v matches .range ..)
  | .path => some (v matches .path _)
  | _ => none
where
  cell : Option Cell := match v with
    | .ref id => h.cell? id
    | _ => none

mutual

/-- Whether a value is an instance of a class, or of one in a tuple of classes; `none` if a value
that is asked about is no class. -/
def isInstance (h : Heap) (v : Value) : Value → Option Bool
  | .tuple classes => isInstanceOfAny h v classes
  | .excClass type =>
    match v with
    | .exception e => some (e.type.isSubclassOf type)
    | _ => some false
  | .builtin function => typeTest h v function
  | _ => none

def isInstanceOfAny (h : Heap) (v : Value) : List Value → Option Bool
  | [] => some false
  | c :: rest =>
    match isInstance h v c with
    | some false => isInstanceOfAny h v rest
    | answer => answer

end

/-- The call of `isinstance`. -/
def isinstance (args : Arguments) : Action Value := do
  let (v, classes) ← args.two "isinstance"
  match isInstance (← get) v classes with
  | some answer => return .bool answer
  | none =>
    throw (.typeError "isinstance() arg 2 must be a type, a tuple of types, or a union")

/-- An iterator over given items. -/
def iteratorOf (items : List Value) : Action Value := Heap.alloc (.iter (.items items.toArray 0))

/-- The number that an enumeration starts with. -/
def enumerateStart : Option Value → Action Int64
  | some (.int i) => pure i
  | none => pure 0
  | some v => do throw ((← get).notAnInteger v)

/-- The enumeration of the items of the one argument. -/
def enumerateFrom (start : Option Value) (args : Arguments) : Action Value := do
  let start ← enumerateStart start
  let items ← Heap.items (← args.one "enumerate")
  iteratorOf (items.toList.zipIdx.map fun (v, i) => .tuple [.int (start + Int64.ofNat i), v])

/-- The call of `enumerate`. -/
def enumerate (args : Arguments) : Action Value :=
  let (named, args) := args.take "start"
  match named, args.positional with
  | none, [iterable, v] => enumerateFrom (some v) { args with positional := [iterable] }
  | named, _ => enumerateFrom named args

/-- The call of `zip`. -/
def zip (args : Arguments) : Action Value := do
  args.noNamed "zip"
  let columns ← args.positional.mapM Heap.items
  let count := ((columns.map (·.size)).min?).getD 0
  iteratorOf ((List.range count).map fun i => .tuple (columns.filterMap (·[i]?)))

/-- The call of `getenv`, which asks the host. -/
def getenv (args : Arguments) : Action Reply := do
  let (named, args) := args.take "default"
  match ← args.between "getenv" 1 (some 2) with
  | key :: rest =>
    let default := (named.or rest.head?).getD .none
    match key with
    | .str _ => return .request .getenv ⟨[key, default], []⟩
    | v =>
      let kind := (← get).typeName v
      throw (.typeError s!"str expected, not {kind}")
  | [] => return .value .none

/-- Calls a builtin function. -/
def call (function : Builtin) (args : Arguments) : Action Reply :=
  match function with
  | .print => print args
  | .getenv => getenv args
  | .len => .value <$> do len (← args.one "len")
  | .str => .value <$> do
    match ← args.atMostOne "str" with
    | some v => return .str ((← get).text v)
    | none => return .str ""
  | .repr => .value <$> do
    let v ← args.one "repr"
    return .str ((← get).literal v)
  | .int => .value <$> Numeral.int args
  | .float => .value <$> Numeral.float args
  | .bool => .value <$> do
    let v ← args.atMostOne "bool"
    return .bool (v.any (← get).isTruthy)
  | .list => .value <$> do
    match ← args.atMostOne "list" with
    | some v => do Heap.allocList (← Heap.items v)
    | none => Heap.allocList #[]
  | .tuple => .value <$> do
    match ← args.atMostOne "tuple" with
    | some v => return .tuple (← Heap.items v).toList
    | none => return .tuple []
  | .dict => .value <$> do
    let entries ← DictMethod.entriesOfCall "dict" args
    let d ← entries.foldlM (fun (d : Dict) (name, value) => do
      return d.insert (← Heap.key name) name value) .empty
    Heap.alloc (.dict d)
  | .range => .value <$> range args
  | .sorted => .value <$> sorted args
  | .sum => .value <$> sum args
  | .min => .value <$> extreme "min" .lt args
  | .max => .value <$> extreme "max" .gt args
  | .abs => .value <$> do Numeral.magnitude (← args.one "abs")
  | .round => .value <$> Numeral.round args
  | .isinstance => .value <$> isinstance args
  | .any => .value <$> do
    let items ← Heap.items (← args.one "any")
    return .bool (items.any (← get).isTruthy)
  | .all => .value <$> do
    let items ← Heap.items (← args.one "all")
    return .bool (items.all (← get).isTruthy)
  | .enumerate => .value <$> enumerate args
  | .zip => .value <$> zip args
  | .reversed => .value <$> do
    let items ← Heap.items (← args.one "reversed")
    iteratorOf items.toList.reverse
  | .path => .value <$> do
    args.noNamed "Path"
    return .path (String.ofList (← PathMethod.joinAll ['.'] args.positional))
  | .gather => .value <$> do
    args.noNamed "gather"
    return .gather args.positional

end BuiltinCall

end Resumable
