import Resumable.Machine.Basic
import Resumable.Operation.TextMethods

/-!
# Calls

Calls of functions of the program, of builtin functions, of exception types and of the host, and the
attributes and methods of values.
-/

namespace Resumable.Machine

/-! ## Binding of arguments -/

/-- The locals with a keyword argument. -/
def bindNamed (function : String) (params : List String) (locals : Array Value)
    (name : String) (v : Value) : Except Failure (Array Value) :=
  match params.findIdx? (· == name) with
  | none => .error (.typeError s!"{function}() got an unexpected keyword argument '{name}'")
  | some i =>
    match locals[i]? with
    | some .undefined => .ok (locals.setIfInBounds i v)
    | _ => .error (.typeError s!"{function}() got multiple values for argument '{name}'")

/-- The locals with all keyword arguments. -/
def bindAllNamed (function : String) (params : List String) (locals : Array Value) :
    List (String × Value) → Except Failure (Array Value)
  | [] => .ok locals
  | (name, v) :: rest =>
    match bindNamed function params locals name v with
    | .ok locals => bindAllNamed function params locals rest
    | .error e => .error e

/-- Names in quotes, with `and` before the last one. -/
def nameList (names : List String) : String :=
  let quoted := names.map fun name => "'" ++ name ++ "'"
  match quoted.reverse with
  | [] => ""
  | [one] => one
  | last :: before => ", ".intercalate before.reverse ++ " and " ++ last

/-- Whether a local has no value yet. -/
def isUnset (locals : Array Value) (i : Nat) : Bool := locals[i]? matches some .undefined

/-- The parameters before the first default that have no value. -/
def missingParams (params : List String) (firstDefault : Nat) (locals : Array Value) :
    List String :=
  params.zipIdx.filterMap fun (name, i) =>
    if i < firstDefault && isUnset locals i then some name else none

/-- The locals with defaults for the parameters between `first` and `stop` that have no value. -/
def fillDefaults (defaults : List Value) (first stop : Nat) (locals : Array Value) :
    Array Value :=
  locals.mapIdx fun i v =>
    match v with
    | .undefined => if first ≤ i && i < stop then (defaults[i - first]?).getD v else v
    | v => v

/-- The locals of a call: parameters get the positional arguments, then the keyword arguments, then
their defaults, and all other locals have no value yet. -/
def bindArguments (code : Code) (defaults : List Value) (args : Arguments) :
    Except Failure (Array Value) :=
  let function := code.name
  let params := code.params
  let given := args.positional.length
  let expected := params.length
  if given > expected then
    let noun := "argument" ++ plural expected
    let were := if given == 1 then "was" else "were"
    .error (.typeError
      s!"{function}() takes {expected} positional {noun} but {given} {were} given")
  else
    let unset := List.replicate (code.locals.length - given) Value.undefined
    match bindAllNamed function params (args.positional ++ unset).toArray args.named with
    | .error e => .error e
    | .ok locals =>
      let firstDefault := expected - defaults.length
      let missing := missingParams params firstDefault locals
      if missing.isEmpty then .ok (fillDefaults defaults firstDefault expected locals)
      else
        let count := missing.length
        let noun := "argument" ++ plural count
        let names := nameList missing
        .error (.typeError s!"{function}() missing {count} required positional {noun}: {names}")

/-! ## Calls of values -/

/-- Enters a function of the program. -/
def enter (code : Bytecode) (function : Nat) (defaults : List Value) (args : Arguments) :
    Exec Unit := do
  match code.functions[function]? with
  | none => throw (.exception .runtimeError "unknown function")
  | some c => do
    match bindArguments c defaults args with
    | .error e => throw e
    | .ok locals => do
      let depth := (← get).depth
      onHeap do Heap.withinLimit ((← get).budget.checkDepth depth)
      modify fun m =>
        { m with
          frame := .start function locals m.stack.length m.handled.length
          callers := m.frame :: m.callers }
      trace fun m => .call c.name m.depth

/-- The exception that a call of an exception type makes: its message is the text of a single
argument, or the spelling of several ones. -/
def makeException (type : ExceptionType) (args : Arguments) : Heap.Action Value := do
  args.noNamed type.name
  let h ← get
  let message := match args.positional with
    | [] => none
    | [v] => some (h.text v)
    | vs => some (h.literal (.tuple vs))
  return .exception (.fresh type message)

/-- Pushes the value of a reply, or pauses for the host. -/
def settle : Reply → Exec (Option Exit)
  | .value v => do
    push v
    return none
  | .output chunks => do
    writeAll chunks
    push .none
    return none
  | .request function args => do
    let call ← beginCall
    trace fun _ => .pause .os (some call)
    return some (.osCall function args call)

/-- Calls a value. -/
def callValue (code : Bytecode) (v : Value) (args : Arguments) : Exec (Option Exit) := do
  match v with
  | .function function defaults => do
    enter code function defaults args
    return none
  | .external function => do
    let call ← beginCall
    trace fun _ => .pause .function (some call)
    return some (.externalCall function args call)
  | .builtin function => do settle (← onHeap (BuiltinCall.call function args))
  | .excClass type => do
    push (← onHeap (makeException type args))
    return none
  | v =>
    let kind := (← get).heap.typeName v
    throw (.typeError s!"'{kind}' object is not callable")

/-! ## Attributes and methods -/

/-- The failure of an attribute that a value does not have. -/
def noAttribute (h : Heap) (v : Value) (name : String) : Failure :=
  .exception .attributeError
    ("'" ++ h.typeName v ++ "' object has no attribute '" ++ name ++ "'")

/-- An attribute of a module. -/
def moduleAttribute (module : Module) (name : String) : Except Failure Reply :=
  match module, name with
  | .os, "environ" => .ok (.request .getEnviron ⟨[], []⟩)
  | .os, "getenv" => .ok (.value (.builtin .getenv))
  | .asyncio, "gather" => .ok (.value (.builtin .gather))
  | .pathlib, "Path" | .pathlib, "PurePosixPath" | .pathlib, "PosixPath" =>
    .ok (.value (.builtin .path))
  | _, _ =>
    .error (.exception .attributeError
      ("module '" ++ module.name ++ "' has no attribute '" ++ name ++ "'"))

/-- An attribute that is part of a value. -/
def ownAttribute? (v : Value) (name : String) : Option Value :=
  match v with
  | .path p => PathMethod.attribute? p name
  | .namedTuple _ fields items => (fields.findIdx? (· == name)).bind fun i => items[i]?
  | .exception e =>
    if name == "args" then some (.tuple (e.message.toList.map .str)) else none
  | _ => none

/-- An attribute of a value. -/
def attributeOf (h : Heap) (v : Value) (name : String) : Except Failure Reply :=
  match v with
  | .module module => moduleAttribute module name
  | v =>
    match ownAttribute? v name with
    | some found => .ok (.value found)
    | none => .error (noAttribute h v name)

/-- Pushes an attribute of a value, or pauses for the host. -/
def getAttribute (v : Value) (name : String) : Exec (Option Exit) := do
  match attributeOf (← get).heap v name with
  | .ok reply => settle reply
  | .error e => throw e

/-- The action of a method that needs no host; `none` if the value has no such method. -/
def pureMethod (h : Heap) (v : Value) (name : String) (args : Arguments) :
    Option (Heap.Action Value) :=
  match v with
  | .path p => PathMethod.call p name args
  | .str s => TextMethod.call s name args
  | .bytes data => TextMethod.callBytes data name args
  | .ref id =>
    match h.cell? id with
    | some (.list _) => ListMethod.call id name args
    | some (.dict _) => DictMethod.call id name args
    | _ => none
  | _ => none

/-- Calls a method of a value that needs no attribute. -/
def callOwnMethod (v : Value) (name : String) (args : Arguments) : Exec (Option Exit) := do
  match pureMethod (← get).heap v name args with
  | some act => do
    push (← onHeap act)
    return none
  | none => throw (noAttribute (← get).heap v name)

/-- Calls a method of a value. Of modules, named tuples and exceptions, the attribute is called; the
methods of paths that need the file system are requests to the host. -/
def callMethod (code : Bytecode) (v : Value) (name : String) (args : Arguments) :
    Exec (Option Exit) := do
  match v with
  | .module _ | .namedTuple .. | .exception _ => do
    match ← getAttribute v name with
    | some exit => return some exit
    | none => do
      let callee ← pop
      callValue code callee args
  | .path p =>
    match OsFunction.ofPathMethod? name with
    | some function => settle (.request function ⟨.path p :: args.positional, args.named⟩)
    | none => callOwnMethod v name args
  | v => callOwnMethod v name args

end Resumable.Machine
