import Resumable.Format
import Resumable.Machine.Call
import Resumable.Operation.Index

/-!
# Instructions

`Machine.step` executes one instruction. It ends with nothing where the run simply goes on, with an
`Exit` where the host is needed, and with a failure where an exception is raised or a limit is hit.
-/

namespace Resumable.Machine

/-! ## Exceptions -/

/-- Raises a value. -/
def raiseValue : Value → Exec Unit
  | .exception e => throw (.raised { e with traceback := [] })
  | .excClass type => throw (.raised (.fresh type none))
  | _ => throw (.typeError "exceptions must derive from BaseException")

/-- Raises the innermost exception that is being handled again. -/
def reraise : Exec Unit := do
  match (← get).handled with
  | e :: _ => do
    modify fun m => { m with reraising := true }
    throw (.raised e)
  | [] => throw (.exception .runtimeError "No active exception to reraise")

/-- Whether an exception type is one of some classes; `none` if a value that is asked about is no
exception type. -/
def matchesAny (type : ExceptionType) : List Value → Option Bool
  | [] => some false
  | .excClass c :: rest => if type.isSubclassOf c then some true else matchesAny type rest
  | _ :: _ => none

/-- Whether an `except` clause for a class, or a tuple of classes, takes an exception. -/
def matchesException (exc cls : Value) : Except Failure Bool :=
  match exc with
  | .exception e =>
    let answer := match cls with
      | .excClass c => some (e.type.isSubclassOf c)
      | .tuple classes => matchesAny e.type classes
      | _ => none
    match answer with
    | some answer => .ok answer
    | none => .error (.typeError
        "catching classes that do not inherit from BaseException is not allowed")
  | _ => .ok false

/-! ## Futures -/

/-- The result of a future, and any other value as it is. -/
def awaited (m : Machine) : Value → Except Failure Value
  | .future id =>
    match m.future? id with
    | some (.resolved v) => .ok v
    | some (.failed e) => .error (.raised { e with traceback := [] })
    | _ => .error (.exception .runtimeError s!"future {id} was never created")
  | v => .ok v

/-- The futures that a value waits for; `none` if it cannot be awaited. -/
def awaitedFutures : Value → Option (List Nat)
  | .future id => some [id]
  | .gather items => some (items.filterMap fun
      | .future id => some id
      | _ => none)
  | _ => none

/-- What an awaitable value gives when none of its futures is pending. -/
def awaitedValue (m : Machine) : Value → Exec Value
  | .gather items =>
    match items.mapM m.awaited with
    | .ok values => onHeap (Heap.allocList values.toArray)
    | .error e => throw e
  | v =>
    match m.awaited v with
    | .ok v => pure v
    | .error e => throw e

/-- Waits for the topmost operand. While a future is pending the instruction is not left, so that it
is executed again when the run goes on. -/
def await : Exec (Option Exit) := do
  let v ← peek
  let m ← get
  match awaitedFutures v with
  | none =>
    let kind := m.heap.typeName v
    throw (.typeError s!"object {kind} can't be used in 'await' expression")
  | some ids =>
    if ids.any m.isPending then do
      modifyFrame fun f => { f with next := f.next - 1 }
      trace fun _ => .pause .futures none
      return some (.blocked m.pendingFutures)
    else do
      let _ ← pop
      push (← awaitedValue m v)
      return none

/-! ## Operands -/

/-- A bound of a slice. -/
def sliceBound : Value → Exec (Option Int64)
  | .none => pure none
  | v =>
    match v.int? with
    | some i => pure (some i)
    | none => throw (.typeError
        "slice indices must be integers or None or have an __index__ method")

/-- The dict of operands that alternate between keys and values. -/
def dictOf (d : Dict) : List Value → Heap.Action Dict
  | name :: value :: rest => do
    let key ← Heap.key name
    dictOf (d.insert key name value) rest
  | _ => pure d

/-- Splices the items of a value into a tuple of arguments. -/
def spread (v : Value) : Exec Value := do
  match v with
  | .tuple items => return .tuple items
  | v => do
    let h := (← get).heap
    match h.items? v with
    | some items => return .tuple items.toList
    | none =>
      let kind := h.typeName v
      throw (.typeError s!"argument after * must be an iterable, not {kind}")

/-- The positional arguments that stand packed in a tuple. -/
def popPacked : Exec (List Value) := do
  match ← pop with
  | .tuple items => return items
  | _ => return []

/-! ## The instructions -/

/-- Reads a local slot. -/
def loadLocal (code : Bytecode) (slot : Nat) : Exec Unit := do
  let m ← get
  match m.frame.locals[slot]? with
  | some .undefined | none =>
    let names := (code.functions[m.frame.function]?).elim [] (·.locals)
    let name := (names[slot]?).getD "?"
    throw (.exception .unboundLocalError
      s!"cannot access local variable '{name}' where it is not associated with a value")
  | some v => push v

/-- Reads a global slot. -/
def loadGlobal (code : Bytecode) (slot : Nat) : Exec Unit := do
  match (← get).globals[slot]? with
  | some .undefined | none =>
    let name := (code.globals[slot]?).getD "?"
    throw (.exception .nameError s!"name '{name}' is not defined")
  | some v => push v

/-- Writes a global slot; the slots grow up to it. -/
def storeGlobal (slot : Nat) (v : Value) : Exec Unit := modify fun m =>
  let missing := List.replicate (slot + 1 - m.globals.size) Value.undefined
  { m with globals := (m.globals ++ missing).setIfInBounds slot v }

/-- Pops the topmost operand, and jumps if it counts as `wanted`. -/
def popAndJumpIf (wanted : Bool) (target : Nat) : Exec Unit := do
  let v ← pop
  if (← get).heap.isTruthy v == wanted then jump target

/-- Jumps if the topmost operand counts as `wanted`, and pops it otherwise. -/
def jumpIfOrPop (wanted : Bool) (target : Nat) : Exec Unit := do
  let v ← peek
  if (← get).heap.isTruthy v == wanted then jump target
  else do
    let _ ← pop

/-- The next item of the topmost operand, if it is an iterator that has one. -/
def nextItem : Exec (Option Value) := do
  match ← peek with
  | .ref id => onHeap (Heap.next id)
  | _ => return none

/-- Leaves the current function with the topmost operand as its value. The operands and the handled
exceptions that its call has left behind are dropped. -/
def leave : Exec (Option Exit) := do
  let v ← pop
  modify fun m =>
    { m with
      stack := lastOf m.frame.base m.stack
      handled := lastOf m.frame.handledBase m.handled }
  match (← get).callers with
  | [] => return some (.returned v)
  | caller :: callers => do
    modify fun m => { m with frame := caller, callers }
    push v
    trace fun m => .return m.depth
    return none

/-- Executes an instruction that lets the run simply go on. -/
def executePlain (code : Bytecode) : Op → Exec Unit
  | .loadConst index => do push (.ofLiteral (((← get).pool code).constant index))
  | .loadLocal slot => loadLocal code slot
  | .storeLocal slot => do
    let v ← pop
    modifyFrame fun f => { f with locals := f.locals.setIfInBounds slot v }
  | .loadGlobal slot => loadGlobal code slot
  | .storeGlobal slot => do storeGlobal slot (← pop)
  | .loadBuiltin function => push (.builtin function)
  | .loadExcClass type => push (.excClass type)
  | .pop => do
    let _ ← pop
  | .dup => do push (← peek)
  | .dup2 => modify fun m => { m with stack := m.stack.take 2 ++ m.stack }
  | .rot2 => modify fun m =>
    match m.stack with
    | b :: a :: rest => { m with stack := a :: b :: rest }
    | _ => m
  | .rot3 => modify fun m =>
    match m.stack with
    | c :: b :: a :: rest => { m with stack := b :: a :: c :: rest }
    | _ => m
  | .binary op => do
    let b ← pop
    let a ← pop
    push (← onHeap (Heap.binary op a b))
  | .inplace op => do
    let b ← pop
    let a ← pop
    push (← onHeap (Heap.inplace op a b))
  | .compare op => do
    let b ← pop
    let a ← pop
    push (.bool (← onHeap (Heap.comparison op a b)))
  | .not => do
    let v ← pop
    push (.bool (!(← get).heap.isTruthy v))
  | .neg => do push (← onHeap (Heap.negate (← pop)))
  | .pos => do push (← onHeap (Heap.positive (← pop)))
  | .buildList count => do
    let items ← popMany count
    push (← onHeap (Heap.allocList items.toArray))
  | .buildTuple count => do push (.tuple (← popMany count))
  | .buildDict count => do
    let items ← popMany (2 * count)
    push (← onHeap do Heap.alloc (.dict (← dictOf .empty items)))
  | .buildString count => do
    let parts ← popMany count
    let h := (← get).heap
    let text := String.join (parts.map h.text)
    onHeap (Heap.checkResult (Text.utf8Size text))
    push (.str text)
  | .formatValue conversion spec => do
    let v ← pop
    let h := (← get).heap
    let v := match conversion with
      | .none => v
      | .str => .str (h.text v)
      | .repr => .str (h.literal v)
    let spec := match spec.map ((← get).pool code).constant with
      | some (.string spec) => spec
      | _ => ""
    push (.str (← onHeap (Heap.format v spec)))
  | .buildSlice => do
    let bounds ← (← popMany 3).mapM sliceBound
    match bounds with
    | [start, stop, step] => push (.slice start stop step)
    | _ => push (.slice none none none)
  | .toTuple => do push (← spread (← pop))
  | .unpackSequence count => do
    let items ← onHeap (Index.unpack (← pop) count)
    modify fun m => { m with stack := items ++ m.stack }
  | .subscript => do
    let index ← pop
    let object ← pop
    push (← onHeap (Index.get object index))
  | .storeSubscript => do
    let index ← pop
    let object ← pop
    let v ← pop
    onHeap (Index.set object index v)
  | .jump target => jump target
  | .jumpIfFalse target => popAndJumpIf false target
  | .jumpIfTrue target => popAndJumpIf true target
  | .jumpIfFalseOrPop target => jumpIfOrPop false target
  | .jumpIfTrueOrPop target => jumpIfOrPop true target
  | .getIter => do push (← onHeap (Heap.iterate (← pop)))
  | .forIter target => do
    match ← nextItem with
    | some item => push item
    | none => do
      let _ ← pop
      jump target
  | .makeFunction function defaults => do push (.function function (← popMany defaults))
  | .importModule module => push (.module module)
  | .setupExcept target => modify fun m =>
    let block : Block := ⟨target, m.stack.length, m.handled.length⟩
    { m with frame := { m.frame with blocks := block :: m.frame.blocks } }
  | .popBlock => modifyFrame fun f => { f with blocks := f.blocks.tail }
  | .popExcept => do
    modify fun m => { m with handled := m.handled.tail }
    trace fun m => .handlerLeft m.handled.length
  | .raise => do raiseValue (← pop)
  | .reraise => reraise
  | .checkExcMatch => do
    let cls ← pop
    let exc ← pop
    match matchesException exc cls with
    | .ok answer => push (.bool answer)
    | .error e => throw e
  | _ => pure ()

/-- Executes an instruction. -/
def execute (code : Bytecode) (op : Op) : Exec (Option Exit) :=
  match op with
  | .getAttr name => do getAttribute (← pop) (((← get).pool code).name name)
  | .call count keywords => do
    let named ← popNamed code keywords
    let positional ← popMany count
    callValue code (← pop) ⟨positional, named⟩
  | .callVar keywords => do
    let named ← popNamed code keywords
    let positional ← popPacked
    callValue code (← pop) ⟨positional, named⟩
  | .callMethod name count keywords => do
    let named ← popNamed code keywords
    let positional ← popMany count
    callMethod code (← pop) (((← get).pool code).name name) ⟨positional, named⟩
  | .callMethodVar name keywords => do
    let named ← popNamed code keywords
    let positional ← popPacked
    callMethod code (← pop) (((← get).pool code).name name) ⟨positional, named⟩
  | .return => leave
  | .await => await
  | op => do
    executePlain code op
    return none

/-- Counts an instruction. -/
def tick : Exec Unit := do
  let overrun ← modifyGet fun m =>
    let (budget, overrun) := m.heap.budget.tick
    (overrun, { m with heap := { m.heap with budget } })
  match overrun with
  | some e => throw (.ofLimit e)
  | none => pure ()

/-- The machine after a collection, if it is time for one. -/
def collected (m : Machine) : Machine :=
  if m.heap.shouldCollect then { m with heap := m.heap.collect m.roots } else m

/-- Collects garbage if it is time for it. -/
def collectIfDue : Exec Unit := modify collected

/-- The next instruction. -/
def fetch (m : Machine) (code : Bytecode) : Option Instr :=
  (code.functions[m.frame.function]?).bind fun c => c.instrs[m.frame.next]?

/-- Fetches the next instruction and executes it. -/
def executeNext (code : Bytecode) : Exec (Option Exit) := do
  match (← get).fetch code with
  | none => throw (.exception .runtimeError "instruction pointer out of range")
  | some i => do
    modifyFrame fun f => { f with next := f.next + 1 }
    trace fun m =>
      .instruction (m.frame.next - 1) i.op.name (m.stack.length - m.frame.base) m.depth
    execute code i.op

/-- The machine that executes an instruction: it stands behind it, and has recorded it. -/
def entered (m : Machine) (i : Instr) : Machine :=
  { m with frame := { m.frame with next := m.frame.next + 1 } }.record fun m =>
    .instruction (m.frame.next - 1) i.op.name (m.stack.length - m.frame.base) m.depth

theorem executeNext_eq (code : Bytecode) (m : Machine) :
    executeNext code m = match m.fetch code with
      | none => .error (.exception .runtimeError "instruction pointer out of range") m
      | some i => execute code i.op (m.entered i) := by
  have hread : ∀ f : Machine → Exec (Option Exit), (get >>= f) m = f m m := fun _ => rfl
  rw [executeNext, hread]
  cases m.fetch code <;> rfl

/-- Executes the next instruction, if the budget allows it. -/
def step (code : Bytecode) : Exec (Option Exit) := do
  tick
  collectIfDue
  executeNext code

end Resumable.Machine
