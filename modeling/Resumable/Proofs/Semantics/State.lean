import Resumable.Script.Run

/-!
# What programs mean: states and primitive steps

The meaning of a program is given by an evaluator that follows the program tree and knows nothing of
code, operand stacks or handlers. It takes its primitive steps from the same operations on values
that the machine has, and keeps the same accounts: each primitive step counts as one instruction,
and garbage is collected when it is time, so that heaps can be compared slot by slot. What has to
survive a collection are the values that are still needed; the evaluator is told which ones these
are (`kept`, the newest one first).
-/

namespace Resumable.Semantics

open Machine (Exec)

/-- What the host does when a run has stopped for it. -/
inductive HostMove where
  | answer (a : Answer)
  | results (results : List (Nat × Answer))

/-- What a program reads and changes. -/
structure State where
  /-- The local slots of the current function. -/
  locals : Array Value
  globals : Array Value
  heap : Heap
  futures : List (Nat × Future)
  /-- The number of the next host call. -/
  nextCall : Nat
  writer : Writer
  /-- What has been printed. -/
  output : String
  /-- What the host will do. -/
  moves : List HostMove

/-- The state at the start of a run. -/
def State.start (heap : Heap) (globals : Array Value) (writer : Writer) (moves : List HostMove) :
    State :=
  { locals := #[], globals, heap, futures := [], nextCall := 0, writer, output := "", moves }

/-- Why an evaluation goes no further. -/
inductive Halt where
  | raised (e : Raised)
  /-- The run has ended, or waits for a host that does nothing more. -/
  | stopped (stop : Machine.Stop)
  /-- A limit was hit that the program cannot handle. -/
  | aborted (e : LimitError)
  /-- A primitive step has no result. -/
  | endless
  /-- The fuel of the evaluator is used up. -/
  | tired

/-- The evaluation of a piece of program. -/
abbrev Sem := EStateM Halt State

/-- What surrounds a piece of program that is evaluated, apart from the state. -/
structure Scope where
  /-- The number of the current function. -/
  function : Nat
  /-- The local slots of the active calls around the current one, the innermost one first. -/
  callers : List (Array Value)
  /-- The exceptions that are being handled, the innermost one first. -/
  handled : List Raised

/-- The failure of a primitive step. -/
def Halt.ofFailure : Failure → Halt
  | .raised e => .raised e
  | .overrun e => .aborted e
  | .endless | .stuck => .endless

section
variable {α : Type}

/-- A primitive step that fails. -/
def fail (e : Failure) : Sem α := fun σ => .error (.ofFailure e) σ

/-- The value of a primitive step that changes nothing. -/
def ofExcept : Except Failure α → Sem α
  | .ok a => pure a
  | .error e => fail e

/-- A value that depends on the heap. -/
def withHeap (f : Heap → α) : Sem α := fun σ => .ok (f σ.heap) σ

/-- A primitive step that looks at the heap. -/
def examine (f : Heap → Except Failure α) : Sem α := fun σ => ofExcept (f σ.heap) σ

/-- An action on the heap. -/
def onHeap (act : Heap.Action α) : Sem α := fun σ =>
  match act σ.heap with
  | .ok a heap => .ok a { σ with heap }
  | .error e heap => .error (.ofFailure e) { σ with heap }

/-- An exception gets to know where it was raised or which call it has left. -/
def located (c : Scope) (span : Span) (act : Sem α) : Sem α := fun σ =>
  match act σ with
  | .error (.raised e) σ =>
    .error (.raised { e with traceback := ⟨c.function, span⟩ :: e.traceback }) σ
  | r => r

/-- What a collection leaves alone. -/
def roots (c : Scope) (kept : List Value) (σ : State) : List Value :=
  kept ++ σ.globals.toList ++ (σ.locals :: c.callers).flatMap (·.toList) ++
    σ.futures.filterMap fun
      | (_, .resolved v) => some v
      | _ => none

/-- One instruction is counted, and garbage is collected if it is time. -/
def charge (c : Scope) (kept : List Value) : Sem Unit := fun σ =>
  let (budget, overrun) := σ.heap.budget.tick
  let heap := { σ.heap with budget }
  match overrun with
  | some e => .error (.aborted e) { σ with heap }
  | none =>
    .ok () { σ with heap := if heap.shouldCollect then heap.collect (roots c kept σ) else heap }

/-- A primitive step that can fail. -/
def perform (c : Scope) (span : Span) (kept : List Value) (act : Sem α) : Sem α := do
  charge c kept
  located c span act

/-- A step that cannot fail, whose value depends on the heap. -/
def observe (c : Scope) (kept : List Value) (f : Heap → α) : Sem α := do
  charge c kept
  withHeap f

end

/-! ## The host -/

/-- The machine that knows what a state knows, and has nothing to do. -/
def State.bare (σ : State) : Machine :=
  { Snapshot.start with
    futures := σ.futures, nextCall := σ.nextCall, reraising := false, heap := σ.heap,
    globals := σ.globals, writer := σ.writer, output := σ.output, events := none }

/-- The answer of the host to a call. A value that the run cannot hold is an exception in the
program. -/
def receive (call : Nat) : Answer → Sem Value
  | .later => fun σ =>
    .ok (.future call) { σ with futures := Machine.setFuture.insert call .pending σ.futures }
  | .exception type message limit => fail (.raised (.fresh type message limit))
  | .value v => fun σ =>
    match Heap.ofObject v σ.heap with
    | .ok v heap => .ok v { σ with heap }
    | .error (.overrun e) heap =>
      .error (.stopped (.failed (Script.conversionException (.overrun e)))) { σ with heap }
    | .error e heap => .error (.raised (Script.conversionException e)) { σ with heap }

/-- Calls the host. -/
def ask (exit : Nat → Exit) : Sem Value := fun σ =>
  let call := σ.nextCall
  match σ.moves with
  | .answer a :: moves => receive call a { σ with nextCall := call + 1, moves }
  | _ => .error (.stopped (.exit (exit call))) { σ with nextCall := call + 1 }

/-- The futures of results, with their values in the heap; `none` if a value cannot be held. -/
def futuresOf : List (Nat × Answer) → Heap → Option (List (Nat × Future) × Heap)
  | [], h => some ([], h)
  | (_, .later) :: rest, h => futuresOf rest h
  | (id, .exception type message limit) :: rest, h =>
    (futuresOf rest h).map fun (fs, h) => ((id, .failed (.fresh type message limit)) :: fs, h)
  | (id, .value v) :: rest, h =>
    match Heap.ofObject v h with
    | .ok v h => (futuresOf rest h).map fun (fs, h) => ((id, .resolved v) :: fs, h)
    | .error .. => none

/-- Waits for the results of pending calls. The host has to give results of some of them. -/
def block : Sem Unit := fun σ =>
  let pending := σ.bare.pendingFutures
  let unanswered : EStateM.Result Halt State Unit := .error (.stopped (.exit (.blocked pending))) σ
  match σ.moves with
  | .results results :: moves =>
    if results.any fun (id, _) => !pending.contains id then unanswered
    else
      match futuresOf results σ.heap with
      | none => unanswered
      | some (fs, heap) =>
        let σ := { σ with heap, moves }
        match σ.bare.resolve fs with
        | .ok m => .ok () { σ with futures := m.futures }
        | .error e => .error (.stopped (.failed e)) σ
  | _ => unanswered

/-! ## Values -/

/-- Gives a piece to the writer, which may refuse it. -/
def write (c : Chunk) : Sem Unit := fun σ =>
  match σ.writer.refusal c with
  | some e => .error (.raised { e with traceback := [] }) { σ with writer := σ.writer.after c }
  | none => .ok () { σ with writer := σ.writer.after c, output := σ.output ++ c.toString }

/-- Gives pieces to the writer, up to the first one that it refuses. -/
def writeAll : List Chunk → Sem Unit
  | [] => pure ()
  | c :: rest => do
    write c
    writeAll rest

/-- The value of a reply. -/
def settle : Reply → Sem Value
  | .value v => pure v
  | .output chunks => do
    writeAll chunks
    pure .none
  | .request function args => ask (.osCall function args)

/-- An attribute of a value. -/
def attributeValue (v : Value) (name : String) : Sem Value := fun σ =>
  match Machine.attributeOf σ.heap v name with
  | .ok reply => settle reply σ
  | .error e => .error (.ofFailure e) σ

/-- The meaning of the functions of a program: how a function is called with defaults and arguments
in a scope, when some values are kept. -/
abbrev Calls := Scope → List Value → Nat → List Value → Arguments → Sem Value

/-- Calls a value. -/
def callValue (calls : Calls) (c : Scope) (kept : List Value) (v : Value) (args : Arguments) :
    Sem Value :=
  match v with
  | .function function defaults => calls c kept function defaults args
  | .external function => ask (.externalCall function args)
  | .builtin function => do settle (← onHeap (BuiltinCall.call function args))
  | .excClass type => onHeap (Machine.makeException type args)
  | v => fun σ =>
    let kind := σ.heap.typeName v
    .error (.ofFailure (.typeError s!"'{kind}' object is not callable")) σ

/-- Calls a method of a value that needs no attribute. -/
def callOwnMethod (v : Value) (name : String) (args : Arguments) : Sem Value := fun σ =>
  match Machine.pureMethod σ.heap v name args with
  | some act => onHeap act σ
  | none => .error (.ofFailure (Machine.noAttribute σ.heap v name)) σ

/-- Calls a method of a value. Of modules, named tuples and exceptions, the attribute is called,
unless it is a request to the host, whose answer is the value then. -/
def callMethod (calls : Calls) (c : Scope) (kept : List Value) (v : Value) (name : String)
    (args : Arguments) : Sem Value :=
  match v with
  | .module _ | .namedTuple .. | .exception _ => fun σ =>
    match Machine.attributeOf σ.heap v name with
    | .ok (.request function args) => settle (.request function args) σ
    | .ok reply => (settle reply >>= fun callee => callValue calls c kept callee args) σ
    | .error e => .error (.ofFailure e) σ
  | .path p =>
    match OsFunction.ofPathMethod? name with
    | some function => settle (.request function ⟨.path p :: args.positional, args.named⟩)
    | none => callOwnMethod v name args
  | v => callOwnMethod v name args

/-- What an awaitable value gives when none of its futures is pending. -/
def awaitedValue (v : Value) : Sem Value := fun σ =>
  match v with
  | .gather items =>
    match items.mapM σ.bare.awaited with
    | .ok values => onHeap (Heap.allocList values.toArray) σ
    | .error e => .error (.ofFailure e) σ
  | v => ofExcept (σ.bare.awaited v) σ

/-- Takes turns until one of them gives a value; each turn takes one unit of fuel. -/
def loop {α : Type} (turn : Sem (Option α)) : Nat → Sem α
  | 0 => fun σ => .error .tired σ
  | fuel + 1 => do
    match ← turn with
    | some a => pure a
    | none => loop turn fuel

/-- One look at a value that is waited for: it is there, or the host gives some results first. -/
def lookFor (c : Scope) (span : Span) (v : Value) : Sem (Option Value) := fun σ =>
  match Machine.awaitedFutures v with
  | none =>
    let kind := σ.heap.typeName v
    located c span (fail (.typeError s!"object {kind} can't be used in 'await' expression")) σ
  | some ids =>
    if ids.any σ.bare.isPending then (block >>= fun _ => pure none) σ
    else (some <$> located c span (awaitedValue v)) σ

/-- Waits for a value. -/
def await (c : Scope) (span : Span) (kept : List Value) (v : Value) (fuel : Nat) : Sem Value :=
  loop (charge c (v :: kept) >>= fun _ => lookFor c span v) fuel

end Resumable.Semantics
