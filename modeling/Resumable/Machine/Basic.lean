import Resumable.Code.Basic
import Resumable.Heap.Collection
import Resumable.Operation.Builtins

/-!
# The machine

The state of a run between two instructions. All active calls share one stack of operands and one
stack of exceptions that are being handled; the frame of a call says how much of both there was when
it began. A machine lives while instructions are executed. What stays of it when it pauses is its
snapshot; the heap and the globals are kept beside that, and what is printed belongs to the host.
-/

namespace Resumable

/-- A handler that has been registered for the instructions to come. -/
structure Block where
  /-- Where an exception leads. -/
  handler : Nat
  /-- How many operands there were on the stack. -/
  operands : Nat
  /-- How many exceptions were being handled. -/
  handled : Nat
deriving DecidableEq, Repr, Inhabited

/-- An active call. -/
structure Frame where
  /-- The index of the function. -/
  function : Nat
  /-- The index of the next instruction. -/
  next : Nat
  locals : Array Value
  /-- How many operands there were on the stack when the call began. -/
  base : Nat
  /-- The registered handlers, the innermost one first. -/
  blocks : List Block
  /-- How many exceptions were being handled when the call began. -/
  handledBase : Nat
deriving Inhabited

/-- What is known of a future. -/
inductive Future where
  | pending
  | resolved (v : Value)
  | failed (e : Raised)
deriving Inhabited

/-- What the host is asked for when a run pauses. -/
inductive PauseKind where
  | function
  | os
  | futures
deriving DecidableEq, Repr

/-- What a trace records. Depths count frames, or exceptions that are being handled. -/
inductive Event where
  /-- An instruction is about to be executed. -/
  | instruction (index : Nat) (op : String) (operands frames : Nat)
  | call (function : String) (depth : Nat)
  | return (depth : Nat)
  | pause (kind : PauseKind) (call : Option Nat)
  | handlerEntered (depth : Nat)
  | handlerLeft (depth : Nat)
deriving DecidableEq, Repr

/-- What is kept of a machine while its run is paused. -/
structure Snapshot where
  /-- The operands of all frames, the topmost one first. -/
  stack : List Value
  frame : Frame
  /-- The frames below the current one, the innermost one first. -/
  callers : List Frame
  /-- The exceptions that are being handled, the innermost one first. -/
  handled : List Raised
  /-- The futures in the order of their numbers. -/
  futures : List (Nat × Future)
  /-- The number of the next host call. -/
  nextCall : Nat
  /-- The host call that waits for its answer. -/
  pendingCall : Option Nat
deriving Inhabited

/-- The state of a run. -/
structure Machine extends Snapshot where
  /-- Whether the exception that is on its way was raised again, so that the frame that raised it
  is in its traceback already. -/
  reraising : Bool
  heap : Heap
  globals : Array Value
  writer : Writer
  /-- What has been printed. -/
  output : String
  /-- The events so far, the last one first, if the run is traced. -/
  events : Option (List Event)
deriving Inhabited

/-- Why a run stops for the host. -/
inductive Exit where
  /-- The program has ended with a value. -/
  | returned (v : Value)
  | externalCall (function : Nat) (args : Arguments) (call : Nat)
  | osCall (function : OsFunction) (args : Arguments) (call : Nat)
  /-- The program waits for one of these futures. -/
  | blocked (pending : List Nat)

namespace Frame

/-- A frame at the start of a function, on top of so many operands and exceptions. -/
def start (function : Nat) (locals : Array Value) (base handledBase : Nat) : Frame :=
  ⟨function, 0, locals, base, [], handledBase⟩

/-- The place of the instruction before the next one. -/
def site (f : Frame) (code : Bytecode) : CallSite :=
  ⟨f.function, (code.functions[f.function]?).elim .unknown (·.spanAt (f.next - 1))⟩

end Frame

/-- The last `n` elements of a list. -/
def lastOf {α : Type} (n : Nat) (xs : List α) : List α := xs.drop (xs.length - n)

/-- The snapshot of a run that has not begun. -/
def Snapshot.start : Snapshot :=
  { stack := [], frame := .start 0 #[] 0 0, callers := [], handled := [], futures := [],
    nextCall := 0, pendingCall := none }

namespace Machine

/-- A step of a run: it may fail, and keeps what it has changed in either case. -/
abbrev Exec := EStateM Failure Machine

/-- The frames, the current one first. -/
def frames (m : Machine) : List Frame := m.frame :: m.callers

/-- The number of active calls. -/
def depth (m : Machine) : Nat := m.callers.length + 1

/-- The machine of a snapshot. -/
def restore (s : Snapshot) (heap : Heap) (globals : Array Value) (writer : Writer)
    (traced : Bool) : Machine :=
  { s with
    reraising := false, heap, globals, writer, output := "",
    events := if traced then some [] else none }

/-- What is kept of a machine when it pauses. -/
def snapshot (m : Machine) : Snapshot := m.toSnapshot

/-- The values that keep their heap entries alive. Exceptions that are being handled hold no
values. -/
def roots (m : Machine) : List Value :=
  m.stack ++ m.globals.toList ++ m.frames.flatMap (·.locals.toList) ++
    m.futures.filterMap fun
      | (_, .resolved v) => some v
      | _ => none

/-- The futures that have no result yet. -/
def pendingFutures (m : Machine) : List Nat :=
  m.futures.filterMap fun
    | (id, .pending) => some id
    | _ => none

/-- What is known of a future. -/
def future? (m : Machine) (id : Nat) : Option Future := m.futures.lookup id

/-- Whether a future has no result yet. -/
def isPending (m : Machine) (id : Nat) : Bool := m.future? id matches some .pending

/-- Records what is known of a future. -/
def setFuture (m : Machine) (id : Nat) (f : Future) : Machine :=
  { m with futures := insert m.futures }
where
  insert : List (Nat × Future) → List (Nat × Future)
    | [] => [(id, f)]
    | (i, g) :: rest =>
      if i == id then (id, f) :: rest
      else if i > id then (id, f) :: (i, g) :: rest
      else (i, g) :: insert rest

/-- Records an event if the run is traced. -/
def record (m : Machine) (e : Machine → Event) : Machine :=
  match m.events with
  | none => m
  | some events => { m with events := some (e m :: events) }

theorem record_eq (m : Machine) (e : Machine → Event) :
    m.record e = { m with events := m.events.map (e m :: ·) } := by
  obtain ⟨snapshot, reraising, heap, globals, writer, output, events⟩ := m
  cases events <;> rfl

/-- Records an event if the run is traced. -/
def trace (e : Machine → Event) : Exec Unit := modify (record · e)

/-- Performs an action on the heap. -/
def onHeap {α : Type} (act : Heap.Action α) : Exec α := fun m =>
  let heap := m.heap
  let m := { m with heap := default }
  match act heap with
  | .ok a heap => .ok a { m with heap }
  | .error e heap => .error e { m with heap }

/-- Changes the current frame. -/
def modifyFrame (f : Frame → Frame) : Exec Unit := modify fun m => { m with frame := f m.frame }

/-- Pushes an operand. -/
def push (v : Value) : Exec Unit := modify fun m => { m with stack := v :: m.stack }

/-- Takes the topmost operand away. Code always finds one. -/
def pop : Exec Value := modifyGet fun m =>
  match m.stack with
  | v :: rest => (v, { m with stack := rest })
  | [] => (.none, m)

/-- Takes the `n` topmost operands away, and gives them in the order in which they were pushed. -/
def popMany (n : Nat) : Exec (List Value) := modifyGet fun m =>
  ((m.stack.take n).reverse, { m with stack := m.stack.drop n })

/-- The topmost operand. -/
def peek : Exec Value := do return ((← get).stack.head?).getD .none

/-- Goes on at another instruction of the same function. -/
def jump (target : Nat) : Exec Unit := modifyFrame fun f => { f with next := target }

/-- What the instructions of the current function refer to. -/
def pool (m : Machine) (code : Bytecode) : Pool :=
  (code.functions[m.frame.function]?).elim .empty (·.pool)

/-- Takes the keyword arguments of a call from the operands. -/
def popNamed (code : Bytecode) (keywords : Option Nat) : Exec (List (String × Value)) := do
  let names := ((← get).pool code).keywordNames keywords
  return names.zip (← popMany names.length)

/-- Begins a host call and gives its number. -/
def beginCall : Exec Nat := modifyGet fun m =>
  (m.nextCall, { m with nextCall := m.nextCall + 1, pendingCall := some m.nextCall })

/-- Gives a piece to the writer, which may refuse it. -/
def write (c : Chunk) : Exec Unit := do
  let refusal ← modifyGet fun m => (m.writer.refusal c, { m with writer := m.writer.after c })
  match refusal with
  | some e => throw (.raised { e with traceback := [] })
  | none => modify fun m => { m with output := m.output ++ c.toString }

/-- Gives pieces to the writer, up to the first one that it refuses. -/
def writeAll : List Chunk → Exec Unit
  | [] => pure ()
  | c :: rest => do
    write c
    writeAll rest

end Machine

end Resumable
