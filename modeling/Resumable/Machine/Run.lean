import Resumable.Machine.Step

/-!
# Runs

An exception leaves one frame after the other until a frame has a registered handler. A run goes on
until the program ends, needs the host, or is left by an exception.
-/

namespace Resumable.Machine

/-! ## Unwinding -/

/-- An exception that has left or was raised in a frame. -/
def addSite (code : Bytecode) (f : Frame) (e : Raised) : Raised :=
  { e with traceback := f.site code :: e.traceback }

/-- Enters a handler with an exception: operands and handled exceptions that are newer than the
handler are dropped. -/
def catchAt (m : Machine) (b : Block) (blocks : List Block) (e : Raised) : Machine :=
  let m := { m with
    frame := { m.frame with next := b.handler, blocks }
    stack := .exception e :: lastOf b.operands m.stack
    handled := e :: lastOf b.handled m.handled }
  m.record fun m => .handlerEntered m.handled.length

/-- Looks for a handler in a frame and then in the frames below it. Each frame that the exception
has been in is added to its traceback, unless it is there already; a frame without a handler is left
with all that its call has put on the stacks. -/
def unwindFrom (code : Bytecode) (m : Machine) (recorded : Bool) (e : Raised) (f : Frame)
    (below : List Frame) : Except Raised Machine :=
  let e := if recorded then e else addSite code f e
  match f.blocks with
  | b :: blocks => .ok ({ m with frame := f, callers := below }.catchAt b blocks e)
  | [] =>
    let m := { m with stack := lastOf f.base m.stack, handled := lastOf f.handledBase m.handled }
    match below with
    | [] => .error e
    | caller :: below => unwindFrom code m false e caller below

/-- The machine at the handler of an exception, or the exception with its traceback if there is no
handler. -/
def unwind (m : Machine) (code : Bytecode) (e : Raised) : Except Raised Machine :=
  unwindFrom code { m with reraising := false } m.reraising e m.frame m.callers

/-- The exception that a run ends with when a limit is hit. -/
def limitException (m : Machine) (code : Bytecode) (e : LimitError) : Raised :=
  ⟨e.exceptionType, some e.message, (m.frames.map (·.site code)).reverse, some e⟩

/-! ## Runs -/

/-- What comes of one instruction. -/
inductive Advance where
  | next (m : Machine)
  | exit (exit : Exit) (m : Machine)
  | failed (e : Raised) (m : Machine)
  /-- The instruction has no result: it has no end, or breaks off the run. -/
  | endless

/-- Executes one instruction, and enters a handler if it raises an exception. -/
def advance (code : Bytecode) (m : Machine) : Advance :=
  match step code m with
  | .ok none m => .next m
  | .ok (some exit) m => .exit exit m
  | .error (.raised e) m =>
    match m.unwind code e with
    | .ok m => .next m
    | .error e => .failed e m
  | .error (.overrun e) m => .failed (m.limitException code e) m
  | .error .endless _ | .error .stuck _ => .endless

/-- How a run stops: at an exit, or with an exception that no handler takes. -/
inductive Stop where
  | exit (exit : Exit)
  | failed (e : Raised)

/-- Runs until the machine stops; `none` if that takes more than `steps` instructions. -/
def run (code : Bytecode) : Nat → Machine → Option (Stop × Machine)
  | 0, _ => none
  | steps + 1, m =>
    match advance code m with
    | .next m => run code steps m
    | .exit exit m => some (.exit exit, m)
    | .failed e m => some (.failed e, m)
    | .endless => none

/-! ## Answers of the host -/

/-- Answers the pending call with a value. -/
def answer (m : Machine) (v : Value) : Machine :=
  { m with pendingCall := none, stack := v :: m.stack }

/-- Answers the pending call with an exception. -/
def answerException (m : Machine) (code : Bytecode) (e : Raised) : Except Raised Machine :=
  { m with pendingCall := none }.unwind code e

/-- Answers the pending call with a future. -/
def answerLater (m : Machine) : Except Raised Machine :=
  match m.pendingCall with
  | some call => .ok ((m.setFuture call .pending).answer (.future call))
  | none => .error (.fresh .runtimeError (some "no host call is pending"))

/-- Numbers in brackets. -/
def numberList (ids : List Nat) : String :=
  "[" ++ ", ".intercalate (ids.map toString) ++ "]"

/-- Resolves futures; fails without a change if one of them is not pending. -/
def resolve (m : Machine) (results : List (Nat × Future)) : Except Raised Machine :=
  match results.find? fun (id, _) => !m.isPending id with
  | some (id, _) =>
    let pending := numberList m.pendingFutures
    .error (.fresh .runtimeError
      (some s!"unknown call_id {id}, expected one of {pending}"))
  | none => .ok (results.foldl (fun m (id, f) => m.setFuture id f) m)

end Resumable.Machine
