import Resumable.Machine.Run
import Resumable.Script

/-!
# Runs of a script, step by step

A step takes a run to the next point where it needs the host, or to its end. What it has printed and
the events of its trace are given back with every step, also with one that fails, and so is the
writer that it has printed to.

All functions here take a number of instructions that no step may go over; they give `none` when it
is used up.
-/

namespace Resumable

/-- A run between two steps. -/
structure Paused where
  script : Script
  snapshot : Snapshot
  heap : Heap
  globals : Array Value
deriving Inhabited

/-! ## Dumps

A paused run can be written to bytes, and read from them in another place and at another time. How
it is written is left to a codec. Nothing but its clock is lost. -/

/-- How something is written to bytes and read again. What is read is what has been written. -/
structure Codec (α : Type) where
  Bytes : Type
  encode : α → Option Bytes
  decode : Bytes → Option α
  decode_encode : ∀ {a bytes}, encode a = some bytes → decode bytes = some a

namespace Codec

variable {α : Type}

/-- The codec that keeps everything as it is. -/
def direct (α : Type) : Codec α := ⟨α, some, some, Eq.symm⟩

/-- Writes something and reads it again. -/
def pass (codec : Codec α) (a : α) : Option α := (codec.encode a).bind codec.decode

theorem pass_eq {codec : Codec α} {a b : α} (h : codec.pass a = some b) : b = a := by
  obtain ⟨bytes, hbytes, hb⟩ := Option.bind_eq_some_iff.mp h
  exact Option.some.inj (hb.symm.trans (codec.decode_encode hbytes))

end Codec

namespace Paused

/-- The run with a clock that starts now. -/
def restart (p : Paused) (clock : Clock) : Paused :=
  { p with heap := { p.heap with budget := p.heap.budget.restart clock } }

/-- The run when it has been written and read again. Its clock is not written; the one that it gets
starts then. -/
def reload (p : Paused) (codec : Codec Paused) (clock : Clock) : Option Paused :=
  (codec.pass (p.restart .stopped)).map (·.restart clock)

theorem eq_of_reload {p q : Paused} {codec : Codec Paused} {clock : Clock}
    (h : p.reload codec clock = some q) : q = p.restart clock := by
  obtain ⟨r, hr, rfl⟩ := Option.map_eq_some_iff.mp h
  rw [Codec.pass_eq hr]
  rfl

end Paused

/-! ## Steps -/

/-- Where a step has led a run. -/
inductive Progress where
  /-- The program calls a function of the host. -/
  | functionCall (name : String) (args : List Object) (named : List (String × Object))
      (call : Nat) (run : Paused)
  | osCall (function : OsFunction) (args : List Object) (named : List (String × Object))
      (call : Nat) (run : Paused)
  /-- The program waits for the results of these host calls. -/
  | futures (pending : List Nat) (run : Paused)
  | complete (value : Object)

/-- One step of a run, which may fail with an error of a type. -/
structure Step (ε : Type) where
  outcome : Except ε Progress
  /-- What has been printed in this step. -/
  output : String
  /-- The events of this step, if the run is traced. -/
  events : List Event
  /-- The writer after this step. -/
  writer : Writer

/-- An answer of the host. An exception that has ended another run may report a limit of that
run. -/
inductive Answer where
  | value (v : Object)
  | exception (type : ExceptionType) (message : Option String) (limit : Option LimitError := none)
  /-- The result will be given later. -/
  | later

namespace Step

/-- A step that fails before any instruction. -/
def failure {ε : Type} (e : ε) (writer : Writer := .collector) : Step ε :=
  ⟨.error e, "", [], writer⟩

/-- A step with its error changed. -/
def mapError {ε δ : Type} (f : ε → δ) (s : Step ε) : Step δ :=
  { s with outcome := s.outcome.mapError f }

end Step

namespace Script

/-- The events of a machine, in order. -/
def eventsOf (m : Machine) : List Event := (m.events.getD []).reverse

/-- The run of a machine that has paused. -/
def pause (s : Script) (m : Machine) : Paused := ⟨s, m.snapshot, m.heap, m.globals⟩

/-- What a stop of the machine means to the host. -/
def progressAt (s : Script) (exit : Exit) (m : Machine) : Except Exception Progress :=
  let toObjects := fun (args : Arguments) =>
    (args.positional.map m.heap.toObject, args.named.map fun (name, v) => (name, m.heap.toObject v))
  match exit with
  | .returned v => .ok (.complete (m.heap.toObject v))
  | .externalCall function args call =>
    let (positional, named) := toObjects args
    match s.functions[function]? with
    | some name => .ok (.functionCall name positional named call (s.pause m))
    | none => .error (.plain .runtimeError (some s!"unknown external function id {function}"))
  | .osCall function args call =>
    let (positional, named) := toObjects args
    .ok (.osCall function positional named call (s.pause m))
  | .blocked pending => .ok (.futures pending (s.pause m))

/-- Runs the machine to its next stop. -/
def proceed (s : Script) (steps : Nat) (m : Machine) : Option (Step Exception) :=
  match m.run s.bytecode steps with
  | none => none
  | some (.exit exit, m) => some ⟨s.progressAt exit m, m.output, eventsOf m, m.writer⟩
  | some (.failed e, m) => some ⟨.error (s.exception e), m.output, eventsOf m, m.writer⟩

/-- The machine at the start of a run. -/
def begin (heap : Heap) (globals : Array Value) (traced : Bool) (writer : Writer) : Machine :=
  .restore .start heap globals writer traced

/-- Starts a run with values for the inputs. -/
def start (s : Script) (inputs : List Object) (budget : Budget) (traced : Bool) (steps : Nat)
    (writer : Writer := .collector) : Option (Step Exception) :=
  match s.globals inputs budget with
  | .error e => some (Step.failure e writer)
  | .ok (heap, globals) => s.proceed steps (begin heap globals traced writer)

/-! ## Runs without a host -/

/-- The exception that a host call ends with where there is no host. -/
def unavailable (s : Script) : Exit → Option Raised
  | .externalCall function _ _ =>
    let name := s.functions.getD function "?"
    notImplemented s!"External function '{name}'"
  | .osCall function _ _ =>
    let name := function.name
    notImplemented s!"OS function '{name}'"
  | _ => none
where
  notImplemented (what : String) : Option Raised :=
    some (.fresh .notImplementedError (some (what ++ " not implemented with standard execution")))

/-- Runs the machine to its end; every host call raises an exception. -/
def proceedAlone (s : Script) : Nat → Machine → Option (Except Raised Object × Machine)
  | 0, _ => none
  | steps + 1, m =>
    match m.advance s.bytecode with
    | .next m => proceedAlone s steps m
    | .failed e m => some (.error e, m)
    | .endless => none
    | .exit (.returned v) m => some (.ok (m.heap.toObject v), m)
    | .exit exit m =>
      match s.unavailable exit with
      | none =>
        let message := "no futures can be resolved in standard execution"
        some (.error (.fresh .runtimeError (some message)), m)
      | some e =>
        match m.answerException s.bytecode e with
        | .ok m => proceedAlone s steps m
        | .error e => some (.error e, m)

/-- The end of a run without a host. -/
structure Ending where
  result : Except Exception Object
  output : String
  events : List Event
  writer : Writer

/-- Runs a script from start to end without a host. -/
def runAlone (s : Script) (inputs : List Object) (budget : Budget) (traced : Bool) (steps : Nat)
    (writer : Writer := .collector) : Option Ending :=
  match s.globals inputs budget with
  | .error e => some ⟨.error e, "", [], writer⟩
  | .ok (heap, globals) =>
    (s.proceedAlone steps (begin heap globals traced writer)).map fun
      | (.ok v, m) => ⟨.ok v, m.output, eventsOf m, m.writer⟩
      | (.error e, m) => ⟨.error (s.exception e), m.output, eventsOf m, m.writer⟩

end Script

namespace Paused

/-- The machine of a run that goes on. -/
def machine (p : Paused) (traced : Bool) (writer : Writer) : Machine :=
  .restore p.snapshot p.heap p.globals writer traced

/-- The machine that has received an answer to the call that a run waits for, or the exception that
ends the run, with the machine as it was then. A value that the run cannot hold is an exception in
the program. -/
def receive (p : Paused) (a : Answer) (m : Machine) : Except (Raised × Machine) Machine :=
  let raise := fun (m : Machine) (e : Raised) =>
    (m.answerException p.script.bytecode e).mapError (·, m)
  match a with
  | .later => m.answerLater.mapError (·, m)
  | .exception type message limit => raise m (.fresh type message limit)
  | .value v =>
    match (Machine.onHeap (Heap.ofObject v)) m with
    | .ok v m => .ok (m.answer v)
    | .error (.overrun e) m => .error (Script.conversionException (.overrun e), m)
    | .error e m => raise m (Script.conversionException e)

/-- Goes on with a machine, or ends with the exception that left it. -/
def goOn (p : Paused) (steps : Nat) : Except (Raised × Machine) Machine → Option (Step Exception)
  | .ok m => p.script.proceed steps m
  | .error (e, m) => some ⟨.error (p.script.exception e), m.output, Script.eventsOf m, m.writer⟩

/-- Answers the host call that a run waits for. -/
def answer (p : Paused) (a : Answer) (traced : Bool) (steps : Nat)
    (writer : Writer := .collector) : Option (Step Exception) :=
  p.goOn steps (p.receive a (p.machine traced writer))

/-- The futures of answers, with their values in the heap of the machine. -/
def toFutures (p : Paused) (m : Machine) (done : List (Nat × Future)) :
    List (Nat × Answer) → Except Exception (List (Nat × Future) × Machine)
  | [] => .ok (done.reverse, m)
  | (_, .later) :: rest => p.toFutures m done rest
  | (id, .exception type message limit) :: rest =>
    p.toFutures m ((id, .failed (.fresh type message limit)) :: done) rest
  | (id, .value v) :: rest =>
    match (Machine.onHeap (Heap.ofObject v)) m with
    | .ok v m => p.toFutures m ((id, .resolved v) :: done) rest
    | .error e _ =>
      let reason := (p.script.exception (Script.conversionException e)).summary
      .error (.plain .runtimeError
        (some s!"Invalid return type for call {id}: {reason}"))

/-- The machine that has received results of calls. -/
def receiveAll (p : Paused) (pending : List Nat) (results : List (Nat × Answer)) (m : Machine) :
    Except Exception (Except (Raised × Machine) Machine) :=
  match results.find? fun (id, _) => !pending.contains id with
  | some (id, _) =>
    let expected := Machine.numberList pending
    .error (.plain .runtimeError (some s!"unknown call_id {id}, expected one of: {expected}"))
  | none =>
    match p.toFutures m [] results with
    | .error e => .error e
    | .ok (futures, m) => .ok ((m.resolve futures).mapError (·, m))

/-- Gives results to a run that waits for one of the futures in `pending`. -/
def resolve (p : Paused) (pending : List Nat) (results : List (Nat × Answer)) (traced : Bool)
    (steps : Nat) (writer : Writer := .collector) : Option (Step Exception) :=
  match p.receiveAll pending results (p.machine traced writer) with
  | .error e => some (Step.failure e writer)
  | .ok received => p.goOn steps received

end Paused

end Resumable
