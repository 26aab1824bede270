import Resumable.Script.Run

/-!
# Runs and their hosts

A host reads the reports of a run and makes its moves by what it has read. `s.play inputs budget
host steps rounds` is all that a host gets to see of a run, and nothing of the machine is in it.
`s.Visits inputs budget x m` says of a machine that a run comes by it, whatever its host does.
-/

namespace Resumable

/-- Where a step has led a run, as its host sees it. -/
inductive Sight where
  | functionCall (name : String) (args : List Object) (named : List (String × Object)) (call : Nat)
  | osCall (function : OsFunction) (args : List Object) (named : List (String × Object))
      (call : Nat)
  | futures (pending : List Nat)
  | complete (value : Object)

/-- What a host sees of a step. -/
structure Report where
  outcome : Except Exception Sight
  output : String
  events : List Event
  writer : Writer

/-- What a host does next: the answer to a call, the results for a run that is blocked, whether it
traces the next step and the writer that it gives for it. -/
structure Move where
  answer : Answer
  results : List (Nat × Answer)
  traced : Bool
  writer : Writer

/-- A host makes its move by the reports so far, the last one first. -/
abbrev Host := List Report → Move

namespace Progress

/-- What a host sees of a progress. -/
def sight : Progress → Sight
  | .functionCall name args named call _ => .functionCall name args named call
  | .osCall function args named call _ => .osCall function args named call
  | .futures pending _ => .futures pending
  | .complete value => .complete value

/-- The step after a move; a run that is complete takes none. -/
def after (steps : Nat) (move : Move) : Progress → Option (Step Exception)
  | .functionCall _ _ _ _ run | .osCall _ _ _ _ run =>
    run.answer move.answer move.traced steps move.writer
  | .futures pending run => run.resolve pending move.results move.traced steps move.writer
  | .complete _ => none

end Progress

/-- What a host sees of a step. -/
def Step.report (step : Step Exception) : Report :=
  ⟨step.outcome.map Progress.sight, step.output, step.events, step.writer⟩

/-- The reports of a run from a step on, the last one first and in front of those in `seen`, for so
many moves of its host. They end early if a step does not end in `steps` instructions. -/
def Host.reports (host : Host) (steps : Nat) :
    Nat → List Report → Option (Step Exception) → List Report
  | _, seen, none => seen
  | 0, seen, some step => step.report :: seen
  | rounds + 1, seen, some step =>
    let seen := step.report :: seen
    match step.outcome with
    | .error _ => seen
    | .ok progress => host.reports steps rounds seen (progress.after steps (host seen))

/-- The reports of a run of a script with a host. -/
def Script.play (s : Script) (inputs : List Object) (budget : Budget) (host : Host)
    (steps rounds : Nat) : List Report :=
  let first := host []
  host.reports steps rounds [] (s.start inputs budget first.traced steps first.writer)

/-! ## Where runs come by

`s.Visits inputs budget x m`: some run of the script, with some answers of its host, has the machine
`m` between two of its instructions, or at the stop `x`. What is said of all visited machines is
said of every run of the script. `s.Continues x m y n`: a run that has come by the one may come by
the other next. -/

/-- An exit at which the host is asked for the answer to one call. -/
def Exit.isCall : Exit → Bool
  | .externalCall .. | .osCall .. => true
  | .returned _ | .blocked _ => false

/-- What a host is shown of an exit. -/
inductive Script.Displays (s : Script) (m : Machine) : Exit → Progress → Prop
  | complete (v) : Displays s m (.returned v) (.complete (m.heap.toObject v))
  | functionCall {function name} (args call) : s.functions[function]? = some name →
      Displays s m (.externalCall function args call)
        (.functionCall name (args.positional.map m.heap.toObject)
          (args.named.map fun (name, v) => (name, m.heap.toObject v)) call (s.pause m))
  | osCall (function args call) : Displays s m (.osCall function args call)
        (.osCall function (args.positional.map m.heap.toObject)
          (args.named.map fun (name, v) => (name, m.heap.toObject v)) call (s.pause m))
  | futures (pending) : Displays s m (.blocked pending) (.futures pending (s.pause m))

theorem Script.displays {s : Script} {x : Exit} {m : Machine} {p : Progress}
    (h : s.progressAt x m = .ok p) : s.Displays m x p := by
  cases x with
  | returned v => cases h; exact .complete v
  | osCall function args call => cases h; exact .osCall function args call
  | blocked pending => cases h; exact .futures pending
  | externalCall function args call =>
    simp only [progressAt] at h
    split at h
    · next hname => cases h; exact .functionCall args call hname
    · cases h

/-- The machines that runs of a script come by. A host answers a call with a value, an exception or
a promise, and gives results to a run that is blocked, in snapshots that are taken up again with any
writer, traced or not, and that have been written and read again any number of times before; a run
without a host raises an exception at every call. -/
inductive Script.Visits (s : Script) (inputs : List Object) (budget : Budget) :
    Option Exit → Machine → Prop
  | start {heap globals} (traced writer) : s.globals inputs budget = .ok (heap, globals) →
      Visits s inputs budget none (begin heap globals traced writer)
  | next {m n} : Visits s inputs budget none m → m.advance s.bytecode = .next n →
      Visits s inputs budget none n
  | exit {x m n} : Visits s inputs budget none m → m.advance s.bytecode = .exit x n →
      Visits s inputs budget (some x) n
  | answer {x m n} (a traced writer) : Visits s inputs budget (some x) m → x.isCall = true →
      (s.pause m).receive a ((s.pause m).machine traced writer) = .ok n →
      Visits s inputs budget none n
  | resolve {pending m n} (results traced writer) :
      Visits s inputs budget (some (.blocked pending)) m →
      (s.pause m).receiveAll pending results ((s.pause m).machine traced writer) = .ok (.ok n) →
      Visits s inputs budget none n
  | reload {x m p} (codec : Codec Paused) (clock traced writer) :
      Visits s inputs budget (some x) m → (∀ v, x ≠ .returned v) →
      (s.pause m).reload codec clock = some p →
      Visits s inputs budget (some x) (p.machine traced writer)
  | unattended {x m n e} : Visits s inputs budget (some x) m → s.unavailable x = some e →
      m.answerException s.bytecode e = .ok n → Visits s inputs budget none n

/-- A run goes on from a machine between two of its instructions, or at a stop, in the ways of
`Script.Visits`. -/
inductive Script.Continues (s : Script) : Option Exit → Machine → Option Exit → Machine → Prop
  | next {m n} : m.advance s.bytecode = .next n → Continues s none m none n
  | exit {x m n} : m.advance s.bytecode = .exit x n → (∀ v, x ≠ .returned v) →
      Continues s none m (some x) n
  | answer {x m n} (a traced writer) : x.isCall = true →
      (s.pause m).receive a ((s.pause m).machine traced writer) = .ok n →
      Continues s (some x) m none n
  | resolve {pending m n} (results traced writer) :
      (s.pause m).receiveAll pending results ((s.pause m).machine traced writer) = .ok (.ok n) →
      Continues s (some (.blocked pending)) m none n
  | reload {x m p} (codec : Codec Paused) (clock traced writer) : (∀ v, x ≠ .returned v) →
      (s.pause m).reload codec clock = some p →
      Continues s (some x) m (some x) (p.machine traced writer)
  | unattended {x m n e} : s.unavailable x = some e → m.answerException s.bytecode e = .ok n →
      Continues s (some x) m none n

theorem Script.Visits.continues {s : Script} {inputs : List Object} {budget : Budget}
    {x y : Option Exit} {m n : Machine} (h : s.Visits inputs budget x m)
    (hn : s.Continues x m y n) : s.Visits inputs budget y n := by
  cases hn with
  | next hn => exact h.next hn
  | exit hn _ => exact h.exit hn
  | answer a traced writer hx hn => exact h.answer a traced writer hx hn
  | resolve results traced writer hn => exact h.resolve results traced writer hn
  | reload codec clock traced writer hx hp => exact h.reload codec clock traced writer hx hp
  | unattended hx hn => exact h.unattended hx hn

end Resumable
