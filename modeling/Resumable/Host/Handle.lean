import Resumable.Host.Error
import Resumable.Host.Handler

/-!
# Handles of paused runs

A host holds a paused run by a handle. The run can be taken out of it once, to go on or to be
dumped; the handle itself stays, and still tells what the run waits for.

Every operation that may take the run gives back the handle as it is afterwards.
-/

namespace Resumable

/-- A call for which a run is paused. -/
inductive Request where
  | function (name : String)
  | os (function : OsFunction)
deriving DecidableEq, Repr

/-- A handle of a run that waits for the answer to a call. -/
structure Continuation where
  request : Request
  args : List Object
  named : List (String × Object)
  call : Nat
  /-- The run, until it is taken. -/
  run : Option Paused

/-- A handle of a run that waits for the results of earlier calls. -/
structure FutureBatch where
  pending : List Nat
  /-- The run, until it is taken. -/
  run : Option Paused

/-- The end of a step as a host keeps it. -/
inductive Handle where
  | continuation (c : Continuation)
  | batch (b : FutureBatch)
  | finished (v : Object)

/-- The handle of a progress. -/
def Handle.ofProgress : Progress → Handle
  | .functionCall name args named call run =>
    .continuation ⟨.function name, args, named, call, some run⟩
  | .osCall function args named call run =>
    .continuation ⟨.os function, args, named, call, some run⟩
  | .futures pending run => .batch ⟨pending, some run⟩
  | .complete v => .finished v

namespace Continuation

/-- Whether the run has been taken. -/
def isConsumed (c : Continuation) : Bool := c.run.isNone

/-- The handle without its run. -/
def consume (c : Continuation) : Continuation := { c with run := none }

/-- Answers the call and runs to the next pause. -/
def resume (c : Continuation) (r : HandlerResult) (traced : Bool) (steps : Nat) :
    Option (Step HostError × Continuation) :=
  match c.run with
  | none => some (.failure .consumed, c)
  | some run =>
    (run.answer r.toAnswer traced steps).map fun step => (step.mapError .ofException, c.consume)

/-- Answers the call with a future and runs to the next pause. -/
def defer (c : Continuation) (traced : Bool) (steps : Nat) :
    Option (Step HostError × Continuation) :=
  match c.run, c.request with
  | none, _ => some (.failure .consumed, c)
  | some _, .os function => some (.failure (.validation (.undeferrable function)), c)
  | some run, .function _ =>
    (run.answer .later traced steps).map fun step => (step.mapError .ofException, c.consume)

/-- The handle of a run with a clock that starts now. -/
def restart (c : Continuation) (clock : Clock) : Continuation :=
  { c with run := c.run.map (·.restart clock) }

/-- Moves the run to a handle of its own: writes it down with its request, and reads it again. -/
def dump (c : Continuation) (codec : Codec Continuation := .direct _) (clock : Clock := .nominal) :
    Except HostError Continuation × Continuation :=
  if c.isConsumed then (.error .consumed, c)
  else
    match codec.pass (c.restart .stopped) with
    | some moved => (.ok (moved.restart clock), c.consume)
    | none => (.error .serialization, c.consume)

end Continuation

namespace FutureBatch

/-- Whether the run has been taken. -/
def isConsumed (b : FutureBatch) : Bool := b.run.isNone

/-- The handle without its run. -/
def consume (b : FutureBatch) : FutureBatch := { b with run := none }

/-- A list in order of the calls, with one more result in it; none if there is one already. -/
def insertResult? (id : Nat) (r : HandlerResult) :
    List (Nat × HandlerResult) → Option (List (Nat × HandlerResult))
  | [] => some [(id, r)]
  | (i, s) :: rest =>
    if i == id then none
    else if id < i then some ((id, r) :: (i, s) :: rest)
    else (insertResult? id r rest).map ((i, s) :: ·)

/-- The results in order of the calls, behind those in `sorted`, if each is for a pending call and
there is one for every call. -/
def collect (b : FutureBatch) (sorted : List (Nat × HandlerResult)) :
    List (Nat × HandlerResult) → Except RequestFault (List (Nat × HandlerResult))
  | [] =>
    match b.pending.find? fun id => !sorted.any (·.1 == id) with
    | some id => .error (.missingCall id)
    | none => .ok sorted
  | (id, r) :: rest =>
    if !b.pending.contains id then .error (.unknownCall id b.pending)
    else
      match insertResult? id r sorted with
      | none => .error (.repeatedCall id)
      | some sorted => b.collect sorted rest

/-- Gives a result for each pending call and runs to the next pause. Results that do not match the
pending calls leave the handle as it is. -/
def resolve (b : FutureBatch) (results : List (Nat × HandlerResult)) (traced : Bool)
    (steps : Nat) : Option (Step HostError × FutureBatch) :=
  match b.run with
  | none => some (.failure .consumed, b)
  | some run =>
    match b.collect [] results with
    | .error fault => some (.failure (.validation fault), b)
    | .ok sorted =>
      let answers := sorted.map fun (id, r) => (id, r.toAnswer)
      (run.resolve b.pending answers traced steps).map fun step =>
        (step.mapError .ofException, b.consume)

/-- The handle of a run with a clock that starts now. -/
def restart (b : FutureBatch) (clock : Clock) : FutureBatch :=
  { b with run := b.run.map (·.restart clock) }

/-- Moves the run to a handle of its own: writes it down and reads it again. -/
def dump (b : FutureBatch) (codec : Codec FutureBatch := .direct _) (clock : Clock := .nominal) :
    Except HostError FutureBatch × FutureBatch :=
  if b.isConsumed then (.error .consumed, b)
  else
    match codec.pass (b.restart .stopped) with
    | some moved => (.ok (moved.restart clock), b.consume)
    | none => (.error .serialization, b.consume)

end FutureBatch

end Resumable
