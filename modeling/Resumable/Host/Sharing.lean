import Resumable.Host.Handle

/-!
# Handles in many hands

The clones of a handle share one run behind a lock. An operation on a clone enters the lock once or
twice, each time for one section: it looks whether the run is still there, or takes it. Between the
two sections of one operation there may be sections of others, in any order. All else that an
operation does is outside the lock, and concerns no one else; so it is with the writing of a dump,
which has the run then, also where it fails.
-/

namespace Resumable

/-- What an operation on a shared handle comes to. -/
inductive UseResult where
  /-- It has taken the run, and the run has gone on; `none` if it does not pause within the
  instructions that it was given. -/
  | continued (step : Option (Step HostError))
  /-- It has taken the run and moved it to a handle of its own. -/
  | moved (handle : Handle)
  /-- It tells whether the run has been taken. -/
  | told (taken : Bool)
  | refused (e : HostError)

/-- What an operation has still to do behind the lock, section by section. -/
inductive Access where
  | ends (result : UseResult)
  | looks (next : Bool → Access)
  | takes (next : Option Paused → Access)

namespace Access

/-- One section: what the operation has to do then, and what it leaves of the run. -/
def enter (run : Option Paused) : Access → Access × Option Paused
  | .ends result => (.ends result, run)
  | .looks next => (next run.isNone, run)
  | .takes next => (next run, none)

/-- All sections of an operation that nobody interrupts. -/
def alone (run : Option Paused) : Access → UseResult × Option Paused
  | .ends result => (result, run)
  | .looks next => (next run.isNone).alone run
  | .takes next => (next run).alone none

end Access

/-- The use that an operation makes of a shared run. -/
inductive Use where
  | look
  /-- It takes the run, which comes to something then. -/
  | claim (outcome : Paused → UseResult)
  /-- It does so if the run is still there and the request is without fault. -/
  | claimIf (checked : Except RequestFault (Paused → UseResult))

namespace Use

/-- What comes of an operation that gets the run, or comes too late for it. -/
def claimed (outcome : Paused → UseResult) : Option Paused → Access
  | some run => .ends (outcome run)
  | none => .ends (.refused .consumed)

/-- The sections of an operation. -/
def sections : Use → Access
  | .look => .looks fun taken => .ends (.told taken)
  | .claim outcome => .takes (claimed outcome)
  | .claimIf checked => .looks fun taken =>
    if taken then .ends (.refused .consumed)
    else
      match checked with
      | .error fault => .ends (.refused (.validation fault))
      | .ok outcome => .takes (claimed outcome)

/-- What an operation comes to that begins when the run has been taken. -/
def late : Use → UseResult
  | .look => .told true
  | .claim _ | .claimIf _ => .refused .consumed

end Use

/-! ## The operations of both handles -/

namespace Continuation

/-- An operation with its arguments. -/
inductive Operation where
  | resume (r : HandlerResult) (traced : Bool) (steps : Nat)
  | defer (traced : Bool) (steps : Nat)
  | dump
  | isConsumed

/-- What a run comes to that is answered. -/
def answered (a : Answer) (traced : Bool) (steps : Nat) (run : Paused) : UseResult :=
  .continued ((run.answer a traced steps).map (·.mapError .ofException))

/-- What a run comes to that is dumped. -/
def dumped (c : Continuation) (codec : Codec Continuation) (clock : Clock) (run : Paused) :
    UseResult :=
  match codec.pass (restart { c with run := some run } .stopped) with
  | some moved => .moved (.continuation (moved.restart clock))
  | none => .refused .serialization

/-- What an operation does with the run, where dumps are written in some way and read again when a
clock starts. -/
def use (c : Continuation) (codec : Codec Continuation) (clock : Clock) : Operation → Use
  | .resume r traced steps => .claim (answered r.toAnswer traced steps)
  | .defer traced steps =>
    match c.request with
    | .os function => .claimIf (.error (.undeferrable function))
    | .function _ => .claimIf (.ok (answered .later traced steps))
  | .dump => .claim (c.dumped codec clock)
  | .isConsumed => .look

end Continuation

namespace FutureBatch

/-- An operation with its arguments. -/
inductive Operation where
  | resolve (results : List (Nat × HandlerResult)) (traced : Bool) (steps : Nat)
  | dump
  | isConsumed

/-- What a run comes to that is given results. -/
def resolved (b : FutureBatch) (traced : Bool) (steps : Nat) (sorted : List (Nat × HandlerResult))
    (run : Paused) : UseResult :=
  let answers := sorted.map fun (id, r) => (id, r.toAnswer)
  .continued ((run.resolve b.pending answers traced steps).map (·.mapError .ofException))

/-- What a run comes to that is dumped. -/
def dumped (b : FutureBatch) (codec : Codec FutureBatch) (clock : Clock) (run : Paused) :
    UseResult :=
  match codec.pass (restart { b with run := some run } .stopped) with
  | some moved => .moved (.batch (moved.restart clock))
  | none => .refused .serialization

/-- What an operation does with the run, where dumps are written in some way and read again when a
clock starts. -/
def use (b : FutureBatch) (codec : Codec FutureBatch) (clock : Clock) : Operation → Use
  | .resolve results traced steps => .claimIf ((b.collect [] results).map (b.resolved traced steps))
  | .dump => .claim (b.dumped codec clock)
  | .isConsumed => .look

end FutureBatch

/-! ## Operations that nobody interrupts -/

/-- The step that a host gets from an operation. -/
def UseResult.step? : UseResult → Option (Step HostError)
  | .continued step => step
  | .refused e => some (.failure e)
  | .moved _ | .told _ => none

/-- The handle that a host gets from an operation. -/
def UseResult.handle? : UseResult → Option (Except HostError Handle)
  | .moved handle => some (.ok handle)
  | .refused e => some (.error e)
  | .continued _ | .told _ => none

namespace Continuation

variable (c : Continuation) (codec : Codec Continuation) (clock : Clock)

theorem resume_alone (r : HandlerResult) (traced : Bool) (steps : Nat) :
    let (result, run) := (c.use codec clock (.resume r traced steps)).sections.alone c.run
    c.resume r traced steps = result.step?.map (·, { c with run }) := by
  obtain ⟨request, args, named, call, run⟩ := c
  cases run with
  | none => rfl
  | some run =>
    simp [resume, use, Use.sections, Use.claimed, Access.alone, answered, UseResult.step?, consume,
      Function.comp_def]

theorem defer_alone (traced : Bool) (steps : Nat) :
    let (result, run) := (c.use codec clock (.defer traced steps)).sections.alone c.run
    c.defer traced steps = result.step?.map (·, { c with run }) := by
  obtain ⟨request, args, named, call, run⟩ := c
  cases run with
  | none => cases request <;> rfl
  | some run =>
    cases request with
    | os function => rfl
    | function name =>
      simp [defer, use, Use.sections, Use.claimed, Access.alone, answered, UseResult.step?, consume,
        Function.comp_def]

theorem dump_alone :
    let (result, run) := (c.use codec clock .dump).sections.alone c.run
    result.handle? = some ((c.dump codec clock).1.map .continuation) ∧
      (c.dump codec clock).2 = { c with run } := by
  obtain ⟨request, args, named, call, run⟩ := c
  cases run with
  | none => exact ⟨rfl, rfl⟩
  | some run =>
    simp only [use, Use.sections, Use.claimed, Access.alone, dumped, dump, isConsumed,
      Option.isNone_some, Bool.false_eq_true, ↓reduceIte]
    cases codec.pass _ <;> exact ⟨rfl, rfl⟩

theorem isConsumed_alone :
    (c.use codec clock .isConsumed).sections.alone c.run = (.told c.isConsumed, c.run) := rfl

end Continuation

namespace FutureBatch

variable (b : FutureBatch) (codec : Codec FutureBatch) (clock : Clock)

theorem resolve_alone (results : List (Nat × HandlerResult)) (traced : Bool) (steps : Nat) :
    let (result, run) := (b.use codec clock (.resolve results traced steps)).sections.alone b.run
    b.resolve results traced steps = result.step?.map (·, { b with run }) := by
  obtain ⟨pending, run⟩ := b
  cases run with
  | none => rfl
  | some run =>
    cases h : collect ⟨pending, some run⟩ [] results with
    | error fault =>
      simp [resolve, use, Use.sections, Access.alone, UseResult.step?, h, Except.map]
    | ok sorted =>
      simp [resolve, use, Use.sections, Use.claimed, Access.alone, resolved, UseResult.step?,
        consume, h, Except.map, Function.comp_def]

theorem dump_alone :
    let (result, run) := (b.use codec clock .dump).sections.alone b.run
    result.handle? = some ((b.dump codec clock).1.map .batch) ∧
      (b.dump codec clock).2 = { b with run } := by
  obtain ⟨pending, run⟩ := b
  cases run with
  | none => exact ⟨rfl, rfl⟩
  | some run =>
    simp only [use, Use.sections, Use.claimed, Access.alone, dumped, dump, isConsumed,
      Option.isNone_some, Bool.false_eq_true, ↓reduceIte]
    cases codec.pass _ <;> exact ⟨rfl, rfl⟩

theorem isConsumed_alone :
    (b.use codec clock .isConsumed).sections.alone b.run = (.told b.isConsumed, b.run) := rfl

end FutureBatch

/-! ## Calls in any order -/

/-- What the clones of a handle share, and all that is done with it. -/
structure Shared (ο : Type) where
  /-- The run, until it is taken. -/
  run : Option Paused
  /-- All calls of operations, on whatever clones, in the order in which they have begun; with
  what each has still to do. -/
  calls : List (ο × Access)
  /-- The numbers of the calls that have taken the run. -/
  takers : List Nat

/-- What happens next among the calls. -/
inductive Shared.Turn (ο : Type) where
  | begins (op : ο)
  /-- The call with this number has its next section, if there is one. -/
  | enters (call : Nat)

namespace Shared

variable {ο : Type}

/-- A handle that nobody has used yet. -/
def fresh (run : Paused) : Shared ο := ⟨some run, [], []⟩

/-- The handle after a section of a call. -/
def enter (s : Shared ο) (i : Nat) : Shared ο :=
  match s.calls[i]? with
  | none => s
  | some (op, access) =>
    let (rest, run) := access.enter s.run
    { run
      calls := s.calls.set i (op, rest)
      takers := if s.run.isSome && run.isNone then s.takers ++ [i] else s.takers }

/-- The handle after a turn. -/
def after (use : ο → Use) (s : Shared ο) : Turn ο → Shared ο
  | .begins op => { s with calls := s.calls ++ [(op, (use op).sections)] }
  | .enters i => s.enter i

/-- The handle after turns. -/
def afterAll (use : ο → Use) (s : Shared ο) (turns : List (Turn ο)) : Shared ο :=
  turns.foldl (after use) s

end Shared

end Resumable
