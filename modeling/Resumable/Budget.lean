import Resumable.ExceptionType

/-!
# Budgets

What a run may use up: instructions, allocations, memory, time and depth of calls. A budget counts
what has been used; every use is checked before it happens, and an overrun is a `LimitError`.

Time comes from outside: a budget has a clock, and is charged what the clock shows when it is read.
It is read before an instruction, and only where time is limited.
-/

namespace Resumable

/-! ## Time -/

/-- What a clock shows each time that it is read, in nanoseconds since it was started. -/
abbrev Clock := Nat → Nat

namespace Clock

/-- A clock that shows nothing. -/
def stopped : Clock := fun _ => 0

/-- A clock that goes on by 200 nanoseconds from one reading to the next, for runs that are to take
the same course each time. -/
def nominal : Clock := fun reading => (reading + 1) * 200

end Clock

/-- A duration in nanoseconds, in the largest unit of which it has one. -/
def durationText (nanoseconds : Nat) : String :=
  if nanoseconds ≥ 1000000000 then inUnit 9 ++ "s"
  else if nanoseconds ≥ 1000000 then inUnit 6 ++ "ms"
  else if nanoseconds ≥ 1000 then inUnit 3 ++ "µs"
  else inUnit 0 ++ "ns"
where
  /-- As many decimals as the duration has in a unit of `10 ^ places` nanoseconds. -/
  inUnit (places : Nat) : String :=
    let unit := Nat.pow 10 places
    let rest := toString (nanoseconds % unit)
    let padded := List.replicate (places - rest.length) '0' ++ rest.toList
    let decimals := (padded.reverse.dropWhile (· == '0')).reverse
    let whole := toString (nanoseconds / unit)
    if decimals.isEmpty then whole else whole ++ "." ++ String.ofList decimals

example : durationText 1500000 = "1.5ms" := by decide +kernel

/-! ## Limits -/

/-- A limit that a run went over, and by what. -/
inductive LimitError where
  | allocation (limit count : Nat)
  | operation (limit count : Nat)
  /-- Both in nanoseconds. -/
  | time (limit elapsed : Nat)
  /-- Both in bytes. -/
  | memory (limit used : Nat)
  | recursion (limit depth : Nat)
deriving DecidableEq, Repr

namespace LimitError

/-- The message of an overrun. -/
def message : LimitError → String
  | .allocation limit count => s!"allocation limit exceeded: {count} > {limit}"
  | .operation limit count => s!"operation limit exceeded: {count} > {limit}"
  | .time limit elapsed =>
    "time limit exceeded: " ++ durationText elapsed ++ " > " ++ durationText limit
  | .memory limit used => s!"memory limit exceeded: {used} bytes > {limit} bytes"
  | .recursion .. => "maximum recursion depth exceeded"

/-- The exception type that an overrun is raised as. -/
def exceptionType : LimitError → ExceptionType
  | .allocation .. | .memory .. => .memoryError
  | .operation .. | .time .. => .timeoutError
  | .recursion .. => .recursionError

/-- Only the depth of calls is an error that a program can catch. -/
def isCatchable : LimitError → Bool
  | .recursion .. => true
  | _ => false

end LimitError

/-- The limits of a run; a missing one is off. -/
structure Limits where
  maxOperations : Option Nat
  maxAllocations : Option Nat
  /-- In nanoseconds. -/
  maxDuration : Option Nat
  maxMemory : Option Nat
  /-- The number of allocations between two garbage collections. -/
  gcInterval : Option Nat
  maxRecursionDepth : Option Nat
deriving DecidableEq, Repr, Inhabited

namespace Limits

/-- The depth of calls that is allowed where nothing else is said. -/
def defaultRecursionDepth : Nat := 1000

/-- The largest result in bytes that one operation may build, whatever the limits. -/
def resultCeiling : Nat := 1024 * 1024 * 1024

/-- The estimated size from which on a result is checked before it is built. -/
def largeResult : Nat := 100000

/-- No limits at all. -/
def none : Limits := ⟨.none, .none, .none, .none, .none, .none⟩

/-- No limits but the default depth of calls. -/
def default : Limits := { none with maxRecursionDepth := some defaultRecursionDepth }

end Limits

/-! ## Budgets -/

/-- The limits of a run and what it has used up. -/
structure Budget where
  limits : Limits
  allocations : Nat
  operations : Nat
  memory : Nat
  /-- Whether only the depth of calls is limited, and nothing is counted. -/
  unlimited : Bool
  clock : Clock
  /-- How often the clock has been read. -/
  readings : Nat
deriving Inhabited

namespace Budget

/-- A budget with nothing used up, whose clock starts now. -/
def ofLimits (limits : Limits) (clock : Clock := .nominal) : Budget :=
  ⟨limits, 0, 0, 0, false, clock, 0⟩

/-- A budget that only limits the depth of calls, to the default. -/
def free : Budget := ⟨Limits.default, 0, 0, 0, true, .stopped, 0⟩

/-- A budget with a clock that starts now. -/
def restart (b : Budget) (clock : Clock) : Budget := { b with clock, readings := 0 }

/-- The memory in use after another `bytes`, if the limit allows it. -/
def memoryAfter (b : Budget) (bytes : Nat) : Except LimitError Nat :=
  let used := min (b.memory + bytes) (UInt64.size - 1)
  match b.limits.maxMemory with
  | some limit => if used > limit then .error (.memory limit used) else .ok used
  | none => .ok used

/-- Counts an allocation, or the insertion into a container, of `bytes`. -/
def allocate (b : Budget) (bytes : Nat) : Except LimitError Budget :=
  if b.unlimited then .ok b
  else
    let count := b.allocations + 1
    match b.limits.maxAllocations with
    | some limit =>
      if count > limit then .error (.allocation limit count) else charge count
    | none => charge count
where
  charge (count : Nat) : Except LimitError Budget :=
    match b.memoryAfter bytes with
    | .ok used => .ok { b with memory := used, allocations := count }
    | .error e => .error e

/-- Gives back the memory of a freed allocation. -/
def release (b : Budget) (bytes : Nat) : Budget :=
  if b.unlimited then b else { b with memory := b.memory - bytes }

/-- Counts one instruction, and then looks at the time. The count also moves when the limit refuses
the instruction. -/
def tick (b : Budget) : Budget × Option LimitError :=
  if b.unlimited then (b, none)
  else
    match b.limits.maxOperations with
    | some limit =>
      let b := { b with operations := b.operations + 1 }
      if b.operations > limit then (b, some (.operation limit b.operations)) else checkTime b
    | none => checkTime b
where
  checkTime (b : Budget) : Budget × Option LimitError :=
    match b.limits.maxDuration with
    | some limit =>
      let elapsed := b.clock b.readings
      ({ b with readings := b.readings + 1 },
        if elapsed > limit then some (.time limit elapsed) else none)
    | none => (b, none)

/-- Checks that one more call fits on top of `depth` active ones. -/
def checkDepth (b : Budget) (depth : Nat) : Except LimitError Unit :=
  match b.limits.maxRecursionDepth with
  | some limit => if depth ≥ limit then .error (.recursion limit (depth + 1)) else .ok ()
  | none => .ok ()

/-- Checks a result of an estimated size before it is built. -/
def checkResult (b : Budget) (bytes : Nat) : Except LimitError Unit :=
  if bytes > Limits.resultCeiling then .error (.memory Limits.resultCeiling bytes)
  else if b.unlimited then .ok ()
  else (b.memoryAfter bytes).map fun _ => ()

/-- Whether the heap is to be collected after so many allocations. -/
def shouldCollect (b : Budget) (allocations : Nat) : Bool :=
  !b.unlimited &&
    match b.limits.gcInterval with
    | some interval => interval > 0 && allocations ≥ interval
    | none => false

end Budget

end Resumable
