import Resumable.Decimal
import Resumable.Machine.Basic

/-!
# Traces

What can be made of the events of a run: a log that is read line by line, and a profile that counts
how often each operation was executed. Their columns are texts that are padded with blanks; a text
that is wider than its column stays as it is.
-/

namespace Resumable

namespace Text

/-- `n` blanks. -/
def blanks (n : Nat) : String := String.ofList (List.replicate n ' ')

/-- A text at the left of a column. -/
def leftColumn (width : Nat) (s : String) : String := s ++ blanks (width - s.length)

/-- A text at the right of a column. -/
def rightColumn (width : Nat) (s : String) : String := blanks (width - s.length) ++ s

end Text

namespace PauseKind

/-- The name of what the host is asked for. -/
def name : PauseKind → String
  | .function => "function"
  | .os => "os"
  | .futures => "futures"

end PauseKind

namespace Event

/-- The line of an event in a log; handlers do not show in it. -/
def line? : Event → Option String
  | .instruction index op operands frames =>
    let index := Text.rightColumn 5 (toString index)
    let op := Text.leftColumn 16 op
    some s!"[{index}] {op} stack={operands}  frames={frames}"
  | .call function depth =>
    let function := Text.leftColumn 20 function
    some s!"  >>> CALL {function} depth={depth}"
  | .return depth => some s!"  <<< RETURN              depth={depth}"
  | .pause kind (some id) =>
    let kind := Text.leftColumn 19 kind.name
    some s!"  ||| PAUSE {kind} call_id={id}"
  | .pause kind none => some ("  ||| PAUSE " ++ kind.name)
  | .handlerEntered _ | .handlerLeft _ => none

end Event

/-- How often each operation was executed in a run, and how deep its calls went. -/
structure Profile where
  /-- The operations that were executed, with the number of times. -/
  counts : List (String × Nat)
  instructions : Nat
  /-- The greatest number of active calls. -/
  maxDepth : Nat
  calls : Nat
  pauses : Nat
deriving DecidableEq, Repr

namespace Profile

/-- The profile of no event. -/
def empty : Profile := ⟨[], 0, 0, 0, 0⟩

/-- The counts with one more for `op`. -/
def countOne (op : String) : List (String × Nat) → List (String × Nat)
  | [] => [(op, 1)]
  | (name, n) :: rest => if name == op then (name, n + 1) :: rest else (name, n) :: countOne op rest

/-- The profile with one more event. -/
def add (p : Profile) : Event → Profile
  | .instruction _ op _ frames =>
    { p with
      counts := countOne op p.counts
      instructions := p.instructions + 1
      maxDepth := max p.maxDepth frames }
  | .call _ depth => { p with calls := p.calls + 1, maxDepth := max p.maxDepth depth }
  | .pause .. => { p with pauses := p.pauses + 1 }
  | _ => p

/-- The profile of a run. -/
def ofEvents (events : List Event) : Profile := events.foldl add empty

/-- The counts, the greatest first; of equal ones, in the order of the names. -/
def ranking (p : Profile) : List (String × Nat) :=
  p.counts.mergeSort fun (a, m) (b, n) => m > n || (m == n && !(b < a))

/-- The line of an operation in the report. -/
def rankLine (p : Profile) (op : String) (count : Nat) : String :=
  let share := Float.ofNat count / Float.ofNat p.instructions * 100.0
  "  " ++ Text.leftColumn 20 op ++ " " ++ Text.rightColumn 10 (toString count) ++ "  (" ++
    Text.rightColumn 5 (Decimal.fixed 1 share) ++ "%)\n"

/-- The profile as a text. -/
def report (p : Profile) : String :=
  let instructions := p.instructions
  let calls := p.calls
  let pauses := p.pauses
  let depth := p.maxDepth
  "=== VM Profiling Report ===\n" ++
    s!"Total instructions: {instructions}\n" ++
    s!"Total calls:        {calls}\n" ++
    s!"Host pauses:        {pauses}\n" ++
    s!"Max call depth:     {depth}\n" ++
    "\n--- Opcode Frequency ---\n" ++
    String.join (p.ranking.map fun (op, count) => p.rankLine op count)

end Profile

end Resumable
