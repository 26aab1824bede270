import Resumable.Decimal
import Resumable.Exception
import Resumable.Machine.Run
import Resumable.OsFunction

/-!
# Errors of the host

Why the host does not get what it asks for: its own request is at fault, or the program was refused,
was left by an exception, or went over a limit.
-/

namespace Resumable

/-- What a name is declared as. -/
inductive NameKind where
  | input
  | function
deriving DecidableEq, Repr

/-- The kind of name in words. -/
def NameKind.noun : NameKind → String
  | .input => "input"
  | .function => "external function"

/-- A fault in a request of the host. -/
inductive RequestFault where
  | emptyName (kind : NameKind)
  | invalidName (kind : NameKind) (name : String)
  | duplicateName (kind : NameKind) (name : String)
  /-- A name is declared as an input and as a function. -/
  | sharedName (name : String)
  | unexpectedInput (name : String)
  | repeatedInput (name : String)
  | missingInput (name : String)
  /-- A duration in seconds that is negative, or else too large or not a number. -/
  | duration (seconds : Float)
  | zeroInterval
  /-- Only calls of functions can be answered later. -/
  | undeferrable (function : OsFunction)
  | unknownCall (id : Nat) (pending : List Nat)
  | repeatedCall (id : Nat)
  | missingCall (id : Nat)

namespace RequestFault

/-- The message of a fault. -/
def message : RequestFault → String
  | .emptyName kind => "empty " ++ kind.noun ++ " name"
  | .invalidName kind name => "invalid " ++ kind.noun ++ s!" name '{name}'"
  | .duplicateName kind name => "duplicate " ++ kind.noun ++ s!" name '{name}'"
  | .sharedName name => s!"'{name}' is declared both as an input and as an external function"
  | .unexpectedInput name => s!"unexpected input '{name}'"
  | .repeatedInput name => s!"input '{name}' supplied more than once"
  | .missingInput name => s!"missing input '{name}'"
  | .duration seconds =>
    let shown := Decimal.FloatStyle.plain.text seconds
    let reason := if seconds < 0.0 then "negative" else "either too big or NaN"
    s!"invalid max_duration_secs {shown}: " ++
      s!"cannot convert float seconds to Duration: value is {reason}"
  | .zeroInterval => "gc_interval must be positive"
  | .undeferrable function =>
    let name := function.name
    s!"OS call '{name}' cannot be deferred"
  | .unknownCall id pending =>
    let expected := Machine.numberList pending
    s!"unknown call_id {id}, expected one of: {expected}"
  | .repeatedCall id => s!"call_id {id} resolved more than once"
  | .missingCall id => s!"missing result for call_id {id}"

end RequestFault

namespace LimitError

/-- The kind of limit in one word. -/
def kind : LimitError → String
  | .time .. => "duration"
  | .memory .. => "memory"
  | .allocation .. => "allocations"
  | .operation .. => "operations"
  | .recursion .. => "recursion"

end LimitError

/-- Why a request of the host fails. -/
inductive HostError where
  /-- The program is refused. -/
  | compile (e : Exception)
  /-- The request is at fault. -/
  | validation (fault : RequestFault)
  /-- An exception escaped the program. -/
  | guest (e : Exception)
  /-- The paused run has been resumed or dumped before. -/
  | consumed
  /-- A limit ended the run. -/
  | limit (which : LimitError) (e : Exception)
  /-- Bytes that are not the dump of anything. -/
  | serialization

namespace HostError

/-- The error that an exception which escaped a program is to the host. -/
def ofException (e : Exception) : HostError :=
  match e.limit with
  | some which => .limit which e
  | none => .guest e

/-- The exception behind an error. -/
def exception? : HostError → Option Exception
  | .compile e | .guest e | .limit _ e => some e
  | _ => none

/-- The error in words, without the type of an exception. -/
def message : HostError → String
  | .compile e | .guest e | .limit _ e => e.message.getD ""
  | .validation fault => fault.message
  | .consumed => "snapshot has already been resumed"
  | .serialization => "not the bytes of a dump"

/-- The error in one line. -/
def display : HostError → String
  | .compile e => "compile error: " ++ e.summary
  | .validation fault => "validation error: " ++ fault.message
  | .guest e => e.summary
  | .consumed => "snapshot has already been resumed"
  | .limit which e => "resource limit exceeded (" ++ which.kind ++ "): " ++ e.summary
  | .serialization => "serialization error: not the bytes of a dump"

end HostError

/-- A coarse class of errors, for hosts that act on it. -/
inductive HostErrorKind where
  | compile
  | validation
  | name
  | runtime
  | consumed
  | limit (which : LimitError)
  | os (type : ExceptionType)
  | notImplemented
  | exception (type : ExceptionType)
  | serialization
deriving DecidableEq, Repr

/-- The class of an exception that escaped a program, by its type. -/
def HostErrorKind.ofType (type : ExceptionType) : HostErrorKind :=
  match type with
  | .nameError | .unboundLocalError => .name
  | .runtimeError | .recursionError => .runtime
  | .notImplementedError => .notImplemented
  | _ => if type.isSubclassOf .osError then .os type else .exception type

/-- The class of an error. -/
def HostError.kind : HostError → HostErrorKind
  | .compile _ => .compile
  | .validation _ => .validation
  | .guest e => .ofType e.type
  | .consumed => .consumed
  | .limit which _ => .limit which
  | .serialization => .serialization

end Resumable
