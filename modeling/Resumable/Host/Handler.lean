import Resumable.Object.Text
import Resumable.Script.Run

/-!
# Outcomes of handlers

What a function of the host comes to when a program has called it: a value, or a failure that is
raised in the program. Hosts that answer in JSON may write either in several shapes.
-/

namespace Resumable

/-- A failure that the program sees as an exception. -/
structure HandlerFailure where
  kind : ExceptionType
  message : String
deriving DecidableEq, Repr

namespace HandlerFailure

/-- A failure of a kind given by its name, in any spelling; an unknown kind is a runtime error. -/
def named (kind message : String) : HandlerFailure :=
  ⟨(ExceptionType.ofLooseName? kind).getD .runtimeError, message⟩

/-- A failure without a kind. -/
def runtimeError (message : String) : HandlerFailure := ⟨.runtimeError, message⟩

/-- The failure that an exception stands for. -/
def ofException (e : Exception) : HandlerFailure := ⟨e.type, e.message.getD ""⟩

/-- The failure of a handler that broke down; what it said then is known only if it was text. -/
def ofCrash (source : String) (said : Option String) : HandlerFailure :=
  let detail := said.getD "unknown panic"
  .runtimeError s!"handler for '{source}' panicked: {detail}"

end HandlerFailure

/-- What a handler comes to. -/
inductive HandlerResult where
  | success (v : Object)
  | failure (f : HandlerFailure)

namespace HandlerResult

/-- The answer to the program. -/
def toAnswer : HandlerResult → Answer
  | .success v => .value v
  | .failure f => .exception f.kind (some f.message)

/-- The result of a failure with details. -/
def ofDetail? (detail : List (String × Json)) : Option HandlerResult := do
  let message ← text? (← detail.lookup "message")
  let kind ← match detail.lookup "kind" with
    | some kind => text? kind
    | none => some "RuntimeError"
  return .failure (.named kind message)
where
  text? : Json → Option String
    | .string s => some s
    | _ => none

/-- The result that a JSON value stands for, if it has one of the known shapes. -/
def ofShape? : Json → Option HandlerResult
  | .object [("ok", v)] => some (.success (.ofJson v))
  | .object [("error", .string message)] => some (.failure (.runtimeError message))
  | .object [("error", .object detail)] => ofDetail? detail
  | .array [.string "ok", v] => some (.success (.ofJson v))
  | .array [.string "error", .string message] => some (.failure (.runtimeError message))
  | .array [.string "error", .string kind, .string message] =>
    some (.failure (.named kind message))
  | _ => none

/-- The result that a JSON value stands for; a value of another shape is a failure that shows
it. -/
def ofJson (j : Json) : HandlerResult :=
  (ofShape? j).getD (.failure (.runtimeError ("invalid handler result: " ++ j.text)))

end HandlerResult

end Resumable
