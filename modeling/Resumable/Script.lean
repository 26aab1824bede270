import Resumable.Code.Compile
import Resumable.Heap.Conversion
import Resumable.Program.Lowering

/-!
# Scripts

A script is a program that has been compiled for a host: with the names of the inputs that the host
supplies and of the functions that it offers. The functions and then the inputs have the first
global slots.
-/

namespace Resumable

/-- A compiled program and the names that it was compiled with. -/
structure Script where
  /-- The name that tracebacks show. -/
  name : String
  source : String
  /-- The names of the inputs, in the order of their values. -/
  inputs : List String
  /-- The names of the functions of the host. -/
  functions : List String
  bytecode : Bytecode
deriving Inhabited

/-- The first element of a list that stands further left in it as well. -/
def firstRepeated? {α : Type} [BEq α] (seen : List α) : List α → Option α
  | [] => none
  | a :: rest => if seen.contains a then some a else firstRepeated? (a :: seen) rest

namespace Script

/-- Compiles a program, or says as an exception why it is refused. -/
def compile (source name : String) (inputs functions : List String) (parse : Parser := .plain) :
    Except Exception Script :=
  match firstRepeated? [] (functions ++ inputs) with
  | some again =>
    .error (.plain .valueError (some s!"name '{again}' is declared more than once"))
  | none =>
    match compiled with
    | .ok bytecode => .ok ⟨name, source, inputs, functions, bytecode⟩
    | .error e => .error (e.toException name source)
where
  compiled : Except SourceError Bytecode := do
    Resumable.compile (functions ++ inputs) (← readProgram source parse)

/-- A traceback entry for a place in the code. -/
def traceFrame (s : Script) (site : CallSite) : TraceFrame :=
  .ofSpan site.span s.name ((s.bytecode.functions[site.function]?).map (·.name)) s.source

/-- An exception of a run, as the host sees it. -/
def exception (s : Script) (e : Raised) : Exception :=
  ⟨e.type, e.message, e.traceback.map s.traceFrame, e.limit⟩

/-- The exception that ends a conversion of a host value. -/
def conversionException : Failure → Raised
  | .raised e => e
  | .overrun e => ⟨e.exceptionType, some e.message, [], some e⟩
  | .endless | .stuck => .fresh .runtimeError none

/-- The heap and the global slots at the start of a run. -/
def globals (s : Script) (inputs : List Object) (budget : Budget) :
    Except Exception (Heap × Array Value) :=
  if inputs.length != s.inputs.length then
    let expected := s.inputs.length
    let given := inputs.length
    .error (.plain .runtimeError (some s!"expected {expected} inputs, got {given}"))
  else
    match Heap.ofObjects [] inputs (.ofBudget budget) with
    | .ok values heap =>
      let external := (List.range s.functions.length).map Value.external
      let unset := List.replicate
        (s.bytecode.globals.length - external.length - values.length) Value.undefined
      .ok (heap, (external ++ values ++ unset).toArray)
    | .error e _ =>
      let reason := (s.exception (conversionException e)).summary
      .error (.plain .runtimeError (some s!"invalid input type: {reason}"))

end Script

end Resumable
