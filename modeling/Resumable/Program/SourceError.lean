import Resumable.Exception
import Resumable.Program.Tree

/-!
# Refused programs

Why a text is not accepted as a program, and where. Each cause has one message and is raised as one
type of exception.
-/

namespace Resumable

/-- Why a text is not accepted as a program. -/
inductive SourceError where
  /-- The text does not follow the grammar. What is said of it, and where, is the parser's. -/
  | notAProgram (message : String := "invalid syntax") (span : Option Span := none)
  /-- Statements and expressions are nested too deeply. -/
  | tooDeep (span : Span)
  /-- A construct of the guest language that cannot be run. -/
  | unsupported (construct : String) (span : Span)
  /-- An integer literal, as it is spelled, that needs more than 64 bits. -/
  | wideInteger (spelling : String) (span : Span)
  | noModule (name : String) (span : Span)
  | relativeImport (span : Span)
  | notExported (name : String) (module : Module) (span : Span)
  | breakOutsideLoop (span : Span)
  | continueOutsideLoop (span : Span)
  | returnOutsideFunction (span : Span)
  /-- A jump of this keyword would leave a `try` that has a `finally` clause. -/
  | jumpOutOfFinally (word : String) (span : Span)
  | augmentedTuple (span : Span)
  | misplacedStar (span : Span)
deriving DecidableEq, Repr

namespace SourceError

/-- The type of exception that a refusal is raised as. -/
def exceptionType : SourceError → ExceptionType
  | .unsupported .. | .wideInteger .. | .jumpOutOfFinally .. => .notImplementedError
  | .noModule .. | .relativeImport _ | .notExported .. => .importError
  | _ => .syntaxError

/-- The message of a refusal. -/
def message : SourceError → String
  | .notAProgram message _ => message
  | .tooDeep _ => "too many nested parentheses"
  | .unsupported construct _ => notYet construct
  | .wideInteger spelling _ => s!"integer literal {spelling} does not fit in 64 bits"
  | .noModule name _ => s!"No module named '{name}'"
  | .relativeImport _ => "attempted relative import with no known parent package"
  | .notExported name module _ => s!"cannot import name '{name}' from '{module.name}'"
  | .breakOutsideLoop _ => "'break' outside loop"
  | .continueOutsideLoop _ => "'continue' not properly in loop"
  | .returnOutsideFunction _ => "'return' outside function"
  | .jumpOutOfFinally word _ => notYet s!"'{word}' inside 'try' with 'finally'"
  | .augmentedTuple _ => "'tuple' is an illegal expression for augmented assignment"
  | .misplacedStar _ => "can't use starred expression here"
where
  notYet (construct : String) : String :=
    "The pausa parser does not yet support " ++ construct

/-- Where the program is refused, as far as that is known. -/
def span? : SourceError → Option Span
  | .notAProgram _ span => span
  | .tooDeep span | .unsupported _ span | .wideInteger _ span | .noModule _ span
  | .relativeImport span | .notExported _ _ span | .breakOutsideLoop span
  | .continueOutsideLoop span | .returnOutsideFunction span | .jumpOutOfFinally _ span
  | .augmentedTuple span | .misplacedStar span => some span

/-- The refusal of the program `source` as an exception. -/
def toException (e : SourceError) (script source : String) : Exception :=
  let traceback := match e.span? with
    | some span => [TraceFrame.ofSpan span script none source]
    | none => []
  ⟨e.exceptionType, some e.message, traceback, none⟩

end SourceError

end Resumable
