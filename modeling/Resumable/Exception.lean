import Resumable.Budget
import Resumable.Location
import Resumable.Text.Search

/-!
# Exceptions that escape a program

An exception as the host sees it: its type and message, and the frames that were active when it was
raised, outermost first.
-/

namespace Resumable

/-- One entry of a traceback. -/
structure TraceFrame where
  script : String
  span : Span
  /-- The function, or `<module>`; none where the program never began to run. -/
  function : Option String
  /-- The source line, if the span lies on one line. -/
  line : Option String
deriving DecidableEq, Repr

/-- The entry for a span of a script. -/
def TraceFrame.ofSpan (span : Span) (script : String) (function : Option String)
    (source : String) : TraceFrame :=
  let line :=
    if span.start.line == span.stop.line then (linesOf source)[span.start.line - 1]? else none
  ⟨script, span, function, line⟩

/-- An exception that escaped a program, or with which a program was refused. -/
structure Exception where
  type : ExceptionType
  message : Option String
  traceback : List TraceFrame
  limit : Option LimitError
deriving DecidableEq, Repr

namespace Exception

/-- An exception without a traceback. -/
def plain (type : ExceptionType) (message : Option String) : Exception :=
  ⟨type, message, [], none⟩

/-- The type and the message in one line. -/
def summary (e : Exception) : String :=
  match e.message with
  | some message => if message.isEmpty then e.type.name else s!"{e.type.name}: {message}"
  | none => e.type.name

/-- The lines of one traceback entry. -/
def frameText (f : TraceFrame) : String :=
  let place := s!"  File \"{f.script}\", line {f.span.start.line}"
  let place := match f.function with
    | some name => place ++ ", in " ++ name
    | none => place
  let preview := match f.line with
    | some line => "    " ++ Text.trim line ++ "\n"
    | none => ""
  place ++ "\n" ++ preview

/-- The traceback and the summary, as an interpreter prints them. -/
def text (e : Exception) : String :=
  let header := if e.traceback.isEmpty then "" else "Traceback (most recent call last):\n"
  header ++ String.join (e.traceback.map frameText) ++ e.summary

end Exception

end Resumable
