import Resumable.CommandLine.Arguments
import Resumable.Host.Limits
import Resumable.Host.Sandbox
import Resumable.Trace

/-!
# Execution of commands

A command gets the files that it names, and gives back what it prints. A script that is run sees no
files and variables but those on the command line.
-/

namespace Resumable.CommandLine

/-- Why a command fails. -/
inductive Failure where
  /-- The command line is not valid. -/
  | usage
  | unreadable (path reason : String)
  | badInput (name : String) (e : Json.ReadError)
  | badLimits (path : String) (e : Json.ReadError)
  | host (e : HostError)

namespace Failure

/-- An error of the host in words: with a traceback where the script is at fault. -/
def hostText (e : HostError) : String :=
  match e with
  | .guest exception | .compile exception => exception.text
  | .limit _ exception => exception.text ++ "\n" ++ e.display
  | _ => "error: " ++ e.display

/-- The message of a failure. -/
def message : Failure → String
  | .usage => "Usage: run SCRIPT [OPTIONS] | check SCRIPT [OPTIONS]"
  | .unreadable path reason => s!"error reading {path}: {reason}"
  | .badInput name e =>
    let reason := e.message
    s!"error: input '{name}' is not valid JSON: {reason}"
  | .badLimits path e =>
    let reason := e.message
    s!"error: invalid limits in {path}: {reason}"
  | .host e => hostText e

/-- The exit status. -/
def status : Failure → Nat
  | .usage => 2
  | _ => 1

end Failure

/-- What a command comes to. -/
structure Outcome where
  /-- What is printed as the result. -/
  output : String
  /-- The lines that are printed beside it. -/
  log : List String
  failure : Option Failure

namespace Outcome

/-- A command that fails. -/
def failed (log : List String) (f : Failure) : Outcome := ⟨"", log, some f⟩

/-- Everything that is printed beside the result. -/
def messages (o : Outcome) : String :=
  let lines := match o.failure with
    | some f => o.log ++ [f.message]
    | none => o.log
  String.join (lines.map (· ++ "\n"))

/-- The exit status. -/
def status (o : Outcome) : Nat :=
  match o.failure with
  | some f => f.status
  | none => 0

end Outcome

/-- The contents of files by their names, or why a file cannot be read. -/
abbrev ReadFile := String → Except String String

/-- The content of a file. -/
def readFile (read : ReadFile) (path : String) : Except Failure String :=
  (read path).mapError (.unreadable path)

/-- The inputs, read from JSON. -/
def readInputs (inputs : List (String × String)) : Except Failure (List (String × Object)) :=
  inputs.mapM fun (name, text) =>
    match Json.read text with
    | .ok j => .ok (name, .ofJson j)
    | .error e => .error (.badInput name e)

/-- The limits: those in the file, apart from those on the command line. -/
def readLimits (read : ReadFile) (a : RunArguments) : Except Failure LimitSettings := do
  let s ← match a.limits with
    | none => pure .unset
    | some path =>
      match LimitSettings.read (← readFile read path) with
      | .ok s => pure s
      | .error e => throw (.badLimits path e)
  return { s with
    maxDuration := a.maxDuration <|> s.maxDuration
    maxMemory := a.maxMemory <|> s.maxMemory
    maxAllocations := a.maxAllocations <|> s.maxAllocations
    maxRecursionDepth := a.maxRecursionDepth <|> s.maxRecursionDepth }

/-- The files and variables that the script sees. -/
def filesOf (a : RunArguments) : FileSystem :=
  let fs := a.env.foldl (fun fs (name, value) => fs.withVariable name value) .empty
  a.files.foldl (fun fs (path, content) =>
    fs.withFile (.ofString path) (Text.utf8 content) FileSystem.defaultFileMode) fs

/-- The list of all directories and files. -/
def listing (fs : FileSystem) : List String :=
  fs.dirs.map (fun dir => toString dir ++ "/") ++
    fs.files.map fun (path, content, _) =>
      let size := content.length
      s!"{path} ({size} bytes)"

/-- Runs a script. -/
def runScript (read : ReadFile) (a : RunArguments) (steps : Nat) (parse : Parser)
    (clock : Clock) : Option Outcome :=
  match prepared with
  | .error f => some (.failed [] f)
  | .ok (source, inputs, limits) =>
    let sandbox := { Sandbox.empty with script := a.script, files := some (filesOf a), limits }
    (sandbox.run source inputs a.trace steps parse clock).map fun run =>
      let log := run.events.filterMap Event.line?
      match run.result with
      | .error e => .failed log (.host e)
      | .ok r =>
        let shown :=
          if a.json then r.value.toJson.text ++ "\n"
          else if r.value matches .none then ""
          else r.value.literal ++ "\n"
        let files := if a.showFiles then r.files.elim [] listing else []
        ⟨r.output ++ shown, log ++ files, none⟩
where
  prepared : Except Failure (String × List (String × Object) × LimitSettings) := do
    let source ← readFile read a.script
    let inputs ← readInputs a.inputs
    return (source, inputs, ← readLimits read a)

/-- Compiles a script. -/
def checkScript (read : ReadFile) (script : String) (inputs functions : List String)
    (parse : Parser) : Outcome :=
  match readFile read script with
  | .error f => .failed [] f
  | .ok source =>
    let sandbox := { Sandbox.empty with script, declared := some functions }
    match sandbox.compile source inputs parse with
    | .error e => .failed [] (.host e)
    | .ok _ => ⟨"", [script ++ ": ok"], none⟩

/-- The files that a command reads. -/
def Command.paths : Command → List String
  | .run a => a.script :: a.limits.toList
  | .check script _ _ => [script]
  | .help => []

/-- Executes a command line. A run may take so many steps, each of so many instructions. -/
def execute (read : ReadFile) (args : List String) (steps : Nat) (parse : Parser := .plain)
    (clock : Clock := .nominal) : Option Outcome :=
  match command? args with
  | none => some (.failed [] .usage)
  | some .help => some ⟨Failure.usage.message ++ "\n", [], none⟩
  | some (.run a) => runScript read a steps parse clock
  | some (.check script inputs functions) =>
    some (checkScript read script inputs functions parse)

end Resumable.CommandLine
