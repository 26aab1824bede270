import Resumable.Decimal
import Resumable.Text.Radix
import Resumable.Text.Search

/-!
# Arguments of the command line

There are two commands. `run SCRIPT` runs a script and `check SCRIPT` only compiles it. Options
stand anywhere behind the command; the value of an option follows it, or stands behind `=` in the
same argument. Behind `--` there are no options.
-/

namespace Resumable.CommandLine

/-- The arguments of `run`. -/
structure RunArguments where
  script : String
  /-- Inputs: names and JSON texts. -/
  inputs : List (String × String)
  /-- Files that the program sees: paths and contents. -/
  files : List (String × String)
  /-- Environment variables that the program sees. -/
  env : List (String × String)
  /-- A file with limits. -/
  limits : Option String
  /-- Limits that take the place of those in the file. -/
  maxDuration : Option Float
  maxMemory : Option Nat
  maxAllocations : Option Nat
  maxRecursionDepth : Option Nat
  /-- Whether the final value is printed as JSON. -/
  json : Bool
  /-- Whether instructions are logged. -/
  trace : Bool
  /-- Whether the files are listed after the run. -/
  showFiles : Bool

/-- A command with its arguments. -/
inductive Command where
  | run (args : RunArguments)
  | check (script : String) (inputs functions : List String)
  | help

/-! ## Options -/

/-- One argument or option as it is written. -/
inductive Item where
  | positional (text : String)
  | option (name value : String)
  | switch (name : String)
  | help

/-- The options of a command: those with a value and those without. -/
structure OptionNames where
  withValue : List String
  switches : List String

/-- A text cut at its first `=`. -/
def cutAtEquals (s : List Char) : Option (List Char × List Char) := Text.cut? ['='] s

/-- An option as it is written behind its two dashes: its name, and the value in the same argument
if there is one. -/
def splitOption (s : List Char) : String × Option String :=
  match cutAtEquals s with
  | some (name, value) => (String.ofList name, some (String.ofList value))
  | none => (String.ofList s, none)

/-- The arguments of a command, one by one, behind those in `done`; `none` if they do not follow the
rules. `pending` is an option that waits for its value. -/
def items (names : OptionNames) (pending : Option String) (done : List Item) :
    List String → Option (List Item)
  | [] => if pending.isSome then none else some done.reverse
  | arg :: rest =>
    match pending, arg.toList with
    | some _, '-' :: _ :: _ => none
    | some name, _ => items names none (.option name arg :: done) rest
    | none, ['-', '-'] => some (done.reverse ++ rest.map .positional)
    | none, ['-', 'h'] => some (.help :: done).reverse
    | none, '-' :: '-' :: written =>
      match splitOption written with
      | (name, none) =>
        if name == "help" then some (.help :: done).reverse
        else if names.switches.contains name then items names none (.switch name :: done) rest
        else if names.withValue.contains name then items names (some name) done rest
        else none
      | (name, some value) =>
        if names.withValue.contains name then items names none (.option name value :: done) rest
        else none
    | none, '-' :: _ :: _ => none
    | none, _ => items names none (.positional arg :: done) rest

/-- The values of an option. -/
def valuesOf (name : String) (items : List Item) : List String :=
  items.filterMap fun
    | .option n value => if n == name then some value else none
    | _ => none

/-- The value of an option that is given at most once; it may not be given twice. -/
def valueOf? (name : String) (items : List Item) : Option (Option String) :=
  match valuesOf name items with
  | [] => some none
  | [value] => some (some value)
  | _ => none

/-- How often a switch is given, which may not be twice. -/
def switch? (name : String) (items : List Item) : Option Bool :=
  match items.countP fun | .switch n => n == name | _ => false with
  | 0 => some false
  | 1 => some true
  | _ => none

/-- The only positional argument, a path. -/
def script? (items : List Item) : Option String :=
  match items.filterMap fun | .positional text => some text | _ => none with
  | [path] => path? path
  | _ => none
where
  path? (s : String) : Option String := if s.isEmpty then none else some s

/-- A text `KEY=VALUE` with a key. -/
def keyValue? (s : String) : Option (String × String) :=
  match cutAtEquals s.toList with
  | some (key, value) =>
    if key.isEmpty then none else some (String.ofList key, String.ofList value)
  | none => none

/-- A count of at most 64 bits. -/
def count? (s : String) : Option Nat :=
  let digits := match s.toList with
    | '+' :: rest => rest
    | cs => cs
  if digits.isEmpty then none
  else (Text.readDigits 10 0 digits).filter (· < UInt64.size)

/-- The value of an option that is read by `read`, if it is given. -/
def readValue? {α : Type} (name : String) (items : List Item) (read : String → Option α) :
    Option (Option α) := do
  match ← valueOf? name items with
  | some value => return some (← read value)
  | none => return none

/-! ## Commands -/

/-- The options of `run`. -/
def runOptions : OptionNames :=
  ⟨["input", "file", "env", "limits", "max-duration-secs", "max-memory", "max-allocations",
    "max-recursion-depth"], ["json", "trace", "show-fs"]⟩

/-- The options of `check`. -/
def checkOptions : OptionNames := ⟨["input-name", "function"], []⟩

/-- The command `run` with arguments. -/
def runCommand? (given : List Item) : Option Command := do
  return .run {
    inputs := ← (valuesOf "input" given).mapM keyValue?
    files := ← (valuesOf "file" given).mapM keyValue?
    env := ← (valuesOf "env" given).mapM keyValue?
    limits := ← readValue? "limits" given fun s => if s.isEmpty then none else some s
    maxDuration := ← readValue? "max-duration-secs" given (Decimal.readFloat ·.toList)
    maxMemory := ← readValue? "max-memory" given count?
    maxAllocations := ← readValue? "max-allocations" given count?
    maxRecursionDepth := ← readValue? "max-recursion-depth" given count?
    json := ← switch? "json" given
    trace := ← switch? "trace" given
    showFiles := ← switch? "show-fs" given
    script := ← script? given }

/-- The command `check` with arguments. -/
def checkCommand? (given : List Item) : Option Command := do
  return .check (← script? given) (valuesOf "input-name" given) (valuesOf "function" given)

/-- Whether help is asked for. -/
def asksForHelp (given : List Item) : Bool := given.any fun | .help => true | _ => false

/-- The command of a command line, if it is a valid one. -/
def command? : List String → Option Command
  | "run" :: args => do
    let given ← items runOptions none [] args
    if asksForHelp given then return .help else runCommand? given
  | "check" :: args => do
    let given ← items checkOptions none [] args
    if asksForHelp given then return .help else checkCommand? given
  | ["help"] | ["--help"] | ["-h"] => some .help
  | _ => none

end Resumable.CommandLine
