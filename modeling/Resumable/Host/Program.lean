import Resumable.Host.Limits
import Resumable.Script.Run
import Resumable.Text.Letter

/-!
# Programs

A program is declared with the names of its inputs and of the functions of the host, and can then be
run any number of times. Names are identifiers, and each is declared once. The order in which they
are declared and supplied does not matter.
-/

namespace Resumable

/-- What a program is compiled with. -/
structure Declaration where
  inputs : List String
  functions : List String
  /-- The name that tracebacks show, if it is not the default. -/
  script : Option String
deriving Inhabited

namespace Declaration

/-- The name that tracebacks show where nothing else is said. -/
def defaultScript : String := "main.py"

/-- Whether a text is an identifier. -/
def isIdentifier (s : String) : Bool :=
  match s.toList with
  | [] => false
  | c :: rest =>
    (c == '_' || Text.isAlphabetic c) && rest.all fun c => c == '_' || Text.isAlphanumeric c

/-- The first of two equal neighbours. -/
def neighbours? : List String → Option String
  | a :: b :: rest => if a == b then some a else neighbours? (b :: rest)
  | _ => none

/-- Names in order, if they are identifiers and different from each other. -/
def sortedNames (kind : NameKind) (names : List String) : Except RequestFault (List String) :=
  let sorted := names.mergeSort fun a b => !(b < a)
  match sorted.find? fun name => !isIdentifier name with
  | some bad => .error (if bad.isEmpty then .emptyName kind else .invalidName kind bad)
  | none =>
    match neighbours? sorted with
    | some name => .error (.duplicateName kind name)
    | none => .ok sorted

/-- The inputs and the functions in order, if all names are valid. -/
def validate (d : Declaration) : Except RequestFault (List String × List String) := do
  let inputs ← sortedNames .input d.inputs
  let functions ← sortedNames .function d.functions
  match inputs.find? functions.contains with
  | some name => .error (.sharedName name)
  | none => return (inputs, functions)

end Declaration

/-- A program that has been compiled. -/
structure Program where
  script : Script
deriving Inhabited

namespace Program

/-- Compiles a program. -/
def compile (source : String) (d : Declaration) (parse : Parser := .plain) :
    Except HostError Program :=
  match d.validate with
  | .error fault => .error (.validation fault)
  | .ok (inputs, functions) =>
    match Script.compile source (d.script.getD Declaration.defaultScript) inputs functions
        parse with
    | .ok script => .ok ⟨script⟩
    | .error e => .error (.compile e)

/-- The supplied inputs, if each is declared and supplied once. -/
def collectInputs (p : Program) (seen : List (String × Object)) :
    List (String × Object) → Except RequestFault (List (String × Object))
  | [] => .ok seen
  | (name, v) :: rest =>
    if !p.script.inputs.contains name then .error (.unexpectedInput name)
    else if seen.any (·.1 == name) then .error (.repeatedInput name)
    else p.collectInputs ((name, v) :: seen) rest

/-- The supplied inputs in the order of the declared ones. -/
def orderInputs (p : Program) (supply : List (String × Object)) :
    Except RequestFault (List Object) := do
  let supplied ← p.collectInputs [] supply
  p.script.inputs.mapM fun name =>
    match supplied.lookup name with
    | some v => .ok v
    | none => .error (.missingInput name)

/-- The values of the inputs and the budget of a run, whose clock starts now. -/
def prepare (p : Program) (supply : List (String × Object)) (limits : LimitSettings)
    (clock : Clock) : Except HostError (List Object × Budget) := do
  let inputs ← (p.orderInputs supply).mapError HostError.validation
  let limits ← limits.toLimits
  return (inputs, .ofLimits limits clock)

/-- Starts a run. -/
def start (p : Program) (supply : List (String × Object)) (limits : LimitSettings)
    (traced : Bool) (steps : Nat) (clock : Clock := .nominal) : Option (Step HostError) :=
  match p.prepare supply limits clock with
  | .error e => some (.failure e)
  | .ok (inputs, budget) =>
    (p.script.start inputs budget traced steps).map (·.mapError .ofException)

/-- Runs to the end without a host, which gives the final value and what has been printed. -/
def run (p : Program) (supply : List (String × Object)) (limits : LimitSettings) (steps : Nat)
    (clock : Clock := .nominal) : Option (Except HostError (Object × String)) :=
  match p.prepare supply limits clock with
  | .error e => some (.error e)
  | .ok (inputs, budget) =>
    (p.script.runAlone inputs budget false steps).map fun ending =>
      match ending.result with
      | .ok v => .ok (v, ending.output)
      | .error e => .error (.ofException e)

end Program

end Resumable
