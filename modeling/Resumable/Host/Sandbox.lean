import Resumable.FileSystem.Request
import Resumable.Host.Handle
import Resumable.Host.Program

/-!
# Sandboxes

A dispatcher runs a program to its end and answers all its calls from handlers. A function is
answered by its own handler; else its call is deferred, if there is a handler for that, until the
program waits for the result; else it is left to the host object. An operation on files and
variables is answered by the file system alone, if there is one; else by its own handler or the host
object. A handler may break down. The program then sees a runtime error.

The handlers of a dispatcher share a state, which every call of one may change. A `Sandbox` has
handlers that only look at their arguments; its state is the list of their calls.
-/

namespace Resumable

/-! ## Handlers -/

/-- What becomes of the call of a handler. -/
inductive Handled where
  | result (r : HandlerResult)
  /-- The handler broke down; what it said is known only if it was text. -/
  | crash (said : Option String)

/-- The result of a handler for `source`. -/
def Handled.toResult (source : String) : Handled → HandlerResult
  | .result r => r
  | .crash said => .failure (.ofCrash source said)

/-- A handler: it gets positional and named arguments, and changes the state of its host. -/
abbrev HostHandler (ω : Type) := List Object → List (String × Object) → ω → Handled × ω

/-- The call of a function, as its host sees it. -/
structure FunctionCall where
  name : String
  args : List Object
  named : List (String × Object)
  call : Nat

/-- The call for an operation, as its host sees it. -/
structure OperationCall where
  function : OsFunction
  args : List Object
  named : List (String × Object)
  call : Nat

/-- A host that looks at every call that is left to it, and decides whether it answers. -/
structure HostObject (ω : Type) where
  /-- The functions that it answers, unless it breaks down when it is asked for them. -/
  names : ω → Option (List String) × ω
  function : FunctionCall → ω → Option Handled × ω
  os : OperationCall → ω → Option Handled × ω

/-! ## Dispatchers -/

/-- What a program is run in, with handlers that share a state. -/
structure Dispatcher (ω : Type) where
  /-- The name that tracebacks show. -/
  script : String
  /-- The functions that the program may call, if they are not those of the handlers. -/
  declared : Option (List String)
  /-- The handlers of functions; of two for one name, the first counts. -/
  functions : List (String × HostHandler ω)
  /-- The handlers of functions whose calls are deferred. -/
  deferred : List (String × HostHandler ω)
  /-- The handlers of operations. -/
  operations : List (OsFunction × HostHandler ω)
  capabilities : Option (HostObject ω)
  files : Option FileSystem
  limits : LimitSettings

/-- The result of a program that has ended. -/
structure SandboxResult where
  value : Object
  output : String
  /-- The files after all changes. -/
  files : Option FileSystem

/-- A run that a dispatcher has brought to its end. -/
structure DispatchedRun (ω : Type) where
  result : Except HostError SandboxResult
  host : ω
  /-- The events, if the run is traced. -/
  events : List Event

namespace Dispatcher

variable {ω : Type} (d : Dispatcher ω)

/-- The functions that the program may call. -/
def functionNames (host : ω) : List String × ω :=
  match d.declared with
  | some names => (names, host)
  | none =>
    let own := d.functions.map (·.1) ++ d.deferred.map (·.1)
    let (more, host) := match d.capabilities with
      | some capabilities => capabilities.names host
      | none => (none, host)
    (((own ++ more.getD []).eraseDups).mergeSort fun a b => !(b < a), host)

/-- Compiles a program with the functions of the dispatcher. -/
def compile (source : String) (inputs : List String) (parse : Parser) (host : ω) :
    Except HostError Program × ω :=
  let (functions, host) := d.functionNames host
  (Program.compile source ⟨inputs, functions, some d.script⟩ parse, host)

/-! ### Answers -/

/-- What a dispatcher keeps between two steps of a run. -/
structure State (ω : Type) where
  host : ω
  files : Option FileSystem
  output : String
  /-- The calls that are deferred, by their numbers. -/
  waiting : List (Nat × FunctionCall)
  /-- The events so far, the last ones first. -/
  events : List (List Event)

/-- Calls a handler. -/
def callHandler (st : State ω) (h : HostHandler ω) (source : String) (args : List Object)
    (named : List (String × Object)) : HandlerResult × State ω :=
  let (handled, host) := h args named st.host
  (handled.toResult source, { st with host })

/-- Leaves a call to the host object, if there is one; it is refused if that does not answer. -/
def consult (st : State ω) (source : String) (refusal : HandlerFailure) :
    Option (ω → Option Handled × ω) → HandlerResult × State ω
  | none => (.failure refusal, st)
  | some ask =>
    match ask st.host with
    | (some handled, host) => (handled.toResult source, { st with host })
    | (none, host) => (.failure refusal, { st with host })

/-- Answers the call of a function that is not deferred. -/
def answerFunction (st : State ω) (c : FunctionCall) : HandlerResult × State ω :=
  match d.functions.lookup c.name with
  | some h => callHandler st h c.name c.args c.named
  | none =>
    let name := c.name
    consult st name ⟨.nameError, s!"function '{name}' is not defined"⟩
      (d.capabilities.map (·.function c))

/-- Answers a call for an operation. -/
def answerOs (st : State ω) (c : OperationCall) : HandlerResult × State ω :=
  let name := c.function.name
  match st.files with
  | some files =>
    match files.handle ⟨c.function, c.args, c.named⟩ with
    | (r, some changed) => (r, { st with files := some changed })
    | (r, none) => (r, st)
  | none =>
    match d.operations.lookup c.function with
    | some h => callHandler st h name c.args c.named
    | none =>
      consult st name ⟨.osError, s!"OS operation '{name}' is not permitted"⟩
        (d.capabilities.map (·.os c))

/-- Whether the calls of a function are deferred. -/
def defers (name : String) : Bool :=
  (d.functions.lookup name).isNone && (d.deferred.lookup name).isSome

/-- Answers a deferred call. -/
def answerDeferred (st : State ω) (id : Nat) : HandlerResult × State ω :=
  match st.waiting.lookup id with
  | none => (.success .none, st)
  | some c =>
    let st := { st with waiting := st.waiting.filter (·.1 != id) }
    match d.deferred.lookup c.name with
    | some h => callHandler st h c.name c.args c.named
    | none => (.success .none, st)

/-- Answers deferred calls in order; the results are put behind `done`, the last of them first. -/
def answerAllDeferred (st : State ω) (done : List (Nat × HandlerResult)) :
    List Nat → List (Nat × HandlerResult) × State ω
  | [] => (done.reverse, st)
  | id :: rest =>
    let (r, st) := d.answerDeferred st id
    answerAllDeferred st ((id, r) :: done) rest

/-! ### Runs -/

/-- The next step of a run that has made this progress; `none` inside if the run is complete. -/
def respond (st : State ω) (traced : Bool) (steps : Nat) :
    Progress → Option (Option (Step HostError) × State ω)
  | .complete _ => some (none, st)
  | .functionCall name args named call run =>
    let c : Continuation := ⟨.function name, args, named, call, some run⟩
    if d.defers name then
      let waiting := (call, ⟨name, args, named, call⟩) :: st.waiting
      (c.defer traced steps).map fun (step, _) => (some step, { st with waiting })
    else
      let (r, st) := d.answerFunction st ⟨name, args, named, call⟩
      (c.resume r traced steps).map fun (step, _) => (some step, st)
  | .osCall function args named call run =>
    let c : Continuation := ⟨.os function, args, named, call, some run⟩
    let (r, st) := d.answerOs st ⟨function, args, named, call⟩
    (c.resume r traced steps).map fun (step, _) => (some step, st)
  | .futures pending run =>
    let (results, st) := d.answerAllDeferred st [] (pending.mergeSort (· ≤ ·))
    ((⟨pending, some run⟩ : FutureBatch).resolve results traced steps).map fun (step, _) =>
      (some step, st)

/-- The end of a run. -/
def finish (st : State ω) (result : Except HostError SandboxResult) : DispatchedRun ω :=
  ⟨result, st.host, st.events.reverse.flatten⟩

/-- Goes on from a step to the end of the run, if that takes no more than so many steps. -/
def goOn (traced : Bool) (steps : Nat) :
    Nat → State ω → Step HostError → Option (DispatchedRun ω)
  | 0, _, _ => none
  | rounds + 1, st, step =>
    let st := { st with events := step.events :: st.events }
    match step.outcome with
    | .error e => some (finish st (.error e))
    | .ok progress =>
      let st := { st with output := st.output ++ step.output }
      match progress with
      | .complete value => some (finish st (.ok ⟨value, st.output, st.files⟩))
      | progress =>
        match d.respond st traced steps progress with
        | some (some step, st) => goOn traced steps rounds st step
        | _ => none

/-- Compiles and runs a program; the supplied inputs are the declared ones. The run may take so many
steps, each of so many instructions; its clock starts with it. -/
def run (host : ω) (source : String) (supply : List (String × Object)) (traced : Bool)
    (steps : Nat) (parse : Parser := .plain) (clock : Clock := .nominal) :
    Option (DispatchedRun ω) :=
  let (compiled, host) := d.compile source (supply.map (·.1)) parse host
  let st : State ω := ⟨host, d.files, "", [], []⟩
  match compiled with
  | .error e => some (finish st (.error e))
  | .ok program =>
    match program.start supply d.limits traced steps clock with
    | none => none
    | some step => d.goOn traced steps steps st step

end Dispatcher

/-! ## Sandboxes -/

/-- A handler without a state. -/
abbrev HostFunction := List Object → List (String × Object) → Handled

/-- A host of a simple kind: it decides by the name of a function or operation alone whether it
answers the call. One that looks at the whole call is a `HostObject`. -/
structure Capabilities where
  /-- The functions that it answers, unless it breaks down when it is asked for them. -/
  names : Option (List String)
  function : String → Option HostFunction
  os : OsFunction → Option HostFunction

/-- What a program is run in, with handlers without a state. -/
structure Sandbox where
  /-- The name that tracebacks show. -/
  script : String
  /-- The functions that the program may call, if they are not those of the handlers. -/
  declared : Option (List String)
  /-- The handlers of functions; of two for one name, the first counts. -/
  functions : List (String × HostFunction)
  /-- The handlers of functions whose calls are deferred. -/
  deferred : List (String × HostFunction)
  /-- The handlers of operations. -/
  operations : List (OsFunction × HostFunction)
  capabilities : Option Capabilities
  files : Option FileSystem
  limits : LimitSettings

/-- Where a handler belongs to. -/
inductive HandlerSource where
  | function
  | deferred
  | os
  | capabilities
deriving DecidableEq, Repr

/-- The call of a handler. -/
structure HandlerCall where
  source : HandlerSource
  /-- The name of the function or operation. -/
  name : String
  args : List Object
  named : List (String × Object)

/-- A handler that notes down its calls, the last one first. -/
def HostFunction.noting (h : HostFunction) (source : HandlerSource) (name : String) :
    HostHandler (List HandlerCall) := fun args named calls =>
  (h args named, ⟨source, name, args, named⟩ :: calls)

/-- A host object that notes down the calls that it answers. -/
def Capabilities.noting (c : Capabilities) : HostObject (List HandlerCall) where
  names calls := (c.names, calls)
  function call := answer call.name (c.function call.name) call.args call.named
  os call := answer call.function.name (c.os call.function) call.args call.named
where
  answer (name : String) (h : Option HostFunction) (args : List Object)
      (named : List (String × Object)) (calls : List HandlerCall) :
      Option Handled × List HandlerCall :=
    match h with
    | none => (none, calls)
    | some h => (h.noting .capabilities name args named calls).map some id

/-- A run in a sandbox: how it ends, and the calls of handlers on the way. -/
structure SandboxRun where
  result : Except HostError SandboxResult
  calls : List HandlerCall
  /-- The events, if the run is traced. -/
  events : List Event

namespace Sandbox

/-- A sandbox without handlers and limits. -/
def empty : Sandbox := ⟨Declaration.defaultScript, none, [], [], [], none, none, .unset⟩

/-- The dispatcher of a sandbox, whose handlers note down their calls. -/
def dispatcher (s : Sandbox) : Dispatcher (List HandlerCall) where
  script := s.script
  declared := s.declared
  functions := s.functions.map fun (name, h) => (name, h.noting .function name)
  deferred := s.deferred.map fun (name, h) => (name, h.noting .deferred name)
  operations := s.operations.map fun (function, h) => (function, h.noting .os function.name)
  capabilities := s.capabilities.map (·.noting)
  files := s.files
  limits := s.limits

/-- The functions that the program may call. -/
def functionNames (s : Sandbox) : List String := (s.dispatcher.functionNames []).1

/-- Compiles a program with the functions of the sandbox. -/
def compile (s : Sandbox) (source : String) (inputs : List String) (parse : Parser := .plain) :
    Except HostError Program := (s.dispatcher.compile source inputs parse []).1

/-- Compiles and runs a program as the dispatcher does. -/
def run (s : Sandbox) (source : String) (supply : List (String × Object)) (traced : Bool)
    (steps : Nat) (parse : Parser := .plain) (clock : Clock := .nominal) : Option SandboxRun :=
  (s.dispatcher.run [] source supply traced steps parse clock).map fun run =>
    ⟨run.result, run.host.reverse, run.events⟩

end Sandbox

end Resumable
