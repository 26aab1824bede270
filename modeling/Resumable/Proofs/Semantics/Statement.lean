import Resumable.Proofs.Semantics.Expression

/-!
# What statements mean

A statement ends normally, with a jump out of a loop, with the return of a value, or with an
exception. The functions of a program are numbered in the order in which their definitions stand in
the text; those in a `finally` clause are numbered once for each of the two ways to enter it.
-/

namespace Resumable.Semantics

/-- How a statement ends, if no exception leaves it. -/
inductive Flow where
  | next
  | break
  | continue
  | return (v : Value)

/-- What a jump out of the body of the innermost loop leaves behind. -/
structure Exits where
  /-- The number of blocks between the jump and the loop. -/
  blocks : Nat
  /-- Whether the loop keeps an iterator. -/
  isFor : Bool

namespace Exits

/-- The exits inside one more block. -/
def inside (x : Exits) : Exits := { x with blocks := x.blocks + 1 }

end Exits

/-- A function of a program, or its module body. -/
structure Function where
  name : String
  /-- The names of the local slots, parameters first. -/
  locals : List String
  paramCount : Nat
  body : List Stmt
  isModule : Bool
  /-- The number of the first function inside it. -/
  first : Nat

mutual

/-- The functions in a statement, numbered from `k` on. -/
def functionsBy (k : Nat) : Stmt → List Function
  | .functionDef name params body _ =>
    ⟨name, Resumable.Scope.locals (params.map (·.name)) body, params.length, body, false, k + 1⟩ ::
      functionsIn (k + 1) body
  | .ifElse _ body orElse | .while _ body orElse | .for _ _ body orElse _ =>
    let inBody := functionsIn k body
    inBody ++ functionsIn (k + inBody.length) orElse
  | .try body handlers orElse final =>
    let inBody := functionsIn k body
    let inElse := functionsIn (k + inBody.length) orElse
    let inHandlers := functionsInHandlers (k + inBody.length + inElse.length) handlers
    let n := k + inBody.length + inElse.length + inHandlers.length
    let inFinal := functionsIn n final
    inBody ++ inElse ++ inHandlers ++ inFinal ++ functionsIn (n + inFinal.length) final
  | _ => []

def functionsIn (k : Nat) : List Stmt → List Function
  | [] => []
  | s :: rest => functionsBy k s ++ functionsIn (k + (functionsBy k s).length) rest

def functionsInHandlers (k : Nat) : List Handler → List Function
  | [] => []
  | .mk _ _ body :: rest =>
    let inBody := functionsIn k body
    inBody ++ functionsInHandlers (k + inBody.length) rest

end

/-! ## Targets -/

mutual

/-- Binds a target to a value. -/
def bindTo (E : Setting) (kept : List Value) (span : Span) (v : Value) : Target → Sem Unit
  | .name id => E.store kept v id
  | .subscript object index => do
    let o ← eval E (v :: kept) object
    let i ← eval E (o :: v :: kept) index
    perform E.scope span (i :: o :: v :: kept) (onHeap (Index.set o i v))
  | .tuple ts => do
    let items ← perform E.scope span (v :: kept) (onHeap (Index.unpack v ts.length))
    bindEach E kept span items ts

/-- Binds targets to values, from the first to the last. -/
def bindEach (E : Setting) (kept : List Value) (span : Span) (values : List Value) :
    List Target → Sem Unit
  | [] => pure ()
  | t :: ts =>
    match values with
    | [] => pure ()
    | v :: values => do
      bindTo E (values ++ kept) span v t
      bindEach E kept span values ts

end

/-- Binds the targets of an assignment, from the first to the last, to one value. -/
def bindAll (E : Setting) (kept : List Value) (span : Span) (v : Value) (first : Target) :
    List Target → Sem Unit
  | [] => bindTo E kept span v first
  | next :: rest => do
    charge E.scope (v :: kept)
    bindTo E (v :: kept) span v first
    bindAll E kept span v next rest

/-- The defaults of parameters that have one. -/
def evalDefaults (E : Setting) (kept : List Value) : List Param → Sem (List Value)
  | [] => pure []
  | p :: rest =>
    match p.default with
    | none => evalDefaults E kept rest
    | some e => do
      let v ← eval E kept e
      let values ← evalDefaults E (v :: kept) rest
      pure (v :: values)

/-- Binds names that are taken from a module. -/
def importAll (E : Setting) (kept : List Value) (span : Span) (module : Module) :
    List (String × String) → Sem Unit
  | [] => pure ()
  | (name, binding) :: rest => do
    charge E.scope kept
    let v ← perform E.scope span (.module module :: kept) (attributeValue (.module module) name)
    E.store kept v binding
    importAll E kept span module rest

/-! ## Exceptions -/

section
variable {α : Type}

/-- Raises an exception that has been raised before; where that was is not added again. -/
def raiseAgain (e : Raised) : Sem α := fun σ => .error (.raised e) σ

/-- The value of an evaluation, or the exception that leaves it. -/
def attempt (act : Sem α) : Sem (Except Raised α) := fun σ =>
  match act σ with
  | .ok a σ => .ok (.ok a) σ
  | .error (.raised e) σ => .ok (.error e) σ
  | .error h σ => .error h σ

end

/-- Raises a value. -/
def raiseValue : Value → Sem Flow
  | .exception e => fail (.raised { e with traceback := [] })
  | .excClass type => fail (.raised (.fresh type none))
  | _ => fail (.typeError "exceptions must derive from BaseException")

/-- The setting of statements that handle an exception. -/
def Setting.handling (E : Setting) (e : Raised) : Setting :=
  { E with scope := { E.scope with handled := e :: E.scope.handled } }

/-- Leaves the blocks between a jump and its loop. -/
def leaveBlocks (E : Setting) (kept : List Value) : Nat → Sem Unit
  | 0 => pure ()
  | n + 1 => do
    charge E.scope kept
    leaveBlocks E kept n

/-! ## Statements -/

mutual

/-- Executes a statement; the functions in it are numbered from `k` on. -/
def exec (E : Setting) (x : Exits) (kept : List Value) (k : Nat) : Stmt → Sem Flow
  | .expr value => do
    let v ← eval E kept value
    charge E.scope (v :: kept)
    pure .next
  | .assign first rest value => do
    let v ← eval E kept value
    bindAll E kept value.span v first rest
    pure .next
  | .augAssign (.name id) op value span => do
    let a ← E.load span kept id
    let b ← eval E (a :: kept) value
    let v ← perform E.scope span (b :: a :: kept) (onHeap (Heap.inplace op a b))
    E.store kept v id
    pure .next
  | .augAssign (.subscript object index) op value span => do
    let o ← eval E kept object
    let i ← eval E (o :: kept) index
    charge E.scope (i :: o :: kept)
    let a ← perform E.scope span (i :: o :: i :: o :: kept) (onHeap (Index.get o i))
    let b ← eval E (a :: i :: o :: kept) value
    let v ← perform E.scope span (b :: a :: i :: o :: kept) (onHeap (Heap.inplace op a b))
    charge E.scope (v :: i :: o :: kept)
    perform E.scope span (i :: o :: v :: kept) (onHeap (Index.set o i v))
    pure .next
  | .augAssign (.tuple _) _ _ _ => pure .next
  | .ifElse test body orElse => do
    let t ← eval E kept test
    if ← observe E.scope (t :: kept) (·.isTruthy t) then do
      match ← execAll E x kept k body with
      | .next => do
        if !orElse.isEmpty then charge E.scope kept
        pure .next
      | flow => pure flow
    else execAll E x kept (k + (functionsIn k body).length) orElse
  | .while test body orElse =>
    loop (do
      let t ← eval E kept test
      if ← observe E.scope (t :: kept) (·.isTruthy t) then do
        match ← execAll E ⟨0, false⟩ kept k body with
        | .next => do
          charge E.scope kept
          pure none
        | .continue => pure none
        | .break => pure (some .next)
        | .return v => pure (some (.return v))
      else some <$> execAll E x kept (k + (functionsIn k body).length) orElse) E.fuel
  | .for target iter body orElse span => do
    let items ← eval E kept iter
    let it ← perform E.scope span (items :: kept) (onHeap (Heap.iterate items))
    loop (do
      match ← perform E.scope span (it :: kept) (nextOf it) with
      | some item => do
        bindTo E (it :: kept) span item target
        match ← execAll E ⟨0, true⟩ (it :: kept) k body with
        | .next => do
          charge E.scope (it :: kept)
          pure none
        | .continue => pure none
        | .break => pure (some .next)
        | .return v => pure (some (.return v))
      | none => some <$> execAll E x kept (k + (functionsIn k body).length) orElse) E.fuel
  | .break _ => do
    leaveBlocks E kept x.blocks
    if x.isFor then charge E.scope kept
    charge E.scope (if x.isFor then kept.tail else kept)
    pure .break
  | .continue _ => do
    leaveBlocks E kept x.blocks
    charge E.scope kept
    pure .continue
  | .pass | .global _ => pure .next
  | .functionDef name params _ _ => do
    let defaults ← evalDefaults E kept params
    charge E.scope (defaults.reverse ++ kept)
    E.store kept (.function k defaults) name
    pure .next
  | .return value _ => do
    let v ← match value with
      | some e => eval E kept e
      | none => do
        charge E.scope kept
        pure .none
    charge E.scope (v :: kept)
    pure (.return v)
  | .try body handlers orElse final =>
    let inBody := functionsIn k body
    let inElse := functionsIn (k + inBody.length) orElse
    let inHandlers := functionsInHandlers (k + inBody.length + inElse.length) handlers
    let n := k + inBody.length + inElse.length + inHandlers.length
    let guarded (x : Exits) : Sem Flow :=
      if handlers.isEmpty then do
        match ← execAll E x kept k body with
        | .next => execAll E x kept (k + inBody.length) orElse
        | flow => pure flow
      else do
        charge E.scope kept
        match ← attempt (execAll E x.inside kept k body) with
        | .ok .next => do
          charge E.scope kept
          match ← execAll E x kept (k + inBody.length) orElse with
          | .next => do
            charge E.scope kept
            pure .next
          | flow => pure flow
        | .ok flow => pure flow
        | .error e =>
          handle (E.handling e) x.inside kept (k + inBody.length + inElse.length) e handlers
    if final.isEmpty then guarded x
    else do
      charge E.scope kept
      match ← attempt (guarded x.inside) with
      | .ok flow => do
        charge E.scope kept
        match ← execAll E x kept n final with
        | .next => do
          charge E.scope kept
          pure flow
        | other => pure other
      | .error e => do
        charge (E.handling e).scope (.exception e :: kept)
        match ← execAll (E.handling e) x.inside kept (n + (functionsIn n final).length) final with
        | .next => do
          charge (E.handling e).scope kept
          raiseAgain e
        | other => pure other
  | .raise (some exc) span => do
    let v ← eval E kept exc
    perform E.scope span (v :: kept) (raiseValue v)
  | .raise none span => do
    charge E.scope kept
    match E.scope.handled with
    | e :: _ => raiseAgain e
    | [] =>
      located E.scope span (fail (.exception .runtimeError "No active exception to reraise"))
  | .assert test message span => do
    let t ← eval E kept test
    if ← observe E.scope (t :: kept) (·.isTruthy t) then pure .next
    else do
      charge E.scope kept
      let cls := Value.excClass .assertionError
      let args ← match message with
        | some e => do
          let m ← eval E (cls :: kept) e
          pure [m]
        | none => pure []
      let v ← perform E.scope span (args ++ cls :: kept)
        (onHeap (Machine.makeException .assertionError ⟨args, []⟩))
      perform E.scope span (v :: kept) (raiseValue v)
  | .import module binding => do
    charge E.scope kept
    E.store kept (.module module) binding
    pure .next
  | .importFrom module names span => do
    importAll E kept span module names
    pure .next

/-- Executes statements one after the other. -/
def execAll (E : Setting) (x : Exits) (kept : List Value) (k : Nat) : List Stmt → Sem Flow
  | [] => pure .next
  | s :: rest => do
    match ← exec E x kept k s with
    | .next => execAll E x kept (k + (functionsBy k s).length) rest
    | flow => pure flow

/-- Lets the first clause that takes an exception handle it; without one, it is raised again. -/
def handle (E : Setting) (x : Exits) (kept : List Value) (k : Nat) (e : Raised) :
    List Handler → Sem Flow
  | [] => do
    charge E.scope (.exception e :: kept)
    raiseAgain e
  | .mk type name body :: rest => do
    let exc := Value.exception e
    let taken ← match type with
      | some t => do
        charge E.scope (exc :: kept)
        let cls ← eval E (exc :: exc :: kept) t
        let answer ← perform E.scope t.span (cls :: exc :: exc :: kept)
          (ofExcept (Machine.matchesException exc cls))
        charge E.scope (.bool answer :: exc :: kept)
        pure answer
      | none => pure true
    if taken then do
      match name with
      | some id => E.store kept exc id
      | none => charge E.scope (exc :: kept)
      match ← execAll E x kept k body with
      | .next => do
        charge E.scope kept
        charge E.scope kept
        pure .next
      | flow => pure flow
    else handle E x kept (k + (functionsIn k body).length) e rest

end

section
variable (E : Setting) (x : Exits) (kept : List Value) (k : Nat)

@[simp] theorem exec_pass : exec E x kept k .pass = pure .next := by rw [exec]

@[simp] theorem exec_global (names : List String) :
    exec E x kept k (.global names) = pure .next := by rw [exec]

@[simp] theorem execAll_nil : execAll E x kept k [] = pure .next := by rw [execAll]

end

/-! ## Programs -/

/-- The value of a module body: that of its last statement if that is an expression. -/
def execModule (E : Setting) (kept : List Value) (k : Nat) : List Stmt → Sem Value
  | [] => do
    charge E.scope kept
    pure .none
  | [.expr value] => eval E kept value
  | s :: rest => do
    match ← exec E ⟨0, false⟩ kept k s with
    | .return v => pure v
    | _ => execModule E kept (k + (functionsBy k s).length) rest

/-- Executes the body of a function and gives its value. -/
def Function.run (E : Setting) (kept : List Value) (d : Function) : Sem Value :=
  if d.isModule then do
    let v ← execModule E kept d.first d.body
    charge E.scope (v :: kept)
    pure v
  else do
    match ← execAll E ⟨0, false⟩ kept d.first d.body with
    | .return v => pure v
    | _ => do
      charge E.scope kept
      charge E.scope (.none :: kept)
      pure .none

/-- What is fixed while a program runs. -/
structure Program where
  /-- The functions by their numbers; the first one is the module body. -/
  functions : List Function
  /-- The names that the program binds outside of its functions. -/
  module : List String
  /-- The names of the global slots. -/
  slots : List String

namespace Program

/-- The functions of a program with some names that are bound before it starts. -/
def ofStmts (preset : List String) (slots : List String) (body : List Stmt) : Program where
  functions := ⟨"<module>", [], 0, body, true, 1⟩ :: functionsIn 1 body
  module := Resumable.Scope.moduleNames (Resumable.Scope.insertAll [] preset) body
  slots := slots

/-- What names mean in a function. -/
def names (P : Program) (d : Function) : Names :=
  ⟨if d.isModule then none else some d.locals, P.module, P.slots⟩

/-- Evaluates with other locals, and goes back to those of before. -/
def withLocals {α : Type} (locals : Array Value) (act : Sem α) : Sem α := fun σ =>
  match act { σ with locals } with
  | .ok a τ => .ok a { τ with locals := σ.locals }
  | .error h τ => .error h { τ with locals := σ.locals }

/-- The meaning of the functions of a program; each call takes one unit of fuel. -/
def calls (P : Program) : Nat → Calls
  | 0 => fun _ _ _ _ _ σ => .error .tired σ
  | fuel + 1 => fun c kept function defaults args =>
    match P.functions[function]? with
    | none => fail (.exception .runtimeError "unknown function")
    | some d =>
      match Machine.bindArguments ⟨d.name, #[], .empty, d.locals, d.paramCount⟩ defaults args with
      | .error e => fail e
      | .ok locals => do
        onHeap do Heap.withinLimit ((← get).budget.checkDepth (c.callers.length + 1))
        fun σ => withLocals locals (d.run ⟨calls P fuel, fuel, P.names d,
          ⟨function, σ.locals :: c.callers, c.handled⟩⟩ kept) σ

/-- The meaning of a program is that of its module body. -/
def run (P : Program) (fuel : Nat) : Sem Value :=
  match P.functions with
  | [] => fail (.exception .runtimeError "unknown function")
  | d :: _ => d.run ⟨P.calls fuel, fuel, P.names d, ⟨0, [], []⟩⟩ []

end Program

end Resumable.Semantics
