import Resumable.Proofs.Simulation.Operand

/-!
# Calls

What an instruction does that may need the host: it gives a value, raises an exception, or stops the
run, and the host decides how the run goes on. `Answers` says that all this is as in an evaluation.
Calls of functions of the program are left open: `CallsFollow` says what is asked of them.
-/

namespace Resumable

open Machine Semantics

/-- An instruction that has taken its operands does what an evaluation does, which gives a value or
not. -/
def Answers (s : Script) (n : Nat) (c : Ctx) (pc : Nat) (kept : List Value) (span : Span)
    (x : Exec (Option Exit)) (act : Sem Value) : Prop :=
  ∀ σ events p, Executes s σ.moves p (x (c.machine (pc + 1) kept σ events)) →
    Meets s n c kept (c.At (fun _ => pc + 1) fun v => v :: kept) (located c.scope span act σ) p

/-- Calls of functions of the program do what an evaluation does. -/
def CallsFollow (s : Script) (n : Nat) (calls : Calls) : Prop :=
  ∀ (c : Ctx) (F : Code) (pc : Nat) (i : Instr) (kept : List Value) (function : Nat)
    (defaults : List Value) (args : Arguments),
    s.bytecode.functions[c.function]? = some F → F.instrs[pc]? = some i →
    Answers s n c pc kept i.span
      (enter s.bytecode function defaults args >>= fun _ => pure none)
      (calls c.scope kept function defaults args)

/-- The phase after an answer of the host. -/
def Phase.answered (s : Script) (moves : List HostMove) (m : Machine) (a : Answer) : Phase :=
  match (s.pause m).receive a m with
  | .ok m => .running m moves
  | .error (e, m) => .ended (.failed e) m

section
variable {α : Type} {s : Script} {n : Nat} {c : Ctx} {F : Code} {pc : Nat} {i : Instr}
  {kept start : List Value} {σ : State} {events : Option (List Event)}

namespace Mirrors

theorem write (chunk : Chunk) :
    Mirrors c pc kept (Machine.write chunk) (Semantics.write chunk) := by
  intro σ events
  have hwrite : Machine.write chunk (c.machine pc kept σ events) =
      ((σ.writer.refusal chunk).elim
        (modify fun m => { m with output := m.output ++ chunk.toString })
        fun e => throw (.raised { e with traceback := [] }) : Exec Unit)
        (c.machine pc kept { σ with writer := σ.writer.after chunk } events) := by
    have hrefusal : (modifyGet fun m => (m.writer.refusal chunk,
          { m with writer := m.writer.after chunk }) : Exec (Option Raised))
        (c.machine pc kept σ events) = .ok (σ.writer.refusal chunk)
          (c.machine pc kept { σ with writer := σ.writer.after chunk } events) := rfl
    rw [Machine.write, bind_ok hrefusal]
    cases σ.writer.refusal chunk <;> rfl
  unfold Semantics.write
  cases h : σ.writer.refusal chunk with
  | none =>
    rw [h] at hwrite
    exact .inl ⟨(), _, events, rfl, rfl, hwrite⟩
  | some e =>
    rw [h] at hwrite
    exact .inr ⟨.raised { e with traceback := [] }, _, events, rfl, rfl, hwrite⟩

theorem writeAll (chunks : List Chunk) :
    Mirrors c pc kept (Machine.writeAll chunks) (Semantics.writeAll chunks) := by
  induction chunks with
  | nil => exact .pure ()
  | cons chunk rest ih => exact (write chunk).bind fun _ => ih

end Mirrors

theorem getAttribute_eq (v : Value) (name : String) (m : Machine) : getAttribute v name m =
    (MonadExcept.ofExcept (attributeOf m.heap v name) >>= Machine.settle : Exec _) m := by
  rw [getAttribute, get_bind]
  cases attributeOf m.heap v name <;> rfl

/-- An attribute is called unless finding it has stopped the run. -/
theorem callAttribute_eq (code : Bytecode) (v : Value) (name : String) (args : Arguments)
    (m : Machine) :
    (do
      match ← getAttribute v name with
      | some exit => return some exit
      | none => do
        let callee ← pop
        Machine.callValue code callee args : Exec (Option Exit)) m =
    ((MonadExcept.ofExcept (attributeOf m.heap v name) >>= Machine.settle : Exec _) >>= fun o =>
      o.elim (pop >>= fun callee => Machine.callValue code callee args) fun exit =>
        pure (some exit)) m := by
  rw [bind_congr (getAttribute_eq v name m)]
  refine congrFun (congrArg (_ >>= ·) (funext fun o => ?_)) m
  cases o <;> rfl

theorem callOwnMethod_eq (v : Value) (name : String) (args : Arguments) (m : Machine) :
    Machine.callOwnMethod v name args m = ((pureMethod m.heap v name args).elim
      (throw (noAttribute m.heap v name))
      fun act => Machine.onHeap act >>= fun v => push v >>= fun _ => pure none :
        Exec (Option Exit)) m := by
  rw [Machine.callOwnMethod, get_bind]
  cases pureMethod m.heap v name args <;> rfl

theorem located_ok {act : Sem α} {f : α → Sem Value} {a : α} {σ τ : State} {scope : Scope}
    {span : Span} (h : act σ = .ok a τ) :
    located scope span (act >>= f) σ = located scope span (f a) τ := by
  unfold located
  rw [bind_ok h]

variable (hF : s.bytecode.functions[c.function]? = some F) (hi : F.instrs[pc]? = some i)
include hF hi

/-- An instruction that can fail or stop the run, after it has taken its operands. -/
theorem Sim.answers {x : Exec (Option Exit)} {act : Sem Value}
    (hexec : ∀ σ events, execute s.bytecode i.op (c.machine (pc + 1) start σ events) =
      x (c.machine (pc + 1) kept σ events))
    (hx : Answers s n c pc kept i.span x act) :
    Sim s n c kept pc start (perform c.scope i.span start act)
      (c.At (fun _ => pc + 1) fun v => v :: kept) := by
  intro σ₀ events₀
  refine .charge hF hi σ₀ events₀ fun σ events hp => ?_
  rw [hexec] at hp
  exact hx σ events _ hp

omit hF hi in
theorem ofUnwind_eq (moves : List HostMove) (m : Machine) (r : Except Raised Machine) :
    (match r.mapError (·, m) with
      | .ok m => Phase.running m moves
      | .error (e, m) => Phase.ended (.failed e) m) = .ofUnwind moves m r := by
  cases r <;> rfl

/-- An exception that the host has answered with. -/
theorem Meets.refused {m : Machine} (e : Raised) (σ : State) (events : Option (List Event))
    (hm : { m with pendingCall := none } = c.machine (pc + 1) kept σ events) {act : Sem Value}
    {τ : State} (hact : act τ = .error (.raised e) σ) :
    Meets s n c kept (c.At (fun _ => pc + 1) fun v => v :: kept) (located c.scope i.span act τ)
      (.ofUnwind σ.moves m (answerException m s.bytecode e)) := by
  have hunwind : answerException m s.bytecode e = unwindFrom s.bytecode
      (c.machine (pc + 1) kept σ events) false e (c.frame (pc + 1) σ.locals) c.callers := by
    rw [answerException, hm]
    rfl
  have hshows : σ.Shows m := ⟨congrArg (·.futures) hm, congrArg (·.nextCall) hm,
    congrArg (·.heap) hm, congrArg (·.globals) hm, congrArg (·.writer) hm, congrArg (·.output) hm⟩
  unfold located
  rw [hact]
  refine .here ⟨m, [], c.frame (pc + 1) σ.locals, c.callers, [], events, hshows, ?_⟩
  rw [hunwind, unwindFrom_located, addSite_eq hF hi]
  rfl

theorem Meets.answered (a : Answer) (σ : State) (events : Option (List Event)) (call : Nat) :
    Meets s n c kept (c.At (fun _ => pc + 1) fun v => v :: kept)
      (located c.scope i.span (receive call a) σ)
      (.answered s σ.moves
        { c.machine (pc + 1) kept σ events with pendingCall := some call } a) := by
  let m : Machine := { c.machine (pc + 1) kept σ events with pendingCall := some call }
  cases a with
  | later => exact .ok ⟨events, rfl⟩
  | exception type message limit =>
    have hphase : Phase.answered s σ.moves m (.exception type message limit) =
        .ofUnwind σ.moves m (answerException m s.bytecode (.fresh type message limit)) := by
      rw [← ofUnwind_eq]
      rfl
    rw [hphase]
    exact .refused hF hi _ σ events rfl rfl
  | value v =>
    cases hv : Heap.ofObject v σ.heap with
    | ok v' heap =>
      have hphase : Phase.answered s σ.moves m (.value v) =
          .running ({ m with heap }.answer v') σ.moves := by
        unfold Phase.answered Paused.receive
        dsimp only
        rw [onHeap_ok (m := m) hv]
      have hreceive : receive call (.value v) σ = .ok v' { σ with heap } := by
        unfold receive
        dsimp only
        rw [hv]
      rw [hphase]
      unfold located
      rw [hreceive]
      exact .ok ⟨events, rfl⟩
    | error e heap =>
      have hraise : (∀ l, e ≠ .overrun l) → Phase.answered s σ.moves m (.value v) =
            .ofUnwind σ.moves { m with heap } (answerException { m with heap } s.bytecode
              (Script.conversionException e)) ∧
          receive call (.value v) σ =
            .error (.raised (Script.conversionException e)) { σ with heap } := by
        intro he
        rw [← ofUnwind_eq]
        unfold Phase.answered Paused.receive receive
        dsimp only
        rw [onHeap_error (m := m) hv, hv]
        cases e with
        | overrun l => exact absurd rfl (he l)
        | _ => exact ⟨rfl, rfl⟩
      cases e with
      | overrun l =>
        have hphase : Phase.answered s σ.moves m (.value v) =
            .ended (.failed (Script.conversionException (.overrun l))) { m with heap } := by
          unfold Phase.answered Paused.receive
          dsimp only
          rw [onHeap_error (m := m) hv]
        have hreceive : receive call (.value v) σ = .error (.stopped (.failed
            (Script.conversionException (.overrun l)))) { σ with heap } := by
          unfold receive
          dsimp only
          rw [hv]
        rw [hphase]
        unfold located
        rw [hreceive]
        exact .here ⟨_, rfl, rfl, rfl, rfl, rfl, rfl, rfl⟩
      | raised e =>
        obtain ⟨hphase, hreceive⟩ := hraise (by simp)
        rw [hphase]
        exact .refused hF hi _ { σ with heap } events rfl hreceive
      | endless =>
        obtain ⟨hphase, hreceive⟩ := hraise (by simp)
        rw [hphase]
        exact .refused hF hi _ { σ with heap } events rfl hreceive
      | stuck =>
        obtain ⟨hphase, hreceive⟩ := hraise (by simp)
        rw [hphase]
        exact .refused hF hi _ { σ with heap } events rfl hreceive

namespace Answers

variable {x : Exec α} {z : α → Exec (Option Exit)} {act : Sem α} {f : α → Sem Value}

theorem bind (hx : Mirrors c (pc + 1) kept x act)
    (hz : ∀ a, Answers s n c pc kept i.span (z a) (f a)) :
    Answers s n c pc kept i.span (x >>= z) (act >>= f) := by
  intro σ events p hp
  obtain ⟨a, τ, events', hact, hmoves, hrun⟩ | ⟨e, τ, events', hact, hmoves, hrun⟩ := hx σ events
  · rw [bind_ok hrun, ← hmoves] at hp
    rw [located_ok hact]
    exact hz a τ events' p hp
  · rw [bind_error hrun, ← hmoves] at hp
    exact .failed [] hF hi (bind_error hact) hp

omit hF hi in
theorem value (v : Value) : Answers s n c pc kept i.span (push v >>= fun _ => pure none) (pure v) :=
  fun _ _ _ hp => .landed hp

theorem fail (e : Failure) : Answers s n c pc kept i.span (throw e) (Semantics.fail e) :=
  fun _ _ _ hp => .failed [] hF hi rfl hp

theorem computes {x : Exec Value} {act : Sem Value} (hx : Mirrors c (pc + 1) kept x act) :
    Answers s n c pc kept i.span (x >>= fun v => push v >>= fun _ => pure none) act := by
  rw [← bind_pure act]
  exact bind hF hi hx fun v => .value v

omit hF hi in
/-- What is done may depend on the state. -/
theorem depends {x : Exec (Option Exit)} {act : Sem Value}
    (h : ∀ σ events, ∃ y f, x (c.machine (pc + 1) kept σ events) =
        y (c.machine (pc + 1) kept σ events) ∧ act σ = f σ ∧ Answers s n c pc kept i.span y f) :
    Answers s n c pc kept i.span x act := by
  intro σ events p hp
  obtain ⟨y, f, hx, hact, h⟩ := h σ events
  rw [hx] at hp
  have hlocated : located c.scope i.span act σ = located c.scope i.span f σ := by
    unfold located
    rw [hact]
  rw [hlocated]
  exact h σ events p hp

/-- The run stops for a host call, and goes on with the answer. -/
theorem ask {exit : Nat → Exit} {event : Nat → Machine → Event}
    (hexit : ∀ call m moves, Phase.stopped s (exit call) m moves = match moves with
      | .answer a :: moves => .answered s moves m a
      | _ => .ended (.exit (exit call)) m) :
    Answers s n c pc kept i.span
      (beginCall >>= fun call => trace (event call) >>= fun _ => pure (some (exit call)))
      (Semantics.ask exit) := by
  intro σ events p hp
  obtain ⟨events', hrun⟩ : ∃ events', (beginCall >>= fun call => trace (event call) >>= fun _ =>
      pure (some (exit call)) : Exec (Option Exit)) (c.machine (pc + 1) kept σ events) =
      .ok (some (exit σ.nextCall)) { c.machine (pc + 1) kept
        { σ with nextCall := σ.nextCall + 1 } events' with pendingCall := some σ.nextCall } := by
    cases events <;> exact ⟨_, rfl⟩
  rw [hrun] at hp
  have hnext : p.next s = .stopped s (exit σ.nextCall) _ σ.moves := hp.next
  rw [hexit] at hnext
  match hmoves : σ.moves with
  | .answer a :: moves =>
    have hask : located c.scope i.span (Semantics.ask exit) σ = located c.scope i.span
        (receive σ.nextCall a) { σ with nextCall := σ.nextCall + 1, moves } := by
      unfold located Semantics.ask
      rw [hmoves]
    rw [hmoves] at hnext
    rw [hask]
    refine .of_next ?_
    rw [hnext]
    exact .answered hF hi a { σ with nextCall := σ.nextCall + 1, moves } events' σ.nextCall
  | [] | .results _ :: _ =>
    have hask : located c.scope i.span (Semantics.ask exit) σ =
        .error (.stopped (.exit (exit σ.nextCall))) { σ with nextCall := σ.nextCall + 1 } := by
      unfold located Semantics.ask
      rw [hmoves]
    rw [hmoves] at hnext
    rw [hask]
    exact .of_next (.here ⟨_, hnext, rfl, rfl, rfl, rfl, rfl, rfl⟩)

/-- The value of a reply. -/
theorem settle (r : Reply) :
    Answers s n c pc kept i.span (Machine.settle r) (Semantics.settle r) := by
  cases r with
  | value v => exact .value v
  | output chunks => exact bind hF hi (.writeAll chunks) fun _ => .value _
  | request function args => exact ask hF hi fun call m moves => by cases moves with
    | nil => rfl
    | cons move moves => cases move <;> rfl

/-! ## Calls of values -/

variable {calls : Calls} (hcalls : CallsFollow s n calls)
include hcalls

theorem callValue (v : Value) (args : Arguments) :
    Answers s n c pc kept i.span (Machine.callValue s.bytecode v args)
      (Semantics.callValue calls c.scope kept v args) := by
  cases v with
  | function function defaults => exact hcalls c F pc i kept function defaults args hF hi
  | external function => exact ask hF hi fun call m moves => by cases moves with
    | nil => rfl
    | cons move moves => cases move <;> rfl
  | builtin function => exact bind hF hi (.onHeap _) fun r => settle hF hi r
  | excClass type => exact computes hF hi (.onHeap _)
  | _ => exact fun σ _ _ hp => .failed [] hF hi rfl hp

omit hcalls in
theorem callOwnMethod (v : Value) (name : String) (args : Arguments) :
    Answers s n c pc kept i.span (Machine.callOwnMethod v name args)
      (Semantics.callOwnMethod v name args) := by
  refine depends fun σ events => ?_
  have hown := callOwnMethod_eq v name args (c.machine (pc + 1) kept σ events)
  rw [c.machine_heap] at hown
  cases h : pureMethod σ.heap v name args with
  | some act =>
    rw [h] at hown
    refine ⟨_, _, hown, ?_, computes hF hi (.onHeap act)⟩
    unfold Semantics.callOwnMethod
    rw [h]
  | none =>
    rw [h] at hown
    refine ⟨_, _, hown, ?_, fail hF hi _⟩
    unfold Semantics.callOwnMethod
    rw [h]
    rfl

/-- A call of an attribute, unless that is a request to the host. -/
theorem callAttribute (v : Value) (name : String) (args : Arguments) :
    Answers s n c pc kept i.span
      (do
        match ← getAttribute v name with
        | some exit => return some exit
        | none => do
          let callee ← pop
          Machine.callValue s.bytecode callee args)
      (fun σ =>
        match attributeOf σ.heap v name with
        | .ok (.request function args) => Semantics.settle (.request function args) σ
        | .ok reply =>
          (Semantics.settle reply >>= fun callee =>
            Semantics.callValue calls c.scope kept callee args) σ
        | .error e => .error (.ofFailure e) σ) := by
  refine depends fun σ events => ?_
  have hget := callAttribute_eq s.bytecode v name args (c.machine (pc + 1) kept σ events)
  rw [c.machine_heap] at hget
  cases h : attributeOf σ.heap v name with
  | error e =>
    rw [h] at hget
    exact ⟨_, _, hget, rfl, fail hF hi e⟩
  | ok reply =>
    rw [h] at hget
    cases reply with
    | request function args =>
      refine ⟨_, _, hget.trans ?_, rfl, settle hF hi (.request function args)⟩
      cases events <;> rfl
    | value callee => exact ⟨_, _, hget, rfl, callValue hF hi hcalls callee args⟩
    | output chunks =>
      refine ⟨_, _, hget.trans ?_, ?_, bind hF hi (.writeAll chunks) fun _ =>
        callValue hF hi hcalls .none args⟩
      · change (((Machine.writeAll chunks >>= fun _ => push .none >>= fun _ => pure none) >>= _)
          (c.machine (pc + 1) kept σ events)) = _
        rw [bind_assoc]
        rfl
      · change ((Semantics.writeAll chunks >>= fun _ => pure Value.none) >>= fun callee =>
          Semantics.callValue calls c.scope kept callee args) σ = _
        rw [bind_assoc]
        rfl

theorem callMethod (v : Value) (name : String) (args : Arguments) :
    Answers s n c pc kept i.span (Machine.callMethod s.bytecode v name args)
      (Semantics.callMethod calls c.scope kept v name args) := by
  cases v with
  | module m => exact callAttribute hF hi hcalls _ _ _
  | namedTuple a b d => exact callAttribute hF hi hcalls _ _ _
  | exception e => exact callAttribute hF hi hcalls _ _ _
  | path p =>
    unfold Machine.callMethod Semantics.callMethod
    cases OsFunction.ofPathMethod? name with
    | some function => exact settle hF hi _
    | none => exact callOwnMethod hF hi _ _ _
  | _ =>
    unfold Machine.callMethod Semantics.callMethod
    exact callOwnMethod hF hi _ _ _

end Answers

/-! ## The instructions -/

omit hi in
theorem popNamed_eq {names : List String} {named : List Value} {k : Option Nat}
    (hk : F.pool.keywordNames k = names) (hnamed : named.length = names.length) :
    popNamed s.bytecode k (c.machine pc (named.reverse ++ kept) σ events) =
      .ok (names.zip named) (c.machine pc kept σ events) := by
  have hpop : popNamed s.bytecode k (c.machine pc (named.reverse ++ kept) σ events) =
      (popMany (((c.machine pc (named.reverse ++ kept) σ events).pool
        s.bytecode).keywordNames k).length >>= fun values => pure
        ((((c.machine pc (named.reverse ++ kept) σ events).pool
          s.bytecode).keywordNames k).zip values))
        (c.machine pc (named.reverse ++ kept) σ events) := rfl
  rw [hpop, pool_eq hF, hk, bind_ok (popMany_eq hnamed)]
  rfl

/-- The positional arguments of a call on the stack: packed in a tuple, or one by one. -/
def argumentStack (packed : Bool) (values kept : List Value) : List Value :=
  if packed then .tuple values :: kept else values.reverse ++ kept

theorem Sim.getAttr {k : Nat} {name : String} {v : Value} (hop : i.op = .getAttr k)
    (hk : F.pool.name k = name) :
    Sim s n c kept pc (v :: kept) (perform c.scope i.span (v :: kept) (attributeValue v name))
      (c.At (fun _ => pc + 1) fun v => v :: kept) := by
  refine .answers hF hi (x := getAttribute v name) (fun σ events => ?_)
    (.depends fun σ events => ?_)
  · rw [hop, ← hk, ← pool_eq hF (pc + 1) kept σ events]
    rfl
  · have hget := getAttribute_eq v name (c.machine (pc + 1) kept σ events)
    rw [c.machine_heap] at hget
    unfold attributeValue
    cases h : attributeOf σ.heap v name with
    | ok reply =>
      rw [h] at hget
      exact ⟨_, _, hget, rfl, .settle hF hi reply⟩
    | error e =>
      rw [h] at hget
      exact ⟨_, _, hget, rfl, .fail hF hi e⟩

variable {calls : Calls} (hcalls : CallsFollow s n calls) {names : List String}
  {named values : List Value} {packed : Bool} {k : Nat} {kws : Option Nat} {v : Value}
include hcalls

theorem Sim.call (hop : i.op = if packed then .callVar kws else .call k kws)
    (hk : packed = false → values.length = k) (hkws : F.pool.keywordNames kws = names)
    (hnamed : named.length = names.length) :
    Sim s n c kept pc (named.reverse ++ argumentStack packed values (v :: kept))
      (perform c.scope i.span (named.reverse ++ argumentStack packed values (v :: kept))
        (Semantics.callValue calls c.scope kept v ⟨values, names.zip named⟩))
      (c.At (fun _ => pc + 1) fun v => v :: kept) := by
  refine .answers hF hi (fun σ events => ?_) (.callValue hF hi hcalls v _)
  rw [hop]
  unfold argumentStack
  cases packed with
  | true =>
    change (popNamed s.bytecode kws >>= fun named => popPacked >>= fun positional =>
      Machine.pop >>= fun v => Machine.callValue s.bytecode v ⟨positional, named⟩) _ = _
    rw [bind_ok (popNamed_eq hF hkws hnamed)]
    rfl
  | false =>
    change (popNamed s.bytecode kws >>= fun named => popMany k >>= fun positional =>
      Machine.pop >>= fun v => Machine.callValue s.bytecode v ⟨positional, named⟩) _ = _
    rw [bind_ok (popNamed_eq hF hkws hnamed)]
    change (popMany k >>= _) (c.machine (pc + 1) (values.reverse ++ v :: kept) σ events) = _
    rw [bind_ok (popMany_eq (hk rfl))]
    rfl

theorem Sim.callMethod {j : Nat} {name : String}
    (hop : i.op = if packed then .callMethodVar j kws else .callMethod j k kws)
    (hk : packed = false → values.length = k) (hkws : F.pool.keywordNames kws = names)
    (hnamed : named.length = names.length) (hj : F.pool.name j = name) :
    Sim s n c kept pc (named.reverse ++ argumentStack packed values (v :: kept))
      (perform c.scope i.span (named.reverse ++ argumentStack packed values (v :: kept))
        (Semantics.callMethod calls c.scope kept v name ⟨values, names.zip named⟩))
      (c.At (fun _ => pc + 1) fun v => v :: kept) := by
  refine .answers hF hi (fun σ events => ?_) (.callMethod hF hi hcalls v name _)
  rw [hop, ← hj, ← pool_eq hF (pc + 1) kept σ events]
  unfold argumentStack
  cases packed with
  | true =>
    change (popNamed s.bytecode kws >>= fun named => popPacked >>= fun positional =>
      Machine.pop >>= fun v => get >>= fun m =>
        Machine.callMethod s.bytecode v ((m.pool s.bytecode).name j) ⟨positional, named⟩) _ = _
    rw [bind_ok (popNamed_eq hF hkws hnamed)]
    rfl
  | false =>
    change (popNamed s.bytecode kws >>= fun named => popMany k >>= fun positional =>
      Machine.pop >>= fun v => get >>= fun m =>
        Machine.callMethod s.bytecode v ((m.pool s.bytecode).name j) ⟨positional, named⟩) _ = _
    rw [bind_ok (popNamed_eq hF hkws hnamed)]
    change (popMany k >>= _) (c.machine (pc + 1) (values.reverse ++ v :: kept) σ events) = _
    rw [bind_ok (popMany_eq (hk rfl))]
    rfl

end

end Resumable
