import Resumable.Proofs.Discipline.Program
import Resumable.Proofs.Simulation.Statement

/-!
# Compiled programs

Calls of the functions of a program do what the functions mean (`calls_follow`), with as many calls
inside of each other as there is fuel. So the code of an expression evaluates it wherever it stands
in a compiled program (`expr_computes`), and a run of the whole program stops as the evaluator of
its statements says (`run_follows`).
-/

namespace Resumable

open Machine Semantics

/-- Each function of a program has a code object that does what it means. -/
structure Bytecode.Implements (code : Bytecode) (P : Semantics.Program) : Prop where
  implemented : ∀ (j : Nat) (d : Semantics.Function), P.functions[j]? = some d →
    ∃ F, code.functions[j]? = some F ∧ F.Implements d P.module code.globals
  size : code.functions.size = P.functions.length
  slots : P.slots = code.globals

/-! ## Calls -/

/-- The binding of arguments looks at the name and the locals of a function only. -/
theorem bindArguments_congr {F G : Code} (hname : F.name = G.name) (hlocals : F.locals = G.locals)
    (hcount : F.paramCount = G.paramCount) (defaults : List Value) (args : Arguments) :
    bindArguments F defaults args = bindArguments G defaults args := by
  unfold bindArguments Code.params
  rw [hname, hlocals, hcount]

section
variable {s : Script} {n : Nat} {c : Ctx} {F : Code} {pc function : Nat} {i : Instr}
  {kept : List Value} {locals : Array Value} {σ : Semantics.State} {p : Phase}

/-- A function returns to the instruction behind its call. -/
theorem Returns.returned {v : Value}
    (h : Returns s (c.callee function kept.length (c.frame pc locals)) kept v σ p) :
    c.To pc (v :: kept) () { σ with locals } p := by
  obtain ⟨pc', blocks, above, newer, events, rfl⟩ := h
  have hstack : lastOf kept.length (above ++ kept) = kept := lastOf_append above rfl
  have hhandled : lastOf c.handled.length (newer ++ c.handled) = c.handled :=
    lastOf_append newer rfl
  have hleave : ∃ events', leave (σ.machine (v :: (above ++ kept))
      { (c.callee function kept.length (c.frame pc locals)).frame pc' σ.locals with blocks }
      (c.frame pc locals :: c.callers) (newer ++ c.handled) events) =
        .ok none (c.machine pc (v :: kept) { σ with locals } events') := by
    cases events with
    | none =>
      refine ⟨none, ?_⟩
      change EStateM.Result.ok none (Semantics.State.machine σ
        (v :: lastOf kept.length (above ++ kept)) (c.frame pc locals) c.callers
        (lastOf c.handled.length (newer ++ c.handled)) none) = _
      rw [hstack, hhandled]
      rfl
    | some events =>
      refine ⟨some (.return (c.callers.length + 1) :: events), ?_⟩
      change EStateM.Result.ok none (Semantics.State.machine σ
        (v :: lastOf kept.length (above ++ kept)) (c.frame pc locals) c.callers
        (lastOf c.handled.length (newer ++ c.handled))
        (some (.return (c.callers.length + 1) :: events))) = _
      rw [hstack, hhandled]
      rfl
  obtain ⟨events', hleave⟩ := hleave
  exact ⟨events', congrArg (Phase.ofResult s σ.moves) hleave⟩

/-- An exception that leaves a function is one of the instruction that has called it. -/
theorem Raises.uncaught {e : Raised} (hF : s.bytecode.functions[c.function]? = some F)
    (hi : F.instrs[pc]? = some i)
    (h : Raises s (c.callee function kept.length (c.frame (pc + 1) locals)) kept e σ p) :
    Raises s c kept { e with traceback := ⟨c.function, i.span⟩ :: e.traceback }
      { σ with locals } p := by
  obtain ⟨m, above, frame, callers, newer, events, hm, rfl⟩ := h
  have hstack : lastOf kept.length (above ++ kept) = kept := lastOf_append above rfl
  have hhandled : lastOf c.handled.length (newer ++ c.handled) = c.handled :=
    lastOf_append newer rfl
  refine ⟨m, [], frame, callers, [], events,
    ⟨hm.futures, hm.nextCall, hm.heap, hm.globals, hm.writer, hm.output⟩, ?_⟩
  have hunwind : unwindFrom s.bytecode (σ.machine (above ++ kept) frame callers
      (newer ++ c.handled) events) true e
      ((c.callee function kept.length (c.frame (pc + 1) locals)).frame 0 σ.locals)
      (c.frame (pc + 1) locals :: c.callers) = unwindFrom s.bytecode
        (σ.machine (lastOf kept.length (above ++ kept)) frame callers
          (lastOf c.handled.length (newer ++ c.handled)) events) false e
        (c.frame (pc + 1) locals) c.callers := rfl
  rw [hstack, hhandled, unwindFrom_located, addSite_eq hF hi] at hunwind
  exact congrArg (Phase.ofUnwind σ.moves m) hunwind

/-- A call of a function of the program does what its evaluation with other locals does. -/
theorem Meets.called {act : Sem Value}
    (hF : s.bytecode.functions[c.function]? = some F) (hi : F.instrs[pc]? = some i)
    (h : Meets s n (c.callee function kept.length (c.frame (pc + 1) σ.locals)) kept
      (Returns s (c.callee function kept.length (c.frame (pc + 1) σ.locals)) kept)
      (act { σ with locals }) p) :
    Meets s n c kept (c.At (fun _ => pc + 1) fun v => v :: kept)
      (located c.scope i.span (Program.withLocals locals act) σ) p := by
  obtain ⟨q, hq, h⟩ := h
  refine ⟨q, hq, ?_⟩
  unfold located Program.withLocals
  cases hr : act { σ with locals } with
  | ok v τ =>
    rw [hr] at h
    exact h.returned
  | error e τ =>
    rw [hr] at h
    cases e with
    | raised e => exact Raises.uncaught hF hi h
    | stopped stop =>
      obtain ⟨m, hq, hm⟩ := h
      exact ⟨m, hq, hm.futures, hm.nextCall, hm.heap, hm.globals, hm.writer, hm.output⟩
    | aborted l =>
      obtain ⟨e, m, hq, hl, hm⟩ := h
      exact ⟨e, m, hq, hl, hm.futures, hm.nextCall, hm.heap, hm.globals, hm.writer, hm.output⟩
    | endless => exact h
    | tired => exact h

/-- What a call does when its arguments are bound and its depth is within the limit. -/
def enterFrame (name : String) (function : Nat) (locals : Array Value) : Exec Unit := do
  modify fun m => { m with
    frame := .start function locals m.stack.length m.handled.length
    callers := m.frame :: m.callers }
  trace fun m => .call name m.depth

theorem Answers.enters {act : Semantics.State → Sem Value} {name : String}
    (hF : s.bytecode.functions[c.function]? = some F) (hi : F.instrs[pc]? = some i)
    (hact : ∀ σ : Semantics.State,
      Sim s n (c.callee function kept.length (c.frame (pc + 1) σ.locals)) kept 0 kept (act σ)
        (Returns s (c.callee function kept.length (c.frame (pc + 1) σ.locals)) kept)) :
    Answers s (n + 1) c pc kept i.span (enterFrame name function locals >>= fun _ => pure none)
      (fun σ => Program.withLocals locals (act σ) σ) := by
  intro σ events p hp
  obtain ⟨events', hrun⟩ : ∃ events',
      (enterFrame name function locals >>= fun _ => pure none : Exec (Option Exit))
        (c.machine (pc + 1) kept σ events) =
        .ok none ((c.callee function kept.length (c.frame (pc + 1) σ.locals)).machine 0 kept
          { σ with locals } events') := by
    cases events <;> exact ⟨_, rfl⟩
  rw [hrun] at hp
  have hpasses : Phase.Passes s p ((c.callee function kept.length
      (c.frame (pc + 1) σ.locals)).phase 0 kept { σ with locals } events') := by
    rw [Phase.Passes, hp.next_ok]
    exact .refl s _
  exact .succ hpasses (.called hF hi (hact σ _ events'))

end

section
variable {s : Script} {P : Semantics.Program}

/-- Calls of functions of a program do what the functions mean. -/
theorem calls_follow (h : s.bytecode.Implements P) (n : Nat) : CallsFollow s n (P.calls n) := by
  induction n with
  | zero =>
    intro c F pc i kept function defaults args hF hi σ events p hp
    obtain ⟨m, moves, rfl⟩ := hp.running
    exact .tired (.zero s m moves)
  | succ n ih =>
    intro c F pc i kept function defaults args hF hi
    unfold Program.calls enter
    cases hd : P.functions[function]? with
    | none =>
      have hcode : s.bytecode.functions[function]? = none := by
        rw [Array.getElem?_eq_none_iff, h.size]
        exact List.getElem?_eq_none_iff.mp hd
      rw [hcode]
      exact .fail hF hi _
    | some d =>
      obtain ⟨G, hG, himplements⟩ := h.implemented function d hd
      rw [hG]
      dsimp only
      rw [bindArguments_congr (G := ⟨d.name, #[], .empty, d.locals, d.paramCount⟩)
        himplements.name himplements.locals himplements.paramCount]
      cases bindArguments ⟨d.name, #[], .empty, d.locals, d.paramCount⟩ defaults args with
      | error e => exact .fail hF hi e
      | ok locals =>
        have hdepth : c.scope.callers.length + 1 = c.callers.length + 1 := by
          rw [Ctx.scope, List.length_map]
        have henter : ∀ σ events, (((do
              let depth := (← get).depth
              Machine.onHeap do Heap.withinLimit ((← get).budget.checkDepth depth)
              enterFrame G.name function locals) >>= fun _ => pure none : Exec (Option Exit))
                (c.machine (pc + 1) kept σ events)) =
            (Machine.onHeap (do Heap.withinLimit ((← get).budget.checkDepth (c.callers.length + 1)))
              >>= fun _ => enterFrame G.name function locals >>= fun _ => pure none)
                (c.machine (pc + 1) kept σ events) := by
          intro σ events
          simp only [bind_assoc]
          rfl
        refine .depends fun σ events => ⟨_, _, henter σ events, rfl, ?_⟩
        dsimp only
        rw [hdepth]
        have hnames : P.names d =
            ⟨if d.isModule then none else some d.locals, P.module, s.bytecode.globals⟩ := by
          rw [Program.names, h.slots]
        exact .bind hF hi (.onHeap _) fun _ => .enters hF hi fun σ =>
          himplements.runs hG hnames (List.prefix_refl _) rfl rfl ih kept

end

/-! ## Module bodies -/

namespace Compile

/-- The code of a module body leaves the value that its evaluation gives. -/
theorem moduleBody_adds {module : List String} {env : Env} (k pc : Nat) (program : List Stmt)
    (henv : env.moduleNames = module) (hloop : env.loop = none) (hlocals : env.locals = none) :
    Adds module k (functionsIn k program) (moduleBody env pc program) fun K code =>
      ∀ ⦃s n c F⦄ ⦃E : Setting⦄, E.Matches s n env K c F → F.Holds pc (filled 0 code) → ∀ kept,
        Sim s n c kept pc kept (execModule E kept k program)
          (c.At (fun _ => pc + code.length) fun v => v :: kept) := by
  fun_induction moduleBody env pc program generalizing k with
  | case1 pc =>
    rw [functionsIn]
    refine ((constant_makes _).bind fun i => .ret fun K hi => ?_).adds
    obtain ⟨j, _, rfl, hj⟩ := hi
    intro s n c F E hE hcode kept
    rw [execModule, hE.scope]
    exact (Sim.loadConst hE.code (hj _ hE.pool) hcode.head).bind fun _ => .ret rfl rfl
  | case2 pc value =>
    have hnone : functionsIn k [.expr value] = [] := rfl
    rw [hnone]
    refine ((expr_follows env pc value).bind fun code => .ret fun K hc => ?_).adds
    intro s n c F E hE hcode kept
    rw [filled_drafts] at hcode
    rw [execModule]
    exact (hc hE hcode kept).ends (fun _ => by simp [drafts]) fun _ => rfl
  | case3 pc s rest hlast ih =>
    rw [functionsIn]
    refine (stmt_adds k env pc s henv).seq fun code => (ih code _).last fun more =>
      .ret fun K hm hc => ?_
    intro s' n c F E hE hcode kept
    rw [filled_append] at hcode
    rw [execModule]
    · intro σ events
      refine (hc hE ⟨0, false⟩ ⟨c, 0⟩ (Env.placed_of_loop_eq_none hloop) hcode.left kept σ
        events).bind fun flow τ q hq => ?_
      obtain rfl | ⟨v, rfl⟩ := hq.next_or_return hloop
      · obtain ⟨events', rfl⟩ := hq
        have hmore := hm hE (hcode.right (by rw [length_filled])) kept
        exact (hmore.ends (fun _ => by simp; omega) fun _ => rfl) τ events'
      · have hsome : env.locals.isSome = true := hq.1
        rw [hlocals] at hsome
        cases hsome
    · exact hlast

/-- The code of a program does what the module body means. -/
theorem main_adds {module : List String} {env : Env} (program : List Stmt)
    (henv : env.moduleNames = module) (hloop : env.loop = none) (hlocals : env.locals = none) :
    Adds module 1 (functionsIn 1 program) (do
        let body ← moduleBody env 0 program
        return body ++ drafts [← one .return]) fun K code =>
      BodyFollows env K (code.filterMap Draft.instr?) fun E kept =>
        Semantics.Function.run E kept ⟨"<module>", [], 0, program, true, 1⟩ := by
  refine ((moduleBody_adds 1 0 program henv hloop hlocals).and fun s a t h => instr_of_layout
    (((moduleBody_builds env 0 program h).2 t (.refl t) .empty none).weaken
      fun S _ => scoped_empty hloop S none)).last fun b => (one_makes _).bind fun r =>
    .ret fun K hr hb => ?_
  obtain ⟨span, rfl⟩ := hr
  obtain ⟨hb, hinstr⟩ := hb
  intro s n c F E hE hF kept
  have hcode := holds_toArray hF
  have hreturn : (drafts [⟨.return, span⟩]).filterMap Draft.instr? = [⟨.return, span⟩] := rfl
  rw [List.filterMap_append, filterMap_eq_filled hinstr 0, hreturn] at hcode
  beta_reduce
  rw [Semantics.Function.run, if_pos rfl, hE.scope]
  exact (hb hE hcode.left kept).bind fun v =>
    .return hE.code (hcode.last (by rw [length_filled])) fun _ _ hp => hp

end Compile

/-- The code objects of a compiled program do what its functions mean. -/
theorem compile_implements {preset : List String} {program : List Stmt} {code : Bytecode}
    (h : compile preset program = .ok code) :
    code.Implements (.ofStmts preset code.globals program) := by
  unfold compile at h
  simp only at h
  generalize hb : StateT.run _ _ = x at h
  cases x with
  | error e => cases h
  | ok x =>
    obtain ⟨body, s⟩ := x
    cases h
    obtain ⟨hsize, -, -, hmain⟩ := Compile.main_adds program rfl rfl rfl rfl hb
    obtain ⟨hmain, hfunctions⟩ := hmain s (.refl s)
    refine ⟨fun j d hd => ?_, ?_, rfl⟩
    · cases j with
      | zero =>
        cases hd
        refine ⟨_, Array.getElem?_setIfInBounds_self_of_lt (by rw [hsize]; omega), rfl, rfl, rfl,
          ?_⟩
        intro s' n c E hF hnames hglobals hscope hfuel hcalls kept
        refine hmain ⟨hF, .refl _, by rw [hnames], ⟨?_, ?_, ?_⟩, nofun, hscope, hfuel, hcalls⟩ rfl
          kept
        · rw [hnames]; rfl
        · rw [hnames]; rfl
        · rw [hnames]; exact hglobals
      | succ j =>
        obtain ⟨F, hF, himplements⟩ := hfunctions j d hd
        refine ⟨F, ?_, himplements⟩
        rw [Array.getElem?_setIfInBounds_ne (by omega), ← hF]
        congr 1
        omega
    · rw [Array.size_setIfInBounds, hsize, Program.ofStmts, List.length_cons, Nat.add_comm]

/-! ## Expressions in a program -/

/-- An evaluation with more fuel than a run has instructions does not use it up. -/
theorem Meets.not_tired {α : Type} {s : Script} {n : Nat} {c : Ctx} {base : List Value}
    {good : α → Semantics.State → Phase → Prop} {r : EStateM.Result Halt Semantics.State α}
    {p : Phase} (h : Meets s n c base good r p) {stop : Stop} {m : Machine}
    (hp : p.after s n = .ended stop m) (σ : Semantics.State) : r ≠ .error .tired σ := by
  rintro rfl
  obtain ⟨q, hq, hlasts⟩ := h
  exact Phase.not_lasts_of_ended hp (Phase.Lasts.of_leads hq hlasts)

/-- Wherever the code of an expression stands in a compiled program, and whatever a machine has on
its stacks and in its heap: from there on, the run evaluates the expression. It comes to the
instruction behind the code with the value as one more operand and the same heap as the evaluator,
or raises the exception that the evaluator raises, after the same effects. An evaluator that has
used up its fuel has a run that goes on for as many instructions; so this does not happen with fuel
for all instructions of a run that ends. -/
theorem expr_computes {preset : List String} {program : List Stmt} {code : Bytecode}
    (h : compile preset program = .ok code) {s : Script} (hs : s.bytecode = code)
    {env : Compile.Env} {pc : Nat} {e : Expr} {b b' : Compile.State} {instrs : List Instr}
    (he : Compile.expr env pc e b = .ok (instrs, b')) {c : Ctx} {F : Code}
    (hF : code.functions[c.function]? = some F) (hcode : F.Holds pc instrs)
    (hpool : b'.pool.Within F.pool) (hglobals : b'.globals <+: code.globals)
    (hlocals : ∀ names, env.locals = some names → F.locals = names) (kept : List Value) :
    let P := Program.ofStmts preset code.globals program
    let names : Names := ⟨env.locals, env.moduleNames, code.globals⟩
    let value (n : Nat) := eval ⟨P.calls n, n, names, c.scope⟩ kept e
    (∀ n, Sim s n c kept pc kept (value n)
        (c.At (fun _ => pc + instrs.length) fun v => v :: kept)) ∧
      ∀ σ events k stop m, (c.phase pc kept σ events).after s k = .ended stop m →
        ∀ τ, value k σ ≠ .error .tired τ := by
  subst hs
  intro P names value
  obtain ⟨-, -, hfollows⟩ := Compile.expr_follows env pc e he
  have hsim : ∀ n, Sim s n c kept pc kept (value n)
      (c.At (fun _ => pc + instrs.length) fun v => v :: kept) := fun n =>
    hfollows b' (.refl b') ⟨hF, hpool, rfl, ⟨rfl, rfl, hglobals⟩, hlocals, rfl, rfl,
      calls_follow (compile_implements h) n⟩ hcode kept
  exact ⟨hsim, fun σ events k _ _ hend τ => (hsim k σ events).not_tired hend τ⟩

/-- The code of `x < y < x` evaluates this chain, also with an operand below. -/
theorem expr_computes_chain :
    let x : Expr := .mk .unknown (.name "x")
    let e : Expr := .mk .unknown (.compare x [.mk .lt (.mk .unknown (.name "y")), .mk .lt x])
    ∃ code F instrs, compile ["x", "y"] [.expr e] = .ok code ∧ code.functions[0]? = some F ∧
      F.Holds 0 instrs ∧
      let s : Script := ⟨"main.py", "", ["x", "y"], [], code⟩
      let c : Ctx := ⟨0, 0, 0, [], [], []⟩
      let P := Program.ofStmts ["x", "y"] code.globals [.expr e]
      let names : Names := ⟨none, ["x", "y"], code.globals⟩
      let value (n : Nat) := eval ⟨P.calls n, n, names, c.scope⟩ [.none] e
      (∀ n, Sim s n c [.none] 0 [.none] (value n)
        (c.At (fun _ => 0 + instrs.length) fun v => [v, .none])) ∧
      ∀ σ events k stop m, (c.phase 0 [.none] σ events).after s k = .ended stop m →
        ∀ τ, value k σ ≠ .error .tired τ := by
  intro x e
  let env : Compile.Env := ⟨none, ["x", "y"], none, []⟩
  let b : Compile.State := ⟨#[default], ["x", "y"], .empty, .unknown⟩
  obtain ⟨instrs, b', he⟩ : ∃ instrs b', Compile.expr env 0 e b = .ok (instrs, b') := ⟨_, _, rfl⟩
  obtain ⟨code, hcode, F, hF, hinstrs, hpool, hglobals⟩ : ∃ code,
      compile ["x", "y"] [.expr e] = .ok code ∧ ∃ F, code.functions[0]? = some F ∧
        F.Holds 0 instrs ∧ b'.pool = F.pool ∧ b'.globals = code.globals := by
    cases he
    refine ⟨_, rfl, _, rfl, ?_, rfl, rfl⟩
    exact Code.Holds.left (r := [⟨.return, .unknown⟩]) (Compile.holds_toArray rfl)
  refine ⟨code, F, instrs, hcode, hF, hinstrs, ?_⟩
  exact expr_computes hcode rfl he hF hinstrs (hpool ▸ .refl _) (hglobals ▸ List.prefix_refl _)
    nofun [.none]

/-! ## Runs of programs -/

/-- What an evaluation says of how a run stops. -/
def Semantics.Comes (r : EStateM.Result Halt Semantics.State Value) (stop : Stop) (m : Machine) :
    Prop :=
  match r with
  | .ok v σ => stop = .exit (.returned v) ∧ σ.Shows m
  | .error (.raised e) σ => stop = .failed e ∧ σ.Shows m
  | .error (.stopped at_) σ => stop = at_ ∧ σ.Shows m
  | .error (.aborted l) σ => ∃ e, stop = .failed e ∧ e.limit = some l ∧ σ.Shows m
  | .error .endless _ | .error .tired _ => False

/-- A run does what an evaluation with so much fuel says. -/
def Phase.Follows (s : Script) (n : Nat) (r : EStateM.Result Halt Semantics.State Value)
    (p : Phase) : Prop :=
  match r with
  | .error .tired _ => Phase.Lasts s n p
  | .error .endless _ => Phase.Leads s p .endless
  | r => ∃ stop m, Phase.Leads s p (.ended stop m) ∧ Comes r stop m

theorem Meets.follows {s : Script} {n : Nat} {r : EStateM.Result Halt Semantics.State Value}
    {p : Phase} (h : Meets s n ⟨0, 0, 0, [], [], []⟩ [] (Returns s ⟨0, 0, 0, [], [], []⟩ []) r p) :
    p.Follows s n r := by
  obtain ⟨q, hq, h⟩ := h
  cases r with
  | ok v σ =>
    obtain ⟨pc, blocks, above, newer, events, rfl⟩ := h
    exact ⟨_, _, hq, rfl, rfl, rfl, rfl, rfl, rfl, rfl⟩
  | error e σ =>
    cases e with
    | raised e =>
      obtain ⟨m, above, frame, callers, newer, events, hm, rfl⟩ := h
      exact ⟨_, m, hq, rfl, hm⟩
    | stopped stop =>
      obtain ⟨m, rfl, hm⟩ := h
      exact ⟨_, m, hq, rfl, hm⟩
    | aborted l =>
      obtain ⟨e, m, rfl, hl, hm⟩ := h
      exact ⟨_, m, hq, e, rfl, hl, hm⟩
    | endless =>
      obtain rfl : q = .endless := h
      exact hq
    | tired => exact Phase.Lasts.of_leads hq h

/-- A run that is over when the evaluation has used up its fuel has stopped as the evaluation
says. -/
theorem Phase.Follows.comes {s : Script} {k : Nat}
    {r : EStateM.Result Halt Semantics.State Value} {p : Phase} {stop : Stop} {m : Machine}
    (h : p.Follows s k r) (hk : p.after s k = .ended stop m) : Comes r stop m := by
  have hstopped : (∃ stop m, Phase.Leads s p (.ended stop m) ∧ Comes r stop m) →
      Comes r stop m := by
    rintro ⟨stop', m', hp, hcomes⟩
    obtain ⟨rfl, rfl⟩ := Phase.ended_unique ⟨k, hk⟩ hp
    exact hcomes
  cases r with
  | ok v σ => exact hstopped h
  | error e σ =>
    cases e with
    | raised e => exact hstopped h
    | stopped stop => exact hstopped h
    | aborted l => exact hstopped h
    | endless => exact absurd h (Phase.not_endless_of_ended hk)
    | tired => exact absurd h (Phase.not_lasts_of_ended hk)

/-- A compiled program does what its statements mean, whatever its host does. With each amount of
fuel, the evaluator either says how the run stops, and what the heap, the globals, the futures and
the output are then, or has used up its fuel, and the run goes on for at least as many instructions.
So each run that stops does so as the evaluator says. -/
theorem run_follows {preset : List String} {program : List Stmt} {code : Bytecode}
    (h : compile preset program = .ok code) {s : Script} (hs : s.bytecode = code) (heap : Heap)
    (globals : Array Value) (traced : Bool) (writer : Writer) (moves : List HostMove) :
    let P := Program.ofStmts preset code.globals program
    let σ := State.start heap globals writer moves
    let p := Phase.running (Script.begin heap globals traced writer) moves
    (∀ n, p.Follows s n (P.run n σ)) ∧
      ∀ stop m, Phase.Leads s p (.ended stop m) → ∃ n, Comes (P.run n σ) stop m := by
  subst hs
  intro P σ p
  have himplements := compile_implements h
  let main : Semantics.Function := ⟨"<module>", [], 0, program, true, 1⟩
  obtain ⟨F, hF, hmain⟩ := himplements.implemented 0 main rfl
  have hfollows : ∀ n, p.Follows s n (P.run n σ) := by
    intro n
    have hrun := hmain.runs (c := ⟨0, 0, 0, [], [], []⟩)
      (E := ⟨P.calls n, n, P.names main, ⟨0, [], []⟩⟩) hF rfl (List.prefix_refl _) rfl rfl
      (calls_follow himplements n) []
    exact (hrun σ (if traced then some [] else none)).follows
  refine ⟨hfollows, ?_⟩
  rintro stop m ⟨k, hk⟩
  exact ⟨k, (hfollows k).comes hk⟩

/-- A run of a loop with an `except` clause that leaves it, all in a `try` with a `finally`
clause. -/
theorem run_follows_break :
    let x : Expr := .mk .unknown (.name "x")
    let leaves : Stmt := .try [.raise (some x) .unknown] [.mk (some x) none [.break .unknown]] [] []
    let program : List Stmt := [.try [.while x [leaves] [.raise none .unknown]] [] [] [.pass]]
    ∃ code, compile ["x"] program = .ok code ∧
      let s : Script := ⟨"main.py", "", ["x"], [], code⟩
      let P := Program.ofStmts ["x"] code.globals program
      let σ := State.start (.ofBudget .free) #[.tuple [.none]] .collector []
      let p := Phase.running (Script.begin (.ofBudget .free) #[.tuple [.none]] false .collector) []
      (∀ n, p.Follows s n (P.run n σ)) ∧
        ∀ stop m, Phase.Leads s p (.ended stop m) → ∃ n, Comes (P.run n σ) stop m := by
  intro x leaves program
  obtain ⟨code, hcode⟩ : ∃ code, compile ["x"] program = .ok code := ⟨_, rfl⟩
  exact ⟨code, hcode, run_follows hcode rfl (.ofBudget .free) #[.tuple [.none]] false .collector []⟩

end Resumable
