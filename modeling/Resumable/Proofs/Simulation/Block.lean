import Resumable.Proofs.Discipline.Statement
import Resumable.Proofs.Discipline.Step
import Resumable.Proofs.Simulation.Target

/-!
# Blocks and the ends of statements

Where exceptions, jumps and returns lead from inside some blocks, and where a run stands when a
statement has ended.

## Blocks

What the instructions do that enter and leave blocks, and where an exception, a jump out of a loop
and the return of a value lead from inside some blocks.
-/

namespace Resumable

open Machine Semantics

/-! ### Steps that raise nothing -/

section
variable {α β : Type}

/-- An evaluation raises no exception. -/
def Semantics.Calm (act : Sem α) : Prop := ∀ σ e τ, act σ ≠ .error (.raised e) τ

namespace Semantics.Calm

variable {act : Sem α} {f : α → Sem β}

theorem ret (a : α) : Calm (pure a : Sem α) := fun _ _ _ h => nomatch h

theorem bind (h : Calm act) (hf : ∀ a, Calm (f a)) : Calm (act >>= f) := by
  intro σ e τ hr
  change EStateM.bind act f σ = _ at hr
  unfold EStateM.bind at hr
  cases ha : act σ with
  | ok a υ => rw [ha] at hr; exact hf a υ e τ hr
  | error e' υ =>
    rw [ha] at hr
    cases hr
    exact h σ e τ ha

theorem charge (c : Semantics.Scope) (kept : List Value) : Calm (Semantics.charge c kept) := by
  intro σ e τ hr
  unfold Semantics.charge at hr
  dsimp only at hr
  split at hr <;> cases hr

theorem leaveBlocks (E : Setting) (kept : List Value) (k : Nat) :
    Calm (Semantics.leaveBlocks E kept k) := by
  induction k with
  | zero => exact ret ()
  | succ k ih => exact (charge E.scope kept).bind fun _ => ih

end Semantics.Calm

/-- The count of an instruction does not depend on the exceptions that are being handled. -/
theorem charge_congr {c c' : Semantics.Scope} (h : c.callers = c'.callers) (kept : List Value) :
    charge c kept = charge c' kept := by
  unfold charge Semantics.roots
  rw [h]

end

section
variable {α β : Type} {s : Script} {n : Nat} {c c' : Ctx} {F : Code} {pc pc' : Nat}
  {base base' kept start stack low : List Value} {span : Span} {i : Instr} {v : Value}
  {σ : Semantics.State} {p : Phase} {e : Raised} {r : EStateM.Result Halt Semantics.State α}
  {good : α → Semantics.State → Phase → Prop}

/-- Where nothing is raised, it does not matter what an exception would find. -/
theorem Meets.recontext (h : Meets s n c base good r p)
    (hr : ∀ e σ, r ≠ .error (.raised e) σ) : Meets s n c' base' good r p := by
  obtain ⟨q, hq, h⟩ := h
  refine ⟨q, hq, ?_⟩
  cases r with
  | ok a σ => exact h
  | error e σ =>
    cases e with
    | raised e => exact absurd rfl (hr e σ)
    | _ => exact h

/-- From an instruction in the context `c'` on, the run does what an evaluation does, whose
exceptions leave the context `c`. -/
def Crosses (s : Script) (n : Nat) (c c' : Ctx) (base : List Value) (pc : Nat) (start : List Value)
    (act : Sem α) (good : α → Semantics.State → Phase → Prop) : Prop :=
  ∀ σ events, Meets s n c base good (act σ) (c'.phase pc start σ events)

theorem Sim.crossing {act : Sem α} (h : Sim s n c base pc start act good) :
    Crosses s n c c base pc start act good := h

/-- An instruction that goes on in another context. -/
theorem Sim.crosses {c'' : Ctx} {scope : Semantics.Scope} {f : Unit → Sem α}
    (h : Sim s n c' base pc start (charge scope start) (c''.To pc' stack))
    (hf : Crosses s n c c'' base pc' stack (f ()) good) :
    Crosses s n c c' base pc start (charge scope start >>= f) good := fun σ events =>
  ((h σ events).recontext fun e τ => Calm.charge scope start σ e τ).bind fun _ τ q hq => by
    obtain ⟨events', rfl⟩ := hq
    exact hf τ events'

/-! ### Exceptions -/

/-- An exception that was raised again finds handlers just as one that a frame has got to know. -/
theorem unwindFrom_frame (code : Bytecode) (m : Machine) (e : Raised) (c : Ctx) (pc : Nat)
    (locals : Array Value) (below : List Frame) :
    unwindFrom code m true e (c.frame pc locals) below =
      unwindFrom code m true e (c.frame 0 locals) below := by
  unfold unwindFrom
  cases c.blocks <;> rfl

/-- An exception that a block of the frame is registered for leads to the handler of the block. -/
theorem Raises.caught {t : Nat}
    (h : Raises s (c.guarded ⟨t, base.length, c.handled.length⟩) base e σ p) :
    (c.handling e).To t (.exception e :: base) () σ p := by
  obtain ⟨m, above, frame, callers, newer, events, -, rfl⟩ := h
  have hstack : lastOf base.length (above ++ base) = base := lastOf_append above rfl
  have hhandled : lastOf c.handled.length (newer ++ c.handled) = c.handled :=
    lastOf_append newer rfl
  have hunwind : ∃ events', unwindFrom s.bytecode
      (σ.machine (above ++ base) frame callers (newer ++ c.handled) events) true e
      ((c.guarded ⟨t, base.length, c.handled.length⟩).frame 0 σ.locals) c.callers =
        .ok ((c.handling e).machine t (.exception e :: base) σ events') := by
    unfold unwindFrom
    cases events with
    | none =>
      refine ⟨none, ?_⟩
      change Except.ok (Semantics.State.machine σ
        (.exception e :: lastOf base.length (above ++ base)) (c.frame t σ.locals) c.callers
        (e :: lastOf c.handled.length (newer ++ c.handled)) none) = _
      rw [hstack, hhandled]
      rfl
    | some events =>
      refine ⟨some (.handlerEntered (c.handled.length + 1) :: events), ?_⟩
      change Except.ok (Semantics.State.machine σ
        (.exception e :: lastOf base.length (above ++ base)) (c.frame t σ.locals) c.callers
        (e :: lastOf c.handled.length (newer ++ c.handled)) (some (.handlerEntered
          (e :: lastOf c.handled.length (newer ++ c.handled)).length :: events))) = _
      rw [hstack, hhandled]
      rfl
  obtain ⟨events', hunwind⟩ := hunwind
  exact ⟨events', congrArg (Phase.ofUnwind σ.moves m) hunwind⟩

/-- An exception that leaves a handler finds the same as one that is raised outside of it. -/
theorem Raises.outside {e' : Raised} (h : Raises s (c.handling e') base e σ p) :
    Raises s c base e σ p := by
  obtain ⟨m, above, frame, callers, newer, events, hm, rfl⟩ := h
  refine ⟨m, above, frame, callers, newer ++ [e'], events, hm, ?_⟩
  rw [List.append_assoc]
  rfl

theorem Meets.outside {e : Raised} (h : Meets s n (c.handling e) base good r p) :
    Meets s n c base good r p := by
  obtain ⟨q, hq, h⟩ := h
  refine ⟨q, hq, ?_⟩
  cases r with
  | ok a σ => exact h
  | error e σ =>
    cases e with
    | raised e => exact Raises.outside h
    | _ => exact h

/-- Where an evaluation in a block leads that may raise an exception. -/
def Caught (c : Ctx) (base : List Value) (t : Nat) (good : α → Semantics.State → Phase → Prop) :
    Except Raised α → Semantics.State → Phase → Prop
  | .ok a, σ, p => good a σ p
  | .error e, σ, p => (c.handling e).To t (.exception e :: base) () σ p

theorem Meets.attempt {t : Nat} {act : Sem α}
    (h : Meets s n (c.guarded ⟨t, base.length, c.handled.length⟩) base good (act σ) p) :
    Meets s n c base (Caught c base t good) (Semantics.attempt act σ) p := by
  obtain ⟨q, hq, h⟩ := h
  refine ⟨q, hq, ?_⟩
  unfold Semantics.attempt
  cases hr : act σ with
  | ok a τ => rw [hr] at h; exact h
  | error e τ =>
    rw [hr] at h
    cases e with
    | raised e => exact Raises.caught h
    | _ => exact h

/-! ### Instructions -/

section
variable (hF : s.bytecode.functions[c.function]? = some F)
include hF

theorem Sim.setupExcept {t : Nat} (hi : F.instrs[pc]? = some ⟨.setupExcept t, span⟩) :
    Sim s n c base pc kept (charge c.scope kept)
      ((c.guarded ⟨t, kept.length, c.handled.length⟩).To (pc + 1) kept) :=
  .passes hF hi fun _ events => ⟨events, rfl⟩

theorem Sim.popBlock {b : Block} (hi : F.instrs[pc]? = some ⟨.popBlock, span⟩) :
    Sim s n (c.guarded b) base pc kept (charge c.scope kept) (c.To (pc + 1) kept) :=
  .passes (c := c.guarded b) hF hi fun _ events => ⟨events, rfl⟩

theorem Sim.popExcept {e : Raised} (hi : F.instrs[pc]? = some ⟨.popExcept, span⟩) :
    Sim s n (c.handling e) base pc kept (charge c.scope kept) (c.To (pc + 1) kept) := by
  have hcharge : charge c.scope kept = charge (c.handling e).scope kept := charge_congr rfl kept
  rw [hcharge]
  refine .passes (c := c.handling e) hF hi fun σ events => ?_
  cases events with
  | none => exact ⟨none, rfl⟩
  | some events => exact ⟨some _, rfl⟩

/-- An instruction that always fails. -/
theorem Sim.fails {f : Failure} (hi : F.instrs[pc]? = some i)
    (hexec : ∀ σ events, execute s.bytecode i.op (c.machine (pc + 1) start σ events) =
      .error f (c.machine (pc + 1) kept σ events)) :
    Sim s n c kept pc start (perform c.scope i.span start (fail f)) good := by
  intro σ₀ events₀
  refine .charge hF hi σ₀ events₀ fun σ events hp => ?_
  rw [hexec] at hp
  exact .failed [] hF hi rfl hp

theorem Sim.raise {good : Flow → Semantics.State → Phase → Prop}
    (hi : F.instrs[pc]? = some ⟨.raise, span⟩) :
    Sim s n c kept pc (v :: kept)
      (perform c.scope span (v :: kept) (Semantics.raiseValue v)) good := by
  cases v with
  | exception e => exact .fails hF hi fun _ _ => rfl
  | excClass t => exact .fails hF hi fun _ _ => rfl
  | _ => exact .fails hF hi fun _ _ => rfl

omit hF in
theorem reraise_raises {m : Machine} {e : Raised} {handled : List Raised}
    (h : m.handled = e :: handled) :
    Machine.reraise m = .error (.raised e) { m with reraising := true } := by
  rw [Machine.reraise, get_bind, h]
  rfl

omit hF in
theorem reraise_fails {m : Machine} (h : m.handled = []) : Machine.reraise m =
    .error (.exception .runtimeError "No active exception to reraise") m := by
  rw [Machine.reraise, get_bind, h]
  rfl

omit hF in
/-- The innermost exception that is being handled is raised again. -/
theorem Sim.reraise {e : Raised} {handled : List Raised}
    (hF : s.bytecode.functions[c.function]? = some F) (hhandled : c.handled = e :: handled)
    (hi : F.instrs[pc]? = some ⟨.reraise, span⟩) (hstart : base <:+ start) :
    Sim s n c base pc start (charge c.scope start >>= fun _ => raiseAgain e) good := by
  obtain ⟨above, rfl⟩ := hstart
  intro σ₀ events₀
  refine .charge hF hi σ₀ events₀ fun σ events hp => ?_
  have hexec : execute s.bytecode .reraise (c.machine (pc + 1) (above ++ base) σ events) =
      .error (.raised e)
        { c.machine (pc + 1) (above ++ base) σ events with reraising := true } :=
    bind_error (reraise_raises hhandled)
  rw [hexec] at hp
  have hnext := hp.next
  rw [ofAdvance_raised] at hnext
  have hunwind : Machine.unwind
      { c.machine (pc + 1) (above ++ base) σ events with reraising := true } s.bytecode e =
        unwindFrom s.bytecode (c.machine (pc + 1) (above ++ base) σ events) true e
          (c.frame (pc + 1) σ.locals) c.callers := rfl
  rw [hunwind, unwindFrom_frame] at hnext
  exact .of_next (.here ⟨_, above, c.frame (pc + 1) σ.locals, c.callers, [], events,
    ⟨rfl, rfl, rfl, rfl, rfl, rfl⟩, hnext⟩)

/-- Without an exception that is being handled, there is none to raise again. -/
theorem Sim.reraise_nothing (hhandled : c.handled = [])
    (hi : F.instrs[pc]? = some ⟨.reraise, span⟩) :
    Sim s n c kept pc kept (perform c.scope span kept
      (fail (.exception .runtimeError "No active exception to reraise"))) good :=
  .fails hF hi fun _ _ => bind_error (reraise_fails hhandled)

theorem Sim.return {a : α} (hi : F.instrs[pc]? = some ⟨.return, span⟩)
    (hgood : ∀ σ p, Returns s c kept v σ p → good a σ p) :
    Sim s n c kept pc (v :: kept) (charge c.scope (v :: kept) >>= fun _ => pure a) good := by
  intro σ₀ events₀
  refine .charge hF hi σ₀ events₀ fun σ events hp => ?_
  exact .of_next (.ok (hgood σ _ ⟨pc + 1, c.blocks, [], [], events, hp.next⟩))

end

end

/-!
## How statements end

A statement may end with a jump out of the innermost loop, which first leaves the blocks that have
been entered inside the loop. `Around` says that the loop around a statement and these blocks are as
the compiler takes them to be, and `Ends` where a run stands at each way to end.
-/

/-- A context is inside some blocks, the innermost one first, of another one. -/
inductive Inside : List Compile.Block → Ctx → Ctx → Prop
  | nil (c : Ctx) : Inside [] c c
  | tryBody {bs : List Compile.Block} {c c₀ : Ctx} (b : Resumable.Block) (h : Inside bs c c₀) :
      Inside (.tryBody :: bs) (c.guarded b) c₀
  | guarded {bs : List Compile.Block} {c c₀ : Ctx} (b : Resumable.Block) (h : Inside bs c c₀) :
      Inside (.guarded :: bs) (c.guarded b) c₀
  | handling {bs : List Compile.Block} {c c₀ : Ctx} (e : Raised) (h : Inside bs c c₀) :
      Inside (.handling :: bs) (c.handling e) c₀

namespace Inside

variable {bs : List Compile.Block} {c c₀ : Ctx}

theorem function (h : Inside bs c c₀) : c₀.function = c.function := by
  induction h with
  | nil => rfl
  | tryBody b h ih => exact ih
  | guarded b h ih => exact ih
  | handling e h ih => exact ih

theorem callers (h : Inside bs c c₀) : c₀.callers = c.callers := by
  induction h with
  | nil => rfl
  | tryBody b h ih => exact ih
  | guarded b h ih => exact ih
  | handling e h ih => exact ih

end Inside

/-- Where the loop around a statement is: the context outside of all blocks in the loop, and the
instruction behind the loop. -/
structure Outer where
  ctx : Ctx
  stop : Nat

/-- The loop around a statement is as the compiler and the evaluator take it to be. -/
structure Around (env : Compile.Env) (x : Exits) (c : Ctx) (o : Outer) (loop : Compile.Loop) :
    Prop where
  depth : loop.depth ≤ env.blocks.length
  inside : Inside (Compile.blocksInside env loop) c o.ctx
  blocks : x.blocks = (Compile.blocksInside env loop).length
  isFor : x.isFor = loop.isFor

/-- The loop around a statement, if there is one. -/
def Compile.Env.Placed (env : Compile.Env) (x : Exits) (c : Ctx) (o : Outer) : Prop :=
  ∀ loop, env.loop = some loop → Around env x c o loop

/-- Where a run stands at each way to end a statement, whose code goes on at an index. -/
def Ends (s : Script) (env : Compile.Env) (c : Ctx) (o : Outer) (kept : List Value) (pc : Nat) :
    Flow → Semantics.State → Phase → Prop
  | .next, σ, p => c.To pc kept () σ p
  | .break, σ, p => ∃ loop, env.loop = some loop ∧ .guarded ∉ Compile.blocksInside env loop ∧
      o.ctx.To o.stop (if loop.isFor then kept.tail else kept) () σ p
  | .continue, σ, p => ∃ loop, env.loop = some loop ∧ .guarded ∉ Compile.blocksInside env loop ∧
      o.ctx.To loop.start kept () σ p
  | .return v, σ, p => env.locals.isSome = true ∧ .guarded ∉ env.blocks ∧ Returns s c kept v σ p

section
variable {s : Script} {n : Nat} {env : Compile.Env} {x : Exits} {c : Ctx} {o : Outer}
  {kept : List Value} {pc : Nat} {σ : Semantics.State} {p : Phase}

/-- Outside of all loops, there is nothing to ask. -/
theorem Compile.Env.placed_of_loop_eq_none (h : env.loop = none) : env.Placed x c o := by
  intro loop hloop
  rw [h] at hloop
  cases hloop

/-- Outside of all loops, nothing jumps out of one. -/
theorem Ends.next_or_return (h : env.loop = none) {flow : Flow}
    (hends : Ends s env c o kept pc flow σ p) : flow = .next ∨ ∃ v, flow = .return v := by
  cases flow with
  | next => exact .inl rfl
  | «return» v => exact .inr ⟨v, rfl⟩
  | «break» =>
    obtain ⟨loop, hloop, -⟩ := hends
    rw [h] at hloop
    cases hloop
  | «continue» =>
    obtain ⟨loop, hloop, -⟩ := hends
    rw [h] at hloop
    cases hloop

/-- Inside one more block. -/
theorem Compile.Env.Placed.enter (h : env.Placed x c o) {b : Compile.Block} {c' : Ctx}
    (hb : ∀ {bs c₀}, Inside bs c c₀ → Inside (b :: bs) c' c₀) :
    Compile.Env.Placed { env with blocks := b :: env.blocks } x.inside c' o := by
  intro loop hloop
  obtain ⟨hdepth, hinside, hblocks, hfor⟩ := h loop hloop
  refine ⟨Nat.le_succ_of_le hdepth, ?_, ?_, hfor⟩
  · rw [Compile.blocksInside_cons hdepth]
    exact hb hinside
  · rw [Compile.blocksInside_cons hdepth, List.length_cons, ← hblocks]
    rfl

theorem Returns.guarded {b : Resumable.Block} {v : Value}
    (h : Returns s (c.guarded b) kept v σ p) : Returns s c kept v σ p := h

theorem Returns.handling {e : Raised} {v : Value}
    (h : Returns s (c.handling e) kept v σ p) : Returns s c kept v σ p := by
  obtain ⟨pc, blocks, above, newer, events, rfl⟩ := h
  refine ⟨pc, blocks, above, newer ++ [e], events, ?_⟩
  rw [List.append_assoc]
  rfl

/-- A jump or a return in a block leads where it leads outside. -/
theorem Ends.outside (h : env.Placed x c o) {b : Compile.Block} {c' : Ctx}
    (hreturn : ∀ {v σ p}, Returns s c' kept v σ p → Returns s c kept v σ p) {pc' : Nat}
    {flow : Flow}
    (hflow : flow ≠ .next)
    (hends : Ends s { env with blocks := b :: env.blocks } c' o kept pc flow σ p) :
    Ends s env c o kept pc' flow σ p := by
  have hblocks : ∀ {loop}, env.loop = some loop →
      .guarded ∉ Compile.blocksInside { env with blocks := b :: env.blocks } loop →
      .guarded ∉ Compile.blocksInside env loop := by
    intro loop hloop hguarded
    rw [Compile.blocksInside_cons (h loop hloop).depth] at hguarded
    exact fun hmem => hguarded (.tail _ hmem)
  cases flow with
  | next => exact absurd rfl hflow
  | «break» =>
    obtain ⟨loop, hloop, hguarded, hp⟩ := hends
    exact ⟨loop, hloop, hblocks hloop hguarded, hp⟩
  | «continue» =>
    obtain ⟨loop, hloop, hguarded, hp⟩ := hends
    exact ⟨loop, hloop, hblocks hloop hguarded, hp⟩
  | «return» v =>
    obtain ⟨hlocals, hguarded, hp⟩ := hends
    exact ⟨hlocals, fun hmem => hguarded (.tail _ hmem), hreturn hp⟩

/-- No jump and no return leads out of what has a `finally` clause. -/
theorem Ends.next_of_guarded (h : env.Placed x c o) {c' : Ctx} {flow : Flow}
    (hends : Ends s { env with blocks := .guarded :: env.blocks } c' o kept pc flow σ p) :
    flow = .next := by
  have hblocks : ∀ {loop}, env.loop = some loop → .guarded ∈
      Compile.blocksInside { env with blocks := .guarded :: env.blocks } loop := by
    intro loop hloop
    rw [Compile.blocksInside_cons (h loop hloop).depth]
    exact .head _
  cases flow with
  | next => rfl
  | «break» =>
    obtain ⟨loop, hloop, hguarded, -⟩ := hends
    exact absurd (hblocks hloop) hguarded
  | «continue» =>
    obtain ⟨loop, hloop, hguarded, -⟩ := hends
    exact absurd (hblocks hloop) hguarded
  | «return» v => exact absurd (.head _) hends.2.1

end

namespace Compile

/-! ### Gaps -/

/-- An instruction of a loop's body, or the jump behind the loop that fills a gap. -/
def Draft.filled (target : Nat) : Draft → Instr
  | .instr i => i
  | .breakTo span => ⟨.jump target, span⟩

/-- The instructions of code whose gaps are filled. -/
def filled (target : Nat) (code : List Draft) : List Instr := code.map (Draft.filled target)

theorem filled_append (t : Nat) (l r : List Draft) : filled t (l ++ r) = filled t l ++ filled t r :=
  List.map_append

theorem filled_drafts (t : Nat) (code : List Instr) : filled t (drafts code) = code := by
  unfold filled drafts
  rw [List.map_map]
  exact List.map_id code

/-- The gaps that a loop fills are no gaps any more. -/
theorem filled_fill (t stop : Nat) (code : List Draft) :
    filled t (code.map (.fill stop)) = filled stop code := by
  unfold filled
  rw [List.map_map]
  refine List.map_congr_left fun d _ => ?_
  cases d <;> rfl

theorem length_filled (t : Nat) (code : List Draft) : (filled t code).length = code.length :=
  List.length_map _

/-! ### Jumps out of loops -/

theorem leaveBlocks_succ (E : Setting) (kept : List Value) (b : Block) (bs : List Block) :
    leaveBlocks E kept (b :: bs).length =
      charge E.scope kept >>= fun _ => leaveBlocks E kept bs.length := rfl

theorem leave_makes (word : String) (span : Span) (bs : List Block) :
    Makes (leave word span bs) fun _ code => .guarded ∉ bs ∧
      ∀ ⦃s n c c₀ F⦄ (E : Setting) (base : List Value) pc kept, Inside bs c c₀ →
        s.bytecode.functions[c.function]? = some F → F.Holds pc code →
        E.scope.callers = c.scope.callers →
          Crosses s n c₀ c base pc kept (leaveBlocks E kept bs.length)
            (c₀.To (pc + code.length) kept) := by
  induction bs with
  | nil =>
    refine .ret fun K => ⟨List.not_mem_nil, ?_⟩
    intro s n c c₀ F E base pc kept hinside hF hcode hE σ events
    cases hinside
    exact .ok ⟨events, rfl⟩
  | cons b bs ih =>
    cases b with
    | guarded => exact .fail
    | tryBody =>
      refine (one_makes _).bind fun i => ih.bind fun code => .ret fun K hc hi => ?_
      obtain ⟨_, rfl⟩ := hi
      obtain ⟨hguarded, hc⟩ := hc
      refine ⟨by simpa using hguarded, ?_⟩
      intro s n c c₀ F E base pc kept hinside hF hcode hE
      cases hinside with
      | @tryBody _ c _ b hinside =>
        have hrest := hc (n := n) E base (pc + 1) kept hinside hF hcode.tail hE
        rw [leaveBlocks_succ, charge_congr hE, List.length_cons, ← Nat.add_assoc,
          Nat.add_right_comm]
        exact (Sim.popBlock (c := c) hF hcode.head).crosses hrest
    | handling =>
      refine (one_makes _).bind fun i => ih.bind fun code => .ret fun K hc hi => ?_
      obtain ⟨_, rfl⟩ := hi
      obtain ⟨hguarded, hc⟩ := hc
      refine ⟨by simpa using hguarded, ?_⟩
      intro s n c c₀ F E base pc kept hinside hF hcode hE
      cases hinside with
      | @handling _ c _ e hinside =>
        have hrest := hc (n := n) E base (pc + 1) kept hinside hF hcode.tail hE
        rw [leaveBlocks_succ, charge_congr hE, List.length_cons, ← Nat.add_assoc,
          Nat.add_right_comm]
        exact (Sim.popExcept (c := c) hF hcode.head).crosses hrest

end Compile

end Resumable
