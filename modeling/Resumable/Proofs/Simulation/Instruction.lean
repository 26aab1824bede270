import Resumable.Proofs.Limits
import Resumable.Proofs.Simulation.Basic

/-!
# Single instructions

An instruction is counted and garbage is collected as an evaluation does it (`next_phase`), and then
it is executed. `Executes` says what comes of the execution. From there on, each instruction has a
rule that says which primitive step of an evaluation it follows.
-/

namespace Resumable

open Machine Semantics

/-- These instructions stand in a code object from an index on. -/
def Code.Holds (F : Code) (pc : Nat) (code : List Instr) : Prop :=
  ∀ j i, code[j]? = some i → F.instrs[pc + j]? = some i

namespace Code

variable {F : Code} {pc : Nat} {i : Instr} {l r : List Instr}

theorem holds_append : F.Holds pc (l ++ r) ↔ F.Holds pc l ∧ F.Holds (pc + l.length) r := by
  refine ⟨fun h => ⟨fun j i hj => h j i ?_, fun j i hj => ?_⟩, fun ⟨hl, hr⟩ j i hj => ?_⟩
  · obtain ⟨hlt, -⟩ := List.getElem?_eq_some_iff.mp hj
    rw [List.getElem?_append_left hlt, hj]
  · rw [Nat.add_assoc]
    refine h _ i ?_
    rw [List.getElem?_append_right (Nat.le_add_right _ _), Nat.add_sub_cancel_left, hj]
  · rcases Nat.lt_or_ge j l.length with hlt | hle
    · exact hl j i (by rwa [List.getElem?_append_left hlt] at hj)
    · rw [List.getElem?_append_right hle] at hj
      have := hr _ i hj
      rwa [show pc + l.length + (j - l.length) = pc + j by omega] at this

theorem holds_cons : F.Holds pc (i :: l) ↔ F.instrs[pc]? = some i ∧ F.Holds (pc + 1) l := by
  rw [← List.singleton_append, holds_append]
  refine and_congr_left' ⟨fun h => h 0 i rfl, fun h j k hj => ?_⟩
  cases j with
  | zero => cases hj; exact h
  | succ j => cases hj

theorem Holds.left (h : F.Holds pc (l ++ r)) : F.Holds pc l := (holds_append.mp h).1

theorem Holds.right {q : Nat} (h : F.Holds pc (l ++ r)) (hq : q = pc + l.length) : F.Holds q r :=
  hq ▸ (holds_append.mp h).2

theorem Holds.head (h : F.Holds pc (i :: l)) : F.instrs[pc]? = some i := (holds_cons.mp h).1

theorem Holds.tail (h : F.Holds pc (i :: l)) : F.Holds (pc + 1) l := (holds_cons.mp h).2

/-- The last instruction of code. -/
theorem Holds.last {q : Nat} (h : F.Holds pc (l ++ [i])) (hq : q = pc + l.length) :
    F.instrs[q]? = some i := (h.right hq).head

end Code

/-- In a phase, the instruction at hand is executed and comes to a result. -/
structure Executes (s : Script) (moves : List HostMove) (p : Phase)
    (r : EStateM.Result Failure Machine (Option Exit)) : Prop where
  running : ∃ m moves, p = .running m moves
  next : p.next s = .ofAdvance s moves (.ofResult s.bytecode r)

section
variable {α β : Type} {s : Script} {n : Nat} {c : Ctx} {F : Code} {pc pc' : Nat}
  {base start : List Value} {σ τ : State} {events : Option (List Event)} {i : Instr} {p : Phase}
  {good : α → State → Phase → Prop}

theorem entered_eq (c : Ctx) (pc : Nat) (start : List Value) (σ : State)
    (events : Option (List Event)) (i : Instr) :
    ∃ events', (c.machine pc start σ events).entered i = c.machine (pc + 1) start σ events' := by
  cases events with
  | none => exact ⟨none, rfl⟩
  | some events => exact ⟨some _, rfl⟩

theorem roots_eq (c : Ctx) (pc : Nat) (start : List Value) (σ : State)
    (events : Option (List Event)) :
    (c.machine pc start σ events).roots = Semantics.roots c.scope start σ := by
  have hframes : (c.machine pc start σ events).frames.flatMap (·.locals.toList) =
      (σ.locals :: c.scope.callers).flatMap (·.toList) := by
    rw [Ctx.scope, List.flatMap_cons, List.flatMap_map]
    rfl
  unfold Machine.roots Semantics.roots
  rw [hframes]
  rfl

/-- A state with another heap. -/
theorem ticked_eq (c : Ctx) (pc : Nat) (start : List Value) (σ : State)
    (events : Option (List Event)) : (c.machine pc start σ events).ticked =
      c.machine pc start { σ with heap := { σ.heap with budget := σ.heap.budget.tick.1 } } events :=
  rfl

theorem collected_eq (c : Ctx) (pc : Nat) (start : List Value) (σ : State)
    (events : Option (List Event)) : (c.machine pc start σ events).collected =
      c.machine pc start { σ with
        heap := if σ.heap.shouldCollect then σ.heap.collect (Semantics.roots c.scope start σ)
          else σ.heap } events := by
  rw [Machine.collected, roots_eq]
  change (if σ.heap.shouldCollect then _ else _) = _
  split <;> rfl

/-- The next instruction follows the count of an instruction in an evaluation. -/
theorem Meets.charge {f : Unit → Sem α} (hF : s.bytecode.functions[c.function]? = some F)
    (hi : F.instrs[pc]? = some i) (σ : State) (events : Option (List Event))
    (h : ∀ τ events', Executes s τ.moves (c.phase pc start σ events)
        (execute s.bytecode i.op (c.machine (pc + 1) start τ events')) →
      Meets s n c base good (f () τ) (c.phase pc start σ events)) :
    Meets s n c base good ((charge c.scope start >>= f) σ) (c.phase pc start σ events) := by
  have hnext : (c.phase pc start σ events).next s = .ofAdvance s σ.moves
      (.ofResult s.bytecode (step s.bytecode (c.machine pc start σ events))) := by
    rw [Ctx.phase, Phase.next, advance_eq]
  rw [step_eq] at hnext
  cases hover : σ.heap.budget.tick.2 with
  | some e =>
    have hcharge : (Semantics.charge c.scope start >>= f) σ =
        .error (.aborted e) { σ with heap := { σ.heap with budget := σ.heap.budget.tick.1 } } := by
      change EStateM.bind _ _ _ = _
      unfold EStateM.bind Semantics.charge
      dsimp only
      rw [hover]
    have hmachine : (c.machine pc start σ events).heap.budget.tick.2 = some e := hover
    rw [hmachine] at hnext
    dsimp only at hnext
    rw [ofLimit_of_not_catchable (not_isCatchable_tick hover), ticked_eq] at hnext
    rw [hcharge]
    exact .of_next (.here ⟨_, _, hnext, rfl, rfl, rfl, rfl, rfl, rfl, rfl⟩)
  | none =>
    let τ : State := { σ with heap := { σ.heap with budget := σ.heap.budget.tick.1 } }
    let υ : State := { τ with
      heap := if τ.heap.shouldCollect then τ.heap.collect (Semantics.roots c.scope start τ)
        else τ.heap }
    have hcharge : (Semantics.charge c.scope start >>= f) σ = f () υ := by
      change EStateM.bind _ _ _ = _
      unfold EStateM.bind Semantics.charge
      dsimp only
      rw [hover]
      rfl
    obtain ⟨events', hentered⟩ := entered_eq c pc start υ events i
    have hfetch : (c.machine pc start υ events).fetch s.bytecode = some i := by
      change (s.bytecode.functions[c.function]?).bind (fun F => F.instrs[pc]?) = _
      rw [hF]
      exact hi
    have hmachine : (c.machine pc start σ events).heap.budget.tick.2 = none := hover
    have hcollected := collected_eq c pc start τ events
    rw [hmachine] at hnext
    dsimp only at hnext
    rw [ticked_eq, hcollected, executeNext_eq, hfetch] at hnext
    dsimp only at hnext
    rw [hentered] at hnext
    rw [hcharge]
    exact h υ events' ⟨⟨_, _, rfl⟩, hnext⟩

/-! ## What comes of an instruction -/

theorem Executes.next_ok {moves : List HostMove} {m : Machine}
    (h : Executes s moves p (.ok none m)) : p.next s = .running m moves := h.next

/-- The instruction goes on at another one. -/
theorem Meets.landed {c' : Ctx} {q : α → Nat} {stack : α → List Value} {a : α} {σ : State}
    (h : Executes s σ.moves p (.ok none (c'.machine (q a) (stack a) σ events))) :
    Meets s n c base (c'.At q stack) (.ok a σ) p :=
  .of_next (.ok ⟨events, h.next_ok⟩)

/-- An exception that is not in its traceback yet is there once its frame has been looked at. -/
theorem unwindFrom_located (code : Bytecode) (m : Machine) (e : Raised) (c : Ctx) (pc : Nat)
    (locals : Array Value) (below : List Frame) :
    unwindFrom code m false e (c.frame pc locals) below =
      unwindFrom code m true (addSite code (c.frame pc locals) e) (c.frame 0 locals) below := by
  unfold unwindFrom
  cases c.blocks <;> rfl

theorem addSite_eq (hF : s.bytecode.functions[c.function]? = some F)
    (hi : F.instrs[pc]? = some i) (locals : Array Value) (e : Raised) :
    addSite s.bytecode (c.frame (pc + 1) locals) e =
      { e with traceback := ⟨c.function, i.span⟩ :: e.traceback } := by
  have hspan : F.spanAt pc = i.span := by rw [Code.spanAt, hi]
  rw [addSite, Frame.site]
  change ({ e with traceback := ⟨c.function,
    (s.bytecode.functions[c.function]?).elim .unknown (·.spanAt pc)⟩ :: e.traceback } : Raised) = _
  rw [hF, Option.elim_some, hspan]

theorem ofAdvance_raised (s : Script) (moves : List HostMove) (e : Raised) (m : Machine) :
    Phase.ofAdvance s moves (.ofResult s.bytecode (.error (.raised e) m)) =
      .ofUnwind moves m (m.unwind s.bytecode e) := by
  rw [Advance.ofResult]
  cases m.unwind s.bytecode e <;> rfl

/-- The instruction fails; an exception gets to know the place of the instruction. -/
theorem Meets.failed (above : List Value) (hF : s.bytecode.functions[c.function]? = some F)
    (hi : F.instrs[pc]? = some i) {act : Sem α} {f : Failure}
    (hact : act σ = .error (.ofFailure f) τ) (hp : Executes s τ.moves p
      (.error f (c.machine (pc + 1) (above ++ base) τ events))) :
    Meets s n c base good (located c.scope i.span act σ) p := by
  have hnext := hp.next
  unfold located
  rw [hact]
  cases f with
  | raised e =>
    refine .of_next (.here ⟨c.machine (pc + 1) (above ++ base) τ events, above,
      c.frame (pc + 1) τ.locals, c.callers, [], events, τ.shows_machine _ _ _ _ _, ?_⟩)
    rw [hnext, ofAdvance_raised, Machine.unwind]
    change Phase.ofUnwind τ.moves _ (unwindFrom s.bytecode _ false e (c.frame (pc + 1) τ.locals)
      c.callers) = _
    rw [unwindFrom_located, addSite_eq hF hi]
    rfl
  | overrun l => exact .of_next (.here ⟨_, _, hnext, rfl, rfl, rfl, rfl, rfl, rfl, rfl⟩)
  | endless => exact .of_next (.here hnext)
  | stuck => exact .of_next (.here hnext)

/-! ## Primitive steps -/

/-- A step of the machine does what a primitive step of an evaluation does. -/
def Mirrors (c : Ctx) (pc : Nat) (stack : List Value) (x : Exec α) (act : Sem α) : Prop :=
  ∀ σ events,
    (∃ a τ events', act σ = .ok a τ ∧ τ.moves = σ.moves ∧
      x (c.machine pc stack σ events) = .ok a (c.machine pc stack τ events')) ∨
    ∃ f τ events', act σ = .error (.ofFailure f) τ ∧ τ.moves = σ.moves ∧
      x (c.machine pc stack σ events) = .error f (c.machine pc stack τ events')

theorem bind_congr {ε ρ : Type} {x y : EStateM ε ρ α} {f : α → EStateM ε ρ β} {m m' : ρ}
    (h : x m = y m') : (x >>= f) m = (y >>= f) m' := by
  change EStateM.bind x f m = EStateM.bind y f m'
  rw [EStateM.bind, EStateM.bind, h]

theorem onHeap_ok {act : Heap.Action α} {a : α} {m : Machine} {heap : Heap}
    (h : act m.heap = .ok a heap) : Machine.onHeap act m = .ok a { m with heap } := by
  unfold Machine.onHeap
  dsimp only
  rw [h]

theorem onHeap_error {act : Heap.Action α} {f : Failure} {m : Machine} {heap : Heap}
    (h : act m.heap = .error f heap) : Machine.onHeap act m = .error f { m with heap } := by
  unfold Machine.onHeap
  dsimp only
  rw [h]

namespace Mirrors

variable {stack : List Value}

theorem onHeap (act : Heap.Action α) :
    Mirrors c pc stack (Machine.onHeap act) (Semantics.onHeap act) := by
  intro σ events
  cases h : act σ.heap with
  | ok a heap =>
    exact .inl ⟨a, { σ with heap }, events, by rw [Semantics.onHeap, h], rfl, onHeap_ok h⟩
  | error f heap =>
    exact .inr ⟨f, { σ with heap }, events, by rw [Semantics.onHeap, h], rfl, onHeap_error h⟩

theorem pure (a : α) : Mirrors c pc stack (Pure.pure a) (Pure.pure a) :=
  fun σ events => .inl ⟨a, σ, events, rfl, rfl, rfl⟩

theorem ofExcept (r : Except Failure α) :
    Mirrors c pc stack (MonadExcept.ofExcept r) (Semantics.ofExcept r) := by
  intro σ events
  cases r with
  | ok a => exact .inl ⟨a, σ, events, rfl, rfl, rfl⟩
  | error e => exact .inr ⟨e, σ, events, rfl, rfl, rfl⟩

theorem examine {x : Exec α} {f : Heap → Except Failure α}
    (h : x = get >>= fun m => MonadExcept.ofExcept (f m.heap)) :
    Mirrors c pc stack x (Semantics.examine f) := by
  intro σ events
  subst h
  exact ofExcept (f σ.heap) σ events

theorem bind {x : Exec α} {act : Sem α} {y : α → Exec β} {f : α → Sem β}
    (h : Mirrors c pc stack x act) (hf : ∀ a, Mirrors c pc stack (y a) (f a)) :
    Mirrors c pc stack (x >>= y) (act >>= f) := by
  intro σ events
  obtain ⟨a, τ, events', hact, hmoves, hx⟩ | ⟨e, τ, events', hact, hmoves, hx⟩ := h σ events
  · rw [bind_ok hact, bind_ok hx, ← hmoves]
    exact hf a τ events'
  · exact .inr ⟨e, τ, events', bind_error hact, hmoves, bind_error hx⟩

/-- What is done may depend on the state. -/
theorem depends {x : Exec α} {act : Sem α} (h : ∀ σ events, ∃ y f,
      x (c.machine pc stack σ events) = y (c.machine pc stack σ events) ∧ act σ = f σ ∧
        Mirrors c pc stack y f) : Mirrors c pc stack x act := by
  intro σ events
  obtain ⟨y, f, hx, hact, h⟩ := h σ events
  rw [hx, hact]
  exact h σ events

end Mirrors

/-- A step that the machine takes in one instruction: `u` is what the instruction leaves of its
operands before it does what can fail. -/
theorem Sim.performs {q : α → Nat} {stack : α → List Value} {u : List Value} {x : Exec α}
    {k : α → Exec Unit} {act : Sem α} (hF : s.bytecode.functions[c.function]? = some F)
    (hi : F.instrs[pc]? = some i)
    (hexec : ∀ σ events, execute s.bytecode i.op (c.machine (pc + 1) start σ events) =
      ((x >>= k) >>= fun _ => Pure.pure none) (c.machine (pc + 1) u σ events))
    (hx : Mirrors c (pc + 1) u x act) (hu : base <:+ u)
    (hk : ∀ a σ events, ∃ events', k a (c.machine (pc + 1) u σ events) =
      .ok () (c.machine (q a) (stack a) σ events')) :
    Sim s n c base pc start (Semantics.perform c.scope i.span start act)
      (c.At q stack) := by
  intro σ₀ events₀
  refine .charge hF hi σ₀ events₀ fun σ events hp => ?_
  rw [hexec] at hp
  obtain ⟨a, τ, events', hact, hmoves, hrun⟩ | ⟨e, τ, events', hact, hmoves, hrun⟩ := hx σ events
  · obtain ⟨events'', hk⟩ := hk a τ events'
    have hbind : (x >>= k) (c.machine (pc + 1) u σ events) =
        .ok () (c.machine (q a) (stack a) τ events'') := (bind_ok hrun).trans hk
    rw [bind_ok hbind, ← hmoves] at hp
    unfold located
    rw [hact]
    exact .landed hp
  · obtain ⟨above, rfl⟩ := hu
    rw [bind_error (bind_error hrun), ← hmoves] at hp
    exact .failed above hF hi hact hp

/-- A step that cannot fail. -/
theorem Sim.counts {c' : Ctx} {q : α → Nat} {stack : α → List Value} {f : Unit → Sem α}
    (hF : s.bytecode.functions[c.function]? = some F) (hi : F.instrs[pc]? = some i)
    (hexec : ∀ σ events, ∃ a τ events', f () σ = .ok a τ ∧ τ.moves = σ.moves ∧
      execute s.bytecode i.op (c.machine (pc + 1) start σ events) =
        .ok none (c'.machine (q a) (stack a) τ events')) :
    Sim s n c base pc start (Semantics.charge c.scope start >>= f) (c'.At q stack) := by
  intro σ₀ events₀
  refine .charge hF hi σ₀ events₀ fun σ events hp => ?_
  obtain ⟨a, τ, events', hf, hmoves, hrun⟩ := hexec σ events
  rw [hrun, ← hmoves] at hp
  rw [hf]
  exact .landed hp

end

end Resumable
