import Resumable.Proofs.Semantics.Statement
import Resumable.Proofs.Simulation.Instruction

/-!
# Single instructions and primitive steps

Each instruction takes its operands from the top of the stack, and follows one primitive step of an
evaluation that keeps the values below them. An instruction that can fail leaves what it computes in
place of its operands (`Sim.computes`), one that cannot fail leaves what it is said to leave
(`Sim.passes`), and a jump goes on where the value that it looks at says (`Sim.observes`).
-/

namespace Resumable

open Machine Semantics

section
variable {α β γ : Type} {s : Script} {n : Nat} {c c' : Ctx} {F : Code} {pc : Nat}
  {base kept start values : List Value} {span : Span} {i : Instr} {a b v : Value} {σ : State}
  {events : Option (List Event)}

/-- A run comes to an instruction, with some operands. -/
abbrev Ctx.To (c : Ctx) (pc : Nat) (stack : List Value) : Unit → State → Phase → Prop :=
  c.At (fun _ => pc) fun _ => stack

/-- The operands on top are taken, the topmost one last. -/
theorem popMany_eq {k : Nat} (hk : values.length = k) :
    popMany k (c.machine pc (values.reverse ++ kept) σ events) =
      .ok values (c.machine pc kept σ events) := by
  have hpop : popMany k (c.machine pc (values.reverse ++ kept) σ events) =
    .ok ((values.reverse ++ kept).take k).reverse
      (c.machine pc ((values.reverse ++ kept).drop k) σ events) := rfl
  have hlength : values.reverse.length = k := by rw [List.length_reverse, hk]
  rw [hpop, List.take_left' hlength, List.drop_left' hlength, List.reverse_reverse]

theorem pool_eq (hF : s.bytecode.functions[c.function]? = some F) (pc : Nat)
    (start : List Value) (σ : State) (events : Option (List Event)) :
    (c.machine pc start σ events).pool s.bytecode = F.pool := by
  change (s.bytecode.functions[c.function]?).elim .empty (·.pool) = _
  rw [hF]
  rfl

/-- An action on the heap that depends on the heap. -/
theorem Mirrors.onHeapOf (f : Heap → Heap.Action α) :
    Mirrors c pc start (get >>= fun m => Machine.onHeap (f m.heap))
      (fun σ => Semantics.onHeap (f σ.heap) σ) :=
  fun σ events => Mirrors.onHeap (f σ.heap) σ events

theorem onHeap_bind_pure (act : Heap.Action α) (b : β) (f : β → Exec γ) (m : Machine) :
    (Machine.onHeap act >>= fun _ => f b) m =
      (Machine.onHeap (act >>= fun _ => pure b) >>= f) m := by
  have hbind : (act >>= fun _ => pure b) m.heap = EStateM.bind act (fun _ => pure b) m.heap := rfl
  change EStateM.bind _ _ m = EStateM.bind _ _ m
  unfold EStateM.bind Machine.onHeap
  dsimp only
  rw [hbind]
  unfold EStateM.bind
  cases act m.heap <;> rfl

variable (hF : s.bytecode.functions[c.function]? = some F)
include hF

/-- An instruction that cannot fail and depends on nothing. -/
theorem Sim.passes {target : Nat} {stack : List Value} (hi : F.instrs[pc]? = some i)
    (h : ∀ σ events, ∃ events', execute s.bytecode i.op (c.machine (pc + 1) start σ events) =
      .ok none (c'.machine target stack σ events')) :
    Sim s n c base pc start (charge c.scope start) (c'.To target stack) := by
  rw [← bind_pure (charge c.scope start)]
  exact .counts hF hi fun σ events =>
    let ⟨events', h⟩ := h σ events
    ⟨(), σ, events', rfl, rfl, h⟩

/-- An instruction that cannot fail, whose result depends on the heap. -/
theorem Sim.observes {q : α → Nat} {stack : α → List Value} {f : Heap → α}
    (hi : F.instrs[pc]? = some i)
    (h : ∀ σ events, execute s.bytecode i.op (c.machine (pc + 1) start σ events) =
      .ok none (c.machine (q (f σ.heap)) (stack (f σ.heap)) σ events)) :
    Sim s n c base pc start (observe c.scope start f) (c.At q stack) :=
  .counts hF hi fun σ events => ⟨f σ.heap, σ, events, rfl, rfl, h σ events⟩

/-- An instruction that pushes what it computes in place of its operands. -/
theorem Sim.computes {x : Exec α} {act : Sem α} {g : α → Value}
    (hi : F.instrs[pc]? = some i) (hx : Mirrors c (pc + 1) kept x act)
    (hexec : ∀ σ events, execute s.bytecode i.op (c.machine (pc + 1) start σ events) =
      ((x >>= fun a => push (g a)) >>= fun _ => pure none)
        (c.machine (pc + 1) kept σ events)) :
    Sim s n c kept pc start (perform c.scope i.span start act)
      (c.At (fun _ => pc + 1) fun a => g a :: kept) :=
  .performs hF hi hexec hx (List.suffix_refl kept) fun _ _ events => ⟨events, rfl⟩

/-! ## Loads, and operands that change places -/

theorem Sim.loadConst {k : Nat} {l : Literal} (hk : F.pool.constant k = l)
    (hi : F.instrs[pc]? = some ⟨.loadConst k, span⟩) :
    Sim s n c base pc kept (charge c.scope kept) (c.To (pc + 1) (.ofLiteral l :: kept)) := by
  refine .passes hF hi fun σ events => ⟨events, ?_⟩
  rw [← hk, ← pool_eq hF (pc + 1) kept σ events]
  rfl

theorem Sim.loadExcClass {t : ExceptionType} (hi : F.instrs[pc]? = some ⟨.loadExcClass t, span⟩) :
    Sim s n c base pc kept (charge c.scope kept) (c.To (pc + 1) (.excClass t :: kept)) :=
  .passes hF hi fun _ events => ⟨events, rfl⟩

theorem Sim.importModule {m : Module} (hi : F.instrs[pc]? = some ⟨.importModule m, span⟩) :
    Sim s n c base pc kept (charge c.scope kept) (c.To (pc + 1) (.module m :: kept)) :=
  .passes hF hi fun _ events => ⟨events, rfl⟩

theorem Sim.pop (hi : F.instrs[pc]? = some ⟨.pop, span⟩) :
    Sim s n c base pc (v :: kept) (charge c.scope (v :: kept)) (c.To (pc + 1) kept) :=
  .passes hF hi fun _ events => ⟨events, rfl⟩

/-- The topmost operand is dropped, if there is one. -/
theorem Sim.drop (hi : F.instrs[pc]? = some ⟨.pop, span⟩) :
    Sim s n c base pc kept (charge c.scope kept) (c.To (pc + 1) kept.tail) := by
  cases kept with
  | nil => exact .passes hF hi fun _ events => ⟨events, rfl⟩
  | cons v kept => exact .pop hF hi

theorem Sim.dup (hi : F.instrs[pc]? = some ⟨.dup, span⟩) :
    Sim s n c base pc (v :: kept) (charge c.scope (v :: kept)) (c.To (pc + 1) (v :: v :: kept)) :=
  .passes hF hi fun _ events => ⟨events, rfl⟩

theorem Sim.dup2 (hi : F.instrs[pc]? = some ⟨.dup2, span⟩) :
    Sim s n c base pc (b :: a :: kept) (charge c.scope (b :: a :: kept))
      (c.To (pc + 1) (b :: a :: b :: a :: kept)) :=
  .passes hF hi fun _ events => ⟨events, rfl⟩

theorem Sim.rot2 (hi : F.instrs[pc]? = some ⟨.rot2, span⟩) :
    Sim s n c base pc (b :: a :: kept) (charge c.scope (b :: a :: kept))
      (c.To (pc + 1) (a :: b :: kept)) :=
  .passes hF hi fun _ events => ⟨events, rfl⟩

theorem Sim.rot3 (hi : F.instrs[pc]? = some ⟨.rot3, span⟩) :
    Sim s n c base pc (v :: b :: a :: kept) (charge c.scope (v :: b :: a :: kept))
      (c.To (pc + 1) (b :: a :: v :: kept)) :=
  .passes hF hi fun _ events => ⟨events, rfl⟩

/-! ## Operators -/

theorem Sim.binary {op : Operator} (hi : F.instrs[pc]? = some ⟨.binary op, span⟩) :
    Sim s n c kept pc (b :: a :: kept)
      (perform c.scope span (b :: a :: kept) (Semantics.onHeap (Heap.binary op a b)))
      (c.At (fun _ => pc + 1) fun v => v :: kept) :=
  .computes hF hi (.onHeap _) fun _ _ => rfl

theorem Sim.inplace {op : Operator} (hi : F.instrs[pc]? = some ⟨.inplace op, span⟩) :
    Sim s n c kept pc (b :: a :: kept)
      (perform c.scope span (b :: a :: kept) (Semantics.onHeap (Heap.inplace op a b)))
      (c.At (fun _ => pc + 1) fun v => v :: kept) :=
  .computes hF hi (.onHeap _) fun _ _ => rfl

theorem Sim.comparison {op : Comparator} (hi : F.instrs[pc]? = some ⟨.compare op, span⟩) :
    Sim s n c kept pc (b :: a :: kept)
      (perform c.scope span (b :: a :: kept) (Semantics.onHeap (Heap.comparison op a b)))
      (c.At (fun _ => pc + 1) fun r => .bool r :: kept) :=
  .computes hF hi (.onHeap _) fun _ _ => rfl

theorem Sim.not (hi : F.instrs[pc]? = some ⟨.not, span⟩) :
    Sim s n c base pc (v :: kept) (observe c.scope (v :: kept) fun h => .bool (!h.isTruthy v))
      (c.At (fun _ => pc + 1) fun v => v :: kept) :=
  .observes hF hi fun _ _ => rfl

theorem Sim.neg (hi : F.instrs[pc]? = some ⟨.neg, span⟩) :
    Sim s n c kept pc (v :: kept)
      (perform c.scope span (v :: kept) (Semantics.onHeap (Heap.negate v)))
      (c.At (fun _ => pc + 1) fun v => v :: kept) :=
  .computes hF hi (.onHeap _) fun _ _ => rfl

theorem Sim.pos (hi : F.instrs[pc]? = some ⟨.pos, span⟩) :
    Sim s n c kept pc (v :: kept)
      (perform c.scope span (v :: kept) (Semantics.onHeap (Heap.positive v)))
      (c.At (fun _ => pc + 1) fun v => v :: kept) :=
  .computes hF hi (.onHeap _) fun _ _ => rfl

theorem Sim.subscript (hi : F.instrs[pc]? = some ⟨.subscript, span⟩) :
    Sim s n c kept pc (b :: a :: kept)
      (perform c.scope span (b :: a :: kept) (Semantics.onHeap (Index.get a b)))
      (c.At (fun _ => pc + 1) fun v => v :: kept) :=
  .computes hF hi (.onHeap _) fun _ _ => rfl

theorem Sim.storeSubscript (hi : F.instrs[pc]? = some ⟨.storeSubscript, span⟩) :
    Sim s n c kept pc (b :: a :: v :: kept)
      (perform c.scope span (b :: a :: v :: kept) (Semantics.onHeap (Index.set a b v)))
      (c.To (pc + 1) kept) :=
  .performs (x := Machine.onHeap (Index.set a b v)) (k := pure) (u := kept) hF hi
    (fun _ _ => by rw [bind_pure]; rfl) (.onHeap _) (List.suffix_refl kept)
    fun _ _ events => ⟨events, rfl⟩

omit hF in
theorem execute_checkExcMatch : execute s.bytecode .checkExcMatch
    (c.machine pc (b :: a :: kept) σ events) =
      ((match Machine.matchesException a b with
        | .ok answer => push (.bool answer)
        | .error e => throw e) >>= fun _ => pure none) (c.machine pc kept σ events) := rfl

theorem Sim.checkExcMatch (hi : F.instrs[pc]? = some ⟨.checkExcMatch, span⟩) :
    Sim s n c kept pc (b :: a :: kept)
      (perform c.scope span (b :: a :: kept) (Semantics.ofExcept (Machine.matchesException a b)))
      (c.At (fun _ => pc + 1) fun r => .bool r :: kept) := by
  refine .computes hF hi (.ofExcept _) fun σ events => ?_
  rw [execute_checkExcMatch]
  cases Machine.matchesException a b <;> rfl

/-! ## Displays -/

theorem Sim.buildTuple {k : Nat} (hk : values.length = k)
    (hi : F.instrs[pc]? = some ⟨.buildTuple k, span⟩) :
    Sim s n c base pc (values.reverse ++ kept) (charge c.scope (values.reverse ++ kept))
      (c.To (pc + 1) (.tuple values :: kept)) := by
  refine .passes hF hi fun σ events => ⟨events, ?_⟩
  change ((popMany k >>= _) >>= _) _ = _
  rw [bind_assoc, bind_ok (popMany_eq hk)]
  rfl

/-- Two tuples become one. -/
theorem Sim.addTuples {items more : List Value} (hi : F.instrs[pc]? = some ⟨.binary .add, span⟩) :
    Sim s n c base pc (.tuple more :: .tuple items :: kept)
      (charge c.scope (.tuple more :: .tuple items :: kept))
      (c.To (pc + 1) (.tuple (items ++ more) :: kept)) :=
  .passes hF hi fun _ events => ⟨events, rfl⟩

theorem Sim.makeFunction {f k : Nat} (hk : values.length = k)
    (hi : F.instrs[pc]? = some ⟨.makeFunction f k, span⟩) :
    Sim s n c base pc (values.reverse ++ kept) (charge c.scope (values.reverse ++ kept))
      (c.To (pc + 1) (.function f values :: kept)) := by
  refine .passes hF hi fun σ events => ⟨events, ?_⟩
  change ((popMany k >>= _) >>= _) _ = _
  rw [bind_assoc, bind_ok (popMany_eq hk)]
  rfl

theorem Sim.buildList {k : Nat} (hk : values.length = k)
    (hi : F.instrs[pc]? = some ⟨.buildList k, span⟩) :
    Sim s n c kept pc (values.reverse ++ kept)
      (perform c.scope span (values.reverse ++ kept)
        (Semantics.onHeap (Heap.allocList values.toArray)))
      (c.At (fun _ => pc + 1) fun v => v :: kept) := by
  refine .computes hF hi (.onHeap _) fun σ events => ?_
  change ((popMany k >>= _) >>= _) _ = _
  rw [bind_assoc, bind_ok (popMany_eq hk)]

theorem Sim.buildDict {k : Nat} (hk : values.length = 2 * k)
    (hi : F.instrs[pc]? = some ⟨.buildDict k, span⟩) :
    Sim s n c kept pc (values.reverse ++ kept)
      (perform c.scope span (values.reverse ++ kept)
        (Semantics.onHeap do Heap.alloc (.dict (← Machine.dictOf .empty values))))
      (c.At (fun _ => pc + 1) fun v => v :: kept) := by
  refine .computes hF hi (.onHeap _) fun σ events => ?_
  change ((popMany (2 * k) >>= _) >>= _) _ = _
  rw [bind_assoc, bind_ok (popMany_eq hk)]

omit hF in
theorem not_isCatchable_checkResult {b : Budget} {bytes : Nat} {e : LimitError}
    (h : b.checkResult bytes = .error e) : e.isCatchable = false := by
  unfold Budget.checkResult at h
  split at h
  · cases h; rfl
  · split at h
    · cases h
    · cases hm : b.memoryAfter bytes with
      | ok used => rw [hm] at h; cases h
      | error e' =>
        rw [hm] at h
        cases h
        unfold Budget.memoryAfter at hm
        dsimp only at hm
        split at hm
        · split at hm <;> cases hm
          rfl
        · cases hm

omit hF in
/-- The text of a formatted string fails with no exception that a place could be added to. -/
theorem located_joined (c : Scope) (span : Span) (values : List Value) :
    located c span (Setting.joined values) = Setting.joined values := by
  funext σ
  have hcheck : ∀ bytes (v : Value),
      (Heap.checkResult bytes >>= fun _ => pure v : Heap.Action Value) σ.heap =
        match σ.heap.budget.checkResult bytes with
        | .ok _ => .ok v σ.heap
        | .error e => .error (.ofLimit e) σ.heap := by
    intro bytes v
    change EStateM.bind (Heap.withinLimit (σ.heap.budget.checkResult bytes)) _ σ.heap = _
    cases σ.heap.budget.checkResult bytes <;> rfl
  unfold located Setting.joined Semantics.onHeap
  dsimp only
  rw [hcheck]
  cases h : σ.heap.budget.checkResult _ with
  | ok => rfl
  | error e =>
    dsimp only
    rw [ofLimit_of_not_catchable (not_isCatchable_checkResult h)]
    rfl

theorem Sim.buildString {k : Nat} (hk : values.length = k)
    (hi : F.instrs[pc]? = some ⟨.buildString k, span⟩) :
    Sim s n c kept pc (values.reverse ++ kept)
      (charge c.scope (values.reverse ++ kept) >>= fun _ => Setting.joined values)
      (c.At (fun _ => pc + 1) fun v => v :: kept) := by
  rw [← located_joined c.scope span]
  let text (values : List Value) (h : Heap) := String.join (values.map h.text)
  refine .computes hF hi (g := id) (.onHeapOf fun h => do
    Heap.checkResult (Text.utf8Size (text values h))
    return Value.str (text values h)) fun σ events => ?_
  change ((popMany k >>= _) >>= _) _ = _
  rw [bind_assoc, bind_ok (popMany_eq hk)]
  refine bind_congr ?_
  rw [get_bind, bind_assoc, get_bind]
  exact onHeap_bind_pure _ _ push _

omit hF in
theorem spec_eq (spec : Option String) :
    (match (spec.map Literal.string : Option Literal) with
      | some (.string spec) => spec
      | _ => "") = spec.getD "" := by
  cases spec <;> rfl

omit hF in
theorem execute_formatValue (conversion : Conversion) (k : Option Nat) :
    execute s.bytecode (.formatValue conversion k) (c.machine pc (v :: kept) σ events) =
      ((Machine.onHeap (Heap.format (Setting.converted σ.heap v conversion)
        (match k.map ((c.machine pc kept σ events).pool s.bytecode).constant with
        | some (.string spec) => spec
        | _ => "")) >>= fun text => push (.str text)) >>= fun _ => pure none)
        (c.machine pc kept σ events) := by
  cases conversion <;> rfl

theorem Sim.formatValue {conversion : Conversion} {spec : Option String} {k : Option Nat}
    (hk : (k.map F.pool.constant) = spec.map .string)
    (hi : F.instrs[pc]? = some ⟨.formatValue conversion k, span⟩) :
    Sim s n c kept pc (v :: kept)
      (perform c.scope span (v :: kept) (Setting.formatted v conversion spec))
      (c.At (fun _ => pc + 1) fun text => .str text :: kept) := by
  have hformatted : Mirrors c (pc + 1) kept
      (get >>= fun m =>
        Machine.onHeap (Heap.format (Setting.converted m.heap v conversion) (spec.getD "")))
      (Setting.formatted v conversion spec) :=
    .onHeapOf fun h => Heap.format (Setting.converted h v conversion) (spec.getD "")
  refine .computes hF hi hformatted fun σ events => ?_
  rw [execute_formatValue, pool_eq hF, hk, spec_eq]
  exact bind_congr (bind_congr rfl)

omit hF in
theorem execute_buildSlice {start stop step : Value} :
    execute s.bytecode .buildSlice (c.machine pc (step :: stop :: start :: kept) σ events) =
      ((sliceBound start >>= fun a => sliceBound stop >>= fun b => sliceBound step >>= fun d =>
        push (.slice a b d)) >>= fun _ => pure none) (c.machine pc kept σ events) := by
  change (([start, stop, step].mapM sliceBound >>= _) >>= _ : Exec (Option Exit))
    (c.machine pc kept σ events) = _
  simp only [List.mapM_cons, List.mapM_nil, bind_assoc, pure_bind]

theorem Sim.buildSlice {start stop step : Value}
    (hi : F.instrs[pc]? = some ⟨.buildSlice, span⟩) :
    Sim s n c kept pc (step :: stop :: start :: kept)
      (perform c.scope span (step :: stop :: start :: kept)
        (Semantics.ofExcept (Setting.sliceOf start stop step)))
      (c.At (fun _ => pc + 1) fun v => v :: kept) := by
  refine .computes hF hi (g := id) (.ofExcept _) fun σ events => ?_
  have hbound : ∀ v, sliceBound v = MonadExcept.ofExcept (Setting.bound v) := by
    intro v
    unfold sliceBound Setting.bound
    cases v <;> rfl
  rw [execute_buildSlice, hbound, hbound, hbound]
  unfold Setting.sliceOf
  cases Setting.bound start with
  | error e => rfl
  | ok a =>
    cases Setting.bound stop with
    | error e => rfl
    | ok b => cases Setting.bound step <;> rfl

omit hF in
theorem spread_eq (v : Value) (m : Machine) : spread v m =
    (Value.tuple <$> (MonadExcept.ofExcept (Setting.spread m.heap v) : Exec (List Value))) m := by
  cases v with
  | ref id =>
    unfold spread Setting.spread
    dsimp only
    rw [get_bind]
    cases m.heap.items? (.ref id) <;> rfl
  | _ => rfl

theorem Sim.toTuple (hi : F.instrs[pc]? = some ⟨.toTuple, span⟩) :
    Sim s n c kept pc (v :: kept)
      (perform c.scope span (v :: kept) (examine (Setting.spread · v)))
      (c.At (fun _ => pc + 1) fun items => .tuple items :: kept) := by
  refine .computes hF hi (.examine rfl) fun σ events => ?_
  have hexec : execute s.bytecode .toTuple (c.machine (pc + 1) (v :: kept) σ events) =
      ((spread v >>= push) >>= fun _ => pure none) (c.machine (pc + 1) kept σ events) := rfl
  rw [hexec]
  refine bind_congr ((bind_congr (spread_eq v _)).trans ?_)
  rw [bind_map_left]
  rfl

theorem Sim.unpackSequence {k : Nat} (hi : F.instrs[pc]? = some ⟨.unpackSequence k, span⟩) :
    Sim s n c kept pc (v :: kept)
      (perform c.scope span (v :: kept) (Semantics.onHeap (Index.unpack v k)))
      (c.At (fun _ => pc + 1) fun items => items ++ kept) :=
  .performs (x := Machine.onHeap (Index.unpack v k)) (u := kept)
    (k := fun items => modify fun m => { m with stack := items ++ m.stack }) hF hi
    (fun _ _ => rfl) (.onHeap _) (List.suffix_refl kept) fun _ _ events => ⟨events, rfl⟩

/-! ## Jumps -/

theorem Sim.jump {t : Nat} (hi : F.instrs[pc]? = some ⟨.jump t, span⟩) :
    Sim s n c base pc kept (charge c.scope kept) (c.To t kept) :=
  .passes hF hi fun _ events => ⟨events, rfl⟩

omit hF in
theorem popAndJumpIf_eq (wanted : Bool) (t : Nat) (σ : State) (events : Option (List Event)) :
    popAndJumpIf wanted t (c.machine pc (v :: kept) σ events) =
      .ok () (c.machine (if σ.heap.isTruthy v == wanted then t else pc) kept σ events) := by
  change (if σ.heap.isTruthy v == wanted then Machine.jump t else pure ())
    (c.machine pc kept σ events) = _
  split <;> rfl

omit hF in
theorem jumpIfOrPop_eq (wanted : Bool) (t : Nat) (σ : State) (events : Option (List Event)) :
    jumpIfOrPop wanted t (c.machine pc (v :: kept) σ events) =
      .ok () (c.machine (if σ.heap.isTruthy v == wanted then t else pc)
        (if σ.heap.isTruthy v == wanted then v :: kept else kept) σ events) := by
  change (if σ.heap.isTruthy v == wanted then Machine.jump t else Machine.pop >>= fun _ => pure ())
    (c.machine pc (v :: kept) σ events) = _
  split <;> rfl

theorem Sim.jumpIf (wanted : Bool) {t : Nat}
    (hop : i.op = if wanted then .jumpIfTrue t else .jumpIfFalse t)
    (hi : F.instrs[pc]? = some i) :
    Sim s n c base pc (v :: kept) (observe c.scope (v :: kept) (·.isTruthy v))
      (c.At (fun b => if b == wanted then t else pc + 1) fun _ => kept) := by
  refine .observes hF hi fun σ events => ?_
  have hexec : execute s.bytecode i.op = (popAndJumpIf wanted t >>= fun _ => pure none) := by
    rw [hop]
    cases wanted <;> rfl
  rw [hexec, bind_ok (popAndJumpIf_eq wanted t σ events)]
  rfl

theorem Sim.jumpIfOrPop (wanted : Bool) {t : Nat}
    (hop : i.op = if wanted then .jumpIfTrueOrPop t else .jumpIfFalseOrPop t)
    (hi : F.instrs[pc]? = some i) :
    Sim s n c base pc (v :: kept) (observe c.scope (v :: kept) (·.isTruthy v))
      (c.At (fun b => if b == wanted then t else pc + 1)
        fun b => if b == wanted then v :: kept else kept) := by
  refine .observes hF hi fun σ events => ?_
  have hexec : execute s.bytecode i.op = (Machine.jumpIfOrPop wanted t >>= fun _ => pure none) := by
    rw [hop]
    cases wanted <;> rfl
  rw [hexec, bind_ok (jumpIfOrPop_eq wanted t σ events)]
  rfl

/-- A jump that looks at the truth of a comparison. -/
theorem Sim.jumpIfBool (wanted : Bool) {t : Nat} {r : Bool}
    (hop : i.op = if wanted then .jumpIfTrue t else .jumpIfFalse t)
    (hi : F.instrs[pc]? = some i) :
    Sim s n c base pc (.bool r :: kept) (charge c.scope (.bool r :: kept))
      (c.To (if r == wanted then t else pc + 1) kept) := by
  refine .passes hF hi fun σ events => ⟨events, ?_⟩
  have hexec : execute s.bytecode i.op = (popAndJumpIf wanted t >>= fun _ => pure none) := by
    rw [hop]
    cases wanted <;> rfl
  rw [hexec, bind_ok (popAndJumpIf_eq wanted t σ events)]
  rfl

/-- The same where the truth stays on the stack when the jump is taken. -/
theorem Sim.jumpIfBoolOrPop (wanted : Bool) {t : Nat} {r : Bool}
    (hop : i.op = if wanted then .jumpIfTrueOrPop t else .jumpIfFalseOrPop t)
    (hi : F.instrs[pc]? = some i) :
    Sim s n c base pc (.bool r :: kept) (charge c.scope (.bool r :: kept))
      (c.To (if r == wanted then t else pc + 1)
        (if r == wanted then .bool r :: kept else kept)) := by
  refine .passes hF hi fun σ events => ⟨events, ?_⟩
  have hexec : execute s.bytecode i.op = (Machine.jumpIfOrPop wanted t >>= fun _ => pure none) := by
    rw [hop]
    cases wanted <;> rfl
  rw [hexec, bind_ok (jumpIfOrPop_eq wanted t σ events)]
  rfl

/-! ## Iteration -/

theorem Sim.getIter (hi : F.instrs[pc]? = some ⟨.getIter, span⟩) :
    Sim s n c kept pc (v :: kept)
      (perform c.scope span (v :: kept) (Semantics.onHeap (Heap.iterate v)))
      (c.At (fun _ => pc + 1) fun v => v :: kept) :=
  .computes hF hi (.onHeap _) fun _ _ => rfl

omit hF in
theorem Mirrors.nextItem (v : Value) : Mirrors c pc (v :: kept) Machine.nextItem (nextOf v) := by
  intro σ events
  cases v with
  | ref id => exact onHeap (Heap.next id) σ events
  | _ => exact pure none σ events

theorem Sim.forIter {t : Nat} (hi : F.instrs[pc]? = some ⟨.forIter t, span⟩) :
    Sim s n c kept pc (v :: kept) (perform c.scope span (v :: kept) (nextOf v))
      (c.At (fun o => if o.isSome then pc + 1 else t)
        fun o => o.elim kept fun item => item :: v :: kept) := by
  refine .performs hF hi (fun σ events => rfl) (.nextItem v) (List.suffix_cons v kept)
    fun o σ events => ?_
  cases o <;> exact ⟨events, rfl⟩

end

end Resumable
