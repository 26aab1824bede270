import Mathlib.Data.Nat.Basic
import Mathlib.Order.Basic
import Resumable.Code.Compile
import Resumable.Proofs.Discipline.Shape

/-!
# What a build leaves behind

Compiling only adds: to the functions, to the global names and to the pool of the code object at
hand. So what is said of the code of a construct is said for every later state of the compiler:
`Builds b Q` says that whenever `b` succeeds, all functions that it has added can be labelled, and
its result has the property `Q` in every state that extends the one it ends in.
-/

namespace Resumable

/-- A pool is a part of another one. -/
structure Pool.Below (p q : Pool) : Prop where
  consts : p.consts.size ≤ q.consts.size
  names : p.names.size ≤ q.names.size
  keywords : ∀ (i : Nat) (ns : List String), p.keywords[i]? = some ns → q.keywords[i]? = some ns

theorem Pool.Below.refl (p : Pool) : p.Below p := ⟨le_rfl, le_rfl, fun _ _ h => h⟩

theorem Pool.Below.trans {p q r : Pool} (h : p.Below q) (h' : q.Below r) : p.Below r :=
  ⟨h.consts.trans h'.consts, h.names.trans h'.names,
    fun i ns hi => h'.keywords i ns (h.keywords i ns hi)⟩

/-- Code can be labelled. -/
def Code.Sound (functions globals : Nat) (c : Code) : Prop :=
  ∃ S, c.Keeps functions globals S ∧ ∀ pc i, c.instrs[pc]? = some i → (S pc).isSome

namespace Compile

/-- A state of the compiler has only grown. -/
structure State.Below (s t : State) : Prop where
  functions : s.functions.size ≤ t.functions.size
  globals : s.globals.length ≤ t.globals.length
  pool : s.pool.Below t.pool

theorem State.Below.refl (s : State) : s.Below s := ⟨le_rfl, le_rfl, .refl _⟩

theorem State.Below.trans {s t u : State} (h : s.Below t) (h' : t.Below u) : s.Below u :=
  ⟨h.functions.trans h'.functions, h.globals.trans h'.globals, h.pool.trans h'.pool⟩

/-- All functions that have been added can be labelled, and the others are as they were. -/
structure State.Grows (s t : State) : Prop extends State.Below s t where
  kept : ∀ i < s.functions.size, t.functions[i]? = s.functions[i]?
  added : ∀ F : State, t.Below F → ∀ i c, s.functions.size ≤ i → t.functions[i]? = some c →
    c.Sound F.functions.size F.globals.length

theorem State.Grows.trans {s t u : State} (h : s.Grows t) (h' : t.Grows u) : s.Grows u where
  toBelow := h.toBelow.trans h'.toBelow
  kept i hi := (h'.kept i (hi.trans_le h.functions)).trans (h.kept i hi)
  added F hF i c hi hc := by
    rcases Nat.lt_or_ge i t.functions.size with ht | ht
    · rw [h'.kept i ht] at hc
      exact h.added F (h'.toBelow.trans hF) i c hi hc
    · exact h'.added F hF i c ht hc

/-- A state that has no more functions than before. -/
theorem State.Grows.of_functions {s t : State} (h : t.functions = s.functions)
    (hg : s.globals.length ≤ t.globals.length) (hp : s.pool.Below t.pool) : s.Grows t where
  toBelow := ⟨by rw [h], hg, hp⟩
  kept i _ := by rw [h]
  added F _ i c hi hc := by
    rw [h] at hc
    obtain ⟨hlt, -⟩ := Array.getElem?_eq_some_iff.mp hc
    omega

theorem State.Grows.refl (s : State) : s.Grows s := .of_functions rfl le_rfl (.refl _)

/-- What a build gives if it succeeds. -/
def Builds {α : Type} (b : Build α) (Q : State → α → Prop) : Prop :=
  ∀ ⦃s a t⦄, b s = .ok (a, t) → s.Grows t ∧ ∀ F, t.Below F → Q F a

namespace Builds

variable {α β : Type} {Q : State → α → Prop} {R : State → β → Prop}

theorem ret {a : α} (h : ∀ F, Q F a) : Builds (pure a) Q := by
  intro s _ t hs
  cases hs
  exact ⟨.refl s, fun F _ => h F⟩

theorem bind {b : Build α} {f : α → Build β} (hb : Builds b Q)
    (hf : ∀ a, Builds (f a) fun F c => Q F a → R F c) : Builds (b >>= f) R := by
  intro s c u hs
  obtain ⟨a, t, hbs, hfs⟩ := exists_of_bind hs
  obtain ⟨hst, hQ⟩ := hb hbs
  obtain ⟨htu, hR⟩ := hf a hfs
  exact ⟨hst.trans htu, fun F hF => hR F hF (hQ F (htu.toBelow.trans hF))⟩

theorem imp {Q' : State → α → Prop} {b : Build α} (hb : Builds b Q) (h : ∀ F a, Q F a → Q' F a) :
    Builds b Q' := fun _ _ _ hs => ⟨(hb hs).1, fun F hF => h F _ ((hb hs).2 F hF)⟩

theorem map {f : α → β} {b : Build α} (hb : Builds b Q) (h : ∀ F a, Q F a → R F (f a)) :
    Builds (f <$> b) R := by
  rw [map_eq_pure_bind]
  exact hb.bind fun a => .ret fun F hQ => h F a hQ

theorem ret_bind {a : α} {f : α → Build β} (h : Builds (f a) R) : Builds (pure a >>= f) R := h

theorem fail {e : SourceError} : Builds (throw e) Q := fun _ _ _ hs => nomatch hs

theorem fail_bind {e : SourceError} {f : α → Build β} : Builds (throw e >>= f) R :=
  fun _ _ _ hs => nomatch hs

end Builds

/-! ## Steps of a build -/

theorem get_builds : Builds get fun F s => s.Below F := by
  intro s a t hs
  cases hs
  exact ⟨.refl s, fun _ hF => hF⟩

theorem at_builds (span : Span) : Builds (at_ span) fun _ _ => True := by
  intro s a t hs
  cases hs
  exact ⟨.of_functions rfl le_rfl (.refl _), fun _ _ => trivial⟩

theorem one_builds (op : Op) : Builds (one op) fun _ i => i.op = op := by
  intro s a t hs
  cases hs
  exact ⟨.refl s, fun _ _ => rfl⟩

theorem pooled_builds {ι : Type} {add : Pool → ι × Pool} {Q : Pool → ι → Prop}
    (hadd : ∀ p, p.Below (add p).2 ∧ ∀ q, (add p).2.Below q → Q q (add p).1) :
    Builds (pooled add) fun F i => Q F.pool i := by
  intro s a t hs
  cases hs
  exact ⟨.of_functions rfl le_rfl (hadd s.pool).1, fun F hF => (hadd s.pool).2 F.pool hF.pool⟩

theorem addConstant_builds (v : Literal) :
    Builds (pooled (·.addConstant v)) fun F i => i < F.pool.consts.size := by
  refine pooled_builds (Q := fun p i => i < p.consts.size) fun p => ?_
  simp only [Pool.addConstant]
  split
  · next i hi =>
    have hlt : i < p.consts.size := by
      split at hi
      · cases hi
      · exact (Array.findIdx?_eq_some_iff_findIdx_eq.mp hi).1
    exact ⟨.refl p, fun q hq => hlt.trans_le hq.consts⟩
  · exact ⟨⟨by simp, le_rfl, fun _ _ h => h⟩, fun q hq =>
      (show p.consts.size < (p.consts.push v).size by simp).trans_le hq.consts⟩

theorem addName_builds (name : String) :
    Builds (pooled (·.addName name)) fun F i => i < F.pool.names.size := by
  refine pooled_builds (Q := fun p i => i < p.names.size) fun p => ?_
  unfold Pool.addName
  split
  · next i hi =>
    exact ⟨.refl p, fun q hq =>
      (Array.findIdx?_eq_some_iff_findIdx_eq.mp hi).1.trans_le hq.names⟩
  · exact ⟨⟨le_rfl, by simp, fun _ _ h => h⟩, fun q hq =>
      (show p.names.size < (p.names.push name).size by simp).trans_le hq.names⟩

theorem addKeywords_builds (names : List String) :
    Builds (pooled (·.addKeywords names)) fun F k =>
      (∀ i ∈ k, i < F.pool.keywords.size) ∧ (F.pool.keywordNames k).length = names.length := by
  refine pooled_builds (Q := fun p k => (∀ i ∈ k, i < p.keywords.size) ∧
    (p.keywordNames k).length = names.length) fun p => ?_
  unfold Pool.addKeywords
  split
  · next h =>
    refine ⟨.refl p, fun q _ => ⟨nofun, ?_⟩⟩
    rw [List.isEmpty_iff.mp h]; rfl
  · refine ⟨⟨le_rfl, le_rfl, fun i ns h => ?_⟩, fun q hq => ?_⟩
    · obtain ⟨hi, -⟩ := Array.getElem?_eq_some_iff.mp h
      rwa [Array.getElem?_push_lt hi, ← Array.getElem?_eq_getElem hi]
    · have hq := hq.keywords p.keywords.size names (by simp)
      refine ⟨fun i hi => ?_, by simp [Pool.keywordNames, hq]⟩
      cases hi
      exact (Array.getElem?_eq_some_iff.mp hq).1

theorem globalSlot_builds (name : String) :
    Builds (globalSlot name) fun F i => i < F.globals.length := by
  intro s a t hs
  rw [globalSlot_eq] at hs
  cases hfind : s.globals.findIdx? (· == name) with
  | some slot =>
    rw [hfind] at hs
    cases hs
    obtain ⟨hlt, -⟩ := List.findIdx?_eq_some_iff_findIdx_eq.mp hfind
    exact ⟨.refl s, fun F hF => hlt.trans_le hF.globals⟩
  | none =>
    rw [hfind] at hs
    cases hs
    refine ⟨.of_functions rfl (by simp) (.refl _), fun F hF => ?_⟩
    have := hF.globals
    simp only [List.length_append, List.length_singleton] at this
    omega

/-! ## Names -/

/-- The number of local slots. -/
def Env.slots (env : Env) : Nat := (env.locals.getD []).length

/-- An instruction that takes `n` operands, leaves `k` of them and goes on behind itself. -/
structure Plain (F : State) (slots n k : Nat) (i : Instr) : Prop where
  pops : i.op.pops F.pool = n
  pushes : i.op.pushes = some k
  inRange : i.op.InRange F.functions.size F.globals.length slots F.pool

/-- The slot of a place is there. -/
def Place.InRange (F : State) (slots : Nat) : Place → Prop
  | .local i => i < slots
  | .global i => i < F.globals.length
  | .builtin _ | .excClass _ => True

theorem place_builds (env : Env) (name : String) :
    Builds (place env name) fun F p => p.InRange F env.slots := by
  have hglobal : Builds (do return Place.global (← globalSlot name)) fun F p =>
      p.InRange F env.slots := (globalSlot_builds name).bind fun i => .ret fun F hi => hi
  unfold place
  split
  · next slot h =>
    refine .ret fun F => ?_
    obtain ⟨names, hn, h⟩ := Option.bind_eq_some_iff.mp h
    obtain ⟨hlt, -⟩ := List.findIdx?_eq_some_iff_findIdx_eq.mp h
    simpa [Place.InRange, Env.slots, hn] using hlt
  · split
    · exact hglobal
    · split
      · exact .ret fun F => trivial
      · split
        · exact .ret fun F => trivial
        · exact hglobal

theorem load_builds (env : Env) (name : String) :
    Builds (load env name) fun F i => Plain F env.slots 0 1 i := by
  refine (place_builds env name).bind fun p => ?_
  cases p <;>
    exact (one_builds _).imp fun F i hi hp =>
      ⟨by rw [hi]; rfl, by rw [hi]; rfl, by rw [hi]; exact hp⟩

theorem store_builds (env : Env) (name : String) :
    Builds (store env name) fun F i => Plain F env.slots 1 0 i := by
  have hstore : ∀ op : Op, (∀ pool, op.pops pool = 1) → op.pushes = some 0 →
      Builds (one op) fun F i => op.InRange F.functions.size F.globals.length env.slots F.pool →
        Plain F env.slots 1 0 i := fun op h₁ h₀ =>
    (one_builds op).imp fun F i hi hp => ⟨by rw [hi, h₁], by rw [hi, h₀], by rw [hi]; exact hp⟩
  refine (place_builds env name).bind fun p => ?_
  cases p with
  | «local» slot => exact hstore _ (fun _ => rfl) rfl
  | global slot => exact hstore _ (fun _ => rfl) rfl
  | builtin b =>
    exact (globalSlot_builds name).bind fun slot =>
      (hstore (.storeGlobal slot) (fun _ => rfl) rfl).imp fun F i h hslot _ => h hslot
  | excClass t =>
    exact (globalSlot_builds name).bind fun slot =>
      (hstore (.storeGlobal slot) (fun _ => rfl) rfl).imp fun F i h hslot _ => h hslot

end Compile

/-! ## What surrounds a statement

The code of a statement relies on its surroundings in three ways: the innermost handler can be
entered, and inside a loop the blocks between the statement and the loop are open, so that `break`
and `continue` can leave them, and the code that they jump to has the shape that is left then.
`Scoped` says so; entering a block or a loop keeps it. -/

/-! ### Blocks -/

/-- The shape outside a block. -/
def Shape.leave : Compile.Block → Shape → Shape
  | .handling, σ => { σ with handled := σ.handled - 1 }
  | _, σ => { σ with blocks := σ.blocks.tail }

/-- The shape outside some blocks, the innermost one first. -/
def Shape.leaveAll (σ : Shape) (bs : List Compile.Block) : Shape :=
  bs.foldl (fun σ b => σ.leave b) σ

namespace Compile

/-- A shape has what a block stands for. -/
def Block.IsOpen : Block → Shape → Prop
  | .handling, σ => 0 < σ.handled
  | _, σ => σ.blocks ≠ []

/-- Some blocks can be left, the innermost one first. -/
def Open (S : Shapes) : List Block → Shape → Prop
  | [], σ => Guarded S 0 σ
  | b :: bs, σ => Guarded S 0 σ ∧ b.IsOpen σ ∧ Open S bs (σ.leave b)

/-- The shape behind a loop, from the one that its body finds. -/
def Loop.exit (loop : Loop) (σ : Shape) : Shape :=
  if loop.isFor then { σ with operands := σ.operands - 1 } else σ

/-- What a jump out of a loop's body needs. -/
structure InLoop (S : Shapes) (env : Env) (loop : Loop) (exit : Option Shape) (σ : Shape) :
    Prop where
  depth : loop.depth ≤ env.blocks.length
  blocks : Open S (blocksInside env loop) σ
  start : S loop.start = some (σ.leaveAll (blocksInside env loop))
  iterator : loop.isFor = true → 0 < (σ.leaveAll (blocksInside env loop)).operands
  exit : exit = some (loop.exit (σ.leaveAll (blocksInside env loop)))
  guarded : Guarded S 0 (loop.exit (σ.leaveAll (blocksInside env loop)))

/-- What the code of a statement needs of its surroundings. -/
structure Scoped (S : Shapes) (env : Env) (exit : Option Shape) (σ : Shape) : Prop where
  guarded : Guarded S 0 σ
  inLoop : ∀ loop, env.loop = some loop → InLoop S env loop exit σ

variable {S : Shapes} {env : Env} {exit : Option Shape} {σ : Shape}

theorem blocksInside_cons {loop : Loop} (h : loop.depth ≤ env.blocks.length) (b : Block) :
    blocksInside { env with blocks := b :: env.blocks } loop = b :: blocksInside env loop := by
  unfold blocksInside
  rw [List.length_cons, Nat.succ_sub h, List.take_succ_cons]

theorem Open.last {bs : List Block} (h : Open S bs σ) : Guarded S 0 (σ.leaveAll bs) := by
  induction bs generalizing σ with
  | nil => exact h
  | cons b bs ih => exact ih h.2.2

theorem Scoped.enter (h : Scoped S env exit σ) {b : Block} {ρ : Shape} (hρ : ρ.leave b = σ)
    (hb : b.IsOpen ρ) (hg : Guarded S 0 ρ) :
    Scoped S { env with blocks := b :: env.blocks } exit ρ where
  guarded := hg
  inLoop loop hl := by
    have h := h.inLoop loop hl
    have hleave : ρ.leaveAll (blocksInside { env with blocks := b :: env.blocks } loop) =
        σ.leaveAll (blocksInside env loop) := by
      rw [blocksInside_cons h.depth, Shape.leaveAll, List.foldl_cons, hρ, Shape.leaveAll]
    exact {
      depth := Nat.le_succ_of_le h.depth
      blocks := by
        rw [blocksInside_cons h.depth]
        exact ⟨hg, hb, by rw [hρ]; exact h.blocks⟩
      start := by rw [hleave]; exact h.start
      iterator := by rw [hleave]; exact h.iterator
      exit := by rw [hleave]; exact h.exit
      guarded := by rw [hleave]; exact h.guarded }

theorem guarded_protected {t : Nat} (ht : S t = some (σ.handling.up 1)) :
    Guarded S 0 (σ.protected_ t) := by
  rintro b rest hb
  obtain ⟨rfl, rfl⟩ : _ = b ∧ _ = rest := List.cons.inj hb
  exact ⟨le_rfl, le_rfl, ht⟩

theorem guarded_handling (hσ : Guarded S 0 σ) : Guarded S 0 σ.handling := fun b rest hb => by
  obtain ⟨ho, hh, hs⟩ := hσ b rest hb
  exact ⟨ho, Nat.le_succ_of_le hh, hs⟩

theorem Scoped.protected_ (h : Scoped S env exit σ) {b : Block} (hb : b ≠ .handling) {t : Nat}
    (ht : S t = some (σ.handling.up 1)) :
    Scoped S { env with blocks := b :: env.blocks } exit (σ.protected_ t) := by
  have hg := guarded_protected ht
  cases b with
  | handling => contradiction
  | tryBody => exact h.enter rfl (List.cons_ne_nil _ _) hg
  | guarded => exact h.enter rfl (List.cons_ne_nil _ _) hg

theorem Scoped.handling (h : Scoped S env exit σ) :
    Scoped S { env with blocks := .handling :: env.blocks } exit σ.handling :=
  h.enter rfl (Nat.succ_pos _) (guarded_handling h.guarded)

/-- The body of a loop can leave it. -/
theorem Scoped.loop (h : Scoped S env exit σ) {loop : Loop}
    (hdepth : loop.depth = env.blocks.length) {ρ : Shape}
    (hρ : ρ = if loop.isFor then σ.up 1 else σ) (hstart : S loop.start = some ρ) :
    Scoped S { env with loop := some loop } (some σ) ρ := by
  have hexit : loop.exit ρ = σ := by
    subst hρ
    unfold Loop.exit
    split <;> rfl
  have hg : Guarded S 0 ρ := by
    subst hρ
    split
    · exact h.guarded.above 1
    · exact h.guarded
  refine ⟨hg, fun l hl => ?_⟩
  obtain rfl : loop = l := Option.some.inj hl
  have hinside : blocksInside { env with loop := some loop } loop = [] := by
    simp [blocksInside, hdepth]
  exact {
    depth := hdepth.le
    blocks := by rw [hinside]; exact hg
    start := by rw [hinside]; exact hstart
    iterator := fun hfor => by rw [hinside, hρ, if_pos hfor]; exact Nat.succ_pos _
    exit := by rw [hinside, ← hexit]; rfl
    guarded := by rw [hinside]; exact hexit ▸ h.guarded }

end Compile

end Resumable
