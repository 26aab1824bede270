import Mathlib.Tactic.Choose
import Resumable.Proofs.Discipline.Run
import Resumable.Proofs.Discipline.Statement

/-!
# Compiled programs

All code that `compile` gives can be labelled (`compile_labelled`). So everything that its
instructions refer to is there, and all machines that its runs come by have the shapes that the
labels say, whatever the host answers (`compile_disciplined`).
-/

namespace Resumable

/-! ## Code -/

/-- Everything that the instructions of a program refer to is there. -/
structure Bytecode.WellFormed (code : Bytecode) : Prop where
  targets : ∀ c ∈ code.functions, ∀ i ∈ c.instrs, ∀ t ∈ i.op.targets, t < c.instrs.size
  inRange : ∀ c ∈ code.functions, ∀ i ∈ c.instrs,
    i.op.InRange code.functions.size code.globals.length c.locals.length c.pool

theorem Code.Keeps.lt_size {functions globals : Nat} {c : Code} {S : Shapes}
    (h : c.Keeps functions globals S) {pc : Nat} {σ : Shape} (hpc : S pc = some σ) :
    pc < c.instrs.size := by
  obtain ⟨i, hi, -⟩ := h.keeps pc σ hpc
  exact (Array.getElem?_eq_some_iff.mp hi).1

theorem Code.Keeps.target_lt_size {functions globals : Nat} {c : Code} {S : Shapes}
    (h : c.Keeps functions globals S) {pc t : Nat} {σ : Shape} {op : Op}
    (hop : op.Fits c.pool S pc σ) (ht : t ∈ op.targets) : t < c.instrs.size := by
  cases hop with
  | plain hk _ => rw [Op.targets_eq_nil hk] at ht; cases ht
  | jump hS => cases List.mem_singleton.mp ht; exact h.lt_size hS
  | jumpIfFalse _ hS => cases List.mem_singleton.mp ht; exact h.lt_size hS
  | jumpIfTrue _ hS => cases List.mem_singleton.mp ht; exact h.lt_size hS
  | jumpIfFalseOrPop _ hS => cases List.mem_singleton.mp ht; exact h.lt_size hS
  | jumpIfTrueOrPop _ hS => cases List.mem_singleton.mp ht; exact h.lt_size hS
  | forIter _ hS => cases List.mem_singleton.mp ht; exact h.lt_size hS
  | setupExcept hnext =>
    -- the handler has a label because the instruction behind relies on it
    cases List.mem_singleton.mp ht
    obtain ⟨_, -, hkeeps⟩ := h.keeps _ _ hnext
    exact h.lt_size (hkeeps.guarded _ _ rfl).2.2
  | «return» | popBlock | popExcept | raise | reraise => cases ht

/-- Every instruction of a labelled program keeps to the labels of its code object. -/
theorem Bytecode.Labelled.exists_keeps {code : Bytecode} {labels : Nat → Shapes}
    (h : code.Labelled labels) : ∀ c ∈ code.functions, ∀ i ∈ c.instrs, ∃ f pc σ,
      c.Keeps code.functions.size code.globals.length (labels f) ∧
        i.Keeps code.functions.size code.globals.length c.locals.length c.pool (labels f) pc σ ∧
        labels f pc = some σ := by
  intro c hc i hi
  obtain ⟨f, hf⟩ := Array.getElem?_of_mem hc
  obtain ⟨pc, hpc⟩ := Array.getElem?_of_mem hi
  obtain ⟨σ, hσ⟩ := Option.isSome_iff_exists.mp (h.all f c pc i hf hpc)
  obtain ⟨j, hj, hk⟩ := (h.keeps f c hf).keeps pc σ hσ
  obtain rfl : j = i := Option.some.inj (hj.symm.trans hpc)
  exact ⟨f, pc, σ, h.keeps f c hf, hk, hσ⟩

theorem Bytecode.Labelled.wellFormed {code : Bytecode} {labels : Nat → Shapes}
    (h : code.Labelled labels) : code.WellFormed := by
  constructor
  · intro c hc i hi t ht
    obtain ⟨_, _, _, hc, hi, -⟩ := h.exists_keeps c hc i hi
    exact hc.target_lt_size hi.fits ht
  · intro c hc i hi
    obtain ⟨_, _, _, -, hi, -⟩ := h.exists_keeps c hc i hi
    exact hi.inRange

/-! ### Numbers in instructions -/

/-- The entries of tables that an instruction names. -/
def Op.indices : Op → List Nat
  | .loadConst i | .loadLocal i | .storeLocal i | .loadGlobal i | .storeGlobal i => [i]
  | .getAttr i | .makeFunction i _ => [i]
  | .formatValue _ spec => spec.toList
  | .call _ kws | .callVar kws => kws.toList
  | .callMethod i _ kws | .callMethodVar i kws => i :: kws.toList
  | _ => []

/-- The numbers of operands that an instruction names. -/
def Op.counts : Op → List Nat
  | .buildList n | .buildTuple n | .buildDict n | .buildString n | .unpackSequence n => [n]
  | .makeFunction _ n | .call n _ | .callMethod _ n _ => [n]
  | _ => []

/-- No table of a program has more entries than 32 bits can tell apart, and nowhere do so many
operands stand above the base of a frame. -/
structure Bytecode.Narrow (code : Bytecode) (labels : Nat → Shapes) : Prop where
  functions : code.functions.size ≤ UInt32.size
  globals : code.globals.length ≤ UInt32.size
  instrs : ∀ c ∈ code.functions, c.instrs.size ≤ UInt32.size
  locals : ∀ c ∈ code.functions, c.locals.length ≤ UInt32.size
  consts : ∀ c ∈ code.functions, c.pool.consts.size ≤ UInt32.size
  names : ∀ c ∈ code.functions, c.pool.names.size ≤ UInt32.size
  keywords : ∀ c ∈ code.functions, c.pool.keywords.size ≤ UInt32.size
  operands : ∀ f pc σ, labels f pc = some σ → σ.operands < UInt32.size

theorem Op.InRange.index_lt {functions globals locals bound : Nat} {pool : Pool} {op : Op}
    (h : op.InRange functions globals locals pool) (hfunctions : functions ≤ bound)
    (hglobals : globals ≤ bound) (hlocals : locals ≤ bound) (hconsts : pool.consts.size ≤ bound)
    (hnames : pool.names.size ≤ bound) (hkeywords : pool.keywords.size ≤ bound) :
    ∀ i ∈ op.indices, i < bound := by
  intro i hi
  cases op <;> simp only [indices, InRange, List.mem_cons, List.not_mem_nil, or_false,
    Option.mem_toList] at h hi
  case formatValue => exact (h i hi).trans_le hconsts
  case call | callVar => exact (h i hi).trans_le hkeywords
  case callMethod | callMethodVar =>
    rcases hi with rfl | hi
    · exact h.1.trans_le hnames
    · exact (h.2 i hi).trans_le hkeywords
  all_goals omega

/-- So many operands stand before the instruction or behind it. -/
theorem Op.Fits.count_le {pool : Pool} {S : Shapes} {pc : Nat} {op : Op} {σ : Shape}
    (h : op.Fits pool S pc σ) :
    ∀ n ∈ op.counts, n ≤ σ.operands ∨ ∃ τ, S (pc + 1) = some τ ∧ n ≤ τ.operands := by
  intro n hn
  have hpops := h.pops_le
  cases op <;> simp only [counts, List.mem_singleton, List.not_mem_nil] at hn <;> subst hn
  case unpackSequence =>
    cases h with
    | plain hpushes hnext =>
      cases hpushes
      exact .inr ⟨_, hnext, Nat.le_add_left _ _⟩
  all_goals exact .inl (le_trans (by simp only [pops]; omega) hpops)

/-- All numbers in the instructions of a program that is narrow enough fit in 32 bits. -/
theorem Bytecode.Labelled.numbers_lt {code : Bytecode} {labels : Nat → Shapes}
    (h : code.Labelled labels) (hnarrow : code.Narrow labels) :
    ∀ c ∈ code.functions, ∀ i ∈ c.instrs,
      ∀ n ∈ i.op.targets ++ i.op.indices ++ i.op.counts, n < UInt32.size := by
  intro c hc i hi n hn
  obtain ⟨f, pc, σ, hkeeps, hi', hσ⟩ := h.exists_keeps c hc i hi
  rw [List.mem_append, List.mem_append] at hn
  rcases hn with (hn | hn) | hn
  · exact (hkeeps.target_lt_size hi'.fits hn).trans_le (hnarrow.instrs c hc)
  · exact hi'.inRange.index_lt hnarrow.functions hnarrow.globals (hnarrow.locals c hc)
      (hnarrow.consts c hc) (hnarrow.names c hc) (hnarrow.keywords c hc) n hn
  · rcases hi'.fits.count_le n hn with hle | ⟨τ, hτ, hle⟩
    · exact hle.trans_lt (hnarrow.operands f pc σ hσ)
    · exact hle.trans_lt (hnarrow.operands f (pc + 1) τ hτ)

theorem labelled_of_sound {code : Bytecode}
    (h : ∀ (f : Nat) (c : Code), code.functions[f]? = some c →
      c.Sound code.functions.size code.globals.length) : ∃ labels, code.Labelled labels := by
  have hlabels : ∀ f : Nat, ∃ S : Shapes, (∀ c : Code, code.functions[f]? = some c →
      c.Keeps code.functions.size code.globals.length S ∧
        ∀ pc i, c.instrs[pc]? = some i → (S pc).isSome) ∧
      (code.functions[f]? = none → ∀ pc, S pc = none) := by
    intro f
    cases hf : code.functions[f]? with
    | none => exact ⟨fun _ => none, nofun, fun _ _ => rfl⟩
    | some c =>
      obtain ⟨S, hS⟩ := h f c hf
      exact ⟨S, fun d hd => Option.some.inj hd ▸ hS, nofun⟩
  choose labels hlabels using hlabels
  exact ⟨labels, fun f c hc => ((hlabels f).1 c hc).1,
    fun f c pc i hc hi => ((hlabels f).1 c hc).2 pc i hi, fun f hf => (hlabels f).2 hf⟩

namespace Compile

/-- The code of a module body leaves a value. -/
theorem moduleBody_builds (env : Env) (pc : Nat) (program : List Stmt) :
    Builds (moduleBody env pc program) fun F code => ∀ σ exit,
      Layout (draftKeeps F env.slots exit) (Scoped · env exit σ) pc σ code (σ.up 1) := by
  fun_induction moduleBody env pc program with
  | case1 pc =>
    exact (constant_builds _ env.slots pc).bind fun k => .ret fun F hk σ exit =>
      hk.drafts fun S hS => hS.guarded
  | case2 pc value =>
    exact (expr_lays env pc value).bind fun code => .ret fun F hc σ exit =>
      hc.drafts fun S hS => hS.guarded
  | case3 pc s rest _ ih =>
    exact (stmt_rests env pc s).bind fun code => (ih code).bind fun more =>
      .ret fun F hm hc σ exit => (hc σ exit).append (hm σ exit) rfl

/-- The code of a program can be labelled. -/
theorem main_builds {env : Env} (hloop : env.loop = none) (program : List Stmt) :
    Builds (do
        let body ← moduleBody env 0 program
        return body ++ drafts [← one .return])
      fun F code => Closed env.slots F (code.filterMap Draft.instr?) := by
  refine (moduleBody_builds env 0 program).bind fun b => (one_builds _).bind fun r =>
    .ret fun F hr hb c hc hpool hlocals => ?_
  refine sound_of_layout ((hb .empty none).weaken fun S _ => scoped_empty hloop S none) rfl hr ?_
    hpool hlocals
  rw [hc, List.filterMap_append]
  rfl

end Compile

theorem compile_labelled {preset : List String} {program : List Stmt} {code : Bytecode}
    (h : compile preset program = .ok code) :
    0 < code.functions.size ∧ ∃ labels, code.Labelled labels := by
  unfold compile at h
  simp only at h
  generalize hb : StateT.run _ _ = x at h
  cases x with
  | error e => cases h
  | ok x =>
    obtain ⟨body, s⟩ := x
    cases h
    obtain ⟨hgrows, hclosed⟩ := Compile.main_builds rfl program hb
    have hsize : 1 ≤ s.functions.size := hgrows.functions
    refine ⟨by rw [Array.size_setIfInBounds]; exact hsize, labelled_of_sound fun f c hc => ?_⟩
    simp only [Array.size_setIfInBounds]
    rcases f.eq_zero_or_pos with rfl | hf
    · rw [Array.getElem?_setIfInBounds_self_of_lt hsize] at hc
      cases hc
      exact hclosed s (.refl s) _ rfl rfl rfl
    · rw [Array.getElem?_setIfInBounds_ne (by omega)] at hc
      exact hgrows.added s (.refl s) f c hf hc

/-! ## Runs -/

/-- What an instruction finds on the stacks and leaves there. -/
structure Machine.Disciplined (code : Bytecode) (labels : Nat → Shapes) (m : Machine) : Prop where
  /-- It is there, and finds the operands that it takes above the base of its frame. -/
  next : ∃ i σ, m.fetch code = some i ∧ labels m.frame.function m.frame.next = some σ ∧
    m.stack.length = m.frame.base + σ.operands ∧ i.op.pops (m.pool code) ≤ σ.operands
  /-- What is below the base stays there. -/
  keeps : ∀ y n, Machine.step code m = .ok y n → m.below <:+ n.stack
  /-- If it fails, then all that the handlers and the callers of its frame go on with is there. -/
  restores : ∀ e n, Machine.step code m = .error e n →
    m.below <:+ n.stack ∧ Machine.Restores n.stack.length n.handled.length n.frames

theorem Machine.Fits.disciplined {code : Bytecode} {labels : Nat → Shapes} {m : Machine}
    (hcode : code.Labelled labels) (h : m.Fits labels 0) : m.Disciplined code labels := by
  have hstep := Machine.step_leads hcode m ⟨h, rfl⟩
  constructor
  · obtain ⟨i, σ, hfetch, hlabel, hfits, -, hstands⟩ := h.next hcode
    exact ⟨i, σ, hfetch, hlabel, hstands.length, hfits.pops_le⟩
  · intro y n hn
    rw [hn] at hstep
    exact hstep.2
  · intro e n hn
    rw [hn] at hstep
    exact ⟨hstep.2, hstep.1.restores⟩

/-- Everything that the instructions of a compiled program refer to is there. Its instructions can
be labelled so that in every run, whatever its host answers, every frame has the shape of the
instruction that it goes on at; so the next instruction is always there and finds its operands above
the base of its frame, none changes what is below, and where one fails, what a handler or a caller
goes on with has been left as it was. -/
theorem compile_disciplined {preset : List String} {program : List Stmt} {code : Bytecode}
    (h : compile preset program = .ok code) :
    code.WellFormed ∧ ∃ labels, code.Labelled labels ∧
      ∀ (s : Script), s.bytecode = code → ∀ inputs budget x m, s.Visits inputs budget x m →
        m.FitsAt labels x ∧ (x = none → m.Disciplined code labels) := by
  obtain ⟨hmain, labels, hcode⟩ := compile_labelled h
  refine ⟨hcode.wellFormed, labels, hcode, ?_⟩
  rintro s rfl inputs budget x m hm
  have hfits := hm.fitsAt hcode hmain
  refine ⟨hfits, ?_⟩
  rintro rfl
  exact Machine.Fits.disciplined hcode hfits

/-- A run of `while x: try: break except: pass` has its stacks in order when it begins. -/
theorem compile_disciplined_break :
    let x : Expr := .mk .unknown (.name "x")
    let program : List Stmt :=
      [.while x [.try [.break .unknown] [.mk none none [.pass]] [] []] []]
    ∃ code labels, compile ["x"] program = .ok code ∧
      let s : Script := ⟨"main.py", "", ["x"], [], code⟩
      let m := Script.begin (.ofBudget .free) #[.bool true] false .collector
      s.Visits [.bool true] .free none m ∧ m.FitsAt labels none ∧ m.Disciplined code labels := by
  intro x program
  obtain ⟨code, hcode, hglobals⟩ : ∃ code, compile ["x"] program = .ok code ∧
      code.globals = ["x"] := ⟨_, rfl, rfl⟩
  obtain ⟨-, labels, -, hruns⟩ := compile_disciplined hcode
  refine ⟨code, labels, hcode, ?_⟩
  intro s m
  have hm : s.Visits [.bool true] .free none m :=
    .start false .collector (by simp only [Script.globals, s, hglobals]; rfl)
  obtain ⟨hfits, hdisciplined⟩ := hruns s rfl _ _ _ _ hm
  exact ⟨hm, hfits, hdisciplined rfl⟩

end Resumable
