import Resumable.Machine.Basic

/-!
# Shapes of code

The instructions of a code object are labelled with the shape that the stacks have above the base
of its frame: the number of operands, the registered handlers and the number of exceptions that are
being handled. `Op.Fits` says which shapes an instruction takes and which labels it asks of the
instructions that it leads to, `Guarded` what the innermost handler asks, and `Bytecode.Labelled`
that all labels of a program are kept in this way.

Instructions outside a code object have no label, so a jump to a label stays inside.
-/

namespace Resumable

/-- What stands above the base of a frame. -/
structure Shape where
  operands : Nat
  /-- The registered handlers, the innermost one first; their depths count from the base. -/
  blocks : List Block
  handled : Nat
deriving DecidableEq

namespace Shape

/-- The shape at the start of a function. -/
def empty : Shape := ⟨0, [], 0⟩

/-- The shape with so many more operands. -/
def up (σ : Shape) (n : Nat) : Shape := { σ with operands := σ.operands + n }

/-- The shape with one more exception that is being handled. -/
def handling (σ : Shape) : Shape := { σ with handled := σ.handled + 1 }

/-- The shape with one more handler. -/
def protected_ (σ : Shape) (handler : Nat) : Shape :=
  { σ with blocks := ⟨handler, σ.operands, σ.handled⟩ :: σ.blocks }

@[simp] theorem up_operands (σ : Shape) (n : Nat) : (σ.up n).operands = σ.operands + n := rfl

@[simp] theorem up_blocks (σ : Shape) (n : Nat) : (σ.up n).blocks = σ.blocks := rfl

@[simp] theorem up_handled (σ : Shape) (n : Nat) : (σ.up n).handled = σ.handled := rfl

@[simp] theorem up_zero (σ : Shape) : σ.up 0 = σ := rfl

@[simp] theorem up_up (σ : Shape) (n k : Nat) : (σ.up n).up k = σ.up (n + k) := by
  simp [up, Nat.add_assoc]

end Shape

/-- The shape in which a handler is entered: it finds the exception on top of the operands. -/
def Block.caught (b : Block) (rest : List Block) : Shape := ⟨b.operands + 1, rest, b.handled + 1⟩

/-- The labels of the instructions of one code object. -/
abbrev Shapes := Nat → Option Shape

/-! ## Instructions -/

/-- The number of operands that an instruction takes or looks at. -/
def Op.pops (pool : Pool) : Op → Nat
  | .loadConst _ | .loadLocal _ | .loadGlobal _ | .loadBuiltin _ | .loadExcClass _ => 0
  | .jump _ | .setupExcept _ | .popBlock | .popExcept | .reraise | .importModule _ => 0
  | .storeLocal _ | .storeGlobal _ | .pop | .dup | .not | .neg | .pos | .formatValue .. => 1
  | .toTuple | .unpackSequence _ | .getAttr _ | .getIter | .forIter _ => 1
  | .jumpIfFalse _ | .jumpIfTrue _ | .jumpIfFalseOrPop _ | .jumpIfTrueOrPop _ => 1
  | .return | .await | .raise => 1
  | .dup2 | .rot2 | .binary _ | .inplace _ | .compare _ | .subscript | .checkExcMatch => 2
  | .rot3 | .buildSlice | .storeSubscript => 3
  | .buildList n | .buildTuple n | .buildString n | .makeFunction _ n => n
  | .buildDict n => 2 * n
  | .call n kws | .callMethod _ n kws => n + (pool.keywordNames kws).length + 1
  | .callVar kws | .callMethodVar _ kws => (pool.keywordNames kws).length + 2

/-- The number of operands that an instruction leaves in place of those that it takes; `none` if it
does not always go on behind itself, or changes more than the operands. -/
def Op.pushes : Op → Option Nat
  | .storeLocal _ | .storeGlobal _ | .pop | .storeSubscript => some 0
  | .dup | .rot2 => some 2
  | .rot3 => some 3
  | .dup2 => some 4
  | .unpackSequence n => some n
  | .jump _ | .jumpIfFalse _ | .jumpIfTrue _ | .jumpIfFalseOrPop _ | .jumpIfTrueOrPop _ => none
  | .forIter _ | .return | .setupExcept _ | .popBlock | .popExcept | .raise | .reraise => none
  | _ => some 1

/-- The instructions that an instruction names. -/
def Op.targets : Op → List Nat
  | .jump t | .jumpIfFalse t | .jumpIfTrue t | .jumpIfFalseOrPop t | .jumpIfTrueOrPop t => [t]
  | .forIter t | .setupExcept t => [t]
  | _ => []

theorem Op.targets_eq_nil {op : Op} {n : Nat} (h : op.pushes = some n) : op.targets = [] := by
  cases op <;> first | rfl | cases h

/-- Everything that an instruction refers to by index is there. -/
def Op.InRange (functions globals locals : Nat) (pool : Pool) : Op → Prop
  | .loadConst i => i < pool.consts.size
  | .loadLocal i | .storeLocal i => i < locals
  | .loadGlobal i | .storeGlobal i => i < globals
  | .formatValue _ spec => ∀ i ∈ spec, i < pool.consts.size
  | .getAttr i => i < pool.names.size
  | .call _ kws | .callVar kws => ∀ i ∈ kws, i < pool.keywords.size
  | .callMethod i _ kws | .callMethodVar i kws =>
    i < pool.names.size ∧ ∀ i ∈ kws, i < pool.keywords.size
  | .makeFunction i _ => i < functions
  | _ => True

/-- An instruction takes a shape, and the instructions that it leads to have the shapes that it
leaves. -/
inductive Op.Fits (pool : Pool) (S : Shapes) (pc : Nat) : Op → Shape → Prop
  | plain {op : Op} {σ : Shape} {n : Nat} : op.pushes = some n → S (pc + 1) = some (σ.up n) →
      Fits pool S pc op (σ.up (op.pops pool))
  | jump {t σ} : S t = some σ → Fits pool S pc (.jump t) σ
  | jumpIfFalse {t} {σ : Shape} : S (pc + 1) = some σ → S t = some σ →
      Fits pool S pc (.jumpIfFalse t) (σ.up 1)
  | jumpIfTrue {t} {σ : Shape} : S (pc + 1) = some σ → S t = some σ →
      Fits pool S pc (.jumpIfTrue t) (σ.up 1)
  | jumpIfFalseOrPop {t} {σ : Shape} : S (pc + 1) = some σ → S t = some (σ.up 1) →
      Fits pool S pc (.jumpIfFalseOrPop t) (σ.up 1)
  | jumpIfTrueOrPop {t} {σ : Shape} : S (pc + 1) = some σ → S t = some (σ.up 1) →
      Fits pool S pc (.jumpIfTrueOrPop t) (σ.up 1)
  | forIter {t} {σ : Shape} : S (pc + 1) = some (σ.up 2) → S t = some σ →
      Fits pool S pc (.forIter t) (σ.up 1)
  | return {σ : Shape} : Fits pool S pc .return (σ.up 1)
  | setupExcept {t} {σ : Shape} :
      S (pc + 1) = some (σ.protected_ t) → Fits pool S pc (.setupExcept t) σ
  | popBlock {n b bs h} : S (pc + 1) = some ⟨n, bs, h⟩ → Fits pool S pc .popBlock ⟨n, b :: bs, h⟩
  | popExcept {σ : Shape} : S (pc + 1) = some σ → Fits pool S pc .popExcept σ.handling
  | raise {σ : Shape} : Fits pool S pc .raise (σ.up 1)
  | reraise {σ} : Fits pool S pc .reraise σ

/-- The innermost handler can be entered, also when the `n` topmost operands have been taken
away. -/
def Guarded (S : Shapes) (n : Nat) (σ : Shape) : Prop :=
  ∀ b rest, σ.blocks = b :: rest →
    b.operands + n ≤ σ.operands ∧ b.handled ≤ σ.handled ∧ S b.handler = some (b.caught rest)

/-- An instruction keeps to the labels. -/
structure Instr.Keeps (functions globals locals : Nat) (pool : Pool) (S : Shapes) (pc : Nat)
    (σ : Shape) (i : Instr) : Prop where
  fits : i.op.Fits pool S pc σ
  guarded : Guarded S (i.op.pops pool) σ
  inRange : i.op.InRange functions globals locals pool

theorem Op.Fits.pops_le {pool : Pool} {S : Shapes} {pc : Nat} {op : Op} {σ : Shape}
    (h : op.Fits pool S pc σ) : op.pops pool ≤ σ.operands := by
  cases h <;> simp [Op.pops]

theorem Guarded.mono {S : Shapes} {n k : Nat} {σ : Shape} (h : Guarded S k σ) (hn : n ≤ k) :
    Guarded S n σ := fun b rest hb => by
  obtain ⟨ho, hh, hs⟩ := h b rest hb
  exact ⟨by omega, hh, hs⟩

theorem Guarded.above {S : Shapes} {σ : Shape} (h : Guarded S 0 σ) (k : Nat) :
    Guarded S 0 (σ.up k) := fun b rest hb => by
  obtain ⟨ho, hh, hs⟩ := h b rest hb
  exact ⟨Nat.le_add_right_of_le ho, hh, hs⟩

theorem Guarded.up {S : Shapes} {n : Nat} {σ : Shape} (h : Guarded S n σ) (k : Nat) :
    Guarded S (n + k) (σ.up k) := fun b rest hb => by
  obtain ⟨ho, hh, hs⟩ := h b rest hb
  exact ⟨by simpa [← Nat.add_assoc] using ho, hh, hs⟩

theorem Guarded.down {S : Shapes} {n : Nat} {σ : Shape} (h : Guarded S n (σ.up n)) :
    Guarded S 0 σ := fun b rest hb => by
  obtain ⟨ho, hh, hs⟩ := h b rest hb
  exact ⟨by simpa using ho, hh, hs⟩

/-! ## Code -/

/-- The labels of a code object: its first instruction finds nothing above the base, every labelled
instruction is there, and keeps to the labels. -/
structure Code.Keeps (functions globals : Nat) (c : Code) (S : Shapes) : Prop where
  entry : S 0 = some .empty
  keeps : ∀ pc σ, S pc = some σ →
    ∃ i, c.instrs[pc]? = some i ∧ i.Keeps functions globals c.locals.length c.pool S pc σ

/-- Every instruction of a program has a label, and keeps to the labels. -/
structure Bytecode.Labelled (code : Bytecode) (labels : Nat → Shapes) : Prop where
  keeps : ∀ f (c : Code), code.functions[f]? = some c →
    c.Keeps code.functions.size code.globals.length (labels f)
  all : ∀ f c pc i, code.functions[f]? = some c → c.instrs[pc]? = some i → (labels f pc).isSome
  inside : ∀ f, code.functions[f]? = none → ∀ pc, labels f pc = none

/-! ## Layouts

`Layout keeps Γ pc σ code τ`: code that is laid out from `pc` on can be labelled so that it is
entered in the shape `σ` and left, behind its last instruction, in `τ`. All that the surrounding
code has to see to is `Γ`. Layouts are put together by `single` and `append`; a layout may ask for
the labels of its own two ends (`marked`), which is how jumps find the labels of their targets. -/

/-- Instructions from an index on have these labels. -/
def Assigns (S : Shapes) : Nat → List Shape → Prop
  | _, [] => True
  | pc, σ :: ss => S pc = some σ ∧ Assigns S (pc + 1) ss

theorem assigns_append {S : Shapes} {pc : Nat} {ss ts : List Shape} :
    Assigns S pc (ss ++ ts) ↔ Assigns S pc ss ∧ Assigns S (pc + ss.length) ts := by
  induction ss generalizing pc with
  | nil => simp [Assigns]
  | cons σ ss ih => simp [Assigns, ih, and_assoc, Nat.add_assoc, Nat.add_comm 1]

/-- A list of labels assigns itself. -/
theorem assigns_getElem? (ss ts : List Shape) :
    Assigns (fun pc => (ss ++ ts)[pc]?) ss.length ts := by
  induction ts generalizing ss with
  | nil => trivial
  | cons τ ts ih =>
    refine ⟨by simp, ?_⟩
    have h := ih (ss ++ [τ])
    simpa using h

section
variable {α β : Type} {keeps : Shapes → Nat → Shape → α → Prop}
  {keeps' : Shapes → Nat → Shape → β → Prop}

/-- Labelled code from an index on keeps to the labels. -/
def AllKeep (keeps : Shapes → Nat → Shape → α → Prop) (S : Shapes) :
    Nat → List (Shape × α) → Prop
  | _, [] => True
  | pc, (σ, d) :: code => keeps S pc σ d ∧ AllKeep keeps S (pc + 1) code

theorem allKeep_append {S : Shapes} {pc : Nat} {l r : List (Shape × α)} :
    AllKeep keeps S pc (l ++ r) ↔
      AllKeep keeps S pc l ∧ AllKeep keeps S (pc + l.length) r := by
  induction l generalizing pc with
  | nil => simp [AllKeep]
  | cons x l ih => simp [AllKeep, ih, and_assoc, Nat.add_assoc, Nat.add_comm 1]

theorem AllKeep.get {S : Shapes} {pc i : Nat} {code : List (Shape × α)} {x : Shape × α}
    (h : AllKeep keeps S pc code) (hx : code[i]? = some x) : keeps S (pc + i) x.1 x.2 := by
  induction code generalizing pc i with
  | nil => simp at hx
  | cons y code ih =>
    cases i with
    | zero => cases hx; exact h.1
    | succ i =>
      have := ih h.2 (i := i) (by simpa using hx)
      rwa [show pc + (i + 1) = pc + 1 + i by omega]

theorem AllKeep.map {S : Shapes} {pc : Nat} {code : List (Shape × α)} {f : α → β}
    (h : AllKeep keeps S pc code)
    (hf : ∀ pc σ d, keeps S pc σ d → keeps' S pc σ (f d)) :
    AllKeep keeps' S pc (code.map fun x => (x.1, f x.2)) := by
  induction code generalizing pc with
  | nil => trivial
  | cons x code ih => exact ⟨hf _ _ _ h.1, ih h.2⟩

/-- Code from `pc` on can be labelled, from `σ` at its entry to `τ` behind it. -/
def Layout (keeps : Shapes → Nat → Shape → α → Prop) (Γ : Shapes → Prop) (pc : Nat) (σ : Shape)
    (code : List α) (τ : Shape) : Prop :=
  ∃ ls : List (Shape × α), ls.map Prod.snd = code ∧ (ls.map Prod.fst ++ [τ]).head? = some σ ∧
    ∀ S, Assigns S pc (ls.map Prod.fst ++ [τ]) → Γ S → AllKeep keeps S pc ls

namespace Layout

variable {Γ Δ : Shapes → Prop} {pc : Nat} {σ ρ τ : Shape} {l r : List α} {d : α}

theorem nil : Layout keeps Γ pc σ [] σ := ⟨[], rfl, rfl, fun _ _ _ => trivial⟩

theorem single (h : ∀ S, Γ S → S pc = some σ → S (pc + 1) = some τ → keeps S pc σ d) :
    Layout keeps Γ pc σ [d] τ :=
  ⟨[(σ, d)], rfl, rfl, fun S ⟨hσ, hτ, _⟩ hΓ => ⟨h S hΓ hσ hτ, trivial⟩⟩

theorem weaken (h : Layout keeps Γ pc σ l τ) (hΓ : ∀ S, Δ S → Γ S) : Layout keeps Δ pc σ l τ := by
  obtain ⟨ls, hl, hσ, hk⟩ := h
  exact ⟨ls, hl, hσ, fun S hS hΔ => hk S hS (hΓ S hΔ)⟩

theorem append {q : Nat} (hl : Layout keeps Γ pc σ l ρ) (hr : Layout keeps Γ q ρ r τ)
    (hq : q = pc + l.length) : Layout keeps Γ pc σ (l ++ r) τ := by
  subst hq
  obtain ⟨ls, rfl, hσ, hls⟩ := hl
  obtain ⟨rs, rfl, hρ, hrs⟩ := hr
  obtain ⟨ts, ht⟩ : ∃ ts, rs.map Prod.fst ++ [τ] = ρ :: ts := by
    rw [List.head?_eq_some_iff] at hρ; exact hρ
  refine ⟨ls ++ rs, List.map_append, ?_, fun S hS hΓ => ?_⟩
  · rw [List.map_append, List.append_assoc, ht]
    cases ls with
    | nil => exact hσ
    | cons => exact hσ
  · rw [List.map_append, List.append_assoc, assigns_append, List.length_map] at hS
    rw [List.length_map] at hrs
    refine allKeep_append.mpr ⟨hls S ?_ hΓ, hrs S hS.2 hΓ⟩
    rw [ht] at hS
    exact assigns_append.mpr ⟨hS.1, by rw [List.length_map]; exact hS.2.1, trivial⟩

theorem cons (hd : Layout keeps Γ pc σ [d] ρ) (hr : Layout keeps Γ (pc + 1) ρ r τ) :
    Layout keeps Γ pc σ (d :: r) τ := append hd hr rfl

/-- Code may ask for the labels at both of its ends. -/
theorem marked (stop : Nat) (hstop : stop = pc + l.length)
    (h : Layout keeps (fun S => Γ S ∧ S pc = some σ ∧ S stop = some τ) pc σ l τ) :
    Layout keeps Γ pc σ l τ := by
  subst hstop
  obtain ⟨ls, rfl, hσ, hk⟩ := h
  refine ⟨ls, rfl, hσ, fun S hS hΓ => hk S hS ⟨hΓ, ?_, ?_⟩⟩
  · obtain ⟨ts, ht⟩ := List.head?_eq_some_iff.mp hσ
    rw [ht] at hS
    exact hS.1
  · rw [List.length_map, ← List.length_map (f := Prod.fst)]
    exact (assigns_append.mp hS).2.1

theorem map {f : α → β} (h : Layout keeps Γ pc σ l τ)
    (hf : ∀ S, Δ S → ∀ pc σ d, keeps S pc σ d → keeps' S pc σ (f d)) :
    Layout keeps' (fun S => Γ S ∧ Δ S) pc σ (l.map f) τ := by
  obtain ⟨ls, rfl, hσ, hk⟩ := h
  have hfst : (ls.map fun x => (x.1, f x.2)).map Prod.fst = ls.map Prod.fst := by
    rw [List.map_map]; rfl
  refine ⟨ls.map fun x => (x.1, f x.2), by simp, ?_, fun S hS hΓ => ?_⟩
  · rw [hfst]; exact hσ
  · rw [hfst] at hS
    exact (hk S hS hΓ.1).map (hf S hΓ.2)

end Layout

end

end Resumable
