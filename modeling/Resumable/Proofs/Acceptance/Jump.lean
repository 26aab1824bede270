import Mathlib.Tactic.Tauto
import Resumable.Proofs.Acceptance.Expression

/-!
# Jumps that the compiler refuses

`Stmt.jumps` lists the jumps of a statement, each with what it stands in: bodies of loops, parts of
a `try` that its `finally` clause guards, and functions. The `else` clause of a loop, the `finally`
clause itself and everything else leave no mark. `Jump.Illegal` says which jumps have nowhere to go,
or would leave a guarded part behind. Main statement: `compile_fails_iff`, these are the only jumps
that the compiler refuses.
-/

namespace Resumable

/-! ## Jumps and what they stand in -/

inductive Jump where
  | break
  | continue
  | return
deriving DecidableEq

/-- What matters to a jump that stands in it. -/
inductive Surrounding where
  /-- The body of a loop. -/
  | loop
  /-- The body, a handler or the `else` clause of a `try` that has a `finally` clause. -/
  | guarded
  /-- The body of a function. -/
  | function
deriving DecidableEq

namespace Surrounding

/-- What a jump stands in within its own function, innermost first. -/
def own (around : List Surrounding) : List Surrounding := around.takeWhile (· ≠ .function)

/-- What a jump out of the innermost loop of its own function would leave. -/
def insideLoop (around : List Surrounding) : List Surrounding :=
  (own around).takeWhile (· ≠ .loop)

@[simp] theorem own_nil : own [] = [] := rfl

@[simp] theorem own_function (around : List Surrounding) : own (.function :: around) = [] := rfl

@[simp] theorem own_loop (around : List Surrounding) :
    own (.loop :: around) = .loop :: own around := rfl

@[simp] theorem own_guarded (around : List Surrounding) :
    own (.guarded :: around) = .guarded :: own around := rfl

@[simp] theorem insideLoop_nil : insideLoop [] = [] := rfl

@[simp] theorem insideLoop_loop (around : List Surrounding) : insideLoop (.loop :: around) = [] :=
  rfl

@[simp] theorem insideLoop_guarded (around : List Surrounding) :
    insideLoop (.guarded :: around) = .guarded :: insideLoop around := rfl

end Surrounding

open Surrounding (own insideLoop)

mutual

/-- The jumps of a statement that stands in `around`, each with what it stands in itself. -/
def Stmt.jumps (around : List Surrounding) : Stmt → List (Jump × List Surrounding)
  | .break _ => [(.break, around)]
  | .continue _ => [(.continue, around)]
  | .return .. => [(.return, around)]
  | .ifElse _ body orElse => Stmt.allJumps around body ++ Stmt.allJumps around orElse
  | .while _ body orElse | .for _ _ body orElse _ =>
    Stmt.allJumps (.loop :: around) body ++ Stmt.allJumps around orElse
  | .functionDef _ _ body _ => Stmt.allJumps (.function :: around) body
  | .try body handlers orElse finally_ =>
    let inside := if finally_.isEmpty then around else .guarded :: around
    Stmt.allJumps inside body ++ Handler.allJumps inside handlers ++ Stmt.allJumps inside orElse ++
      Stmt.allJumps around finally_
  | .expr _ | .assign .. | .augAssign .. | .pass | .global _ | .raise .. | .assert .. | .import ..
  | .importFrom .. => []

def Stmt.allJumps (around : List Surrounding) : List Stmt → List (Jump × List Surrounding)
  | [] => []
  | s :: rest => s.jumps around ++ Stmt.allJumps around rest

def Handler.allJumps (around : List Surrounding) : List Handler → List (Jump × List Surrounding)
  | [] => []
  | .mk _ _ body :: rest => Stmt.allJumps around body ++ Handler.allJumps around rest

end

/-- A jump has nowhere to go, or would leave a part of a `try` without its `finally` clause. -/
inductive Jump.Illegal : Jump → List Surrounding → Prop
  | outsideLoop {j around} : j ≠ .return → .loop ∉ own around → Illegal j around
  | outsideFunction {around} : .function ∉ around → Illegal .return around
  | leavesLoop {j around} : j ≠ .return → .guarded ∈ insideLoop around → Illegal j around
  | leavesFunction {around} : .guarded ∈ own around → Illegal .return around

theorem Jump.illegal_iff {j : Jump} (hj : j ≠ .return) (around : List Surrounding) :
    j.Illegal around ↔ .loop ∉ own around ∨ .guarded ∈ insideLoop around := by
  constructor
  · intro h
    cases h with
    | outsideLoop _ h => exact .inl h
    | leavesLoop _ h => exact .inr h
    | outsideFunction | leavesFunction => exact (hj rfl).elim
  · rintro (h | h)
    · exact .outsideLoop hj h
    · exact .leavesLoop hj h

theorem Jump.illegal_return_iff (around : List Surrounding) :
    Jump.return.Illegal around ↔ .function ∉ around ∨ .guarded ∈ own around := by
  constructor
  · intro h
    cases h with
    | outsideFunction h => exact .inl h
    | leavesFunction h => exact .inr h
    | outsideLoop hj | leavesLoop hj => exact (hj rfl).elim
  · rintro (h | h)
    · exact .outsideFunction h
    · exact .leavesFunction h

/-- None of some jumps is illegal. -/
def AllLegal (jumps : List (Jump × List Surrounding)) : Prop := ∀ x ∈ jumps, ¬ x.1.Illegal x.2

@[simp] theorem allLegal_nil : AllLegal [] := nofun

@[simp] theorem allLegal_append (js ks : List (Jump × List Surrounding)) :
    AllLegal (js ++ ks) ↔ AllLegal js ∧ AllLegal ks := List.forall_mem_append

@[simp] theorem allLegal_singleton (j : Jump) (around : List Surrounding) :
    AllLegal [(j, around)] ↔ ¬ j.Illegal around := List.forall_mem_singleton

/-! ## Proper statements -/

mutual

def Target.Unstarred : Target → Prop
  | .name _ => True
  | .subscript object index => object.Unstarred ∧ index.Unstarred
  | .tuple ts => Target.AllUnstarred ts

def Target.AllUnstarred : List Target → Prop
  | [] => True
  | t :: rest => t.Unstarred ∧ Target.AllUnstarred rest

end

/-- No part of the default of a parameter is starred, except among arguments. -/
def Param.AllUnstarred : List Param → Prop
  | [] => True
  | p :: rest => Expr.MaybeUnstarred p.default ∧ Param.AllUnstarred rest

mutual

/-- No expression in a statement is starred, except among the positional arguments of a call, and no
augmented assignment has a tuple as its target. -/
def Stmt.Proper : Stmt → Prop
  | .expr value => value.Unstarred
  | .assign first rest value => value.Unstarred ∧ first.Unstarred ∧ Target.AllUnstarred rest
  | .augAssign target _ value _ =>
    (∀ ts, target ≠ .tuple ts) ∧ target.Unstarred ∧ value.Unstarred
  | .ifElse test body orElse | .while test body orElse =>
    test.Unstarred ∧ Stmt.AllProper body ∧ Stmt.AllProper orElse
  | .for target iter body orElse _ =>
    iter.Unstarred ∧ target.Unstarred ∧ Stmt.AllProper body ∧ Stmt.AllProper orElse
  | .functionDef _ params body _ => Param.AllUnstarred params ∧ Stmt.AllProper body
  | .return value _ | .raise value _ => Expr.MaybeUnstarred value
  | .try body handlers orElse finally_ =>
    Stmt.AllProper body ∧ Handler.AllProper handlers ∧ Stmt.AllProper orElse ∧
      Stmt.AllProper finally_
  | .assert test message _ => test.Unstarred ∧ Expr.MaybeUnstarred message
  | .break _ | .continue _ | .pass | .global _ | .import .. | .importFrom .. => True

def Stmt.AllProper : List Stmt → Prop
  | [] => True
  | s :: rest => s.Proper ∧ Stmt.AllProper rest

def Handler.AllProper : List Handler → Prop
  | [] => True
  | .mk type _ body :: rest =>
    Expr.MaybeUnstarred type ∧ Stmt.AllProper body ∧ Handler.AllProper rest

end

namespace Compile

variable {α : Type} {P Q R : Prop} {env : Env} {around : List Surrounding}

/-! ## What an environment knows of the surroundings -/

/-- The environment of a statement that stands in `around`: it keeps the blocks of its own function
and counts those outside the innermost loop. -/
structure Env.StandsIn (env : Env) (around : List Surrounding) : Prop where
  function : env.locals.isNone = true ↔ .function ∉ around
  guarded : .guarded ∈ env.blocks ↔ .guarded ∈ own around
  outside : env.loop = none → .loop ∉ own around
  inside : ∀ loop, env.loop = some loop → .loop ∈ own around ∧ loop.depth ≤ env.blocks.length ∧
    (.guarded ∈ blocksInside env loop ↔ .guarded ∈ insideLoop around)

namespace Env.StandsIn

variable (h : env.StandsIn around)
include h

/-- A block other than a guarded part leaves no mark. -/
theorem enter (b : Block) (hb : b ≠ .guarded) :
    { env with blocks := b :: env.blocks }.StandsIn around where
  function := h.function
  guarded := by simp [h.guarded, hb.symm]
  outside := h.outside
  inside loop hloop := by
    obtain ⟨hin, hdepth, hguarded⟩ := h.inside loop hloop
    refine ⟨hin, Nat.le_succ_of_le hdepth, ?_⟩
    have hcons : blocksInside { env with blocks := b :: env.blocks } loop =
        b :: blocksInside env loop := by
      unfold blocksInside
      rw [List.length_cons, Nat.succ_sub hdepth, List.take_succ_cons]
    simp [hcons, hguarded, hb.symm]

theorem guard : { env with blocks := .guarded :: env.blocks }.StandsIn (.guarded :: around) where
  function := by simp [h.function]
  guarded := by simp
  outside hloop := by simpa using h.outside hloop
  inside loop hloop := by
    obtain ⟨hin, hdepth, -⟩ := h.inside loop hloop
    refine ⟨by simpa using hin, Nat.le_succ_of_le hdepth, ?_⟩
    have hcons : .guarded ∈ blocksInside { env with blocks := .guarded :: env.blocks } loop := by
      unfold blocksInside
      rw [List.length_cons, Nat.succ_sub hdepth, List.take_succ_cons]
      exact List.mem_cons_self
    simp [hcons]

theorem loop (start : Nat) (isFor : Bool) :
    { env with loop := some ⟨start, env.blocks.length, isFor⟩ }.StandsIn (.loop :: around) where
  function := by simp [h.function]
  guarded := by simp [h.guarded]
  outside := nofun
  inside loop hloop := by
    cases hloop
    simp [blocksInside]

omit h in
theorem call (names : List String) :
    { env with locals := some names, loop := none, blocks := [] }.StandsIn
      (.function :: around) where
  function := by simp
  guarded := by simp
  outside _ := by simp
  inside := nofun

/-- A jump out of a loop is legal exactly if there is a loop and the blocks inside it can be
left. -/
theorem not_illegal_iff {j : Jump} (hj : j ≠ .return) :
    ¬ j.Illegal around ↔ ∃ loop, env.loop = some loop ∧ .guarded ∉ blocksInside env loop := by
  rw [Jump.illegal_iff hj]
  cases hloop : env.loop with
  | none => simp [h.outside hloop]
  | some loop =>
    obtain ⟨hin, -, hguarded⟩ := h.inside loop hloop
    simp [hin, hguarded]

theorem not_illegal_return_iff :
    ¬ Jump.return.Illegal around ↔ ¬ env.locals.isNone = true ∧ .guarded ∉ env.blocks := by
  rw [Jump.illegal_return_iff, h.function, h.guarded, not_or]

end Env.StandsIn

/-! ## Targets, jumps and functions -/

mutual

theorem target_accepts (env : Env) (pc : Nat) (span : Span) (t : Target) :
    Accepts (target env pc span t) t.Unstarred := by
  match t with
  | .name id =>
    rw [target, Target.Unstarred]
    exact (store_accepts env id).seq fun i => .ret _
  | .subscript object index =>
    rw [target, Target.Unstarred]
    exact (expr_accepts env pc object).bind fun o => (expr_accepts env _ index).last fun i =>
      (at_accepts span).seq fun _ => (one_accepts _).seq fun s => .ret _
  | .tuple ts =>
    rw [target, Target.Unstarred]
    exact (at_accepts span).seq fun _ => (one_accepts _).seq fun unpack =>
      (targets_accepts env _ span ts).last fun code => .ret _

theorem targets_accepts (env : Env) (pc : Nat) (span : Span) (ts : List Target) :
    Accepts (targets env pc span ts) (Target.AllUnstarred ts) := by
  match ts with
  | [] =>
    rw [targets, Target.AllUnstarred]
    exact .ret _
  | t :: rest =>
    rw [targets, Target.AllUnstarred]
    exact (target_accepts env pc span t).bind fun code =>
      (targets_accepts env _ span rest).last fun more => .ret _

end

theorem assignAll_accepts (env : Env) (pc : Nat) (span : Span) (first : Target)
    (rest : List Target) :
    Accepts (assignAll env pc span first rest) (first.Unstarred ∧ Target.AllUnstarred rest) := by
  induction rest generalizing pc first with
  | nil =>
    rw [assignAll, Target.AllUnstarred, and_true]
    exact target_accepts env pc span first
  | cons next rest ih =>
    rw [assignAll, Target.AllUnstarred]
    exact (one_accepts _).seq fun copy => (target_accepts env _ span first).bind fun code =>
      (ih _ next).last fun more => .ret _

theorem defaults_accepts (env : Env) (pc : Nat) (params : List Param) :
    Accepts (defaults env pc params) (Param.AllUnstarred params) := by
  induction params generalizing pc with
  | nil =>
    rw [defaults, Param.AllUnstarred]
    exact .ret _
  | cons p rest ih =>
    rw [defaults, Param.AllUnstarred]
    cases p.default with
    | none =>
      rw [Expr.MaybeUnstarred, true_and]
      exact ih pc
    | some e =>
      rw [Expr.MaybeUnstarred]
      exact (expr_accepts env pc e).bind fun code => (ih _).last fun more => .ret _

theorem importNames_accepts (env : Env) (module : Module) (names : List (String × String)) :
    Accepts (importNames env module names) True := by
  induction names with
  | nil => exact .ret _
  | cons x names ih =>
    exact (one_accepts _).seq fun i => (pooled_accepts _).seq fun n => (one_accepts _).seq fun g =>
      (store_accepts env x.2).seq fun w => ih.seq fun more => .ret _

theorem leave_accepts (word : String) (span : Span) (bs : List Block) :
    Accepts (leave word span bs) (.guarded ∉ bs) := by
  induction bs with
  | nil => exact (Accepts.ret _).congr (by simp)
  | cons b bs ih =>
    cases b with
    | guarded => exact Accepts.fail.congr (by simp)
    | tryBody | handling =>
      exact ((one_accepts _).seq fun i => ih.last fun code => .ret _).congr (by simp)

theorem functionBody_accepts {body : Build (List Draft)} (hbody : Accepts body P) :
    Accepts (functionBody body) P :=
  hbody.last fun _ => (constant_accepts _).seq fun _ => (one_accepts _).seq fun _ => .ret _

theorem addFunction_accepts {name : String} {locals : List String} {count : Nat} {span : Span}
    {code : Build (List Instr)} (hcode : Accepts code P) :
    Accepts (addFunction name locals count span code) P := by
  have hmodify : ∀ f : State → State, Accepts (modify f : Build Unit) True :=
    fun f s => iff_of_true ⟨(), f s, rfl⟩ trivial
  exact get_accepts.seq fun s => get_accepts.seq fun s' => (hmodify _).seq fun _ =>
    hcode.last fun instrs => get_accepts.seq fun t => (hmodify _).seq fun _ => .ret _

section
variable {body handlers orElse : Env → Nat → Build (List Draft)}

theorem layTry_accepts
    (hbody : ∀ pc, Accepts (body { env with blocks := .tryBody :: env.blocks } pc) P)
    (hhandlers : ∀ pc, Accepts (handlers env pc) Q) (horElse : ∀ pc, Accepts (orElse env pc) R)
    (pc : Nat) : Accepts (layTry env pc body handlers orElse) (P ∧ R ∧ Q) :=
  get_accepts.seq fun _ => (hbody _).bind fun _ => (one_accepts _).seq fun _ =>
    (horElse _).bind fun _ => get_accepts.seq fun _ => (hhandlers _).last fun _ =>
    (one_accepts _).seq fun _ => .ret _

/-- The clause is laid out twice, and accepted in both places or in neither. -/
theorem layFinally_accepts
    (hbody : ∀ pc, Accepts (body { env with blocks := .guarded :: env.blocks } pc) P)
    (hnormal : ∀ pc, Accepts (orElse env pc) Q)
    (hraised : ∀ pc, Accepts (orElse { env with blocks := .handling :: env.blocks } pc) Q)
    (pc : Nat) : Accepts (layFinally env pc body orElse) (P ∧ Q) :=
  (Accepts.seq get_accepts fun _ => (hbody _).bind fun _ => (one_accepts _).seq fun _ =>
    (hnormal _).bind fun _ => get_accepts.seq fun _ => (one_accepts _).seq fun _ =>
    (hraised _).last fun _ => (one_accepts _).seq fun _ => .ret _).congr (by rw [and_self])

end

/-! ## Parts that are there or not -/

theorem value_bind_accepts {pc : Nat} {value : Option Expr} {f : List Instr → Build α}
    (hf : ∀ code, Accepts (f code) True) :
    Accepts (match value with
      | some e => do
        let code ← expr env pc e
        f code
      | none => do
        let i ← constant .none
        let code ← pure [i]
        f code) (Expr.MaybeUnstarred value) := by
  cases value with
  | none =>
    rw [Expr.MaybeUnstarred]
    exact (constant_accepts _).seq fun i => hf [i]
  | some e =>
    rw [Expr.MaybeUnstarred]
    exact (expr_accepts env pc e).last hf

theorem message_bind_accepts {pc : Nat} {message : Option Expr} {f : List Instr → Build α}
    (hf : ∀ code, Accepts (f code) True) :
    Accepts (match message with
      | some e => do
        let code ← expr env pc e
        f code
      | none => do
        let code ← pure []
        f code) (Expr.MaybeUnstarred message) := by
  cases message with
  | none =>
    rw [Expr.MaybeUnstarred]
    exact hf []
  | some e =>
    rw [Expr.MaybeUnstarred]
    exact (expr_accepts env pc e).last hf

theorem binding_bind_accepts {name : Option String} {f : Instr → Build α}
    (hf : ∀ i, Accepts (f i) P) :
    Accepts (match name with
      | some id => do
        let bind ← store env id
        f bind
      | none => do
        let bind ← one .pop
        f bind) P := by
  cases name with
  | none => exact (one_accepts _).seq hf
  | some id => exact (store_accepts env id).seq hf

theorem drop_bind_accepts {isFor : Bool} {f : List Instr → Build α}
    (hf : ∀ drop, Accepts (f drop) P) :
    Accepts (if isFor = true then do
        let i ← one .pop
        let drop ← pure [i]
        f drop
      else do
        let drop ← pure []
        f drop) P :=
  .ite (fun _ => (one_accepts _).seq fun i => hf [i]) fun _ => hf []

/-! ## Statements -/

/-- A jump out of a loop, given what stands behind its instructions. -/
theorem loopJump_accepts (j : Jump) (hj : j ≠ .return) (henv : env.StandsIn around) {word : String}
    {span : Span} {e : SourceError} {f : Loop → List Instr → Build α}
    (hf : ∀ loop out, Accepts (f loop out) True) :
    Accepts (do
      at_ span
      match env.loop with
      | none => throw e
      | some loop =>
        let out ← leave word span (blocksInside env loop)
        f loop out) (AllLegal [(j, around)]) := by
  rw [allLegal_singleton, henv.not_illegal_iff hj]
  refine (at_accepts span).seq fun _ => ?_
  cases env.loop with
  | none => exact Accepts.fail.congr (by simp)
  | some loop => exact ((leave_accepts word span _).last (hf loop)).congr (by simp)

mutual

/-- A statement is accepted if it is proper and none of its jumps is illegal. -/
theorem stmt_accepts (env : Env) (pc : Nat) (s : Stmt)
    {around : List Surrounding} (henv : env.StandsIn around) :
    Accepts (stmt env pc s) (s.Proper ∧ AllLegal (s.jumps around)) := by
  match s with
  | .expr value =>
    simp only [stmt, Stmt.Proper, Stmt.jumps, allLegal_nil, and_true]
    exact (expr_accepts env pc value).last fun code => (one_accepts _).seq fun i => .ret _
  | .assign first rest value =>
    simp only [stmt, Stmt.Proper, Stmt.jumps, allLegal_nil, and_true]
    exact (expr_accepts env pc value).bind fun code =>
      (assignAll_accepts env _ value.span first rest).last fun more => .ret _
  | .augAssign (.name id) op value span =>
    simp only [stmt, Stmt.Proper, Stmt.jumps, allLegal_nil, and_true, Target.Unstarred, true_and]
    refine Accepts.congr ((at_accepts span).seq fun _ => (load_accepts env id).seq fun read =>
      (expr_accepts env _ value).last fun code => (at_accepts span).seq fun _ =>
      (one_accepts _).seq fun i => (store_accepts env id).seq fun write => .ret _) ?_
    simp
  | .augAssign (.subscript object index) op value span =>
    simp only [stmt, Stmt.Proper, Stmt.jumps, allLegal_nil, and_true, Target.Unstarred]
    refine Accepts.congr ((expr_accepts env pc object).bind fun o =>
      (expr_accepts env _ index).bind fun i => (at_accepts span).seq fun _ =>
      (one_accepts _).seq fun dup => (one_accepts _).seq fun read =>
      (expr_accepts env _ value).last fun code => (at_accepts span).seq fun _ =>
      (one_accepts _).seq fun update => (one_accepts _).seq fun rot =>
      (one_accepts _).seq fun write => .ret _) ?_
    simp [and_assoc]
  | .augAssign (.tuple ts) op value span =>
    rw [stmt, Stmt.Proper]
    exact Accepts.fail.congr (by simp)
  | .ifElse test body orElse =>
    simp only [stmt, Stmt.Proper, Stmt.jumps, allLegal_append]
    refine Accepts.congr ((expr_accepts env pc test).bind fun t => get_accepts.seq fun s =>
      (stmts_accept env _ body henv).bind fun b => .ite (fun hempty => ?_) fun _ =>
      get_accepts.seq fun s' => (stmts_accept env _ orElse henv).last fun o => .ret _) (by tauto)
    obtain rfl := List.isEmpty_iff.mp hempty
    exact (Accepts.ret _).congr (by simp [Stmt.AllProper, Stmt.allJumps])
  | .while test body orElse =>
    simp only [stmt, Stmt.Proper, Stmt.jumps, allLegal_append]
    exact Accepts.congr ((expr_accepts env pc test).bind fun t => get_accepts.seq fun s =>
      (stmts_accept _ _ body (henv.loop _ _)).bind fun b => (one_accepts _).seq fun back =>
      (stmts_accept env _ orElse henv).last fun o => .ret _) (by tauto)
  | .for t iter body orElse span =>
    simp only [stmt, Stmt.Proper, Stmt.jumps, allLegal_append]
    exact Accepts.congr ((expr_accepts env pc iter).bind fun i => (at_accepts span).seq fun _ =>
      (one_accepts _).seq fun getIter => (target_accepts env _ span t).bind fun bind =>
      (stmts_accept _ _ body (henv.loop _ _)).bind fun b => (one_accepts _).seq fun back =>
      (stmts_accept env _ orElse henv).last fun o => .ret _) (by tauto)
  | .break span =>
    simp only [stmt, Stmt.Proper, Stmt.jumps, true_and]
    exact loopJump_accepts .break nofun henv fun loop out => drop_bind_accepts fun drop => .ret _
  | .continue span =>
    simp only [stmt, Stmt.Proper, Stmt.jumps, true_and]
    exact loopJump_accepts .continue nofun henv fun loop out => (one_accepts _).seq fun i => .ret _
  | .pass | .global _ =>
    simp only [stmt, Stmt.Proper, Stmt.jumps, allLegal_nil, and_true]
    exact .ret _
  | .functionDef name params body span =>
    simp only [stmt, Stmt.Proper, Stmt.jumps]
    exact Accepts.congr ((at_accepts span).seq fun _ => (defaults_accepts env pc params).bind
      fun x => (addFunction_accepts (functionBody_accepts (stmts_accept _ 0 body
        (Env.StandsIn.call _)))).last fun index => (one_accepts _).seq fun make =>
      (store_accepts env name).seq fun w => .ret _) (by tauto)
  | .return value span =>
    simp only [stmt, Stmt.Proper, Stmt.jumps, allLegal_singleton, henv.not_illegal_return_iff]
    split
    · exact Accepts.fail.congr (by tauto)
    · next hfunction =>
      simp only [List.contains_iff_mem]
      split
      · exact Accepts.fail.congr (by tauto)
      · refine Accepts.congr (value_bind_accepts fun code => (at_accepts span).seq fun _ =>
          (one_accepts _).seq fun i => .ret _) (by tauto)
  | .try body hs orElse finally_ =>
    have hinner : ∀ (env : Env) (around : List Surrounding) (pc : Nat), env.StandsIn around →
        Accepts (if hs.isEmpty = true then do
          let b ← stmts env pc body
          return b ++ (← stmts env (pc + b.length) orElse)
        else
          layTry env pc (fun env pc => stmts env pc body) (fun env pc => handlers env pc hs)
            (fun env pc => stmts env pc orElse))
          ((Stmt.AllProper body ∧ Handler.AllProper hs ∧ Stmt.AllProper orElse) ∧
            AllLegal (Stmt.allJumps around body) ∧ AllLegal (Handler.allJumps around hs) ∧
            AllLegal (Stmt.allJumps around orElse)) := by
      intro env around pc henv
      refine .ite (fun hempty => ?_) fun _ => ?_
      · obtain rfl := List.isEmpty_iff.mp hempty
        refine Accepts.congr ((stmts_accept env pc body henv).bind fun b =>
          (stmts_accept env _ orElse henv).last fun o => .ret _) ?_
        simp only [Handler.AllProper, Handler.allJumps, allLegal_nil]
        tauto
      · exact (layTry_accepts (fun pc => stmts_accept _ pc body (henv.enter .tryBody nofun))
          (fun pc => handlers_accept env pc hs henv) (fun pc => stmts_accept env pc orElse henv)
          pc).congr (by tauto)
    simp only [stmt, Stmt.Proper, Stmt.jumps, allLegal_append]
    split
    · next hempty =>
      obtain rfl := List.isEmpty_iff.mp hempty
      refine (hinner env around pc henv).congr ?_
      simp only [Stmt.AllProper, Stmt.allJumps, allLegal_nil]
      tauto
    · exact (layFinally_accepts (fun pc => hinner _ _ pc henv.guard)
        (fun pc => stmts_accept env pc finally_ henv)
        (fun pc => stmts_accept _ pc finally_ (henv.enter .handling nofun)) pc).congr (by tauto)
  | .raise (some e) span =>
    simp only [stmt, Stmt.Proper, Stmt.jumps, allLegal_nil, and_true, Expr.MaybeUnstarred]
    exact (expr_accepts env pc e).last fun code => (at_accepts span).seq fun _ =>
      (one_accepts _).seq fun i => .ret _
  | .raise none span =>
    simp only [stmt, Stmt.Proper, Stmt.jumps, allLegal_nil, and_true, Expr.MaybeUnstarred]
    exact (at_accepts span).seq fun _ => (one_accepts _).seq fun i => .ret _
  | .assert test message span =>
    simp only [stmt, Stmt.Proper, Stmt.jumps, allLegal_nil, and_true]
    exact (expr_accepts env pc test).bind fun t => get_accepts.seq fun s =>
      (at_accepts span).seq fun _ => (one_accepts _).seq fun cls =>
      message_bind_accepts fun m => (at_accepts span).seq fun _ => (one_accepts _).seq fun call =>
      (one_accepts _).seq fun raise => .ret _
  | .import module binding =>
    simp only [stmt, Stmt.Proper, Stmt.jumps, allLegal_nil, and_true]
    exact (one_accepts _).seq fun i => (store_accepts env binding).seq fun w => .ret _
  | .importFrom module names span =>
    simp only [stmt, Stmt.Proper, Stmt.jumps, allLegal_nil, and_true]
    exact (at_accepts span).seq fun _ => (importNames_accepts env module names).seq fun code =>
      .ret _

theorem stmts_accept (env : Env) (pc : Nat) (ss : List Stmt)
    {around : List Surrounding} (henv : env.StandsIn around) :
    Accepts (stmts env pc ss) (Stmt.AllProper ss ∧ AllLegal (Stmt.allJumps around ss)) := by
  match ss with
  | [] =>
    simp only [stmts, Stmt.AllProper, Stmt.allJumps, allLegal_nil, and_true]
    exact .ret _
  | s :: rest =>
    simp only [stmts, Stmt.AllProper, Stmt.allJumps, allLegal_append]
    exact Accepts.congr ((stmt_accepts env pc s henv).bind fun code =>
      (stmts_accept env _ rest henv).last fun more => .ret _) (by tauto)

theorem handlers_accept (env : Env) (pc : Nat) (hs : List Handler)
    {around : List Surrounding} (henv : env.StandsIn around) :
    Accepts (handlers env pc hs)
      (Handler.AllProper hs ∧ AllLegal (Handler.allJumps around hs)) := by
  match hs with
  | [] =>
    simp only [handlers, Handler.AllProper, Handler.allJumps, allLegal_nil, and_true]
    exact .ret _
  | .mk none name body :: rest =>
    simp only [Handler.AllProper, Handler.allJumps, allLegal_append, Expr.MaybeUnstarred]
    rw [handlers]
    exact Accepts.congr (.ret_bind (get_accepts.seq fun s => binding_bind_accepts fun bind =>
      (stmts_accept _ _ body (henv.enter .handling nofun)).bind fun b =>
      (one_accepts _).seq fun pop => get_accepts.seq fun s' =>
      (handlers_accept env _ rest henv).last fun more => .ret _)) (by tauto)
  | .mk (some e) name body :: rest =>
    simp only [Handler.AllProper, Handler.allJumps, allLegal_append, Expr.MaybeUnstarred]
    rw [handlers]
    exact Accepts.congr ((one_accepts _).seq fun copy => (expr_accepts env _ e).bind fun code =>
      (at_accepts _).seq fun _ => (one_accepts _).seq fun check =>
      .ret_bind (get_accepts.seq fun s => binding_bind_accepts fun bind =>
      (stmts_accept _ _ body (henv.enter .handling nofun)).bind fun b =>
      (one_accepts _).seq fun pop => get_accepts.seq fun s' =>
      (handlers_accept env _ rest henv).last fun more => .ret _)) (by tauto)

end

theorem moduleBody_accepts (env : Env) (pc : Nat) (program : List Stmt)
    (henv : env.StandsIn around) :
    Accepts (moduleBody env pc program)
      (Stmt.AllProper program ∧ AllLegal (Stmt.allJumps around program)) := by
  induction program generalizing pc with
  | nil =>
    rw [moduleBody]
    simp only [Stmt.AllProper, Stmt.allJumps, allLegal_nil, and_true]
    exact (constant_accepts _).seq fun i => .ret _
  | cons s rest ih =>
    by_cases hlast : ∃ value, s = .expr value ∧ rest = []
    · obtain ⟨value, rfl, rfl⟩ := hlast
      rw [moduleBody]
      simp only [Stmt.AllProper, Stmt.allJumps, Stmt.Proper, Stmt.jumps, List.append_nil,
        allLegal_nil, and_true]
      exact (expr_accepts env pc value).last fun code => .ret _
    · rw [moduleBody]
      · simp only [Stmt.AllProper, Stmt.allJumps, allLegal_append]
        exact Accepts.congr ((stmt_accepts env pc s henv).bind fun code =>
          (ih _).last fun more => .ret _) (by tauto)
      · exact fun value hs hrest => hlast ⟨value, hs, hrest⟩

end Compile

/-! ## Programs -/

/-- The compiler accepts a program exactly if it is proper and none of its jumps is illegal. -/
theorem exists_compile_iff (preset : List String) (program : List Stmt) :
    (∃ code, compile preset program = .ok code) ↔
      Stmt.AllProper program ∧ AllLegal (Stmt.allJumps [] program) := by
  let env : Compile.Env :=
    ⟨none, Scope.moduleNames (Scope.insertAll [] preset) program, none, []⟩
  have hstands : env.StandsIn [] := ⟨by simp [env], by simp [env], by simp, nofun⟩
  have hmain := (Compile.moduleBody_accepts env 0 program hstands).last fun body =>
    (Compile.one_accepts .return).seq fun i => .ret (body ++ Compile.drafts [i])
  constructor
  · rintro ⟨code, h⟩
    unfold compile at h
    simp only at h
    generalize hb : StateT.run _ _ = x at h
    cases x with
    | error e => cases h
    | ok x => exact (hmain _).mp ⟨x.1, x.2, hb⟩
  · intro hprogram
    obtain ⟨body, s, hb⟩ :=
      (hmain ⟨#[default], Scope.insertAll [] preset, .empty, .unknown⟩).mpr hprogram
    unfold compile
    simp only
    generalize hx : StateT.run _ _ = x
    rw [show x = .ok (body, s) from hx.symm.trans hb]
    exact ⟨_, rfl⟩

/-- In a program without starred expressions outside call arguments, and without tuples as targets
of augmented assignments, illegal jumps are all that the compiler refuses: a `break` or `continue`
outside the loops of its function, a `return` outside functions, and a jump that would leave a part
of a `try` that its `finally` clause guards. -/
theorem compile_fails_iff (preset : List String) (program : List Stmt)
    (hproper : Stmt.AllProper program) :
    (∃ e, compile preset program = .error e) ↔
      ∃ j around, (j, around) ∈ Stmt.allJumps [] program ∧ j.Illegal around := by
  have haccepts := exists_compile_iff preset program
  simp only [hproper, true_and] at haccepts
  have hjumps : (∃ j around, (j, around) ∈ Stmt.allJumps [] program ∧ j.Illegal around) ↔
      ¬ AllLegal (Stmt.allJumps [] program) := by
    simp [AllLegal, not_forall]
  rw [hjumps, ← haccepts]
  cases compile preset program with
  | ok code => simp
  | error e => simp

/-- A `break` out of a guarded part is refused, also where the loop stands in a clause that is
compiled twice; inside the clause itself it would be accepted. -/
theorem compile_fails_guarded_break :
    let leaving : Stmt := .try [.break .unknown] [] [] [.pass]
    let loop : Stmt := .while (.mk .unknown (.literal (.bool true))) [leaving] []
    let program : List Stmt := [.try [] [] [] [loop]]
    Stmt.AllProper program ∧
      (Jump.break, [.guarded, .loop]) ∈ Stmt.allJumps [] program ∧
      ∃ e, compile [] program = .error e := by
  intro leaving loop program
  have hproper : Stmt.AllProper program := by
    simp [program, loop, leaving, Stmt.AllProper, Stmt.Proper, Handler.AllProper, Expr.Unstarred,
      ExprForm.Unstarred]
  have hjump : (Jump.break, [Surrounding.guarded, .loop]) ∈ Stmt.allJumps [] program := by
    simp [program, loop, leaving, Stmt.allJumps, Stmt.jumps, Handler.allJumps]
  exact ⟨hproper, hjump,
    (compile_fails_iff [] program hproper).mpr ⟨_, _, hjump, .leavesLoop nofun (by simp)⟩⟩

end Resumable
