import Mathlib.Algebra.Group.Nat.Defs
import Resumable.Proofs.CodeSize.Expression

/-!
# Sizes of statements

Two things make the code of a statement longer than its own instructions. A `finally` clause is laid
out twice, so a clause inside it is laid out four times. And a jump out of a loop has an instruction
for each block that it leaves, of which a `try` statement opens at most two. `rate F D` is what a
node comes to at most if `F` clauses stand inside one another, and `D` is ten more than the blocks
that are open at any one place.
-/

namespace Resumable.Compile

variable {α : Type} {R : Nat → α → Prop}

/-! ## Instructions for a node -/

/-- The instructions for a node where `F` clauses are laid out twice inside one another. -/
def rate (F D : Nat) : Nat := 2 ^ F * D

theorem rate_succ (F D : Nat) : rate (F + 1) D = 2 * rate F D := by
  rw [rate, rate, Nat.pow_succ, Nat.mul_comm _ 2, Nat.mul_assoc]

theorem le_rate (F D : Nat) : D ≤ rate F D := Nat.le_mul_of_pos_left D (Nat.two_pow_pos F)

theorem expr_rate {r : Nat} (hr : 10 ≤ r) (env : Env) (pc : Nat) (e : Expr) :
    Emits (expr env pc e) fun k code => k + code.length + 4 ≤ r * e.nodes 1 :=
  (expr_emits env pc e).imp fun _ _ h => Nat.le_trans h (Nat.mul_le_mul_right _ hr)

/-! ## Targets -/

mutual

theorem target_emits {r : Nat} (hr : 10 ≤ r) (env : Env) (pc : Nat) (span : Span) (t : Target) :
    Emits (target env pc span t) fun k code => k + code.length + 4 ≤ r * t.nodes 1 := by
  match t with
  | .name id =>
    rw [target]
    exact (store_silent env id).bind fun i => .ret (by simp [Target.nodes]; omega)
  | .subscript object index =>
    rw [target]
    refine (expr_rate hr env pc object).bind fun o => (expr_rate hr env _ index).bind fun i =>
      (at_silent span).bind fun _ => (one_silent _).bind fun s => .ret fun j hi k ho => ?_
    simp only [List.length_append, List.length_singleton, Target.nodes, Nat.mul_add]
    omega
  | .tuple ts =>
    rw [target]
    refine (at_silent span).bind fun _ => (one_silent _).bind fun unpack =>
      (targets_emits hr env _ span ts).bind fun code => .ret fun j hc => ?_
    simp only [List.length_cons, Target.nodes, Nat.mul_add]
    omega

theorem targets_emits {r : Nat} (hr : 10 ≤ r) (env : Env) (pc : Nat) (span : Span)
    (ts : List Target) :
    Emits (targets env pc span ts) fun k code => k + code.length ≤ r * Target.allNodes 1 ts := by
  match ts with
  | [] => rw [targets]; exact .ret (Nat.zero_le _)
  | t :: rest =>
    rw [targets]
    refine (target_emits hr env pc span t).bind fun code => (targets_emits hr env _ span rest).bind
      fun more => .ret fun j hm k hc => ?_
    simp only [List.length_append, Target.allNodes, Nat.mul_add]
    omega

end

section
variable {r : Nat} (hr : 10 ≤ r) (env : Env) (pc : Nat)
include hr

theorem assignAll_emits (span : Span) (first : Target) (rest : List Target) :
    Emits (assignAll env pc span first rest) fun k code =>
      k + code.length ≤ r * first.nodes 1 + r * Target.allNodes 1 rest := by
  induction rest generalizing pc first with
  | nil =>
    rw [assignAll]
    exact (target_emits hr env pc span first).imp fun k code h => by omega
  | cons next rest ih =>
    rw [assignAll]
    refine (one_silent _).bind fun copy => (target_emits hr env _ span first).bind fun code =>
      (ih _ next).bind fun more => .ret fun j hm k hc => ?_
    simp only [List.length_append, List.length_cons, Target.allNodes, Nat.mul_add]
    omega

theorem defaults_emits (params : List Param) :
    Emits (defaults env pc params) fun k x => k + x.1.length ≤ r * Param.allNodes 1 params := by
  induction params generalizing pc with
  | nil => rw [defaults]; exact .ret (Nat.zero_le _)
  | cons p rest ih =>
    rw [defaults]
    split
    · next hp =>
      exact (ih pc).imp fun k x h => by simpa [Param.allNodes, hp, Expr.maybeNodes] using h
    · next e hp =>
      refine (expr_rate hr env pc e).bind fun code => (ih _).bind fun x => .ret fun j hm k hc => ?_
      simp only [List.length_append, Param.allNodes, hp, Expr.maybeNodes, Nat.mul_add]
      omega

theorem importNames_emits (module : Module) (names : List (String × String)) :
    Emits (importNames env module names) fun k code => k + code.length ≤ r * names.length := by
  induction names with
  | nil => rw [importNames]; exact .ret (Nat.zero_le _)
  | cons x names ih =>
    rw [importNames]
    refine (one_silent _).bind fun i => (pooled_silent _).bind fun n => (one_silent _).bind
      fun g => (store_silent env x.2).bind fun w => ih.bind fun more => .ret fun j hm => ?_
    simp only [List.length_append, List.length_cons, List.length_nil, Nat.mul_add]
    omega

/-! ## Parts that are there or not -/

theorem value_bind_emits {value : Option Expr} {f : List Instr → Build α}
    (hf : ∀ code, Emits (f code) fun k c => ∀ j,
      j + code.length ≤ r * Expr.maybeNodes 1 value + 1 → R (j + k) c) :
    Emits (match value with
      | some e => do
        let code ← expr env pc e
        f code
      | none => do
        let i ← constant .none
        let code ← pure [i]
        f code) R := by
  cases value with
  | none =>
    exact (constant_silent _).bind fun i => (hf [i]).imp fun k c h => by
      simpa using h 0 (Nat.le_add_left ..)
  | some e =>
    refine (expr_rate hr env pc e).bind fun code => (hf code).imp fun k c h j hj => h j ?_
    rw [Expr.maybeNodes]
    omega

theorem message_bind_emits {message : Option Expr} {f : List Instr → Build α}
    (hf : ∀ code, Emits (f code) fun k c => ∀ j,
      j + code.length ≤ r * Expr.maybeNodes 1 message → R (j + k) c) :
    Emits (match message with
      | some e => do
        let code ← expr env pc e
        f code
      | none => do
        let code ← pure []
        f code) R := by
  cases message with
  | none => exact (hf []).imp fun k c h => by simpa using h 0 (Nat.zero_le _)
  | some e =>
    refine (expr_rate hr env pc e).bind fun code => (hf code).imp fun k c h j hj => h j ?_
    rw [Expr.maybeNodes]
    omega

end

theorem binding_bind_emits (env : Env) {name : Option String} {f : Instr → Build α}
    (hf : ∀ i, Emits (f i) R) :
    Emits (match name with
      | some id => do
        let bind ← store env id
        f bind
      | none => do
        let bind ← one .pop
        f bind) R := by
  cases name with
  | none => exact (one_silent _).bind hf
  | some id => exact (store_silent env id).bind hf

theorem drop_bind_emits {isFor : Bool} {f : List Instr → Build α}
    (hf : ∀ drop, drop.length ≤ 1 → Emits (f drop) R) :
    Emits (if isFor = true then do
        let i ← one .pop
        let drop ← pure [i]
        f drop
      else do
        let drop ← pure []
        f drop) R := by
  split
  · exact (one_silent _).bind fun i => hf [i] (Nat.le_refl _)
  · exact hf [] (Nat.zero_le _)

/-! ## Jumps, handlers and functions -/

theorem leave_emits (word : String) (span : Span) (bs : List Block) :
    Emits (leave word span bs) fun k code => k + code.length ≤ bs.length := by
  induction bs with
  | nil => exact .ret (Nat.zero_le _)
  | cons b bs ih =>
    cases b with
    | guarded => exact .fail
    | tryBody | handling =>
      refine (one_silent _).bind fun i => ih.bind fun code => .ret fun j hj => ?_
      simp only [List.length_cons]
      omega

theorem blocksInside_length_le (env : Env) (loop : Loop) :
    (blocksInside env loop).length ≤ env.blocks.length := List.length_take_le' ..

section
variable {body handlers orElse : Env → Nat → Build (List Draft)} {env : Env} {m n h : Nat}

theorem layTry_emits
    (hbody : ∀ pc, Emits (body { env with blocks := .tryBody :: env.blocks } pc) fun k code =>
      k + code.length ≤ m)
    (hhandlers : ∀ pc, Emits (handlers env pc) fun k code => k + code.length ≤ h)
    (horElse : ∀ pc, Emits (orElse env pc) fun k code => k + code.length ≤ n) (pc : Nat) :
    Emits (layTry env pc body handlers orElse) fun k code => k + code.length ≤ m + h + n + 4 := by
  unfold layTry
  refine get_silent.bind fun s => (hbody _).bind fun b => (one_silent _).bind fun pop =>
    (horElse _).bind fun o => get_silent.bind fun s' => (hhandlers _).bind fun c =>
    (one_silent _).bind fun again => .ret fun i hc j ho k hb => ?_
  simp only [List.length_append, length_drafts, List.length_singleton]
  omega

theorem layFinally_emits
    (hbody : ∀ pc, Emits (body { env with blocks := .guarded :: env.blocks } pc) fun k code =>
      k + code.length ≤ m)
    (hnormal : ∀ pc, Emits (orElse env pc) fun k code => k + code.length ≤ n)
    (hraised : ∀ pc, Emits (orElse { env with blocks := .handling :: env.blocks } pc) fun k code =>
      k + code.length ≤ n) (pc : Nat) :
    Emits (layFinally env pc body orElse) fun k code => k + code.length ≤ m + 2 * n + 5 := by
  unfold layFinally
  refine get_silent.bind fun s => (hbody _).bind fun b => (one_silent _).bind fun pop =>
    (hnormal _).bind fun o => get_silent.bind fun s' => (one_silent _).bind fun drop =>
    (hraised _).bind fun c => (one_silent _).bind fun again => .ret fun i hc j ho k hb => ?_
  simp only [List.length_append, length_drafts, List.length_cons, List.length_nil]
  omega

theorem functionBody_emits {body : Build (List Draft)}
    (hbody : Emits body fun k code => k + code.length ≤ n) :
    Emits (functionBody body) fun k code => k + code.length ≤ n + 2 := by
  refine hbody.bind fun b => (constant_silent _).bind fun c => (one_silent _).bind fun i =>
    .ret fun j hj => ?_
  have := b.length_filterMap_le Draft.instr?
  simp only [List.length_append, List.length_cons, List.length_nil]
  omega

/-- All that a function adds is its own code and the functions inside it. -/
theorem addFunction_emits {name : String} {locals : List String} {count : Nat} {span : Span}
    {code : Build (List Instr)} (hcode : Emits code fun k code => k + code.length ≤ n) :
    Emits (addFunction name locals count span code) fun k _ => k ≤ n := by
  intro s a t hs
  change (code ⟨s.functions.push default, s.globals, .empty, span⟩ >>= fun x => Except.ok
    (s.functions.size, { x.2 with
      functions := x.2.functions.setIfInBounds s.functions.size
        ⟨name, x.1.toArray, x.2.pool, locals, count⟩
      pool := s.pool, span })) = _ at hs
  cases hb : code ⟨s.functions.push default, s.globals, .empty, span⟩ with
  | error e => rw [hb] at hs; cases hs
  | ok x =>
    obtain ⟨instrs, u⟩ := x
    rw [hb] at hs
    cases hs
    obtain ⟨k, hk, hn⟩ := hcode hb
    have hpush : Code.lengthOf (s.functions.push default).toList =
        Code.lengthOf s.functions.toList := by
      rw [Array.toList_push, Code.lengthOf_append]
      rfl
    have hset : ∀ c : Code, Code.lengthOf (u.functions.setIfInBounds s.functions.size c).toList ≤
        Code.lengthOf u.functions.toList + c.instrs.size := fun c => by
      rw [Array.toList_setIfInBounds]
      exact Code.lengthOf_set_le ..
    have hown := hset ⟨name, instrs.toArray, u.pool, locals, count⟩
    simp only [List.size_toArray] at hown
    exact ⟨k + instrs.length, by simp only at hk ⊢; omega, hn⟩

end

/-! ## Statements -/

mutual

/-- At the place of the statement as many blocks are open as the environment says. -/
theorem stmt_emits (F D : Nat) (env : Env) (pc : Nat) (s : Stmt) (hF : s.finallyDepth ≤ F)
    (hD : env.blocks.length + 2 * s.tryDepth + 10 ≤ D) :
    Emits (stmt env pc s) fun k code => k + code.length ≤ rate F D * s.nodes 1 := by
  have hr : 10 ≤ rate F D := Nat.le_trans (by omega) (le_rate F D)
  match s with
  | .expr value =>
    rw [stmt]
    refine (expr_rate hr env pc value).bind fun code => (one_silent _).bind fun i =>
      .ret fun j hj => ?_
    simp only [length_drafts, List.length_append, List.length_singleton, Stmt.nodes, Nat.mul_add]
    omega
  | .assign first rest value =>
    rw [stmt]
    refine (expr_rate hr env pc value).bind fun code =>
      (assignAll_emits hr env _ value.span first rest).bind fun more => .ret fun j hm k hc => ?_
    simp only [length_drafts, List.length_append, Stmt.nodes, Nat.mul_add]
    omega
  | .augAssign (.name id) op value span =>
    rw [stmt]
    refine (at_silent span).bind fun _ => (load_silent env id).bind fun read =>
      (expr_rate hr env _ value).bind fun code => (at_silent span).bind fun _ =>
      (one_silent _).bind fun i => (store_silent env id).bind fun write => .ret fun j hc => ?_
    simp only [length_drafts, List.length_append, List.length_cons, List.length_nil, Stmt.nodes,
      Nat.mul_add]
    omega
  | .augAssign (.subscript object index) op value span =>
    rw [stmt]
    refine (expr_rate hr env pc object).bind fun o => (expr_rate hr env _ index).bind fun i =>
      (at_silent span).bind fun _ => (one_silent _).bind fun dup => (one_silent _).bind fun read =>
      (expr_rate hr env _ value).bind fun code => (at_silent span).bind fun _ =>
      (one_silent _).bind fun update => (one_silent _).bind fun rot =>
      (one_silent _).bind fun write => .ret fun l hc j hi k ho => ?_
    simp only [length_drafts, List.length_append, List.length_cons, List.length_nil, Stmt.nodes,
      Target.nodes, Nat.mul_add]
    omega
  | .augAssign (.tuple _) _ _ span =>
    rw [stmt]
    exact .fail
  | .ifElse test body orElse =>
    simp only [Stmt.finallyDepth, Stmt.tryDepth] at hF hD
    rw [stmt]
    refine (expr_rate hr env pc test).bind fun t => get_silent.bind fun s =>
      (stmts_emits F D env _ body (by omega) (by omega)).bind fun b => ?_
    split
    · refine .ret fun j hb k ht => ?_
      simp only [length_drafts, List.length_append, List.length_singleton, Stmt.nodes, Nat.mul_add]
      omega
    · refine get_silent.bind fun s' =>
        (stmts_emits F D env _ orElse (by omega) (by omega)).bind fun o =>
        .ret fun l ho j hb k ht => ?_
      simp only [length_drafts, List.length_append, List.length_singleton, Stmt.nodes, Nat.mul_add]
      omega
  | .while test body orElse =>
    simp only [Stmt.finallyDepth, Stmt.tryDepth] at hF hD
    rw [stmt]
    refine (expr_rate hr env pc test).bind fun t => get_silent.bind fun s =>
      (stmts_emits F D _ _ body (by omega) (by simp only; omega)).bind fun b =>
      (one_silent _).bind fun back =>
      (stmts_emits F D env _ orElse (by omega) (by omega)).bind fun o =>
      .ret fun l ho j hb k ht => ?_
    simp only [length_drafts, List.length_append, List.length_map, List.length_singleton,
      Stmt.nodes, Nat.mul_add]
    omega
  | .for t iter body orElse span =>
    simp only [Stmt.finallyDepth, Stmt.tryDepth] at hF hD
    rw [stmt]
    refine (expr_rate hr env pc iter).bind fun i => (at_silent span).bind fun _ =>
      (one_silent _).bind fun getIter => (target_emits hr env _ span t).bind fun bind =>
      (stmts_emits F D _ _ body (by omega) (by simp only; omega)).bind fun b =>
      (one_silent _).bind fun back =>
      (stmts_emits F D env _ orElse (by omega) (by omega)).bind fun o =>
      .ret fun l ho j hb k ht n hi => ?_
    simp only [length_drafts, List.length_append, List.length_map, List.length_cons,
      List.length_nil, Stmt.nodes, Nat.mul_add]
    omega
  | .break span =>
    rw [stmt]
    refine (at_silent span).bind fun _ => ?_
    split
    · exact .fail
    · next loop _ =>
      refine (leave_emits _ span _).bind fun out => drop_bind_emits fun drop hdrop =>
        .ret fun j hout => ?_
      have := blocksInside_length_le env loop
      have := le_rate F D
      simp only [length_drafts, List.length_append, List.length_singleton, Stmt.nodes]
      omega
  | .continue span =>
    rw [stmt]
    refine (at_silent span).bind fun _ => ?_
    split
    · exact .fail
    · next loop _ =>
      refine (leave_emits _ span _).bind fun out => (one_silent _).bind fun i =>
        .ret fun j hout => ?_
      have := blocksInside_length_le env loop
      have := le_rate F D
      simp only [length_drafts, List.length_append, List.length_singleton, Stmt.nodes]
      omega
  | .pass => rw [stmt]; exact .ret (Nat.zero_le _)
  | .global _ => rw [stmt]; exact .ret (Nat.zero_le _)
  | .functionDef name params body span =>
    simp only [Stmt.finallyDepth, Stmt.tryDepth] at hF hD
    rw [stmt]
    refine (at_silent span).bind fun _ => (defaults_emits hr env pc params).bind fun x =>
      (addFunction_emits (functionBody_emits (stmts_emits F D _ 0 body hF (by simp; omega)))).bind
      fun index => (one_silent _).bind fun make => (store_silent env name).bind fun w =>
      .ret fun j hj k hx => ?_
    simp only [length_drafts, List.length_append, List.length_cons, List.length_nil, Stmt.nodes,
      Nat.mul_add]
    omega
  | .return value span =>
    rw [stmt]
    split
    · exact .fail_bind
    · simp only
      split
      · exact .fail_bind
      · refine value_bind_emits hr env pc fun code => (at_silent span).bind fun _ =>
          (one_silent _).bind fun i => .ret fun j hj => ?_
        simp only [length_drafts, List.length_append, List.length_singleton, Stmt.nodes,
          Nat.mul_add]
        omega
  | .try body hs orElse finally_ =>
    simp only [Stmt.finallyDepth, Stmt.tryDepth] at hF hD
    have hinner : ∀ (env : Env) (pc : Nat), env.blocks.length + 2 * max
          (max (Stmt.allTryDepth body) (Handler.allTryDepth hs)) (Stmt.allTryDepth orElse) + 11 ≤
            D →
        Emits (if hs.isEmpty = true then do
          let b ← stmts env pc body
          return b ++ (← stmts env (pc + b.length) orElse)
        else
          layTry env pc (fun env pc => stmts env pc body) (fun env pc => handlers env pc hs)
            (fun env pc => stmts env pc orElse)) fun k code => k + code.length ≤
          rate F D * Stmt.allNodes 1 body + rate F D * Handler.allNodes 1 hs +
            rate F D * Stmt.allNodes 1 orElse + 4 := by
      intro env pc hD
      split
      · refine (stmts_emits F D env pc body (by omega) (by omega)).bind fun b =>
          (stmts_emits F D env _ orElse (by omega) (by omega)).bind fun o =>
          .ret fun j ho k hb => ?_
        simp only [List.length_append]
        omega
      · exact layTry_emits
          (fun pc => stmts_emits F D _ pc body (by omega) (by simp only [List.length_cons]; omega))
          (fun pc => handlers_emits F D env pc hs (by omega) (by omega))
          (fun pc => stmts_emits F D env pc orElse (by omega) (by omega)) pc
    rw [stmt]
    split
    · next hfinal =>
      refine (hinner env pc (by omega)).imp fun k code h => ?_
      simp only [Stmt.nodes, Nat.mul_add]
      omega
    · next hfinal =>
      rw [if_neg hfinal] at hF
      obtain ⟨G, rfl⟩ : ∃ G, F = G + 1 := ⟨F - 1, by omega⟩
      refine (layFinally_emits (fun pc => hinner _ pc (by simp only [List.length_cons]; omega))
        (fun pc => stmts_emits G D env pc finally_ (by omega) (by omega))
        (fun pc => stmts_emits G D _ pc finally_ (by omega)
          (by simp only [List.length_cons]; omega)) pc).imp fun k code h => ?_
      -- both copies of the clause together come to the rate of the whole statement
      have hcopies : rate (G + 1) D * Stmt.allNodes 1 finally_ =
          2 * (rate G D * Stmt.allNodes 1 finally_) := by rw [rate_succ, Nat.mul_assoc]
      simp only [Stmt.nodes, Nat.mul_add]
      omega
  | .raise (some e) span =>
    rw [stmt]
    refine (expr_rate hr env pc e).bind fun code => (at_silent span).bind fun _ =>
      (one_silent _).bind fun i => .ret fun j hj => ?_
    simp only [length_drafts, List.length_append, List.length_singleton, Stmt.nodes,
      Expr.maybeNodes, Nat.mul_add]
    omega
  | .raise none span =>
    rw [stmt]
    refine (at_silent span).bind fun _ => (one_silent _).bind fun i => .ret ?_
    simp only [length_drafts, List.length_singleton, Stmt.nodes, Nat.mul_add]
    omega
  | .assert test message span =>
    rw [stmt]
    refine (expr_rate hr env pc test).bind fun t => get_silent.bind fun s =>
      (at_silent span).bind fun _ => (one_silent _).bind fun cls =>
      message_bind_emits hr env _ fun m => (at_silent span).bind fun _ =>
      (one_silent _).bind fun call => (one_silent _).bind fun raise => .ret fun j hm k ht => ?_
    simp only [length_drafts, List.length_append, List.length_cons, List.length_nil, Stmt.nodes,
      Nat.mul_add]
    omega
  | .import module binding =>
    rw [stmt]
    refine (one_silent _).bind fun i => (store_silent env binding).bind fun w => .ret ?_
    simp only [length_drafts, List.length_cons, List.length_nil, Stmt.nodes]
    omega
  | .importFrom module names span =>
    rw [stmt]
    refine (at_silent span).bind fun _ => (importNames_emits hr env module names).bind fun code =>
      .ret fun j hc => ?_
    simp only [length_drafts, Stmt.nodes, Nat.mul_add, Nat.mul_one]
    omega

theorem stmts_emits (F D : Nat) (env : Env) (pc : Nat) (ss : List Stmt)
    (hF : Stmt.allFinallyDepth ss ≤ F)
    (hD : env.blocks.length + 2 * Stmt.allTryDepth ss + 10 ≤ D) :
    Emits (stmts env pc ss) fun k code => k + code.length ≤ rate F D * Stmt.allNodes 1 ss := by
  match ss with
  | [] => rw [stmts]; exact .ret (Nat.zero_le _)
  | s :: rest =>
    simp only [Stmt.allFinallyDepth, Stmt.allTryDepth] at hF hD
    rw [stmts]
    refine (stmt_emits F D env pc s (by omega) (by omega)).bind fun code =>
      (stmts_emits F D env _ rest (by omega) (by omega)).bind fun more => .ret fun j hm k hc => ?_
    simp only [List.length_append, Stmt.allNodes, Nat.mul_add]
    omega

/-- Inside a clause one more block is open. -/
theorem handlers_emits (F D : Nat) (env : Env) (pc : Nat) (hs : List Handler)
    (hF : Handler.allFinallyDepth hs ≤ F)
    (hD : env.blocks.length + 2 * Handler.allTryDepth hs + 11 ≤ D) :
    Emits (handlers env pc hs) fun k code =>
      k + code.length ≤ rate F D * Handler.allNodes 1 hs := by
  have hr : 10 ≤ rate F D := Nat.le_trans (by omega) (le_rate F D)
  match hs with
  | [] => rw [handlers]; exact .ret (Nat.zero_le _)
  | .mk none name body :: rest =>
    simp only [Handler.allFinallyDepth, Handler.allTryDepth] at hF hD
    rw [handlers]
    refine .ret_bind (get_silent.bind fun s => binding_bind_emits env fun bind =>
      (stmts_emits F D _ _ body (by omega) (by simp only [List.length_cons]; omega)).bind fun b =>
      (one_silent _).bind fun pop => get_silent.bind fun s' =>
      (handlers_emits F D env _ rest (by omega) (by omega)).bind fun more =>
      .ret fun j hm k hb => ?_)
    simp only [length_drafts, List.length_append, List.length_cons, List.length_nil,
      Handler.allNodes, Expr.maybeNodes, Nat.mul_add, Option.isSome_none, Bool.false_eq_true,
      if_false]
    omega
  | .mk (some e) name body :: rest =>
    simp only [Handler.allFinallyDepth, Handler.allTryDepth] at hF hD
    rw [handlers]
    refine (one_silent _).bind fun copy => (expr_rate hr env _ e).bind fun code =>
      (at_silent _).bind fun _ => (one_silent _).bind fun check =>
      .ret_bind (get_silent.bind fun s => binding_bind_emits env fun bind =>
      (stmts_emits F D _ _ body (by omega) (by simp only [List.length_cons]; omega)).bind fun b =>
      (one_silent _).bind fun pop => get_silent.bind fun s' =>
      (handlers_emits F D env _ rest (by omega) (by omega)).bind fun more =>
      .ret fun l hm j hb k hc => ?_)
    simp only [length_drafts, List.length_append, List.length_cons, List.length_nil,
      Handler.allNodes, Expr.maybeNodes, Nat.mul_add, Option.isSome_some, if_true]
    omega

end

end Resumable.Compile
