import Resumable.Proofs.CodeSize.Measure

/-!
# Sizes of expressions

The code of an expression has at most ten instructions for each of its nodes. Four of the ten are
kept for what the construct around the expression adds for it, such as the jump in front of an
operand or the copies in a chain of comparisons; so each form is charged for its own instructions
only.
-/

namespace Resumable.Compile

variable {α : Type} {R : Nat → α → Prop}

/-! ## Parts that are there or not -/

theorem arguments_bind_emits {p : Bool} {N : Nat} {a b : Build (List Instr)}
    {f : List Instr → Build α} (ha : Emits a fun k code => k + code.length ≤ N)
    (hb : Emits b fun k code => k + code.length ≤ N)
    (hf : ∀ code, Emits (f code) fun k c => ∀ j, j + code.length ≤ N → R (j + k) c) :
    Emits (if p = true then a >>= f else b >>= f) R := by
  split
  · exact ha.bind hf
  · exact hb.bind hf

theorem gather_bind_emits {pending : Nat} {started : Bool} {f : List Instr → Build α}
    (hf : ∀ code, code.length ≤ 2 → Emits (f code) R) :
    Emits (if (decide (pending > 0) || !started) = true then do
        let build ← one (.buildTuple pending)
        if started = true then do
          let add ← one (.binary .add)
          let g ← pure [build, add]
          f g
        else do
          let g ← pure [build]
          f g
      else do
        let g ← pure []
        f g) R := by
  split
  · refine (one_silent _).bind fun build => ?_
    split
    · exact (one_silent _).bind fun add => hf [build, add] (Nat.le_refl _)
    · exact hf [build] (Nat.le_succ _)
  · exact hf [] (Nat.zero_le _)

theorem formatSpec_bind_emits {spec : Option String} {f : Option Nat → Build α}
    (hf : ∀ s, Emits (f s) R) :
    Emits (match spec with
      | some spec => do
        let s ← some <$> pooled (·.addConstant (.string spec))
        f s
      | none => do
        let s ← pure none
        f s) R := by
  cases spec with
  | none => exact hf none
  | some spec =>
    have hpool : Silent (some <$> pooled (·.addConstant (.string spec))) := by
      rw [map_eq_pure_bind]
      exact (pooled_silent _).seq fun _ => .ret _
    exact hpool.bind hf

/-! ## Expressions -/

mutual

theorem expr_emits (env : Env) (pc : Nat) (e : Expr) :
    Emits (expr env pc e) fun k code => k + code.length + 4 ≤ 10 * e.nodes 1 := by
  match e with
  | .mk span form =>
    rw [expr]
    refine (at_silent span).bind fun _ => (exprForm_emits env pc span form).imp fun k code h => ?_
    rw [Expr.nodes]
    omega

theorem exprForm_emits (env : Env) (pc : Nat) (span : Span) (form : ExprForm) :
    Emits (exprForm env pc span form) fun k code => k + code.length ≤ 10 * form.nodes 1 + 6 := by
  match form with
  | .literal value =>
    rw [exprForm]
    exact (constant_silent value).bind fun i => .ret (by simp)
  | .format parts =>
    rw [exprForm]
    refine (formatParts_emits env pc span parts).bind fun code => (one_silent _).bind fun i =>
      .ret fun j hj => ?_
    simp only [List.length_append, List.length_singleton, ExprForm.nodes]
    omega
  | .name id =>
    rw [exprForm]
    exact (load_silent env id).bind fun i => .ret (by simp)
  | .list items | .tuple items =>
    rw [exprForm]
    refine (exprs_emits env pc items).bind fun code => (at_silent span).bind fun _ =>
      (one_silent _).bind fun i => .ret fun j hj => ?_
    simp only [List.length_append, List.length_singleton, ExprForm.nodes]
    omega
  | .dict items =>
    rw [exprForm]
    refine (dictItems_emits env pc items).bind fun code => (at_silent span).bind fun _ =>
      (one_silent _).bind fun i => .ret fun j hj => ?_
    simp only [List.length_append, List.length_singleton, ExprForm.nodes]
    omega
  | .binary left op right =>
    rw [exprForm]
    refine (expr_emits env pc left).bind fun l => (expr_emits env _ right).bind fun r =>
      (at_silent span).bind fun _ => (one_silent _).bind fun i => .ret fun j hr k hl => ?_
    simp only [List.length_append, List.length_singleton, ExprForm.nodes]
    omega
  | .all first rest | .any first rest =>
    rw [exprForm]
    refine (expr_emits env pc first).bind fun code => (boolean_emits env _ _ rest).bind fun more =>
      .ret fun j hm k hc => ?_
    simp only [List.length_append, ExprForm.nodes]
    omega
  | .not operand =>
    rw [exprForm]
    refine (expr_emits env pc operand).bind fun code => (one_silent _).bind fun i =>
      .ret fun j hj => ?_
    simp only [List.length_append, List.length_singleton, ExprForm.nodes]
    omega
  | .neg operand | .pos operand | .await operand =>
    rw [exprForm]
    refine (expr_emits env pc operand).bind fun code => (at_silent span).bind fun _ =>
      (one_silent _).bind fun i => .ret fun j hj => ?_
    simp only [List.length_append, List.length_singleton, ExprForm.nodes]
    omega
  | .compare left rest =>
    rw [exprForm]
    refine (expr_emits env pc left).bind fun l =>
      (comparisons_emits env _ span rest).bind fun chain => ?_
    split
    · refine .ret fun j hc k hl => ?_
      simp only [List.length_append, ExprForm.nodes]
      omega
    · refine (one_silent _).bind fun skip => (one_silent _).bind fun rot =>
        (one_silent _).bind fun pop => .ret fun j hc k hl => ?_
      simp only [List.length_append, List.length_cons, List.length_nil, ExprForm.nodes]
      omega
  | .conditional test body orElse =>
    rw [exprForm]
    refine (expr_emits env pc test).bind fun t => get_silent.bind fun s =>
      (expr_emits env _ body).bind fun b => get_silent.bind fun s' =>
      (expr_emits env _ orElse).bind fun o => .ret fun i ho j hb k ht => ?_
    simp only [List.length_append, List.length_singleton, ExprForm.nodes]
    omega
  | .call callee args kws =>
    rw [exprForm]
    refine (expr_emits env pc callee).bind fun c =>
      arguments_bind_emits (packed_emits env _ 0 false args)
        ((exprs_emits env _ args).imp fun _ _ h => Nat.le_add_right_of_le h) fun a =>
      (keywords_emits env _ kws).bind fun k => (pooled_silent _).bind fun names =>
      (at_silent span).bind fun _ => (one_silent _).bind fun i => .ret fun j hk m ha n hc => ?_
    simp only [List.length_append, List.length_singleton, ExprForm.nodes]
    omega
  | .methodCall object method args kws =>
    rw [exprForm]
    refine (expr_emits env pc object).bind fun c =>
      arguments_bind_emits (packed_emits env _ 0 false args)
        ((exprs_emits env _ args).imp fun _ _ h => Nat.le_add_right_of_le h) fun a =>
      (keywords_emits env _ kws).bind fun k => (pooled_silent _).bind fun names =>
      (pooled_silent _).bind fun name => (at_silent span).bind fun _ =>
      (one_silent _).bind fun i => .ret fun j hk m ha n hc => ?_
    simp only [List.length_append, List.length_singleton, ExprForm.nodes]
    omega
  | .attribute object name =>
    rw [exprForm]
    refine (expr_emits env pc object).bind fun code => (pooled_silent _).bind fun n =>
      (at_silent span).bind fun _ => (one_silent _).bind fun i => .ret fun j hj => ?_
    simp only [List.length_append, List.length_singleton, ExprForm.nodes]
    omega
  | .subscript object index =>
    rw [exprForm]
    refine (expr_emits env pc object).bind fun o => (expr_emits env _ index).bind fun x =>
      (at_silent span).bind fun _ => (one_silent _).bind fun i => .ret fun j hx k ho => ?_
    simp only [List.length_append, List.length_singleton, ExprForm.nodes]
    omega
  | .slice lower upper step =>
    rw [exprForm]
    refine (sliceBound_emits env pc lower).bind fun l =>
      (sliceBound_emits env _ upper).bind fun u =>
      (sliceBound_emits env _ step).bind fun s => (at_silent span).bind fun _ =>
      (one_silent _).bind fun i => .ret fun j hs k hu m hl => ?_
    simp only [List.length_append, List.length_singleton, ExprForm.nodes]
    omega
  | .starred operand =>
    rw [exprForm]
    exact .fail

theorem exprs_emits (env : Env) (pc : Nat) (es : List Expr) :
    Emits (exprs env pc es) fun k code => k + code.length ≤ 10 * Expr.allNodes 1 es := by
  match es with
  | [] => rw [exprs]; exact .ret (Nat.zero_le _)
  | e :: rest =>
    rw [exprs]
    refine (expr_emits env pc e).bind fun code => (exprs_emits env _ rest).bind fun more =>
      .ret fun j hm k hc => ?_
    simp only [List.length_append, Expr.allNodes]
    omega

theorem formatParts_emits (env : Env) (pc : Nat) (span : Span) (parts : List FormatPart) :
    Emits (formatParts env pc span parts) fun k code =>
      k + code.length ≤ 10 * FormatPart.allNodes 1 parts := by
  match parts with
  | [] => rw [formatParts]; exact .ret (Nat.zero_le _)
  | .text s :: rest =>
    rw [formatParts]
    refine (constant_silent _).bind fun i => (formatParts_emits env _ span rest).bind fun more =>
      .ret fun j hm => ?_
    simp only [List.length_append, List.length_singleton, FormatPart.allNodes]
    omega
  | .field value conversion spec :: rest =>
    rw [formatParts]
    refine (expr_emits env pc value).bind fun code => formatSpec_bind_emits fun s =>
      (at_silent span).bind fun _ => (one_silent _).bind fun i =>
      (formatParts_emits env _ span rest).bind fun more => .ret fun j hm k hc => ?_
    simp only [List.length_append, List.length_singleton, FormatPart.allNodes]
    omega

theorem dictItems_emits (env : Env) (pc : Nat) (items : List DictItem) :
    Emits (dictItems env pc items) fun k code =>
      k + code.length ≤ 10 * DictItem.allNodes 1 items := by
  match items with
  | [] => rw [dictItems]; exact .ret (Nat.zero_le _)
  | .mk key value :: rest =>
    rw [dictItems]
    refine (expr_emits env pc key).bind fun k => (expr_emits env _ value).bind fun v =>
      (dictItems_emits env _ rest).bind fun more => .ret fun i hm j hv n hk => ?_
    simp only [List.length_append, DictItem.allNodes]
    omega

theorem sliceBound_emits (env : Env) (pc : Nat) (bound : Option Expr) :
    Emits (sliceBound env pc bound) fun k code =>
      k + code.length ≤ 10 * Expr.maybeNodes 1 bound + 1 := by
  match bound with
  | some e =>
    rw [sliceBound]
    refine (expr_emits env pc e).imp fun k code h => ?_
    rw [Expr.maybeNodes]
    omega
  | none =>
    rw [sliceBound]
    exact (constant_silent _).bind fun i => .ret (by simp)

theorem boolean_emits (env : Env) (jump : Nat → Op) (pc : Nat) (operands : List Expr) :
    Emits (boolean env jump pc operands) fun k code =>
      k + code.length ≤ 10 * Expr.allNodes 1 operands := by
  match operands with
  | [] => rw [boolean]; exact .ret (Nat.zero_le _)
  | e :: rest =>
    rw [boolean]
    refine get_silent.bind fun s => (expr_emits env _ e).bind fun code =>
      (boolean_emits env jump _ rest).bind fun more => .ret fun j hm k hc => ?_
    simp only [List.length_append, List.length_cons, Expr.allNodes]
    omega

theorem comparisons_emits (env : Env) (pc : Nat) (span : Span) (cs : List Comparison) :
    Emits (comparisons env pc span cs) fun k code =>
      k + code.length ≤ 10 * Comparison.allNodes 1 cs := by
  match cs with
  | [] => rw [comparisons]; exact .ret (Nat.zero_le _)
  | [.mk op right] =>
    rw [comparisons]
    refine (expr_emits env pc right).bind fun r => (at_silent span).bind fun _ =>
      (one_silent _).bind fun i => .ret fun j hr => ?_
    simp only [List.length_append, List.length_singleton, Comparison.allNodes]
    omega
  | .mk op right :: next :: rest =>
    rw [comparisons]
    · refine (expr_emits env pc right).bind fun r => (at_silent span).bind fun _ =>
        (one_silent _).bind fun dup => (one_silent _).bind fun rot => (one_silent _).bind fun cmp =>
        (comparisons_emits env _ span (next :: rest)).bind fun more => .ret fun j hm k hr => ?_
      rw [Comparison.allNodes]
      simp only [List.length_append, List.length_cons, List.length_nil]
      omega
    · exact List.cons_ne_nil _ _

/-- Two of the instructions are those that gather what is left at the end. -/
theorem packed_emits (env : Env) (pc pending : Nat) (started : Bool) (args : List Expr) :
    Emits (packed env pc pending started args) fun k code =>
      k + code.length ≤ 10 * Expr.allNodes 1 args + 2 := by
  match args with
  | [] =>
    rw [packed]
    split
    · exact (one_silent _).bind fun build => (one_silent _).bind fun add => .ret (by simp)
    · exact .ret (by simp)
  | .mk span form :: rest =>
    cases form with
    | starred operand =>
      rw [packed]
      refine gather_bind_emits fun gather hg => (expr_emits env _ operand).bind fun code =>
        (at_silent span).bind fun _ => (one_silent _).bind fun tuple =>
        (one_silent _).bind fun add => (packed_emits env _ 0 true rest).bind fun more =>
        .ret fun j hm k hc => ?_
      simp only [List.length_append, List.length_cons, List.length_nil, Expr.allNodes, Expr.nodes,
        ExprForm.nodes]
      omega
    | _ =>
      rw [packed]
      · refine (expr_emits env pc _).bind fun code =>
          (packed_emits env _ (pending + 1) started rest).bind fun more => .ret fun j hm k hc => ?_
        rw [Expr.allNodes]
        simp only [List.length_append]
        omega
      · nofun

theorem keywords_emits (env : Env) (pc : Nat) (kws : List Keyword) :
    Emits (keywords env pc kws) fun k code => k + code.length ≤ 10 * Keyword.allNodes 1 kws := by
  match kws with
  | [] => rw [keywords]; exact .ret (Nat.zero_le _)
  | .mk _ value :: rest =>
    rw [keywords]
    refine (expr_emits env pc value).bind fun code => (keywords_emits env _ rest).bind fun more =>
      .ret fun j hm k hc => ?_
    simp only [List.length_append, Keyword.allNodes]
    omega

end

end Resumable.Compile
