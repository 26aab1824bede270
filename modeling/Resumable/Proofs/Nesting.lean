import Resumable.Program.Lowering

/-!
# Nesting of programs

`Stmt.allDepth w u` is the length of the longest chain of statements and expressions of a program
that stand inside one another. Lowering takes a level away for most of them. It takes none for a
star among the arguments of a call, which counts `w` here, nor for a target of an assignment or an
`elif`, which count `u`. So a bound holds only for chains without the latter two
(`readProgram_depth_le`); with them there is none (`targets_unbounded`, `elifs_unbounded`).
-/

namespace Resumable

variable (w u : Nat)

/-! ## Depths -/

mutual

/-- The length of the longest chain of expressions from an expression on. -/
def Expr.depth : Expr → Nat
  | .mk _ form => form.depth

def ExprForm.depth : ExprForm → Nat
  | .literal _ | .name _ => 1
  | .format parts => FormatPart.allDepth parts + 1
  | .list items | .tuple items => Expr.allDepth items + 1
  | .dict items => DictItem.allDepth items + 1
  | .binary left _ right => max left.depth right.depth + 1
  | .all first rest | .any first rest => max first.depth (Expr.allDepth rest) + 1
  | .not operand | .neg operand | .pos operand | .await operand => operand.depth + 1
  | .compare left rest => max left.depth (Comparison.allDepth rest) + 1
  | .conditional test body orElse => max test.depth (max body.depth orElse.depth) + 1
  | .call callee args kws => max callee.depth (max (Expr.allDepth args) (Keyword.allDepth kws)) + 1
  | .methodCall object _ args kws =>
    max object.depth (max (Expr.allDepth args) (Keyword.allDepth kws)) + 1
  | .attribute object _ => object.depth + 1
  | .subscript object index => max object.depth index.depth + 1
  | .slice lower upper step =>
    max (Expr.maybeDepth lower) (max (Expr.maybeDepth upper) (Expr.maybeDepth step)) + 1
  | .starred operand => operand.depth + w

def Expr.allDepth : List Expr → Nat
  | [] => 0
  | e :: rest => max e.depth (Expr.allDepth rest)

def Expr.maybeDepth : Option Expr → Nat
  | none => 0
  | some e => e.depth

def FormatPart.allDepth : List FormatPart → Nat
  | [] => 0
  | .text _ :: rest => FormatPart.allDepth rest
  | .field value _ _ :: rest => max value.depth (FormatPart.allDepth rest)

def DictItem.allDepth : List DictItem → Nat
  | [] => 0
  | .mk key value :: rest => max (max key.depth value.depth) (DictItem.allDepth rest)

def Comparison.allDepth : List Comparison → Nat
  | [] => 0
  | .mk _ right :: rest => max right.depth (Comparison.allDepth rest)

def Keyword.allDepth : List Keyword → Nat
  | [] => 0
  | .mk _ value :: rest => max value.depth (Keyword.allDepth rest)

end

mutual

def Target.depth : Target → Nat
  | .name _ => u
  | .subscript object index => max (object.depth w) (index.depth w) + u
  | .tuple ts => Target.allDepth ts + u

def Target.allDepth : List Target → Nat
  | [] => 0
  | t :: rest => max t.depth (Target.allDepth rest)

end

def Param.allDepth : List Param → Nat
  | [] => 0
  | p :: rest => max (Expr.maybeDepth w p.default) (Param.allDepth rest)

mutual

/-- The length of the longest chain of statements, expressions and targets from a statement on. -/
def Stmt.depth : Stmt → Nat
  | .expr value => value.depth w + 1
  | .assign first rest value =>
    max (first.depth w u) (max (Target.allDepth w u rest) (value.depth w)) + 1
  | .augAssign target _ value _ => max (target.depth w u) (value.depth w) + 1
  | .ifElse test body orElse =>
    max (test.depth w) (max (Stmt.allDepth body) (Stmt.elseDepth orElse)) + 1
  | .while test body orElse =>
    max (test.depth w) (max (Stmt.allDepth body) (Stmt.allDepth orElse)) + 1
  | .for target iter body orElse _ =>
    max (max (target.depth w u) (iter.depth w))
      (max (Stmt.allDepth body) (Stmt.allDepth orElse)) + 1
  | .break _ | .continue _ | .pass | .global _ | .import .. | .importFrom .. => 1
  | .functionDef _ params body _ => max (Param.allDepth w params) (Stmt.allDepth body) + 1
  | .return value _ | .raise value _ => Expr.maybeDepth w value + 1
  | .try body handlers orElse finally_ =>
    max (max (Stmt.allDepth body) (Handler.allDepth handlers))
      (max (Stmt.allDepth orElse) (Stmt.allDepth finally_)) + 1
  | .assert test message _ => max (test.depth w) (Expr.maybeDepth w message) + 1

def Stmt.allDepth : List Stmt → Nat
  | [] => 0
  | s :: rest => max s.depth (Stmt.allDepth rest)

/-- The depth of the `else` part of an `if`; it is an `elif` if it is one `if`. -/
def Stmt.elseDepth : List Stmt → Nat
  | [] => 0
  | [.ifElse test body orElse] =>
    max (test.depth w) (max (Stmt.allDepth body) (Stmt.elseDepth orElse)) + u
  | s :: rest => max s.depth (Stmt.allDepth rest)

def Handler.allDepth : List Handler → Nat
  | [] => 0
  | .mk type _ body :: rest =>
    max (max (Expr.maybeDepth w type) (Stmt.allDepth body)) (Handler.allDepth rest)

end

/-- Counting an `elif` as a statement makes an `else` part no less deep. -/
theorem Stmt.elseDepth_le (ss : List Stmt) : Stmt.elseDepth w 0 ss ≤ Stmt.allDepth w 0 ss := by
  match ss with
  | [] => exact Nat.le_refl _
  | [.ifElse test body orElse] =>
    simp only [Stmt.elseDepth, Stmt.allDepth, Stmt.depth]
    omega
  | s :: _ :: _ => cases s <;> exact Nat.le_refl _
  | [.expr _] | [.assign ..] | [.augAssign ..] | [.while ..] | [.for ..] | [.break _]
  | [.continue _] | [.pass] | [.functionDef ..] | [.return ..] | [.global _] | [.try ..]
  | [.raise ..] | [.assert ..] | [.import ..] | [.importFrom ..] => exact Nat.le_refl _

namespace Lowering

/-! ## What lowering gives -/

/-- What holds of the result if there is one. -/
def Gives {α : Type} (x : Lower α) (P : α → Prop) : Prop := ∀ ⦃a⦄, x = .ok a → P a

namespace Gives

variable {α β : Type} {P : α → Prop} {Q : β → Prop}

theorem ret {a : α} (h : P a) : Gives (pure a) P := fun _ ha => Except.ok.inj ha ▸ h

theorem fail {e : SourceError} : Gives (throw e) P := fun _ ha => nomatch ha

theorem fail_bind {e : SourceError} {f : α → Lower β} : Gives (throw e >>= f) Q :=
  fun _ ha => nomatch ha

theorem bind {x : Lower α} {f : α → Lower β} (hx : Gives x P) (hf : ∀ a, P a → Gives (f a) Q) :
    Gives (x >>= f) Q := by
  intro b hb
  cases x with
  | error e => cases hb
  | ok a => exact hf a (hx rfl) hb

theorem imp {x : Lower α} {P' : α → Prop} (hx : Gives x P) (h : ∀ a, P a → P' a) : Gives x P' :=
  fun _ ha => h _ (hx ha)

/-- Whatever a part gives. -/
theorem any (x : Lower α) : Gives x fun _ => True := fun _ _ => trivial

end Gives

/-- How deep an expression with `n` levels left can be: below each level may stand a star. -/
def limit (w n : Nat) : Nat := (w + 1) * n

theorem limit_succ (w n : Nat) : limit w (n + 1) = limit w n + w + 1 := Nat.mul_succ _ n

theorem descend_gives {α : Type} {w levels : Nat} {span : Span} {lower : Nat → Lower α}
    {depth : α → Nat} (h : ∀ n, Gives (lower n) fun a => depth a ≤ limit w n + w + 1) :
    Gives (descend levels span lower) fun a => depth a ≤ limit w levels := by
  cases levels with
  | zero => exact .fail
  | succ n => rw [descend, limit_succ]; exact h n

mutual

theorem expr_gives (levels : Nat) (e : Surface.Expr) :
    Gives (expr levels e) fun x => x.depth w ≤ limit w levels := by
  match e with
  | .mk span form =>
    rw [expr]
    exact descend_gives fun n => (exprForm_gives n span form).bind fun x hx => .ret hx

theorem exprForm_gives (n : Nat) (span : Span) (form : Surface.ExprForm) :
    Gives (exprForm n span form) fun x => x.depth w ≤ limit w n + w + 1 := by
  match form with
  | .name id => rw [exprForm]; exact .ret (by rw [ExprForm.depth]; omega)
  | .literal value => rw [exprForm]; exact .ret (by rw [ExprForm.depth]; omega)
  | .int value spelling =>
    rw [exprForm]
    split
    · exact .ret (by rw [ExprForm.depth]; omega)
    · exact .fail
  | .format parts =>
    rw [exprForm]
    exact (formatParts_gives n span parts).bind fun ps hps => .ret (by rw [ExprForm.depth]; omega)
  | .list items | .tuple items =>
    rw [exprForm]
    exact (exprs_gives n items).bind fun es hes => .ret (by rw [ExprForm.depth]; omega)
  | .dict items =>
    rw [exprForm]
    exact (dictItems_gives n span items).bind fun ds hds => .ret (by rw [ExprForm.depth]; omega)
  | .binary left op right =>
    rw [exprForm]
    exact (expr_gives n left).bind fun l hl => (expr_gives n right).bind fun r hr =>
      (Gives.any _).bind fun op _ => .ret (by rw [ExprForm.depth]; omega)
  | .unary op operand =>
    rw [exprForm]
    refine (expr_gives n operand).bind fun x hx => ?_
    cases op with
    | not | neg | pos => exact .ret (by rw [ExprForm.depth]; omega)
    | invert => exact .fail
  | .all first rest | .any first rest =>
    rw [exprForm]
    exact (expr_gives n first).bind fun x hx => (exprs_gives n rest).bind fun xs hxs =>
      .ret (by rw [ExprForm.depth]; omega)
  | .compare left rest =>
    rw [exprForm]
    exact (expr_gives n left).bind fun x hx => (comparisons_gives n rest).bind fun cs hcs =>
      .ret (by rw [ExprForm.depth]; omega)
  | .conditional test body orElse =>
    rw [exprForm]
    exact (expr_gives n test).bind fun t ht => (expr_gives n body).bind fun b hb =>
      (expr_gives n orElse).bind fun o ho => .ret (by rw [ExprForm.depth]; omega)
  | .call callee args kws =>
    rw [exprForm]
    refine (arguments_gives n args).bind fun as has => (keywords_gives n span kws).bind
      fun ks hks => ?_
    have hcallee := expr_gives n callee
    match callee with
    | .mk _ (.attribute object method) =>
      exact (expr_gives n object).bind fun x hx => .ret (by rw [ExprForm.depth]; omega)
    | .mk _ (.name _) | .mk _ (.literal _) | .mk _ (.int ..) | .mk _ (.format _) | .mk _ (.list _)
    | .mk _ (.tuple _) | .mk _ (.dict _) | .mk _ (.binary ..) | .mk _ (.unary ..)
    | .mk _ (.all ..) | .mk _ (.any ..) | .mk _ (.compare ..) | .mk _ (.conditional ..)
    | .mk _ (.call ..) | .mk _ (.subscript ..) | .mk _ (.slice ..) | .mk _ (.await _)
    | .mk _ (.starred _) | .mk _ (.unsupported _) =>
      exact hcallee.bind fun x hx => .ret (by rw [ExprForm.depth]; omega)
  | .attribute object name =>
    rw [exprForm]
    exact (expr_gives n object).bind fun x hx => .ret (by rw [ExprForm.depth]; omega)
  | .subscript object index =>
    rw [exprForm]
    exact (expr_gives n object).bind fun x hx => (expr_gives n index).bind fun i hi =>
      .ret (by rw [ExprForm.depth]; omega)
  | .slice lower upper step =>
    rw [exprForm]
    exact (optional_gives n lower).bind fun l hl => (optional_gives n upper).bind fun u hu =>
      (optional_gives n step).bind fun s hs => .ret (by rw [ExprForm.depth]; omega)
  | .await operand =>
    rw [exprForm]
    exact (expr_gives n operand).bind fun x hx => .ret (by rw [ExprForm.depth]; omega)
  | .starred _ => rw [exprForm]; exact .fail
  | .unsupported construct => rw [exprForm]; exact .fail

theorem exprs_gives (n : Nat) (es : List Surface.Expr) :
    Gives (exprs n es) fun xs => Expr.allDepth w xs ≤ limit w n := by
  match es with
  | [] => rw [exprs]; exact .ret (Nat.zero_le _)
  | e :: rest =>
    rw [exprs]
    exact (expr_gives n e).bind fun x hx => (exprs_gives n rest).bind fun xs hxs =>
      .ret (Nat.max_le.mpr ⟨hx, hxs⟩)

theorem optional_gives (n : Nat) (e : Option Surface.Expr) :
    Gives (optional n e) fun x => Expr.maybeDepth w x ≤ limit w n := by
  match e with
  | none => rw [optional]; exact .ret (Nat.zero_le _)
  | some e => rw [optional]; exact (expr_gives n e).bind fun x hx => .ret hx

/-- A star is one more than what stands behind it. -/
theorem arguments_gives (n : Nat) (es : List Surface.Expr) :
    Gives (arguments n es) fun xs => Expr.allDepth w xs ≤ limit w n + w := by
  match es with
  | [] => rw [arguments]; exact .ret (Nat.zero_le _)
  | .mk span form :: rest =>
    cases form with
    | starred operand =>
      rw [arguments]
      exact (expr_gives n operand).bind fun x hx => (arguments_gives n rest).bind fun xs hxs =>
        .ret (Nat.max_le.mpr ⟨Nat.add_le_add_right hx w, hxs⟩)
    | _ =>
      rw [arguments]
      · exact (expr_gives n _).bind fun x hx => (arguments_gives n rest).bind fun xs hxs =>
          .ret (Nat.max_le.mpr ⟨Nat.le_add_right_of_le hx, hxs⟩)
      · nofun

theorem keywords_gives (n : Nat) (span : Span) (kws : List Surface.Keyword) :
    Gives (keywords n span kws) fun ks => Keyword.allDepth w ks ≤ limit w n := by
  match kws with
  | [] => rw [keywords]; exact .ret (Nat.zero_le _)
  | .named name value :: rest =>
    rw [keywords]
    exact (expr_gives n value).bind fun x hx => (keywords_gives n span rest).bind fun ks hks =>
      .ret (Nat.max_le.mpr ⟨hx, hks⟩)
  | .unpack _ :: _ => rw [keywords]; exact .fail

theorem dictItems_gives (n : Nat) (span : Span) (items : List Surface.DictItem) :
    Gives (dictItems n span items) fun ds => DictItem.allDepth w ds ≤ limit w n := by
  match items with
  | [] => rw [dictItems]; exact .ret (Nat.zero_le _)
  | .pair key value :: rest =>
    rw [dictItems]
    exact (expr_gives n key).bind fun k hk => (expr_gives n value).bind fun v hv =>
      (dictItems_gives n span rest).bind fun ds hds =>
      .ret (Nat.max_le.mpr ⟨Nat.max_le.mpr ⟨hk, hv⟩, hds⟩)
  | .unpack _ :: _ => rw [dictItems]; exact .fail

theorem comparisons_gives (n : Nat) (cs : List Surface.Comparison) :
    Gives (comparisons n cs) fun xs => Comparison.allDepth w xs ≤ limit w n := by
  match cs with
  | [] => rw [comparisons]; exact .ret (Nat.zero_le _)
  | .mk op right :: rest =>
    rw [comparisons]
    exact (expr_gives n right).bind fun x hx => (comparisons_gives n rest).bind fun xs hxs =>
      .ret (Nat.max_le.mpr ⟨hx, hxs⟩)

theorem formatParts_gives (n : Nat) (span : Span) (parts : List Surface.FormatPart) :
    Gives (formatParts n span parts) fun ps => FormatPart.allDepth w ps ≤ limit w n := by
  match parts with
  | [] => rw [formatParts]; exact .ret (Nat.zero_le _)
  | .text s :: rest =>
    rw [formatParts]
    exact (formatParts_gives n span rest).bind fun ps hps => .ret hps
  | .field value debug letter spec :: rest =>
    rw [formatParts]
    split
    · exact .fail_bind
    · exact (expr_gives n value).bind fun x hx => (Gives.any _).bind fun c _ =>
        (Gives.any _).bind fun s _ => (formatParts_gives n span rest).bind fun ps hps =>
        .ret (Nat.max_le.mpr ⟨hx, hps⟩)

end

/-! ## Statements -/

mutual

/-- A target takes no level, but the expressions in it do. -/
theorem target_gives (n : Nat) (e : Surface.Expr) :
    Gives (target n e) fun t => t.depth w 0 ≤ limit w n := by
  match e with
  | .mk span form => rw [target]; exact targetForm_gives n span form

theorem targetForm_gives (n : Nat) (span : Span) (form : Surface.ExprForm) :
    Gives (targetForm n span form) fun t => t.depth w 0 ≤ limit w n := by
  match form with
  | .name id => rw [targetForm]; exact .ret (Nat.zero_le _)
  | .subscript object index =>
    rw [targetForm]
    exact (expr_gives w n object).bind fun x hx => (expr_gives w n index).bind fun i hi =>
      .ret (Nat.max_le.mpr ⟨hx, hi⟩)
  | .tuple items | .list items =>
    rw [targetForm]
    exact (targets_gives n items).bind fun ts hts => .ret hts
  | .literal _ | .int .. | .format _ | .dict _ | .binary .. | .unary .. | .all .. | .any ..
  | .compare .. | .conditional .. | .call .. | .attribute .. | .slice .. | .await _ | .starred _
  | .unsupported _ => exact .fail

theorem targets_gives (n : Nat) (es : List Surface.Expr) :
    Gives (targets n es) fun ts => Target.allDepth w 0 ts ≤ limit w n := by
  match es with
  | [] => rw [targets]; exact .ret (Nat.zero_le _)
  | e :: rest =>
    rw [targets]
    exact (target_gives n e).bind fun t ht => (targets_gives n rest).bind fun ts hts =>
      .ret (Nat.max_le.mpr ⟨ht, hts⟩)

end

theorem params_gives (n : Nat) (ps : List Surface.Param) :
    Gives (params n ps) fun ps => Param.allDepth w ps ≤ limit w n := by
  induction ps with
  | nil => rw [params]; exact .ret (Nat.zero_le _)
  | cons p rest ih =>
    rw [params]
    exact (optional_gives w n p.default).bind fun x hx => ih.bind fun ps hps =>
      .ret (Nat.max_le.mpr ⟨hx, hps⟩)

theorem importForm_gives (names : List Surface.Alias) (span : Span) :
    Gives (importForm names span) fun s => s.depth w 0 = 1 := by
  unfold importForm
  split
  · split
    · exact .ret (by rw [Stmt.depth])
    · exact .fail
  · exact .fail

theorem importFromForm_gives (module : String) (level : Nat) (names : List Surface.Alias)
    (span : Span) : Gives (importFromForm module level names span) fun s => s.depth w 0 = 1 := by
  unfold importFromForm
  dsimp only
  split
  · exact .fail_bind
  · split
    · exact .fail
    · exact (Gives.any _).bind fun _ _ => .ret (by rw [Stmt.depth])

mutual

theorem stmt_gives (levels : Nat) (s : Surface.Stmt) :
    Gives (stmt levels s) fun x => x.depth w 0 ≤ limit w levels := by
  match s with
  | .mk span form =>
    rw [stmt]
    exact descend_gives fun n => stmtForm_gives n span form

theorem stmtForm_gives (n : Nat) (span : Span) (form : Surface.StmtForm) :
    Gives (stmtForm n span form) fun x => x.depth w 0 ≤ limit w n + w + 1 := by
  match form with
  | .expr value =>
    rw [stmtForm]
    exact (expr_gives w n value).bind fun x hx => .ret (by rw [Stmt.depth]; omega)
  | .assign first rest value =>
    rw [stmtForm]
    exact (target_gives w n first).bind fun t ht => (targets_gives w n rest).bind fun ts hts =>
      (expr_gives w n value).bind fun x hx => .ret (by rw [Stmt.depth]; omega)
  | .augAssign t op value =>
    rw [stmtForm]
    exact (target_gives w n t).bind fun t ht => (Gives.any _).bind fun op _ =>
      (expr_gives w n value).bind fun x hx => .ret (by rw [Stmt.depth]; omega)
  | .annAssign t (some value) =>
    rw [stmtForm]
    exact (target_gives w n t).bind fun t ht => (expr_gives w n value).bind fun x hx =>
      .ret (by simp only [Stmt.depth, Target.allDepth]; omega)
  | .annAssign _ none => rw [stmtForm]; exact .ret (by rw [Stmt.depth]; omega)
  | .ifElse test body cs =>
    rw [stmtForm]
    exact (expr_gives w n test).bind fun t ht => (stmts_gives n body).bind fun b hb =>
      (clauses_gives n cs).bind fun o ho => .ret (by rw [Stmt.depth]; omega)
  | .while test body orElse =>
    rw [stmtForm]
    exact (expr_gives w n test).bind fun t ht => (stmts_gives n body).bind fun b hb =>
      (stmts_gives n orElse).bind fun o ho => .ret (by rw [Stmt.depth]; omega)
  | .for isAsync t iter body orElse =>
    rw [stmtForm]
    split
    · exact .fail_bind
    · exact (target_gives w n t).bind fun t ht => (expr_gives w n iter).bind fun i hi =>
        (stmts_gives n body).bind fun b hb => (stmts_gives n orElse).bind fun o ho =>
        .ret (by rw [Stmt.depth]; omega)
  | .break | .continue | .pass | .global _ =>
    rw [stmtForm]
    exact .ret (by rw [Stmt.depth]; omega)
  | .functionDef decorated name ps body =>
    rw [stmtForm]
    split
    · exact .fail_bind
    · simp only
      split
      · exact .fail_bind
      · exact (params_gives w n ps.positional).bind fun ps hps => (stmts_gives n body).bind
          fun b hb => .ret (by rw [Stmt.depth]; omega)
  | .return value =>
    rw [stmtForm]
    exact (optional_gives w n value).bind fun x hx => .ret (by rw [Stmt.depth]; omega)
  | .try star body hs orElse finally_ =>
    rw [stmtForm]
    split
    · exact .fail_bind
    · exact (stmts_gives n body).bind fun b hb => (handlers_gives n hs).bind fun hs hhs =>
        (stmts_gives n orElse).bind fun o ho => (stmts_gives n finally_).bind fun f hf =>
        .ret (by rw [Stmt.depth]; omega)
  | .raise exc hasCause =>
    rw [stmtForm]
    split
    · exact .fail_bind
    · exact (optional_gives w n exc).bind fun x hx => .ret (by rw [Stmt.depth]; omega)
  | .assert test message =>
    rw [stmtForm]
    exact (expr_gives w n test).bind fun t ht => (optional_gives w n message).bind fun m hm =>
      .ret (by rw [Stmt.depth]; omega)
  | .import names =>
    rw [stmtForm]
    exact (importForm_gives w names span).imp fun x hx => by omega
  | .importFrom module level names =>
    rw [stmtForm]
    exact (importFromForm_gives w module level names span).imp fun x hx => by omega
  | .unsupported construct => rw [stmtForm]; exact .fail

theorem stmts_gives (n : Nat) (ss : List Surface.Stmt) :
    Gives (stmts n ss) fun xs => Stmt.allDepth w 0 xs ≤ limit w n := by
  match ss with
  | [] => rw [stmts]; exact .ret (Nat.zero_le _)
  | s :: rest =>
    rw [stmts]
    exact (stmt_gives n s).bind fun x hx => (stmts_gives n rest).bind fun xs hxs =>
      .ret (Nat.max_le.mpr ⟨hx, hxs⟩)

/-- A clause takes no level, but what stands in it does. -/
theorem clauses_gives (n : Nat) (cs : List Surface.Clause) :
    Gives (clauses n cs) fun xs => Stmt.elseDepth w 0 xs ≤ limit w n := by
  match cs with
  | [] => rw [clauses]; exact .ret (Nat.zero_le _)
  | .mk test body :: rest =>
    rw [clauses]
    refine (clauses_gives n rest).bind fun o ho => ?_
    cases test with
    | none => exact (stmts_gives n body).imp fun b hb => Nat.le_trans (Stmt.elseDepth_le w b) hb
    | some test =>
      exact (expr_gives w n test).bind fun t ht => (stmts_gives n body).bind fun b hb =>
        .ret (Nat.max_le.mpr ⟨ht, Nat.max_le.mpr ⟨hb, ho⟩⟩)

theorem handlers_gives (n : Nat) (hs : List Surface.Handler) :
    Gives (handlers n hs) fun xs => Handler.allDepth w 0 xs ≤ limit w n := by
  match hs with
  | [] => rw [handlers]; exact .ret (Nat.zero_le _)
  | .mk type name body :: rest =>
    rw [handlers]
    exact (optional_gives w n type).bind fun t ht => (stmts_gives n body).bind fun b hb =>
      (handlers_gives n rest).bind fun xs hxs =>
      .ret (Nat.max_le.mpr ⟨Nat.max_le.mpr ⟨ht, hb⟩, hxs⟩)

end

end Lowering

/-- A chain of statements and expressions in a program that is read with any parser, without the
targets and the `elif`s in it, has `maxNesting` members, or at most `w` more for each of them if the
stars among arguments count `w`. -/
theorem readProgram_depth_le {source : String} {parse : Parser} {program : List Stmt}
    (h : readProgram source parse = .ok program) :
    Stmt.allDepth w 0 program ≤ (w + 1) * maxNesting := by
  unfold readProgram at h
  split at h
  · exact Lowering.stmts_gives w maxNesting _ h
  · cases h

/-! ## Chains without a bound -/

namespace Lowering

variable (span : Span)

/-- A name in `n` tuples. -/
def tuples : Nat → Surface.Expr
  | 0 => .mk span (.name "x")
  | n + 1 => .mk span (.tuple [tuples n])

/-- `n` clauses `elif x: pass`. -/
def elifs (n : Nat) : List Surface.Clause :=
  .replicate n (.mk (some (.mk span (.name "x"))) [.mk span .pass])

theorem target_tuples (levels n : Nat) :
    ∃ t, target levels (tuples span n) = .ok t ∧ t.depth 0 1 = n + 1 := by
  induction n with
  | zero =>
    rw [tuples, target, targetForm]
    exact ⟨_, rfl, by rw [Target.depth]⟩
  | succ n ih =>
    obtain ⟨t, ht, hdepth⟩ := ih
    rw [tuples, target, targetForm, targets, ht, targets]
    refine ⟨.tuple [t], rfl, ?_⟩
    rw [Target.depth, Target.allDepth, Target.allDepth, hdepth, Nat.max_zero]

theorem clauses_elifs (levels n : Nat) :
    ∃ ss, clauses (levels + 1) (elifs span n) = .ok ss ∧ Stmt.elseDepth 0 1 ss = n + min n 1 := by
  induction n with
  | zero =>
    rw [elifs, List.replicate, clauses]
    exact ⟨[], rfl, rfl⟩
  | succ n ih =>
    obtain ⟨ss, hss, hdepth⟩ := ih
    rw [elifs] at hss ⊢
    rw [List.replicate_succ, clauses, hss]
    refine ⟨[.ifElse (.mk span (.name "x")) [.pass] ss], rfl, ?_⟩
    simp only [Stmt.elseDepth, Expr.depth, ExprForm.depth, Stmt.allDepth, Stmt.depth]
    omega

/-- Two levels are enough for an assignment to any number of tuples inside one another. -/
theorem targets_unbounded (levels n : Nat) :
    ∃ s, stmt (levels + 2) (.mk span (.assign (tuples span n) [] (.mk span (.name "x")))) = .ok s ∧
      s.depth 0 1 = n + 2 := by
  obtain ⟨t, ht, hdepth⟩ := target_tuples span (levels + 1) n
  rw [stmt, descend, stmtForm, ht]
  refine ⟨.assign t [] (.mk span (.name "x")), rfl, ?_⟩
  simp only [Stmt.depth, Target.allDepth, Expr.depth, ExprForm.depth, hdepth]
  omega

/-- Two levels are enough for any number of `elif`s, each of which stands in the one before it. -/
theorem elifs_unbounded (levels n : Nat) :
    ∃ s, stmt (levels + 2) (.mk span (.ifElse (.mk span (.name "x")) [.mk span .pass]
        (elifs span n))) = .ok s ∧ s.depth 0 1 = n + 2 := by
  obtain ⟨ss, hss, hdepth⟩ := clauses_elifs span levels n
  rw [stmt, descend, stmtForm, hss]
  refine ⟨.ifElse (.mk span (.name "x")) [.pass] ss, rfl, ?_⟩
  simp only [Stmt.depth, Stmt.allDepth, Expr.depth, ExprForm.depth]
  omega

end Lowering

end Resumable
