import Resumable.Code.Compile

/-!
# Expressions that the compiler accepts

Whether the compiler accepts a piece of program depends on the piece alone, not on what has been
compiled before it: `Accepts b P` says that the build `b` succeeds exactly if `P` holds, whatever
state it starts from. An expression is accepted exactly if it is unstarred (`expr_accepts`):
`*items` stands nowhere in it but among the positional arguments of calls.
-/

namespace Resumable

/-! ## Starred expressions -/

mutual

/-- No part of an expression is starred, except among the positional arguments of a call. -/
def Expr.Unstarred : Expr → Prop
  | .mk _ form => form.Unstarred

def ExprForm.Unstarred : ExprForm → Prop
  | .literal _ | .name _ => True
  | .format parts => FormatPart.AllUnstarred parts
  | .list items | .tuple items => Expr.AllUnstarred items
  | .dict items => DictItem.AllUnstarred items
  | .binary left _ right => left.Unstarred ∧ right.Unstarred
  | .all first rest | .any first rest => first.Unstarred ∧ Expr.AllUnstarred rest
  | .not operand | .neg operand | .pos operand | .await operand => operand.Unstarred
  | .compare left rest => left.Unstarred ∧ Comparison.AllUnstarred rest
  | .conditional test body orElse => test.Unstarred ∧ body.Unstarred ∧ orElse.Unstarred
  | .call callee args kws =>
    callee.Unstarred ∧ Expr.ArgumentsUnstarred args ∧ Keyword.AllUnstarred kws
  | .methodCall object _ args kws =>
    object.Unstarred ∧ Expr.ArgumentsUnstarred args ∧ Keyword.AllUnstarred kws
  | .attribute object _ => object.Unstarred
  | .subscript object index => object.Unstarred ∧ index.Unstarred
  | .slice lower upper step =>
    Expr.MaybeUnstarred lower ∧ Expr.MaybeUnstarred upper ∧ Expr.MaybeUnstarred step
  | .starred _ => False

def Expr.AllUnstarred : List Expr → Prop
  | [] => True
  | e :: rest => e.Unstarred ∧ Expr.AllUnstarred rest

/-- The positional arguments of a call: each may be starred itself, but no part of it. -/
def Expr.ArgumentsUnstarred : List Expr → Prop
  | [] => True
  | .mk _ (.starred operand) :: rest => operand.Unstarred ∧ Expr.ArgumentsUnstarred rest
  | e :: rest => e.Unstarred ∧ Expr.ArgumentsUnstarred rest

def Expr.MaybeUnstarred : Option Expr → Prop
  | none => True
  | some e => e.Unstarred

def FormatPart.AllUnstarred : List FormatPart → Prop
  | [] => True
  | .text _ :: rest => FormatPart.AllUnstarred rest
  | .field value _ _ :: rest => value.Unstarred ∧ FormatPart.AllUnstarred rest

def DictItem.AllUnstarred : List DictItem → Prop
  | [] => True
  | .mk key value :: rest => key.Unstarred ∧ value.Unstarred ∧ DictItem.AllUnstarred rest

def Comparison.AllUnstarred : List Comparison → Prop
  | [] => True
  | .mk _ right :: rest => right.Unstarred ∧ Comparison.AllUnstarred rest

def Keyword.AllUnstarred : List Keyword → Prop
  | [] => True
  | .mk _ value :: rest => value.Unstarred ∧ Keyword.AllUnstarred rest

end

theorem Expr.argumentsUnstarred_cons {e : Expr} {rest : List Expr}
    (he : Compile.isStarred e = false) :
    ArgumentsUnstarred (e :: rest) ↔ e.Unstarred ∧ ArgumentsUnstarred rest := by
  obtain ⟨span, form⟩ := e
  cases form with
  | starred operand => cases he
  | _ => rw [ArgumentsUnstarred]; nofun

/-- Arguments none of which is starred are nothing special. -/
theorem Expr.argumentsUnstarred_iff {args : List Expr}
    (h : args.any Compile.isStarred = false) : ArgumentsUnstarred args ↔ AllUnstarred args := by
  induction args with
  | nil => rw [ArgumentsUnstarred, AllUnstarred]
  | cons e rest ih =>
    rw [List.any_cons, Bool.or_eq_false_iff] at h
    rw [argumentsUnstarred_cons h.1, AllUnstarred, ih h.2]

namespace Compile

/-! ## Builds that succeed on a condition -/

/-- A build succeeds exactly if `P` holds, from whatever state it starts. -/
def Accepts {α : Type} (b : Build α) (P : Prop) : Prop := ∀ s, (∃ a t, b s = .ok (a, t)) ↔ P

variable {α β : Type} {P Q R : Prop}

namespace Accepts

theorem ret (a : α) : Accepts (pure a) True := fun s => iff_of_true ⟨a, s, rfl⟩ trivial

theorem fail {e : SourceError} : Accepts (throw e : Build α) False :=
  fun _ => iff_of_false (fun ⟨_, _, h⟩ => nomatch h) id

theorem congr {b : Build α} (hb : Accepts b P) (h : P ↔ Q) : Accepts b Q :=
  fun s => (hb s).trans h

theorem bind {b : Build α} {f : α → Build β} (hb : Accepts b P) (hf : ∀ a, Accepts (f a) Q) :
    Accepts (b >>= f) (P ∧ Q) := by
  intro s
  constructor
  · rintro ⟨c, t, h⟩
    obtain ⟨a, u, hbs, hfs⟩ := exists_of_bind h
    exact ⟨(hb s).mp ⟨a, u, hbs⟩, (hf a u).mp ⟨c, t, hfs⟩⟩
  · rintro ⟨hP, hQ⟩
    obtain ⟨a, u, hbs⟩ := (hb s).mpr hP
    obtain ⟨c, t, hfs⟩ := (hf a u).mpr hQ
    refine ⟨c, t, ?_⟩
    change (b s >>= fun x => f x.1 x.2) = _
    rw [hbs]
    exact hfs

theorem ret_bind {a : α} {f : α → Build β} (hf : Accepts (f a) P) : Accepts (pure a >>= f) P := hf

/-- A part that always succeeds adds no condition. -/
theorem seq {b : Build α} {f : α → Build β} (hb : Accepts b True) (hf : ∀ a, Accepts (f a) Q) :
    Accepts (b >>= f) Q := (hb.bind hf).congr (by rw [true_and])

/-- A part that ends a build decides it. -/
theorem last {b : Build α} {f : α → Build β} (hb : Accepts b P) (hf : ∀ a, Accepts (f a) True) :
    Accepts (b >>= f) P := (hb.bind hf).congr (by rw [and_true])

theorem ite {c : Prop} [Decidable c] {a b : Build α} (ha : c → Accepts a P)
    (hb : ¬ c → Accepts b P) : Accepts (if c then a else b) P := by
  split
  · exact ha ‹_›
  · exact hb ‹_›

end Accepts

theorem get_accepts : Accepts get True := fun s => iff_of_true ⟨s, s, rfl⟩ trivial

theorem at_accepts (span : Span) : Accepts (at_ span) True :=
  fun s => iff_of_true ⟨(), { s with span }, rfl⟩ trivial

theorem one_accepts (op : Op) : Accepts (one op) True :=
  fun s => iff_of_true ⟨⟨op, s.span⟩, s, rfl⟩ trivial

theorem pooled_accepts {ι : Type} (add : Pool → ι × Pool) : Accepts (pooled add) True :=
  fun s => iff_of_true ⟨(add s.pool).1, { s with pool := (add s.pool).2 }, rfl⟩ trivial

theorem constant_accepts (v : Literal) : Accepts (constant v) True :=
  (pooled_accepts _).seq fun _ => one_accepts _

theorem globalSlot_accepts (name : String) : Accepts (globalSlot name) True :=
  fun s => iff_of_true ⟨_, _, globalSlot_eq name s⟩ trivial

theorem place_accepts (env : Env) (name : String) : Accepts (place env name) True := by
  have hglobal : Accepts (do return Place.global (← globalSlot name)) True :=
    (globalSlot_accepts name).seq fun _ => .ret _
  unfold place
  split
  · exact .ret _
  · refine .ite (fun _ => hglobal) fun _ => ?_
    split
    · exact .ret _
    · split
      · exact .ret _
      · exact hglobal

theorem load_accepts (env : Env) (name : String) : Accepts (load env name) True :=
  (place_accepts env name).seq fun p => by cases p <;> exact one_accepts _

theorem store_accepts (env : Env) (name : String) : Accepts (store env name) True := by
  refine (place_accepts env name).seq fun p => ?_
  cases p with
  | «local» | global => exact one_accepts _
  | builtin | excClass => exact (globalSlot_accepts name).seq fun _ => one_accepts _

/-! ## Parts that are there or not -/

theorem arguments_bind_accepts {args : List Expr} {a b : Build (List Instr)}
    {f : List Instr → Build α} (ha : Accepts a (Expr.ArgumentsUnstarred args))
    (hb : Accepts b (Expr.AllUnstarred args)) (hf : ∀ code, Accepts (f code) Q) :
    Accepts (if args.any isStarred = true then a >>= f else b >>= f)
      (Expr.ArgumentsUnstarred args ∧ Q) := by
  refine .ite (fun _ => ha.bind hf) fun hargs => ?_
  rw [Expr.argumentsUnstarred_iff (Bool.eq_false_iff.mpr hargs)]
  exact hb.bind hf

theorem gather_bind_accepts {pending : Nat} {started : Bool} {f : List Instr → Build α}
    (hf : ∀ code, Accepts (f code) Q) :
    Accepts (if (decide (pending > 0) || !started) = true then do
        let build ← one (.buildTuple pending)
        if started = true then do
          let add ← one (.binary .add)
          let g ← pure [build, add]
          f g
        else do
          let g ← pure [build]
          f g
      else do
        let g ← pure []
        f g) Q := by
  refine .ite (fun _ => (one_accepts _).seq fun build => ?_) fun _ => hf []
  exact .ite (fun _ => (one_accepts _).seq fun add => hf [build, add]) fun _ => hf [build]

theorem formatSpec_bind_accepts {spec : Option String} {f : Option Nat → Build α}
    (hf : ∀ s, Accepts (f s) Q) :
    Accepts (match spec with
      | some spec => do
        let s ← some <$> pooled (·.addConstant (.string spec))
        f s
      | none => do
        let s ← pure none
        f s) Q := by
  cases spec with
  | none => exact hf none
  | some spec =>
    have hpool : Accepts (some <$> pooled (·.addConstant (.string spec))) True := by
      rw [map_eq_pure_bind]
      exact (pooled_accepts _).seq fun _ => .ret _
    exact hpool.seq hf

/-! ## Expressions -/

mutual

theorem expr_accepts (env : Env) (pc : Nat) (e : Expr) :
    Accepts (expr env pc e) e.Unstarred := by
  match e with
  | .mk span form =>
    rw [expr, Expr.Unstarred]
    exact (at_accepts span).seq fun _ => exprForm_accepts env pc span form

theorem exprForm_accepts (env : Env) (pc : Nat) (span : Span) (form : ExprForm) :
    Accepts (exprForm env pc span form) form.Unstarred := by
  match form with
  | .literal value =>
    rw [exprForm, ExprForm.Unstarred]
    exact (constant_accepts value).seq fun i => .ret _
  | .format parts =>
    rw [exprForm, ExprForm.Unstarred]
    exact (formatParts_accepts env pc span parts).last fun code =>
      (one_accepts _).seq fun i => .ret _
  | .name id =>
    rw [exprForm, ExprForm.Unstarred]
    exact (load_accepts env id).seq fun i => .ret _
  | .list items | .tuple items =>
    rw [exprForm, ExprForm.Unstarred]
    exact (exprs_accepts env pc items).last fun code => (at_accepts span).seq fun _ =>
      (one_accepts _).seq fun i => .ret _
  | .dict items =>
    rw [exprForm, ExprForm.Unstarred]
    exact (dictItems_accepts env pc items).last fun code => (at_accepts span).seq fun _ =>
      (one_accepts _).seq fun i => .ret _
  | .binary left op right =>
    rw [exprForm, ExprForm.Unstarred]
    exact (expr_accepts env pc left).bind fun l => (expr_accepts env _ right).last fun r =>
      (at_accepts span).seq fun _ => (one_accepts _).seq fun i => .ret _
  | .all first rest | .any first rest =>
    rw [exprForm, ExprForm.Unstarred]
    exact (expr_accepts env pc first).bind fun code =>
      (boolean_accepts env _ _ rest).last fun more => .ret _
  | .not operand =>
    rw [exprForm, ExprForm.Unstarred]
    exact (expr_accepts env pc operand).last fun code => (one_accepts _).seq fun i => .ret _
  | .neg operand | .pos operand | .await operand =>
    rw [exprForm, ExprForm.Unstarred]
    exact (expr_accepts env pc operand).last fun code => (at_accepts span).seq fun _ =>
      (one_accepts _).seq fun i => .ret _
  | .compare left rest =>
    rw [exprForm, ExprForm.Unstarred]
    refine (expr_accepts env pc left).bind fun l =>
      (comparisons_accepts env _ span rest).last fun chain => ?_
    exact .ite (fun _ => .ret _) fun _ => (one_accepts _).seq fun skip =>
      (one_accepts _).seq fun rot => (one_accepts _).seq fun pop => .ret _
  | .conditional test body orElse =>
    rw [exprForm, ExprForm.Unstarred]
    exact (expr_accepts env pc test).bind fun t => get_accepts.seq fun s =>
      (expr_accepts env _ body).bind fun b => get_accepts.seq fun s' =>
      (expr_accepts env _ orElse).last fun o => .ret _
  | .call callee args kws =>
    rw [exprForm, ExprForm.Unstarred]
    exact (expr_accepts env pc callee).bind fun c =>
      arguments_bind_accepts (packed_accepts env _ 0 false args) (exprs_accepts env _ args) fun a =>
      (keywords_accepts env _ kws).last fun k => (pooled_accepts _).seq fun names =>
      (at_accepts span).seq fun _ => (one_accepts _).seq fun i => .ret _
  | .methodCall object method args kws =>
    rw [exprForm, ExprForm.Unstarred]
    exact (expr_accepts env pc object).bind fun c =>
      arguments_bind_accepts (packed_accepts env _ 0 false args) (exprs_accepts env _ args) fun a =>
      (keywords_accepts env _ kws).last fun k => (pooled_accepts _).seq fun names =>
      (pooled_accepts _).seq fun name => (at_accepts span).seq fun _ =>
      (one_accepts _).seq fun i => .ret _
  | .attribute object name =>
    rw [exprForm, ExprForm.Unstarred]
    exact (expr_accepts env pc object).last fun code => (pooled_accepts _).seq fun n =>
      (at_accepts span).seq fun _ => (one_accepts _).seq fun i => .ret _
  | .subscript object index =>
    rw [exprForm, ExprForm.Unstarred]
    exact (expr_accepts env pc object).bind fun o => (expr_accepts env _ index).last fun x =>
      (at_accepts span).seq fun _ => (one_accepts _).seq fun i => .ret _
  | .slice lower upper step =>
    rw [exprForm, ExprForm.Unstarred]
    exact (sliceBound_accepts env pc lower).bind fun l =>
      (sliceBound_accepts env _ upper).bind fun u =>
      (sliceBound_accepts env _ step).last fun s => (at_accepts span).seq fun _ =>
      (one_accepts _).seq fun i => .ret _
  | .starred operand =>
    rw [exprForm, ExprForm.Unstarred]
    exact .fail

theorem exprs_accepts (env : Env) (pc : Nat) (es : List Expr) :
    Accepts (exprs env pc es) (Expr.AllUnstarred es) := by
  match es with
  | [] =>
    rw [exprs, Expr.AllUnstarred]
    exact .ret _
  | e :: rest =>
    rw [exprs, Expr.AllUnstarred]
    exact (expr_accepts env pc e).bind fun code => (exprs_accepts env _ rest).last fun more =>
      .ret _

theorem formatParts_accepts (env : Env) (pc : Nat) (span : Span) (parts : List FormatPart) :
    Accepts (formatParts env pc span parts) (FormatPart.AllUnstarred parts) := by
  match parts with
  | [] =>
    rw [formatParts, FormatPart.AllUnstarred]
    exact .ret _
  | .text s :: rest =>
    rw [formatParts, FormatPart.AllUnstarred]
    exact (constant_accepts _).seq fun i => (formatParts_accepts env _ span rest).last fun more =>
      .ret _
  | .field value conversion spec :: rest =>
    rw [formatParts, FormatPart.AllUnstarred]
    exact (expr_accepts env pc value).bind fun code => formatSpec_bind_accepts fun s =>
      (at_accepts span).seq fun _ => (one_accepts _).seq fun i =>
      (formatParts_accepts env _ span rest).last fun more => .ret _

theorem dictItems_accepts (env : Env) (pc : Nat) (items : List DictItem) :
    Accepts (dictItems env pc items) (DictItem.AllUnstarred items) := by
  match items with
  | [] =>
    rw [dictItems, DictItem.AllUnstarred]
    exact .ret _
  | .mk key value :: rest =>
    rw [dictItems, DictItem.AllUnstarred]
    exact (expr_accepts env pc key).bind fun k => (expr_accepts env _ value).bind fun v =>
      (dictItems_accepts env _ rest).last fun more => .ret _

theorem sliceBound_accepts (env : Env) (pc : Nat) (bound : Option Expr) :
    Accepts (sliceBound env pc bound) (Expr.MaybeUnstarred bound) := by
  match bound with
  | none =>
    rw [sliceBound, Expr.MaybeUnstarred]
    exact (constant_accepts _).seq fun i => .ret _
  | some e =>
    rw [sliceBound, Expr.MaybeUnstarred]
    exact expr_accepts env pc e

theorem boolean_accepts (env : Env) (jump : Nat → Op) (pc : Nat) (operands : List Expr) :
    Accepts (boolean env jump pc operands) (Expr.AllUnstarred operands) := by
  match operands with
  | [] =>
    rw [boolean, Expr.AllUnstarred]
    exact .ret _
  | e :: rest =>
    rw [boolean, Expr.AllUnstarred]
    exact get_accepts.seq fun s => (expr_accepts env _ e).bind fun code =>
      (boolean_accepts env jump _ rest).last fun more => .ret _

theorem comparisons_accepts (env : Env) (pc : Nat) (span : Span) (cs : List Comparison) :
    Accepts (comparisons env pc span cs) (Comparison.AllUnstarred cs) := by
  match cs with
  | [] =>
    rw [comparisons, Comparison.AllUnstarred]
    exact .ret _
  | [.mk op right] =>
    rw [comparisons, Comparison.AllUnstarred, Comparison.AllUnstarred]
    exact ((expr_accepts env pc right).bind fun r => (at_accepts span).seq fun _ =>
      (one_accepts _).seq fun i => .ret _)
  | .mk op right :: next :: rest =>
    rw [Comparison.AllUnstarred, comparisons]
    · exact (expr_accepts env pc right).bind fun r => (at_accepts span).seq fun _ =>
        (one_accepts _).seq fun dup => (one_accepts _).seq fun rot => (one_accepts _).seq fun cmp =>
        (comparisons_accepts env _ span (next :: rest)).last fun more => .ret _
    · exact List.cons_ne_nil _ _

theorem packed_accepts (env : Env) (pc pending : Nat) (started : Bool) (args : List Expr) :
    Accepts (packed env pc pending started args) (Expr.ArgumentsUnstarred args) := by
  match args with
  | [] =>
    rw [packed, Expr.ArgumentsUnstarred]
    exact .ite (fun _ => (one_accepts _).seq fun build => (one_accepts _).seq fun add => .ret _)
      fun _ => .ret _
  | .mk span form :: rest =>
    cases form with
    | starred operand =>
      rw [packed, Expr.ArgumentsUnstarred]
      exact gather_bind_accepts fun gather => (expr_accepts env _ operand).bind fun code =>
        (at_accepts span).seq fun _ => (one_accepts _).seq fun tuple =>
        (one_accepts _).seq fun add => (packed_accepts env _ 0 true rest).last fun more => .ret _
    | _ =>
      rw [Expr.argumentsUnstarred_cons rfl, packed]
      · exact (expr_accepts env pc _).bind fun code =>
          (packed_accepts env _ (pending + 1) started rest).last fun more => .ret _
      · nofun

theorem keywords_accepts (env : Env) (pc : Nat) (kws : List Keyword) :
    Accepts (keywords env pc kws) (Keyword.AllUnstarred kws) := by
  match kws with
  | [] =>
    rw [keywords, Keyword.AllUnstarred]
    exact .ret _
  | .mk _ value :: rest =>
    rw [keywords, Keyword.AllUnstarred]
    exact (expr_accepts env pc value).bind fun code =>
      (keywords_accepts env _ rest).last fun more => .ret _

end

end Compile

end Resumable
