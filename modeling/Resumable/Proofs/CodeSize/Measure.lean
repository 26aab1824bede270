import Resumable.Code.Compile

/-!
# Sizes of programs and of code

`Stmt.allNodes w` counts the statements and expressions of a program. Four kinds of parts are
neither and still have instructions of their own: targets, `except` clauses, imported names and the
texts in formatted strings; each of them counts `w`. `Stmt.allFinallyDepth` and `Stmt.allTryDepth`
say how many `finally` clauses, or `try` statements, stand inside one another. `Bytecode.length` is
the number of instructions of all code objects.
-/

namespace Resumable

variable (w : Nat)

/-! ## Nodes -/

mutual

/-- The number of nodes of an expression. -/
def Expr.nodes : Expr → Nat
  | .mk _ form => form.nodes + 1

/-- The number of nodes below the expression that has the form. -/
def ExprForm.nodes : ExprForm → Nat
  | .literal _ | .name _ => 0
  | .format parts => FormatPart.allNodes parts
  | .list items | .tuple items => Expr.allNodes items
  | .dict items => DictItem.allNodes items
  | .binary left _ right => left.nodes + right.nodes
  | .all first rest | .any first rest => first.nodes + Expr.allNodes rest
  | .not operand | .neg operand | .pos operand | .await operand | .starred operand => operand.nodes
  | .compare left rest => left.nodes + Comparison.allNodes rest
  | .conditional test body orElse => test.nodes + body.nodes + orElse.nodes
  | .call callee args kws => callee.nodes + Expr.allNodes args + Keyword.allNodes kws
  | .methodCall object _ args kws => object.nodes + Expr.allNodes args + Keyword.allNodes kws
  | .attribute object _ => object.nodes
  | .subscript object index => object.nodes + index.nodes
  | .slice lower upper step => Expr.maybeNodes lower + Expr.maybeNodes upper + Expr.maybeNodes step

def Expr.allNodes : List Expr → Nat
  | [] => 0
  | e :: rest => e.nodes + Expr.allNodes rest

def Expr.maybeNodes : Option Expr → Nat
  | none => 0
  | some e => e.nodes

def FormatPart.allNodes : List FormatPart → Nat
  | [] => 0
  | .text _ :: rest => w + FormatPart.allNodes rest
  | .field value _ _ :: rest => value.nodes + FormatPart.allNodes rest

def DictItem.allNodes : List DictItem → Nat
  | [] => 0
  | .mk key value :: rest => key.nodes + value.nodes + DictItem.allNodes rest

def Comparison.allNodes : List Comparison → Nat
  | [] => 0
  | .mk _ right :: rest => right.nodes + Comparison.allNodes rest

def Keyword.allNodes : List Keyword → Nat
  | [] => 0
  | .mk _ value :: rest => value.nodes + Keyword.allNodes rest

end

mutual

def Target.nodes : Target → Nat
  | .name _ => w
  | .subscript object index => object.nodes w + index.nodes w + w
  | .tuple ts => Target.allNodes ts + w

def Target.allNodes : List Target → Nat
  | [] => 0
  | t :: rest => t.nodes + Target.allNodes rest

end

def Param.allNodes : List Param → Nat
  | [] => 0
  | p :: rest => Expr.maybeNodes w p.default + Param.allNodes rest

mutual

/-- The number of nodes of a statement. -/
def Stmt.nodes : Stmt → Nat
  | .expr value => value.nodes w + 1
  | .assign first rest value => first.nodes w + Target.allNodes w rest + value.nodes w + 1
  | .augAssign target _ value _ => target.nodes w + value.nodes w + 1
  | .ifElse test body orElse | .while test body orElse =>
    test.nodes w + Stmt.allNodes body + Stmt.allNodes orElse + 1
  | .for target iter body orElse _ =>
    target.nodes w + iter.nodes w + Stmt.allNodes body + Stmt.allNodes orElse + 1
  | .break _ | .continue _ | .pass | .global _ | .import .. => 1
  | .functionDef _ params body _ => Param.allNodes w params + Stmt.allNodes body + 1
  | .return value _ | .raise value _ => Expr.maybeNodes w value + 1
  | .try body handlers orElse finally_ =>
    Stmt.allNodes body + Handler.allNodes handlers + Stmt.allNodes orElse +
      Stmt.allNodes finally_ + 1
  | .assert test message _ => test.nodes w + Expr.maybeNodes w message + 1
  | .importFrom _ names _ => names.length * w + 1

def Stmt.allNodes : List Stmt → Nat
  | [] => 0
  | s :: rest => s.nodes + Stmt.allNodes rest

def Handler.allNodes : List Handler → Nat
  | [] => 0
  | .mk type _ body :: rest =>
    Expr.maybeNodes w type + Stmt.allNodes body + w + Handler.allNodes rest

end

/-! ## Clauses inside clauses -/

mutual

/-- How many `finally` clauses of a statement stand inside one another. -/
def Stmt.finallyDepth : Stmt → Nat
  | .ifElse _ body orElse | .while _ body orElse | .for _ _ body orElse _ =>
    max (Stmt.allFinallyDepth body) (Stmt.allFinallyDepth orElse)
  | .functionDef _ _ body _ => Stmt.allFinallyDepth body
  | .try body handlers orElse finally_ =>
    max (max (Stmt.allFinallyDepth body) (Handler.allFinallyDepth handlers))
      (max (Stmt.allFinallyDepth orElse)
        (if finally_.isEmpty then 0 else Stmt.allFinallyDepth finally_ + 1))
  | _ => 0

def Stmt.allFinallyDepth : List Stmt → Nat
  | [] => 0
  | s :: rest => max s.finallyDepth (Stmt.allFinallyDepth rest)

def Handler.allFinallyDepth : List Handler → Nat
  | [] => 0
  | .mk _ _ body :: rest => max (Stmt.allFinallyDepth body) (Handler.allFinallyDepth rest)

end

mutual

/-- How many `try` statements of a statement stand inside one another, in any of their parts. -/
def Stmt.tryDepth : Stmt → Nat
  | .ifElse _ body orElse | .while _ body orElse | .for _ _ body orElse _ =>
    max (Stmt.allTryDepth body) (Stmt.allTryDepth orElse)
  | .functionDef _ _ body _ => Stmt.allTryDepth body
  | .try body handlers orElse finally_ =>
    max (max (Stmt.allTryDepth body) (Handler.allTryDepth handlers))
      (max (Stmt.allTryDepth orElse) (Stmt.allTryDepth finally_)) + 1
  | _ => 0

def Stmt.allTryDepth : List Stmt → Nat
  | [] => 0
  | s :: rest => max s.tryDepth (Stmt.allTryDepth rest)

def Handler.allTryDepth : List Handler → Nat
  | [] => 0
  | .mk _ _ body :: rest => max (Stmt.allTryDepth body) (Handler.allTryDepth rest)

end

/-! ## Code -/

/-- The number of instructions of code objects. -/
def Code.lengthOf : List Code → Nat
  | [] => 0
  | c :: rest => c.instrs.size + Code.lengthOf rest

/-- The number of instructions of a program. -/
def Bytecode.length (code : Bytecode) : Nat := Code.lengthOf code.functions.toList

theorem Code.lengthOf_append (l r : List Code) : lengthOf (l ++ r) = lengthOf l + lengthOf r := by
  induction l with
  | nil => simp [lengthOf]
  | cons c l ih => rw [List.cons_append, lengthOf, lengthOf, ih, Nat.add_assoc]

/-- A code object that is put in the place of another one adds at most its own instructions. -/
theorem Code.lengthOf_set_le (cs : List Code) (i : Nat) (c : Code) :
    lengthOf (cs.set i c) ≤ lengthOf cs + c.instrs.size := by
  induction cs generalizing i with
  | nil => exact Nat.zero_le _
  | cons d cs ih =>
    cases i with
    | zero =>
      rw [List.set_cons_zero, lengthOf, lengthOf]
      omega
    | succ i =>
      have := ih i
      rw [List.set_cons_succ, lengthOf, lengthOf]
      omega

namespace Compile

/-! ## What a build emits -/

/-- What a build gives if it succeeds: the number of instructions that it has added to the code
objects of functions, and its result, have the property `Q`. -/
def Emits {α : Type} (b : Build α) (Q : Nat → α → Prop) : Prop :=
  ∀ ⦃s a t⦄, b s = .ok (a, t) →
    ∃ k, Code.lengthOf t.functions.toList ≤ Code.lengthOf s.functions.toList + k ∧ Q k a

/-- A build that leaves all functions as they are. -/
def Silent {α : Type} (b : Build α) : Prop :=
  ∀ ⦃s a t⦄, b s = .ok (a, t) → t.functions = s.functions

variable {α β : Type} {Q : Nat → α → Prop} {R : Nat → β → Prop}

namespace Emits

theorem ret {a : α} (h : Q 0 a) : Emits (pure a) Q := by
  intro s _ t hs
  cases hs
  exact ⟨0, Nat.le_refl _, h⟩

theorem fail {e : SourceError} : Emits (throw e) Q := fun _ _ _ hs => nomatch hs

theorem fail_bind {e : SourceError} {f : α → Build β} : Emits (throw e >>= f) R :=
  fun _ _ _ hs => nomatch hs

theorem ret_bind {a : α} {f : α → Build β} (hf : Emits (f a) R) : Emits (pure a >>= f) R := hf

theorem bind {b : Build α} {f : α → Build β} (hb : Emits b Q)
    (hf : ∀ a, Emits (f a) fun k c => ∀ j, Q j a → R (j + k) c) : Emits (b >>= f) R := by
  intro s c t hs
  obtain ⟨a, u, hbs, hfs⟩ := exists_of_bind hs
  obtain ⟨j, hj, hQ⟩ := hb hbs
  obtain ⟨k, hk, hR⟩ := hf a hfs
  exact ⟨j + k, by omega, hR j hQ⟩

theorem imp {Q' : Nat → α → Prop} {b : Build α} (hb : Emits b Q) (h : ∀ k a, Q k a → Q' k a) :
    Emits b Q' := fun _ _ _ hs => (hb hs).imp fun k hk => ⟨hk.1, h k _ hk.2⟩

end Emits

namespace Silent

theorem bind {b : Build α} {f : α → Build β} (hb : Silent b) (hf : ∀ a, Emits (f a) R) :
    Emits (b >>= f) R := by
  intro s c t hs
  obtain ⟨a, u, hbs, hfs⟩ := exists_of_bind hs
  rw [← hb hbs]
  exact hf a hfs

theorem seq {b : Build α} {f : α → Build β} (hb : Silent b) (hf : ∀ a, Silent (f a)) :
    Silent (b >>= f) := by
  intro s c t hs
  obtain ⟨a, u, hbs, hfs⟩ := exists_of_bind hs
  exact (hf a hfs).trans (hb hbs)

theorem ret (a : α) : Silent (pure a) := by
  intro s _ t hs
  cases hs
  rfl

end Silent

theorem get_silent : Silent get := by
  intro s a t hs
  cases hs
  rfl

theorem at_silent (span : Span) : Silent (at_ span) := by
  intro s a t hs
  cases hs
  rfl

theorem one_silent (op : Op) : Silent (one op) := by
  intro s a t hs
  cases hs
  rfl

theorem pooled_silent {ι : Type} (add : Pool → ι × Pool) : Silent (pooled add) := by
  intro s a t hs
  cases hs
  rfl

theorem constant_silent (v : Literal) : Silent (constant v) :=
  (pooled_silent _).seq fun _ => one_silent _

theorem globalSlot_silent (name : String) : Silent (globalSlot name) := by
  intro s a t hs
  rw [globalSlot_eq] at hs
  cases hfind : s.globals.findIdx? (· == name) <;> (rw [hfind] at hs; cases hs; rfl)

theorem place_silent (env : Env) (name : String) : Silent (place env name) := by
  have hglobal : Silent (do return Place.global (← globalSlot name)) :=
    (globalSlot_silent name).seq fun _ => .ret _
  unfold place
  split
  · exact .ret _
  · split
    · exact hglobal
    · split
      · exact .ret _
      · split
        · exact .ret _
        · exact hglobal

theorem load_silent (env : Env) (name : String) : Silent (load env name) :=
  (place_silent env name).seq fun p => by cases p <;> exact one_silent _

theorem store_silent (env : Env) (name : String) : Silent (store env name) := by
  refine (place_silent env name).seq fun p => ?_
  cases p with
  | «local» | global => exact one_silent _
  | builtin | excClass => exact (globalSlot_silent name).seq fun _ => one_silent _

end Compile

end Resumable
