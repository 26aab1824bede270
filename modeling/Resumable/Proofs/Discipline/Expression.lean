import Resumable.Proofs.Discipline.Build

/-!
# Layouts of expressions

The code of an expression leaves one more operand than it finds, takes none of those that it finds,
and leaves handlers alone (`expr_lays`). So all that it needs of its surroundings is that a handler
that can be entered before it is still there.
-/

namespace Resumable.Compile

variable {F : State} {slots pc q n k m : Nat}

/-- An instruction of the code object at hand keeps to the labels. -/
abbrev keepsIn (F : State) (slots : Nat) : Shapes → Nat → Shape → Instr → Prop :=
  fun S pc σ i => i.Keeps F.functions.size F.globals.length slots F.pool S pc σ

/-- Code finds `n` operands of its own and leaves `k`, on top of any shape. -/
def Lays (F : State) (slots pc n k : Nat) (code : List Instr) : Prop :=
  ∀ σ : Shape, Layout (keepsIn F slots) (Guarded · 0 σ) pc (σ.up n) code (σ.up k)

theorem Plain.keeps {S : Shapes} {σ : Shape} {i : Instr} (h : Plain F slots n k i)
    (hS : Guarded S 0 σ) (hnext : S (pc + 1) = some (σ.up k)) :
    keepsIn F slots S pc (σ.up n) i where
  fits := by rw [← h.pops]; exact .plain h.pushes hnext
  guarded := by rw [h.pops]; simpa using hS.up n
  inRange := h.inRange

namespace Lays

variable {l r : List Instr} {i : Instr} {o : Op}

theorem nil : Lays F slots pc n n [] := fun _ => .nil

theorem append (hl : Lays F slots pc n k l) (hr : Lays F slots q k m r) (hq : q = pc + l.length) :
    Lays F slots pc n m (l ++ r) := fun σ => (hl σ).append (hr σ) hq

/-- Code leaves the operands of others as they are. -/
theorem shift (h : Lays F slots pc n k l) (a : Nat) : Lays F slots pc (n + a) (k + a) l :=
  fun σ => by
    rw [Nat.add_comm n, Nat.add_comm k, ← Shape.up_up, ← Shape.up_up]
    exact (h (σ.up a)).weaken fun S hS => hS.above a

theorem above (h : Lays F slots pc 0 k l) (a : Nat) : Lays F slots pc a (k + a) l := by
  simpa using h.shift a

theorem plain (h : Plain F slots n k i) : Lays F slots pc n k [i] := fun _ =>
  .single fun _ hS _ hnext => h.keeps hS hnext

theorem op (hi : i.op = o) (hn : o.pops F.pool = n) (hk : o.pushes = some k)
    (hr : o.InRange F.functions.size F.globals.length slots F.pool) : Lays F slots pc n k [i] :=
  plain ⟨by rw [hi, hn], by rw [hi, hk], by rw [hi]; exact hr⟩

/-- Code that ends with an instruction. -/
theorem snoc (hl : Lays F slots pc n k l) (hi : i.op = o) (hk : o.pops F.pool = k)
    (hm : o.pushes = some m)
    (hr : o.InRange F.functions.size F.globals.length slots F.pool) :
    Lays F slots pc n m (l ++ [i]) := hl.append (.op hi hk hm hr) rfl

end Lays

theorem constant_builds (v : Literal) (slots pc : Nat) :
    Builds (constant v) fun F i => Lays F slots pc 0 1 [i] :=
  (addConstant_builds v).bind fun _ => (one_builds _).imp fun _ _ hi hc => .op hi rfl rfl hc

/-! ## Jumps -/

/-- A jump that pops its operand exactly if it is not taken. -/
structure KeepsOrPops (jump : Nat → Op) : Prop where
  fits : ∀ {pool S pc t} {σ : Shape}, S (pc + 1) = some σ → S t = some (σ.up 1) →
    (jump t).Fits pool S pc (σ.up 1)
  pops : ∀ t pool, (jump t).pops pool = 1
  inRange : ∀ t functions globals locals pool, (jump t).InRange functions globals locals pool

theorem keepsOrPops_false : KeepsOrPops .jumpIfFalseOrPop :=
  ⟨.jumpIfFalseOrPop, fun _ _ => rfl, fun _ _ _ _ _ => trivial⟩

theorem keepsOrPops_true : KeepsOrPops .jumpIfTrueOrPop :=
  ⟨.jumpIfTrueOrPop, fun _ _ => rfl, fun _ _ _ _ _ => trivial⟩

section
variable {S : Shapes} {σ : Shape} {t : Nat} {i : Instr}

theorem KeepsOrPops.keeps {jump : Nat → Op} (h : KeepsOrPops jump) (hi : i.op = jump t)
    (hS : Guarded S 0 σ) (hnext : S (pc + 1) = some σ) (ht : S t = some (σ.up 1)) :
    keepsIn F slots S pc (σ.up 1) i where
  fits := by rw [hi]; exact h.fits hnext ht
  guarded := by rw [hi, h.pops]; simpa using hS.up 1
  inRange := by rw [hi]; exact h.inRange _ _ _ _ _

theorem jumpIfFalse_keeps (hi : i.op = .jumpIfFalse t) (hS : Guarded S 0 σ)
    (hnext : S (pc + 1) = some σ) (ht : S t = some σ) : keepsIn F slots S pc (σ.up 1) i where
  fits := by rw [hi]; exact .jumpIfFalse hnext ht
  guarded := by rw [hi]; simpa [Op.pops] using hS.up 1
  inRange := by rw [hi]; trivial

theorem jumpIfTrue_keeps (hi : i.op = .jumpIfTrue t) (hS : Guarded S 0 σ)
    (hnext : S (pc + 1) = some σ) (ht : S t = some σ) : keepsIn F slots S pc (σ.up 1) i where
  fits := by rw [hi]; exact .jumpIfTrue hnext ht
  guarded := by rw [hi]; simpa [Op.pops] using hS.up 1
  inRange := by rw [hi]; trivial

theorem jump_keeps (hi : i.op = .jump t) (hS : Guarded S 0 σ) (ht : S t = some σ) :
    keepsIn F slots S pc σ i where
  fits := by rw [hi]; exact .jump ht
  guarded := by rw [hi]; exact hS
  inRange := by rw [hi]; trivial

end

/-! ## Calls -/

/-- The number of operands that a tuple of arguments takes that is being gathered. -/
def held (started : Bool) : Nat := if started then 1 else 0

/-- The number of operands that the positional arguments of a call take. -/
def argumentOperands (args : List Expr) : Nat := if args.any isStarred then 1 else args.length

theorem arguments_bind {α : Type} {args : List Expr} {a b : Build (List Instr)}
    {f : List Instr → Build α} {R : State → α → Prop}
    (ha : args.any isStarred = true → Builds a fun F => Lays F slots pc 0 1)
    (hb : Builds b fun F => Lays F slots pc 0 args.length)
    (hf : ∀ code, Builds (f code) fun F c =>
      Lays F slots pc 0 (argumentOperands args) code → R F c) :
    Builds (if args.any isStarred = true then a >>= f else b >>= f) R := by
  unfold argumentOperands at hf
  split at hf <;> split
  · exact (ha ‹_›).bind hf
  · contradiction
  · contradiction
  · exact hb.bind hf

/-- A call takes its arguments as they stand: packed in a tuple or one by one. -/
theorem call_plain {i : Instr} {args : List Expr} {packedCall plainCall : Op}
    (hi : i.op = if args.any isStarred = true then packedCall else plainCall)
    (hp : packedCall.pops F.pool = k + 2) (hq : plainCall.pops F.pool = args.length + k + 1)
    (hps : packedCall.pushes = some 1) (hqs : plainCall.pushes = some 1)
    (hpr : packedCall.InRange F.functions.size F.globals.length slots F.pool)
    (hqr : plainCall.InRange F.functions.size F.globals.length slots F.pool) :
    Plain F slots (k + (argumentOperands args + 1)) 1 i := by
  unfold argumentOperands
  split at hi
  · next h => rw [if_pos h]; exact ⟨by rw [hi, hp], by rw [hi, hps], by rw [hi]; exact hpr⟩
  · next h =>
    rw [if_neg h]
    exact ⟨by rw [hi, hq]; omega, by rw [hi, hqs], by rw [hi]; exact hqr⟩

theorem gather_bind {α : Type} (slots pc : Nat) {pending : Nat} {started : Bool}
    {f : List Instr → Build α} {R : State → α → Prop}
    (hf : ∀ g, Builds (f g) fun F c => Lays F slots pc (pending + held started) 1 g → R F c) :
    Builds (if (decide (pending > 0) || !started) = true then do
        let build ← one (.buildTuple pending)
        if started = true then do
          let add ← one (.binary .add)
          let g ← pure [build, add]
          f g
        else do
          let g ← pure [build]
          f g
      else do
        let g ← pure []
        f g) R := by
  have hpure : ∀ {P : State → Prop} {g}, (∀ F, P F → Lays F slots pc (pending + held started) 1 g) →
      Builds (pure g >>= f) fun F c => P F → R F c := fun {P g} hg =>
    Builds.bind (Q := fun _ g' => g' = g) (.ret fun _ => rfl) fun g' =>
      (hf g').imp fun F c h hg' hP => h (by rw [hg']; exact hg F hP)
  split
  · refine (one_builds _).bind fun build => ?_
    cases started with
    | true =>
      refine (one_builds _).bind fun add => ?_
      refine (hpure (P := fun _ => add.op = .binary .add ∧ build.op = .buildTuple pending)
        fun F hP => ?_).imp fun F c h hadd hbuild => h ⟨hadd, hbuild⟩
      have hb : Lays F slots pc pending 1 [build] := .op hP.2 rfl rfl trivial
      exact (hb.shift 1).append (.op hP.1 rfl rfl trivial) rfl
    | false => exact hpure fun F hbuild => .op hbuild rfl rfl trivial
  · next h =>
    obtain ⟨rfl, rfl⟩ : pending = 0 ∧ started = true := by simpa using h
    exact (hpure (P := fun _ => True) fun F _ => .nil).imp fun F c h => h trivial

theorem packed_cons_lays {env : Env} {pending : Nat} {started : Bool} {arg : Expr}
    {rest : List Expr} (harg : isStarred arg = false)
    (hexpr : Builds (expr env pc arg) fun F => Lays F env.slots pc 0 1)
    (hrest : ∀ q, Builds (packed env q (pending + 1) started rest) fun F =>
      Lays F env.slots q (pending + 1 + held started) 1) :
    Builds (packed env pc pending started (arg :: rest)) fun F =>
      Lays F env.slots pc (pending + held started) 1 := by
  rw [packed]
  · refine hexpr.bind fun code => (hrest _).bind fun more => .ret fun F hm hc => ?_
    have hc := hc.above (pending + held started)
    rw [Nat.add_comm 1, Nat.add_right_comm] at hc
    exact hc.append hm rfl
  · rintro span operand rfl
    cases harg

theorem formatSpec_bind {α : Type} {spec : Option String} {f : Option Nat → Build α}
    {R : State → α → Prop}
    (hf : ∀ s, Builds (f s) fun F c => (∀ i ∈ s, i < F.pool.consts.size) → R F c) :
    Builds (match spec with
      | some spec => do
        let s ← some <$> pooled (·.addConstant (.string spec))
        f s
      | none => do
        let s ← pure none
        f s) R := by
  cases spec with
  | none => exact Builds.bind (.ret fun F i hi => nomatch hi) hf
  | some spec =>
    exact ((addConstant_builds _).map fun F i hi j hj => by cases hj; exact hi).bind hf

mutual

theorem expr_lays (env : Env) (pc : Nat) (e : Expr) :
    Builds (expr env pc e) fun F => Lays F env.slots pc 0 1 := by
  match e with
  | .mk span form =>
    rw [expr]
    exact (at_builds span).bind fun _ => (exprForm_lays env pc span form).imp fun _ _ h _ => h

theorem exprForm_lays (env : Env) (pc : Nat) (span : Span) (form : ExprForm) :
    Builds (exprForm env pc span form) fun F => Lays F env.slots pc 0 1 := by
  match form with
  | .literal value =>
    rw [exprForm]
    exact (constant_builds value env.slots pc).bind fun i => .ret fun F hi => hi
  | .format parts =>
    rw [exprForm]
    refine (formatParts_lays env pc span parts).bind fun code => (one_builds _).bind fun i =>
      .ret fun F hi hc => ?_
    exact hc.snoc hi rfl rfl trivial
  | .name id =>
    rw [exprForm]
    exact (load_builds env id).bind fun i => .ret fun F hi => .plain hi
  | .list items =>
    rw [exprForm]
    refine (exprs_lays env pc items).bind fun code => (at_builds span).bind fun _ =>
      (one_builds _).bind fun i => .ret fun F hi _ hc => ?_
    exact hc.snoc hi rfl rfl trivial
  | .tuple items =>
    rw [exprForm]
    refine (exprs_lays env pc items).bind fun code => (at_builds span).bind fun _ =>
      (one_builds _).bind fun i => .ret fun F hi _ hc => ?_
    exact hc.snoc hi rfl rfl trivial
  | .dict items =>
    rw [exprForm]
    refine (dictItems_lays env pc items).bind fun code => (at_builds span).bind fun _ =>
      (one_builds _).bind fun i => .ret fun F hi _ hc => ?_
    exact hc.snoc hi rfl rfl trivial
  | .binary left op right =>
    rw [exprForm]
    refine (expr_lays env pc left).bind fun l => (expr_lays env _ right).bind fun r =>
      (at_builds span).bind fun _ => (one_builds _).bind fun i => .ret fun F hi _ hr hl => ?_
    exact (hl.append (hr.above 1) rfl).snoc hi rfl rfl trivial
  | .all first rest =>
    rw [exprForm]
    refine (expr_lays env pc first).bind fun code =>
      (boolean_lays env keepsOrPops_false _ rest).bind fun more => .ret fun F hm hc => ?_
    exact hc.append hm rfl
  | .any first rest =>
    rw [exprForm]
    refine (expr_lays env pc first).bind fun code =>
      (boolean_lays env keepsOrPops_true _ rest).bind fun more => .ret fun F hm hc => ?_
    exact hc.append hm rfl
  | .not operand =>
    rw [exprForm]
    refine (expr_lays env pc operand).bind fun code => (one_builds _).bind fun i =>
      .ret fun F hi hc => ?_
    exact hc.snoc hi rfl rfl trivial
  | .neg operand =>
    rw [exprForm]
    refine (expr_lays env pc operand).bind fun code => (at_builds span).bind fun _ =>
      (one_builds _).bind fun i => .ret fun F hi _ hc => ?_
    exact hc.snoc hi rfl rfl trivial
  | .pos operand =>
    rw [exprForm]
    refine (expr_lays env pc operand).bind fun code => (at_builds span).bind fun _ =>
      (one_builds _).bind fun i => .ret fun F hi _ hc => ?_
    exact hc.snoc hi rfl rfl trivial
  | .compare left rest =>
    rw [exprForm]
    refine (expr_lays env pc left).bind fun l =>
      (comparisons_lays env _ span rest).bind fun chain => ?_
    split
    · next hlen =>
      refine .ret fun F hc hl σ => ?_
      exact (hl σ).append ((hc σ).weaken fun S hS => ⟨hS, fun h => by omega⟩) rfl
    · refine (one_builds _).bind fun skip => (one_builds _).bind fun rot =>
        (one_builds _).bind fun pop => .ret fun F hpop hrot hskip hc hl σ => ?_
      rw [show l ++ chain ++ [skip, rot, pop] = l ++ (chain ++ [skip] ++ [rot, pop]) by simp]
      refine .marked (pc + l.length + chain.length + 3) (by simp; omega) ?_
      refine .append ((hl σ).weaken fun S hS => hS.1) (.append (ρ := σ.up 2) ?_ ?_ rfl) rfl
      · refine .marked (pc + l.length + chain.length + 1) (by simp; omega) ?_
        refine .append ((hc σ).weaken fun S hS => ⟨hS.1.1, fun _ => hS.2.2⟩) ?_ rfl
        exact .single fun S hS _ _ => jump_keeps hskip (hS.1.1.above 1) hS.1.2.2
      · have hrot : Lays F env.slots (pc + l.length + (chain ++ [skip]).length) 2 2 [rot] :=
          .op hrot rfl rfl trivial
        have hpop : Lays F env.slots (pc + l.length + (chain ++ [skip]).length + 1) 2 1 [pop] :=
          (Lays.op hpop rfl rfl trivial).shift 1
        exact (hrot.append hpop rfl σ).weaken fun S hS => hS.1
  | .conditional test body orElse =>
    rw [exprForm]
    refine (expr_lays env pc test).bind fun t => get_builds.bind fun s =>
      (expr_lays env _ body).bind fun b => get_builds.bind fun s' =>
      (expr_lays env _ orElse).bind fun o => .ret fun F ho _ hb _ ht σ => ?_
    generalize hx : (⟨.jumpIfFalse _, s.span⟩ : Instr) = x
    generalize hy : (⟨.jump _, s'.span⟩ : Instr) = y
    rw [show t ++ [x] ++ b ++ [y] ++ o = t ++ (x :: (b ++ [y]) ++ o) by simp]
    refine .marked (pc + t.length + 1 + b.length + 1 + o.length) (by simp; omega) ?_
    refine .append ((ht σ).weaken fun S hS => hS.1) (.append (ρ := σ) ?_
      ((ho σ).weaken fun S hS => hS.1) (by simp; omega)) rfl
    refine .marked (pc + t.length + 1 + b.length + 1) (by simp; omega) ?_
    refine .cons (.single fun S hS _ hnext =>
      jumpIfFalse_keeps (by rw [← hx]) hS.1.1 hnext hS.2.2) ?_
    refine .append ((hb σ).weaken fun S hS => hS.1.1) (.single fun S hS _ _ => ?_) rfl
    exact jump_keeps (by rw [← hy]) (hS.1.1.above 1) hS.1.2.2
  | .call callee args kws =>
    rw [exprForm]
    refine (expr_lays env pc callee).bind fun c =>
      arguments_bind (fun h => packed_lays env _ 0 false args (.inr h)) (exprs_lays env _ args)
      fun a => (keywords_lays env _ kws).bind fun k => (addKeywords_builds _).bind fun names =>
      (at_builds span).bind fun _ => (one_builds _).bind fun i => .ret fun F hi _ hn hk ha hc => ?_
    have hlen : (F.pool.keywordNames names).length = kws.length := by rw [hn.2, List.length_map]
    refine ((hc.append (ha.above 1) rfl).append (hk.above _)
      (by rw [List.length_append, Nat.add_assoc])).append
      (.plain (call_plain hi ?_ ?_ rfl rfl hn.1 hn.1)) rfl
    · rw [Op.pops, hlen]
    · rw [Op.pops, hlen]
  | .methodCall object method args kws =>
    rw [exprForm]
    refine (expr_lays env pc object).bind fun c =>
      arguments_bind (fun h => packed_lays env _ 0 false args (.inr h)) (exprs_lays env _ args)
      fun a => (keywords_lays env _ kws).bind fun k => (addKeywords_builds _).bind fun names =>
      (addName_builds method).bind fun name => (at_builds span).bind fun _ =>
      (one_builds _).bind fun i => .ret fun F hi _ hname hn hk ha hc => ?_
    have hlen : (F.pool.keywordNames names).length = kws.length := by rw [hn.2, List.length_map]
    refine ((hc.append (ha.above 1) rfl).append (hk.above _)
      (by rw [List.length_append, Nat.add_assoc])).append
      (.plain (call_plain hi ?_ ?_ rfl rfl ⟨hname, hn.1⟩ ⟨hname, hn.1⟩)) rfl
    · rw [Op.pops, hlen]
    · rw [Op.pops, hlen]
  | .attribute object name =>
    rw [exprForm]
    refine (expr_lays env pc object).bind fun code => (addName_builds name).bind fun n =>
      (at_builds span).bind fun _ => (one_builds _).bind fun i => .ret fun F hi _ hn hc => ?_
    exact hc.snoc hi rfl rfl hn
  | .subscript object index =>
    rw [exprForm]
    refine (expr_lays env pc object).bind fun o => (expr_lays env _ index).bind fun x =>
      (at_builds span).bind fun _ => (one_builds _).bind fun i => .ret fun F hi _ hx ho => ?_
    exact (ho.append (hx.above 1) rfl).snoc hi rfl rfl trivial
  | .slice lower upper step =>
    rw [exprForm]
    refine (sliceBound_lays env pc lower).bind fun l => (sliceBound_lays env _ upper).bind fun u =>
      (sliceBound_lays env _ step).bind fun s => (at_builds span).bind fun _ =>
      (one_builds _).bind fun i => .ret fun F hi _ hs hu hl => ?_
    have hlu := hl.append (hu.above 1) rfl
    have hall := hlu.append (hs.above 2) (by rw [List.length_append, Nat.add_assoc])
    exact hall.snoc hi rfl rfl trivial
  | .await operand =>
    rw [exprForm]
    refine (expr_lays env pc operand).bind fun code => (at_builds span).bind fun _ =>
      (one_builds _).bind fun i => .ret fun F hi _ hc => ?_
    exact hc.snoc hi rfl rfl trivial
  | .starred operand =>
    rw [exprForm]
    exact .fail

theorem exprs_lays (env : Env) (pc : Nat) (es : List Expr) :
    Builds (exprs env pc es) fun F => Lays F env.slots pc 0 es.length := by
  match es with
  | [] => rw [exprs]; exact .ret fun F => .nil
  | e :: rest =>
    rw [exprs]
    refine (expr_lays env pc e).bind fun code => (exprs_lays env _ rest).bind fun more =>
      .ret fun F hm hc => hc.append (hm.above 1) rfl

theorem formatParts_lays (env : Env) (pc : Nat) (span : Span) (parts : List FormatPart) :
    Builds (formatParts env pc span parts) fun F => Lays F env.slots pc 0 parts.length := by
  match parts with
  | [] => rw [formatParts]; exact .ret fun F => .nil
  | .text s :: rest =>
    rw [formatParts]
    refine (constant_builds _ env.slots pc).bind fun i =>
      (formatParts_lays env _ span rest).bind fun more => .ret fun F hm hi => ?_
    exact hi.append (hm.above 1) rfl
  | .field value conversion spec :: rest =>
    rw [formatParts]
    refine (expr_lays env pc value).bind fun code => formatSpec_bind fun s =>
      (at_builds span).bind fun _ => (one_builds _).bind fun i =>
      (formatParts_lays env _ span rest).bind fun more => .ret fun F hm hi _ hs hc => ?_
    exact (hc.snoc hi rfl rfl hs).append (hm.above 1) rfl

theorem dictItems_lays (env : Env) (pc : Nat) (items : List DictItem) :
    Builds (dictItems env pc items) fun F => Lays F env.slots pc 0 (2 * items.length) := by
  match items with
  | [] => rw [dictItems]; exact .ret fun F => .nil
  | .mk key value :: rest =>
    rw [dictItems]
    refine (expr_lays env pc key).bind fun k => (expr_lays env _ value).bind fun v =>
      (dictItems_lays env _ rest).bind fun more => .ret fun F hm hv hk => ?_
    exact (hk.append (hv.above 1) rfl).append (hm.above 2)
      (by rw [List.length_append, Nat.add_assoc])

theorem sliceBound_lays (env : Env) (pc : Nat) (bound : Option Expr) :
    Builds (sliceBound env pc bound) fun F => Lays F env.slots pc 0 1 := by
  match bound with
  | some e => rw [sliceBound]; exact expr_lays env pc e
  | none =>
    rw [sliceBound]
    exact (constant_builds _ env.slots pc).bind fun i => .ret fun F hi => hi

theorem boolean_lays (env : Env) {jump : Nat → Op} (hjump : KeepsOrPops jump) (pc : Nat)
    (operands : List Expr) :
    Builds (boolean env jump pc operands) fun F => Lays F env.slots pc 1 1 := by
  match operands with
  | [] => rw [boolean]; exact .ret fun F => .nil
  | e :: rest =>
    rw [boolean]
    refine get_builds.bind fun s => (expr_lays env _ e).bind fun code =>
      (boolean_lays env hjump _ rest).bind fun more => .ret fun F hm hc _ σ => ?_
    refine .marked (pc + 1 + code.length + more.length) (by simp; omega) ?_
    refine .cons (.single fun S hS _ hnext => hjump.keeps rfl hS.1 hnext hS.2.2) ?_
    exact ((hc σ).append (hm σ) rfl).weaken fun S hS => hS.1

theorem comparisons_lays (env : Env) (pc : Nat) (span : Span) (cs : List Comparison) :
    Builds (comparisons env pc span cs) fun F code => ∀ σ : Shape,
      Layout (keepsIn F env.slots) (fun S => Guarded S 0 σ ∧
        (1 < cs.length → S (pc + code.length + 1) = some (σ.up 2))) pc (σ.up 1) code (σ.up 1) := by
  match cs with
  | [] => rw [comparisons]; exact .ret fun F σ => .nil
  | [.mk op right] =>
    rw [comparisons]
    refine (expr_lays env pc right).bind fun r => (at_builds span).bind fun _ =>
      (one_builds _).bind fun i => .ret fun F hi _ hr σ => ?_
    exact ((hr.above 1).snoc hi rfl rfl trivial σ).weaken fun S hS => hS.1
  | .mk op right :: next :: rest =>
    rw [comparisons]
    · refine (expr_lays env pc right).bind fun r => (at_builds span).bind fun _ =>
        (one_builds _).bind fun dup => (one_builds _).bind fun rot => (one_builds _).bind fun cmp =>
        (comparisons_lays env _ span (next :: rest)).bind fun more =>
        .ret fun F hm hcmp hrot hdup _ hr σ => ?_
      have hkeep : Lays F env.slots (pc + r.length) 2 2 [dup, rot, cmp] :=
        (((Lays.op hdup rfl rfl trivial).shift 1).append (.op hrot rfl rfl trivial) rfl).append
          ((Lays.op hcmp rfl rfl trivial).shift 1) rfl
      have hlen : 1 < (Comparison.mk op right :: next :: rest).length := by simp
      refine Layout.weaken (Γ := fun S => Guarded S 0 σ ∧
        S (pc + r.length + 4 + more.length + 1) = some (σ.up 2)) ?_ fun S hS => ⟨hS.1, ?_⟩
      · refine .append (.append ((((hr.above 1).append hkeep rfl) σ).weaken fun S hS => hS.1)
          (.single fun S hS _ hnext => ?_) rfl)
          ((hm σ).weaken fun S hS => ⟨hS.1, fun _ => hS.2⟩) (by simp; omega)
        exact keepsOrPops_false.keeps rfl (hS.1.above 1) hnext hS.2
      · rw [← hS.2 hlen]
        congr 1
        simp
        omega
    · exact List.cons_ne_nil _ _

theorem packed_lays (env : Env) (pc pending : Nat) (started : Bool) (args : List Expr)
    (h : started = true ∨ args.any isStarred = true) :
    Builds (packed env pc pending started args) fun F =>
      Lays F env.slots pc (pending + held started) 1 := by
  match args with
  | [] =>
    obtain rfl : started = true := by simpa using h
    rw [packed]
    split
    · refine (one_builds _).bind fun build => (one_builds _).bind fun add =>
        .ret fun F hadd hbuild => ?_
      have hb : Lays F env.slots pc pending 1 [build] := .op hbuild rfl rfl trivial
      exact (hb.shift 1).append (.op hadd rfl rfl trivial) rfl
    · next hp =>
      obtain rfl : pending = 0 := by omega
      exact .ret fun F => .nil
  | .mk span form :: rest =>
    cases form with
    | starred operand =>
      rw [packed]
      refine gather_bind env.slots pc fun gather =>
        (expr_lays env _ operand).bind fun code => (at_builds span).bind fun _ =>
        (one_builds _).bind fun tuple => (one_builds _).bind fun add =>
        (packed_lays env _ 0 true rest (.inl rfl)).bind fun more =>
        .ret fun F hm hadd htuple _ hc hg => ?_
      have htuple : Lays F env.slots (pc + (gather ++ code).length) 2 2 [tuple] :=
        (Lays.op htuple rfl rfl trivial).shift 1
      have hgather := hg.append (hc.above 1) rfl
      exact (hgather.append (htuple.append (.op hadd rfl rfl trivial) rfl) rfl).append hm rfl
    | _ =>
      exact packed_cons_lays rfl (expr_lays env pc _) fun q =>
        packed_lays env q (pending + 1) started rest
          (h.imp_right fun h => by simpa [isStarred] using h)

theorem keywords_lays (env : Env) (pc : Nat) (kws : List Keyword) :
    Builds (keywords env pc kws) fun F => Lays F env.slots pc 0 kws.length := by
  match kws with
  | [] => rw [keywords]; exact .ret fun F => .nil
  | .mk _ value :: rest =>
    rw [keywords]
    refine (expr_lays env pc value).bind fun code => (keywords_lays env _ rest).bind fun more =>
      .ret fun F hm hc => hc.append (hm.above 1) rfl

end

end Resumable.Compile
