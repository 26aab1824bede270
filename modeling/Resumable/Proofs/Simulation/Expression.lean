import Resumable.Proofs.Simulation.Await
import Resumable.Proofs.Simulation.Build

/-!
# Expressions

The code of an expression does what its evaluation does: it leaves the value on top of the operands
that it finds (`expr_follows`), in the same state of everything else, or raises the exception that
the evaluation raises.
-/

namespace Resumable

open Machine Semantics

/-- An evaluation is set up as the code at hand is run, which was compiled in an environment. -/
structure Semantics.Setting.Matches (E : Setting) (s : Script) (n : Nat) (env : Compile.Env)
    (K : Compile.State) (c : Ctx) (F : Code) : Prop where
  code : s.bytecode.functions[c.function]? = some F
  pool : K.pool.Within F.pool
  slots : E.names.slots = s.bytecode.globals
  names : E.names.Suits env K
  locals : ∀ names, env.locals = some names → F.locals = names
  scope : E.scope = c.scope
  fuel : E.fuel = n
  calls : CallsFollow s n E.calls

/-! ## Names -/

section
variable {s : Script} {n : Nat} {env : Compile.Env} {K : Compile.State} {c : Ctx} {F : Code}
  {E : Setting} {pc : Nat} {base kept : List Value} {name : String} {span : Span} {v : Value}

/-- What is in a slot is pushed, unless the slot is empty. -/
theorem pushSlot_eq (slots : Array Value) (slot : Nat) (e : Failure) :
    (match slots[slot]? with
      | some .undefined | none => throw e
      | some v => push v : Exec Unit) =
    ((MonadExcept.ofExcept (Setting.slotValue slots slot e) : Exec Value) >>= push) := by
  unfold Setting.slotValue
  cases slots[slot]? with
  | none => rfl
  | some v => cases v <;> rfl

theorem loadLocal_eq (hF : s.bytecode.functions[c.function]? = some F) {slot : Nat}
    (hname : F.locals[slot]? = some name) (σ : State) (events : Option (List Event)) :
    loadLocal s.bytecode slot (c.machine pc kept σ events) =
      ((MonadExcept.ofExcept (Setting.slotValue σ.locals slot (.exception .unboundLocalError
        s!"cannot access local variable '{name}' where it is not associated with a value")) :
          Exec Value) >>= push) (c.machine pc kept σ events) := by
  have hmessage : (((s.bytecode.functions[c.function]?).elim [] (·.locals))[slot]?).getD "?" =
      name := by
    rw [hF, Option.elim_some, hname]
    rfl
  rw [← hmessage]
  exact congrFun (pushSlot_eq σ.locals slot _) _

theorem loadGlobal_eq {slot : Nat} (hname : s.bytecode.globals[slot]? = some name) (σ : State)
    (events : Option (List Event)) :
    loadGlobal s.bytecode slot (c.machine pc kept σ events) =
      ((MonadExcept.ofExcept (Setting.slotValue σ.globals slot (.exception .nameError
        s!"name '{name}' is not defined")) : Exec Value) >>= push)
          (c.machine pc kept σ events) := by
  have hmessage : (s.bytecode.globals[slot]?).getD "?" = name := by
    rw [hname]
    rfl
  rw [← hmessage]
  exact congrFun (pushSlot_eq σ.globals slot _) _

/-- A look at a slot. -/
theorem Mirrors.slotValue (slots : State → Array Value) (slot : Nat) (e : Failure) (x : Exec Value)
    (hx : ∀ σ events, x (c.machine pc kept σ events) =
      (MonadExcept.ofExcept (Setting.slotValue (slots σ) slot e) : Exec Value)
        (c.machine pc kept σ events)) :
    Mirrors c pc kept x fun σ => Semantics.ofExcept (Setting.slotValue (slots σ) slot e) σ :=
  .depends fun σ events => ⟨_, _, hx σ events, rfl, .ofExcept _⟩

theorem Sim.load (hE : E.Matches s n env K c F)
    (hname : (E.names.place name).Names E.names name)
    (hi : F.instrs[pc]? = some ⟨(E.names.place name).load, span⟩) :
    Sim s n c kept pc kept (E.load span kept name)
      (c.At (fun _ => pc + 1) fun v => v :: kept) := by
  unfold Setting.load
  rw [hE.scope]
  cases hplace : E.names.place name with
  | «local» slot =>
    rw [hplace] at hname hi
    obtain ⟨names, hnames, hslot⟩ := Option.bind_eq_some_iff.mp hname
    rw [hE.names.locals] at hnames
    rw [← hE.locals names hnames] at hslot
    have hread : E.read name = fun σ => Semantics.ofExcept (Setting.slotValue σ.locals slot
        (.exception .unboundLocalError
          s!"cannot access local variable '{name}' where it is not associated with a value"))
        σ := by
      funext σ
      unfold Setting.read
      rw [hplace]
    rw [hread]
    refine .computes (g := id) hE.code hi (.slotValue State.locals slot _ (get >>= fun m =>
      MonadExcept.ofExcept (Setting.slotValue m.frame.locals slot _)) fun _ _ => rfl)
      fun σ events => ?_
    exact bind_congr (loadLocal_eq hE.code hslot σ events)
  | global slot =>
    rw [hplace] at hname hi
    have hslot : s.bytecode.globals[slot]? = some name := hE.slots ▸ hname
    have hread : E.read name = fun σ => Semantics.ofExcept (Setting.slotValue σ.globals slot
        (.exception .nameError s!"name '{name}' is not defined")) σ := by
      funext σ
      unfold Setting.read
      rw [hplace]
    rw [hread]
    refine .computes (g := id) hE.code hi (.slotValue State.globals slot _ (get >>= fun m =>
      MonadExcept.ofExcept (Setting.slotValue m.globals slot _)) fun _ _ => rfl)
      fun σ events => ?_
    exact bind_congr (loadGlobal_eq hslot σ events)
  | builtin b =>
    rw [hplace] at hi
    have hread : E.read name = pure (.builtin b) := by
      funext σ
      unfold Setting.read
      rw [hplace]
      rfl
    rw [hread]
    exact .computes (g := id) hE.code hi (.pure _) fun _ _ => rfl
  | excClass t =>
    rw [hplace] at hi
    have hread : E.read name = pure (.excClass t) := by
      funext σ
      unfold Setting.read
      rw [hplace]
      rfl
    rw [hread]
    exact .computes (g := id) hE.code hi (.pure _) fun _ _ => rfl

theorem Sim.store (hE : E.Matches s n env K c F)
    (hi : F.instrs[pc]? = some ⟨Compile.storeOp E.names name, span⟩) :
    Sim s n c base pc (v :: kept) (E.store kept v name) (c.To (pc + 1) kept) := by
  unfold Setting.store
  rw [hE.scope]
  unfold Compile.storeOp at hi
  refine .counts hE.code hi fun σ events => ?_
  cases E.names.place name <;> exact ⟨(), _, events, rfl, rfl, rfl⟩

end

namespace Compile

/-- What drops the operand that a false comparison in a chain has left below its result. -/
def Drops (F : Code) (q : Nat) : Prop :=
  ∃ s s' s'', F.Holds q [⟨.jump (q + 3), s⟩, ⟨.rot2, s'⟩, ⟨.pop, s''⟩]

/-- The code of comparisons does what their evaluation does, if behind it stands what drops the
operand of a false comparison that is not the last one. -/
def ChainFollows (env : Env) (K : State) (pc : Nat) (code : List Instr) (span : Span)
    (behind : Bool) (cs : List Comparison) : Prop :=
  ∀ ⦃s n c F E⦄, E.Matches s n env K c F → F.Holds pc code →
    ((behind || decide (1 < cs.length)) = true → Drops F (pc + code.length)) → ∀ kept a,
      Sim s n c kept pc (a :: kept) (evalChain E kept span behind a cs)
        (c.At (fun _ => pc + code.length + if behind || decide (1 < cs.length) then 3 else 0)
          fun v => v :: kept)

/-- Code that finds the operands `start` does what an evaluation does, and leaves in their place
what belongs to its value. -/
def Follows {α : Type} (env : Env) (K : State) (pc : Nat) (code : List Instr)
    (start : List Value) (act : Setting → List Value → Sem α) (out : α → List Value) : Prop :=
  ∀ ⦃s n c F E⦄, E.Matches s n env K c F → F.Holds pc code → ∀ kept,
    Sim s n c kept pc (start ++ kept) (act E kept)
      (c.At (fun _ => pc + code.length) fun a => out a ++ kept)

/-- The same of code that leaves `count` values, the last one on top. -/
def FollowsAll (env : Env) (K : State) (pc : Nat) (code : List Instr) (count : Nat)
    (act : Setting → List Value → Sem (List Value)) : Prop :=
  ∀ ⦃s n c F E⦄, E.Matches s n env K c F → F.Holds pc code → ∀ kept,
    Sim s n c kept pc kept (act E kept) (c.Gives (fun values => values.length = count)
      (fun _ => pc + code.length) fun values => values.reverse ++ kept)

/-! ## Arguments with starred ones among them -/

theorem gathered_append (packed : Option (List Value)) (pending kept : List Value) :
    Setting.gathered packed pending [] ++ kept = Setting.gathered packed pending kept := by
  unfold Setting.gathered
  rw [List.append_nil]

section
variable {env : Env} {K : State} {pc : Nat} {packed : Option (List Value)} {pending : List Value}

/-- The code that puts pending arguments into the tuple of arguments. -/
def GatherFollows (env : Env) (K : State) (pc : Nat) (code : List Instr)
    (packed : Option (List Value)) (pending : List Value) : Prop :=
  Follows env K pc code (Setting.gathered packed pending [])
    (fun E kept => E.gather packed pending kept) fun items => [.tuple items]

theorem gather_follows_none (span : Span) :
    GatherFollows env K pc [⟨.buildTuple pending.length, span⟩] none pending := by
  intro s n c F E hE hcode kept
  rw [gathered_append]
  have hgather : E.gather none pending kept =
      charge E.scope (pending.reverse ++ kept) >>= fun _ => pure pending := by
    simp [Setting.gather, Setting.gathered]
  beta_reduce
  rw [hgather, hE.scope]
  simp only [Setting.gathered, Option.map_none, Option.toList_none, List.append_nil]
  exact (Sim.buildTuple hE.code rfl hcode.head).bind fun _ => .ret rfl rfl

theorem gather_follows_some {items : List Value} (hpending : pending ≠ []) (span span' : Span) :
    GatherFollows env K pc [⟨.buildTuple pending.length, span⟩, ⟨.binary .add, span'⟩]
      (some items) pending := by
  intro s n c F E hE hcode kept
  rw [gathered_append]
  have hgather : E.gather (some items) pending kept =
      charge E.scope (pending.reverse ++ (.tuple items :: kept)) >>= fun _ =>
        charge E.scope (.tuple pending :: .tuple items :: kept) >>= fun _ =>
          pure (items ++ pending) := by
    simp [Setting.gather, Setting.gathered, hpending]
  have hstart : Setting.gathered (some items) pending kept =
      pending.reverse ++ (.tuple items :: kept) := by
    simp [Setting.gathered]
  beta_reduce
  rw [hgather, hstart, hE.scope]
  refine (Sim.buildTuple hE.code rfl hcode.head).bind fun _ =>
    (Sim.addTuples hE.code hcode.tail.head).bind fun _ => .ret rfl rfl

theorem gather_follows_nil {items : List Value} :
    GatherFollows env K pc [] (some items) [] :=
  fun _ _ _ _ _ _ _ _ => .ret rfl rfl

end

/-- Pending arguments are put into the tuple of arguments, if there are any or no tuple. -/
theorem gather_makes {α : Type} (env : Env) (pc : Nat) {count : Nat} {started : Bool}
    {f : List Instr → Build α} {R : State → α → Prop}
    (hf : ∀ g, Makes (f g) fun K c => (∀ packed pending, pending.length = count →
      Option.isSome packed = started → GatherFollows env K pc g packed pending) → R K c) :
    Makes (if (decide (count > 0) || !started) = true then do
        let build ← one (.buildTuple count)
        if started = true then do
          let add ← one (.binary .add)
          let g ← pure [build, add]
          f g
        else do
          let g ← pure [build]
          f g
      else do
        let g ← pure []
        f g) R := by
  split
  · next hneeded =>
    refine (one_makes _).bind fun build => ?_
    split
    · next hstarted =>
      refine (one_makes _).bind fun add => (hf [build, add]).imp fun K c h hadd hbuild => ?_
      obtain ⟨_, rfl⟩ := hadd
      obtain ⟨_, rfl⟩ := hbuild
      refine h fun packed pending hcount hpacked => ?_
      obtain ⟨items, rfl⟩ := Option.isSome_iff_exists.mp (hpacked.trans hstarted)
      have hpending : pending ≠ [] := by
        rintro rfl
        simp [← hcount, hstarted] at hneeded
      rw [← hcount]
      exact gather_follows_some hpending _ _
    · next hstarted =>
      refine (hf [build]).imp fun K c h hbuild => ?_
      obtain ⟨_, rfl⟩ := hbuild
      refine h fun packed pending hcount hpacked => ?_
      have hnone : packed = none := by
        rw [← Option.not_isSome_iff_eq_none, hpacked]
        exact hstarted
      rw [← hcount, hnone]
      exact gather_follows_none _
  · next hneeded =>
    refine (hf []).imp fun K c h => h fun packed pending hcount hpacked => ?_
    simp only [Bool.or_eq_true, decide_eq_true_eq, Bool.not_eq_true', not_or, Nat.not_lt,
      Nat.le_zero_eq, Bool.not_eq_false] at hneeded
    obtain ⟨items, rfl⟩ := Option.isSome_iff_exists.mp (hpacked.trans hneeded.2)
    obtain rfl := List.eq_nil_of_length_eq_zero (hcount.trans hneeded.1)
    exact gather_follows_nil

/-- The code of positional arguments leaves them one by one, or packed in a tuple. -/
def ArgumentsFollow (env : Env) (K : State) (pc : Nat) (args : List Expr) (code : List Instr) :
    Prop :=
  ∀ ⦃s n c F E⦄, E.Matches s n env K c F → F.Holds pc code → ∀ kept,
    Sim s n c kept pc kept
      (if args.any isStarred then evalSpliced E kept none [] args else evalAll E kept args)
      (c.Gives (fun values => args.any isStarred = false → values.length = args.length)
        (fun _ => pc + code.length) fun values => argumentStack (args.any isStarred) values kept)

theorem arguments_make {α : Type} (env : Env) (pc : Nat) {args : List Expr}
    {a b : Build (List Instr)} {f : List Instr → Build α} {R : State → α → Prop}
    (ha : args.any isStarred = true → Makes a fun K code =>
      Follows env K pc code [] (fun E kept => evalSpliced E kept none [] args)
        fun values => [.tuple values])
    (hb : Makes b fun K code =>
      FollowsAll env K pc code args.length fun E kept => evalAll E kept args)
    (hf : ∀ code, Makes (f code) fun K c => ArgumentsFollow env K pc args code → R K c) :
    Makes (if args.any isStarred = true then a >>= f else b >>= f) R := by
  unfold ArgumentsFollow at hf
  split
  · next h =>
    refine (ha h).bind fun code => (hf code).imp fun K c hR hcode => hR ?_
    intro s n c F E hE hF kept
    rw [if_pos h, h]
    exact (hcode hE hF kept).imp fun values σ p ⟨events, hp⟩ => ⟨nofun, events, hp⟩
  · next h =>
    have hplain : args.any isStarred = false := Bool.not_eq_true _ ▸ h
    refine hb.bind fun code => (hf code).imp fun K c hR hcode => hR ?_
    intro s n c F E hE hF kept
    rw [if_neg h, hplain]
    exact (hcode hE hF kept).imp fun values σ p ⟨hlength, events, hp⟩ =>
      ⟨fun _ => hlength, events, hp⟩

theorem ArgumentsFollow.bind {α : Type} {s : Script} {n : Nat} {env : Env} {K : State} {c : Ctx}
    {F : Code} {E : Setting} {pc : Nat} {args : List Expr} {code : List Instr}
    {base kept : List Value} {f : List Value → Sem α} {good : α → Semantics.State → Phase → Prop}
    (h : ArgumentsFollow env K pc args code) (hE : E.Matches s n env K c F)
    (hcode : F.Holds pc code) (hbase : base <:+ kept)
    (hf : ∀ values, (args.any isStarred = false → values.length = args.length) →
      Sim s n c base (pc + code.length) (argumentStack (args.any isStarred) values kept)
        (f values) good) :
    Sim s n c base pc kept (if args.any isStarred = true then evalSpliced E kept none [] args >>= f
      else evalAll E kept args >>= f) good := by
  have hall := ((h hE hcode kept).lower hbase).bind_gives hf
  by_cases hstarred : args.any isStarred = true
  · rwa [if_pos hstarred] at hall ⊢
  · rwa [if_neg hstarred] at hall ⊢

theorem suffix_argumentStack (packed : Bool) (values kept : List Value) :
    kept <:+ argumentStack packed values kept := by
  cases packed
  · exact List.suffix_append _ _
  · exact List.suffix_cons _ _

theorem packed_cons_follows {env : Env} {pc count : Nat} {started : Bool} {arg : Expr}
    {rest : List Expr} (harg : isStarred arg = false)
    (hexpr : Makes (expr env pc arg) fun K code =>
      Follows env K pc code [] (fun E kept => eval E kept arg) fun v => [v])
    (hrest : ∀ q, Makes (packed env q (count + 1) started rest) fun K code =>
      ∀ packed pending, pending.length = count + 1 → Option.isSome packed = started →
        Follows env K q code (Setting.gathered packed pending [])
          (fun E kept => evalSpliced E kept packed pending rest) fun values => [.tuple values]) :
    Makes (packed env pc count started (arg :: rest)) fun K code => ∀ packed pending,
      pending.length = count → Option.isSome packed = started →
        Follows env K pc code (Setting.gathered packed pending [])
          (fun E kept => evalSpliced E kept packed pending (arg :: rest))
          fun values => [.tuple values] := by
  have hplain : ∀ span operand, arg = .mk span (.starred operand) → False := by
    rintro span operand rfl
    cases harg
  rw [packed]
  · refine hexpr.bind fun code => (hrest _).bind fun more => .ret fun K hm hc => ?_
    intro packed pending hcount hpacked s n c F E hE hcode kept
    rw [gathered_append]
    beta_reduce
    rw [evalSpliced]
    · have hkept : kept <:+ Setting.gathered packed pending kept := List.suffix_append _ _
      refine ((hc hE hcode.left _).lower hkept).bind fun v => ?_
      have hmore := hm packed (pending ++ [v]) (by simp [hcount]) hpacked hE (hcode.right rfl) kept
      have hgathered : Setting.gathered packed (pending ++ [v]) kept =
          [v] ++ Setting.gathered packed pending kept := by
        simp [Setting.gathered]
      rw [gathered_append, hgathered] at hmore
      exact hmore.ends (fun _ => by simp [Nat.add_assoc]) fun _ => rfl
    · exact hplain
  · exact hplain

/-- The format of a field is a constant, if there is one. -/
theorem spec_makes {α : Type} {spec : Option String} {f : Option Nat → Build α}
    {R : State → α → Prop}
    (hf : ∀ j, Makes (f j) fun K c =>
      (∀ q, K.pool.Within q → j.map q.constant = spec.map .string) → R K c) :
    Makes (match spec with
      | some spec => do
        let j ← some <$> pooled (·.addConstant (.string spec))
        f j
      | none => do
        let j ← pure none
        f j) R := by
  cases spec with
  | none => exact Makes.bind (.ret fun _ _ _ => rfl) hf
  | some spec =>
    exact ((addConstant_makes _).map fun K j hj q hq => congrArg some (hj q hq)).bind hf

mutual

theorem expr_follows (env : Env) (pc : Nat) (e : Expr) :
    Makes (expr env pc e) fun K code =>
      Follows env K pc code [] (fun E kept => eval E kept e) fun v => [v] := by
  match e with
  | .mk span form =>
    rw [expr]
    refine (exprForm_follows env pc span form).imp fun K code h => ?_
    intro s n c F E hE hcode kept
    beta_reduce
    rw [eval]
    exact h hE hcode kept

theorem exprForm_follows (env : Env) (pc : Nat) (span : Span) (form : ExprForm) :
    Makes (at_ span >>= fun _ => exprForm env pc span form) fun K code =>
      Follows env K pc code [] (fun E kept => evalForm E kept span form) fun v => [v] := by
  match form with
  | .literal value =>
    rw [exprForm]
    refine .at <| (constant_makes value).bind fun i => .ret fun K hi => ?_
    obtain ⟨j, span, rfl, hj⟩ := hi
    intro s n c F E hE hcode kept
    beta_reduce
    rw [evalForm, hE.scope]
    exact (Sim.loadConst hE.code (hj _ hE.pool) hcode.head).bind fun _ => .ret rfl rfl
  | .format parts =>
    rw [exprForm]
    refine .at <| (formatParts_follow env pc span parts).bind fun code =>
      (one_makes _).bind fun i => .ret fun K hi hc => ?_
    obtain ⟨span', rfl⟩ := hi
    intro s n c F E hE hcode kept
    beta_reduce
    rw [evalForm, hE.scope]
    refine (hc hE hcode.left kept).bind_gives fun values hvalues => ?_
    exact (Sim.buildString hE.code hvalues (hcode.last rfl)).ends (fun _ => by simp [Nat.add_assoc])
      fun _ => rfl
  | .name id =>
    rw [exprForm, at_load]
    refine .at <| (place_makes env id).bind fun p => .at <| .ret fun K hp => ?_
    intro s n c F E hE hcode kept
    beta_reduce
    rw [evalForm]
    obtain ⟨rfl, hname⟩ := hp E.names hE.names
    exact Sim.load hE hname hcode.head
  | .list items =>
    rw [exprForm]
    simp only [at_one]
    refine .at <| (exprs_follow env pc items).bind fun code => .at <| .ret fun K hc => ?_
    intro s n c F E hE hcode kept
    beta_reduce
    rw [evalForm, hE.scope]
    refine (hc hE hcode.left kept).bind_gives fun values hvalues => ?_
    exact (Sim.buildList hE.code hvalues (hcode.last rfl)).ends (fun _ => by simp [Nat.add_assoc])
      fun _ => rfl
  | .tuple items =>
    rw [exprForm]
    simp only [at_one]
    refine .at <| (exprs_follow env pc items).bind fun code => .at <| .ret fun K hc => ?_
    intro s n c F E hE hcode kept
    beta_reduce
    rw [evalForm, hE.scope]
    refine (hc hE hcode.left kept).bind_gives fun values hvalues => ?_
    exact (Sim.buildTuple hE.code hvalues (hcode.last rfl)).bind fun _ =>
      .ret (by simp [Nat.add_assoc]) rfl
  | .dict items =>
    rw [exprForm]
    simp only [at_one]
    refine .at <| (dictItems_follow env pc items).bind fun code => .at <| .ret fun K hc => ?_
    intro s n c F E hE hcode kept
    beta_reduce
    rw [evalForm, hE.scope]
    refine (hc hE hcode.left kept).bind_gives fun values hvalues => ?_
    exact (Sim.buildDict hE.code hvalues (hcode.last rfl)).ends (fun _ => by simp [Nat.add_assoc])
      fun _ => rfl
  | .binary left op right =>
    rw [exprForm]
    simp only [at_one]
    refine .at <| (expr_follows env pc left).bind fun l =>
      (expr_follows env _ right).bind fun r => .at <| .ret fun K hr hl => ?_
    intro s n c F E hE hcode kept
    beta_reduce
    rw [evalForm, hE.scope]
    refine (hl hE hcode.left.left kept).bind fun a =>
      ((hr hE (hcode.left.right rfl) (a :: kept)).lower (List.suffix_cons a kept)).bind fun b => ?_
    exact (Sim.binary hE.code (hcode.last (by simp [Nat.add_assoc]))).ends
      (fun _ => by simp [Nat.add_assoc]) fun _ => rfl
  | .all first rest =>
    rw [exprForm]
    refine .at <| (expr_follows env pc first).bind fun code =>
      (boolean_follows env false (fun _ => rfl) _ rest).bind fun more =>
      .ret fun K hm hc => ?_
    intro s n c F E hE hcode kept
    beta_reduce
    rw [evalForm]
    refine (hc hE hcode.left kept).bind fun a => ?_
    exact (hm a hE (hcode.right rfl) kept).ends (fun _ => by simp [Nat.add_assoc]) fun _ => rfl
  | .any first rest =>
    rw [exprForm]
    refine .at <| (expr_follows env pc first).bind fun code =>
      (boolean_follows env true (fun _ => rfl) _ rest).bind fun more =>
      .ret fun K hm hc => ?_
    intro s n c F E hE hcode kept
    beta_reduce
    rw [evalForm]
    refine (hc hE hcode.left kept).bind fun a => ?_
    exact (hm a hE (hcode.right rfl) kept).ends (fun _ => by simp [Nat.add_assoc]) fun _ => rfl
  | .not operand =>
    rw [exprForm]
    refine .at <| (expr_follows env pc operand).bind fun code =>
      (one_makes _).bind fun i => .ret fun K hi hc => ?_
    obtain ⟨span', rfl⟩ := hi
    intro s n c F E hE hcode kept
    beta_reduce
    rw [evalForm, hE.scope]
    refine (hc hE hcode.left kept).bind fun v => ?_
    exact (Sim.not hE.code (hcode.last rfl)).ends (fun _ => by simp [Nat.add_assoc]) fun _ => rfl
  | .neg operand =>
    rw [exprForm]
    simp only [at_one]
    refine .at <| (expr_follows env pc operand).bind fun code => .at <| .ret fun K hc => ?_
    intro s n c F E hE hcode kept
    beta_reduce
    rw [evalForm, hE.scope]
    refine (hc hE hcode.left kept).bind fun v => ?_
    exact (Sim.neg hE.code (hcode.last rfl)).ends (fun _ => by simp [Nat.add_assoc]) fun _ => rfl
  | .pos operand =>
    rw [exprForm]
    simp only [at_one]
    refine .at <| (expr_follows env pc operand).bind fun code => .at <| .ret fun K hc => ?_
    intro s n c F E hE hcode kept
    beta_reduce
    rw [evalForm, hE.scope]
    refine (hc hE hcode.left kept).bind fun v => ?_
    exact (Sim.pos hE.code (hcode.last rfl)).ends (fun _ => by simp [Nat.add_assoc]) fun _ => rfl
  | .compare left rest =>
    rw [exprForm]
    refine .at <| (expr_follows env pc left).bind fun l =>
      (comparisons_follow env _ span false rest nofun).bind fun chain => ?_
    split
    · next hshort =>
      refine .ret fun K hchain hl => ?_
      intro s n c F E hE hcode kept
      beta_reduce
      rw [evalForm]
      have hdrops : (false || decide (1 < rest.length)) = false := by simpa using hshort
      refine (hl hE hcode.left kept).bind fun a => ?_
      refine (hchain hE (hcode.right rfl) (by rw [hdrops]; nofun) kept a).ends (fun _ => ?_)
        fun _ => rfl
      rw [hdrops]
      simp [Nat.add_assoc]
    · next hlong =>
      refine (one_makes _).bind fun i => (one_makes _).bind fun j => (one_makes _).bind fun k =>
        .ret fun K hk hj hi hchain hl => ?_
      obtain ⟨_, rfl⟩ := hk
      obtain ⟨_, rfl⟩ := hj
      obtain ⟨_, rfl⟩ := hi
      intro s n c F E hE hcode kept
      beta_reduce
      rw [evalForm]
      have hdrops : (false || decide (1 < rest.length)) = true := by simpa using hlong
      refine (hl hE hcode.left.left kept).bind fun a => ?_
      refine (hchain hE (hcode.left.right rfl)
        (fun _ => ⟨_, _, _, hcode.right (by simp [Nat.add_assoc])⟩) kept a).ends (fun _ => ?_)
        fun _ => rfl
      rw [hdrops]
      simp [Nat.add_assoc]
  | .conditional test body orElse =>
    rw [exprForm]
    refine .at <| (expr_follows env pc test).bind fun t => get_makes.bind fun _ =>
      (expr_follows env _ body).bind fun b => get_makes.bind fun _ =>
      (expr_follows env _ orElse).bind fun o => .ret fun K ho _ hb _ ht => ?_
    intro s n c F E hE hcode kept
    beta_reduce
    rw [evalForm, hE.scope]
    have hbranch := (hcode.left.left.left.right rfl).head
    have hskip := hcode.left.last rfl
    simp only [List.length_append, List.length_singleton, ← Nat.add_assoc] at hskip
    refine (ht hE hcode.left.left.left.left kept).bind fun v => ?_
    refine (Sim.jumpIf hE.code false rfl hbranch).bind fun taken => ?_
    cases taken with
    | true =>
      refine (hb hE (hcode.left.left.right (by simp [Nat.add_assoc])) kept).bind fun v => ?_
      refine (Sim.jump hE.code hskip).bind fun _ => .ret (by simp; omega) rfl
    | false =>
      exact (ho hE (hcode.right (by simp; omega)) kept).ends (fun _ => by simp; omega)
        fun _ => rfl
  | .call callee args kws =>
    rw [exprForm]
    simp only [at_one]
    refine .at <| (expr_follows env pc callee).bind fun f => arguments_make env _
      (fun h => packed_follows env _ 0 false args (.inr h) |>.imp fun K code h =>
        h none [] rfl rfl) (exprs_follow env _ args) fun a =>
      (keywords_follow env _ kws).bind fun w => (addKeywords_makes _).bind fun j => .at <|
      .ret fun K hj hw ha hf => ?_
    intro s n c F E hE hcode kept
    beta_reduce
    rw [evalForm, hE.scope]
    refine (hf hE hcode.left.left.left kept).bind fun v => ?_
    refine ha.bind hE (hcode.left.left.right rfl) (List.suffix_cons v kept) fun values hlength => ?_
    refine ((hw hE (hcode.left.right (by simp [Nat.add_assoc])) _).lower
      ((List.suffix_cons v kept).trans (suffix_argumentStack _ _ _))).bind_gives
        fun named hnamed => ?_
    exact (Sim.call hE.code (hcode.last (by simp [Nat.add_assoc])) hE.calls rfl hlength
      (hj _ hE.pool) (by rw [hnamed, List.length_map])).ends (fun _ => by simp [Nat.add_assoc])
      fun _ => rfl
  | .methodCall object method args kws =>
    rw [exprForm]
    simp only [at_one]
    refine .at <| (expr_follows env pc object).bind fun f => arguments_make env _
      (fun h => packed_follows env _ 0 false args (.inr h) |>.imp fun K code h =>
        h none [] rfl rfl) (exprs_follow env _ args) fun a =>
      (keywords_follow env _ kws).bind fun w => (addKeywords_makes _).bind fun j =>
      (addName_makes method).bind fun name => .at <| .ret fun K hname hj hw ha hf => ?_
    intro s n c F E hE hcode kept
    beta_reduce
    rw [evalForm, hE.scope]
    refine (hf hE hcode.left.left.left kept).bind fun v => ?_
    refine ha.bind hE (hcode.left.left.right rfl) (List.suffix_cons v kept) fun values hlength => ?_
    refine ((hw hE (hcode.left.right (by simp [Nat.add_assoc])) _).lower
      ((List.suffix_cons v kept).trans (suffix_argumentStack _ _ _))).bind_gives
        fun named hnamed => ?_
    exact (Sim.callMethod hE.code (hcode.last (by simp [Nat.add_assoc])) hE.calls rfl hlength
      (hj _ hE.pool) (by rw [hnamed, List.length_map]) (hname _ hE.pool)).ends
      (fun _ => by simp [Nat.add_assoc]) fun _ => rfl
  | .attribute object name =>
    rw [exprForm]
    simp only [at_one]
    refine .at <| (expr_follows env pc object).bind fun code =>
      (addName_makes name).bind fun j => .at <| .ret fun K hj hc => ?_
    intro s n c F E hE hcode kept
    beta_reduce
    rw [evalForm, hE.scope]
    refine (hc hE hcode.left kept).bind fun v => ?_
    exact (Sim.getAttr hE.code (hcode.last rfl) rfl (hj _ hE.pool)).ends
      (fun _ => by simp [Nat.add_assoc]) fun _ => rfl
  | .subscript object index =>
    rw [exprForm]
    simp only [at_one]
    refine .at <| (expr_follows env pc object).bind fun o =>
      (expr_follows env _ index).bind fun x => .at <| .ret fun K hx ho => ?_
    intro s n c F E hE hcode kept
    beta_reduce
    rw [evalForm, hE.scope]
    refine (ho hE hcode.left.left kept).bind fun a =>
      ((hx hE (hcode.left.right rfl) (a :: kept)).lower (List.suffix_cons a kept)).bind fun b => ?_
    exact (Sim.subscript hE.code (hcode.last (by simp [Nat.add_assoc]))).ends
      (fun _ => by simp [Nat.add_assoc]) fun _ => rfl
  | .slice lower upper step =>
    rw [exprForm]
    simp only [at_one]
    refine .at <| (sliceBound_follows env pc lower).bind fun l =>
      (sliceBound_follows env _ upper).bind fun u =>
      (sliceBound_follows env _ step).bind fun x => .at <| .ret fun K hx hu hl => ?_
    intro s n c F E hE hcode kept
    beta_reduce
    rw [evalForm, hE.scope]
    refine (hl hE hcode.left.left.left kept).bind fun a => ?_
    refine ((hu hE (hcode.left.left.right rfl) (a :: kept)).lower
      (List.suffix_cons a kept)).bind fun b => ?_
    refine ((hx hE (hcode.left.right (by simp [Nat.add_assoc])) (b :: a :: kept)).lower
      (List.suffix_append [b, a] kept)).bind fun d => ?_
    exact (Sim.buildSlice hE.code (hcode.last (by simp [Nat.add_assoc]))).ends
      (fun _ => by simp [Nat.add_assoc]) fun _ => rfl
  | .await operand =>
    rw [exprForm]
    simp only [at_one]
    refine .at <| (expr_follows env pc operand).bind fun code => .at <| .ret fun K hc => ?_
    intro s n c F E hE hcode kept
    beta_reduce
    rw [evalForm, hE.scope, hE.fuel]
    refine (hc hE hcode.left kept).bind fun v => ?_
    exact (Sim.await hE.code (hcode.last rfl) rfl).ends (fun _ => by simp [Nat.add_assoc])
      fun _ => rfl
  | .starred operand =>
    rw [exprForm]
    exact .at .fail

theorem exprs_follow (env : Env) (pc : Nat) (es : List Expr) :
    Makes (exprs env pc es) fun K code =>
      FollowsAll env K pc code es.length fun E kept => evalAll E kept es := by
  match es with
  | [] =>
    rw [exprs]
    refine .ret fun K s n c F E hE hcode kept => ?_
    beta_reduce
    rw [evalAll]
    exact .noValues kept
  | e :: rest =>
    rw [exprs]
    refine (expr_follows env pc e).bind fun code =>
      (exprs_follow env _ rest).bind fun more => .ret fun K hm hc => ?_
    intro s n c F E hE hcode kept
    beta_reduce
    rw [evalAll]
    refine (hc hE hcode.left kept).bind fun v => ?_
    exact .more [v] (hm hE (hcode.right rfl) (v :: kept)) (Nat.add_comm _ 1)
      (by simp [Nat.add_assoc])

theorem formatParts_follow (env : Env) (pc : Nat) (span : Span)
    (parts : List FormatPart) :
    Makes (formatParts env pc span parts) fun K code =>
      FollowsAll env K pc code parts.length fun E kept => evalParts E kept span parts := by
  match parts with
  | [] =>
    rw [formatParts]
    refine .ret fun K s n c F E hE hcode kept => ?_
    beta_reduce
    rw [evalParts]
    exact .noValues kept
  | .text text :: rest =>
    rw [formatParts]
    refine (constant_makes _).bind fun i => (formatParts_follow env _ span rest).bind fun more =>
      .ret fun K hm hi => ?_
    obtain ⟨j, span', rfl, hj⟩ := hi
    intro s n c F E hE hcode kept
    beta_reduce
    rw [evalParts, hE.scope]
    refine (Sim.loadConst hE.code (hj _ hE.pool) hcode.head).bind fun _ => ?_
    exact .more [.str text] (hm hE hcode.tail (.str text :: kept)) (Nat.add_comm _ 1)
      (by simp; omega)
  | .field value conversion spec :: rest =>
    rw [formatParts]
    simp only [at_one]
    refine (expr_follows env pc value).bind fun code => spec_makes fun j => .at <|
      (formatParts_follow env _ span rest).bind fun more => .ret fun K hm hj hc => ?_
    intro s n c F E hE hcode kept
    beta_reduce
    rw [evalParts, hE.scope]
    refine (hc hE hcode.left.left kept).bind fun v => ?_
    refine (Sim.formatValue hE.code (hj _ hE.pool) (hcode.left.last rfl)).bind fun text => ?_
    exact .more [.str text] ((hm hE (hcode.right rfl) (.str text :: kept)).starts (by simp; omega))
      (Nat.add_comm _ 1) (by simp; omega)

theorem dictItems_follow (env : Env) (pc : Nat) (items : List DictItem) :
    Makes (dictItems env pc items) fun K code =>
      FollowsAll env K pc code (2 * items.length) fun E kept => evalItems E kept items := by
  match items with
  | [] =>
    rw [dictItems]
    refine .ret fun K s n c F E hE hcode kept => ?_
    beta_reduce
    rw [evalItems]
    exact .noValues kept
  | .mk key value :: rest =>
    rw [dictItems]
    refine (expr_follows env pc key).bind fun x => (expr_follows env _ value).bind fun y =>
      (dictItems_follow env _ rest).bind fun more => .ret fun K hm hy hx => ?_
    intro s n c F E hE hcode kept
    beta_reduce
    rw [evalItems]
    refine (hx hE hcode.left.left kept).bind fun a =>
      ((hy hE (hcode.left.right rfl) (a :: kept)).lower (List.suffix_cons a kept)).bind fun b => ?_
    exact .more [a, b] (hm hE (hcode.right (by simp [Nat.add_assoc])) (b :: a :: kept))
      (by simp; omega) (by simp; omega)

theorem sliceBound_follows (env : Env) (pc : Nat) (bound : Option Expr) :
    Makes (sliceBound env pc bound) fun K code =>
      Follows env K pc code [] (fun E kept => evalBound E kept bound) fun v => [v] := by
  match bound with
  | some e =>
    rw [sliceBound]
    refine (expr_follows env pc e).imp fun K code h => ?_
    intro s n c F E hE hcode kept
    beta_reduce
    rw [evalBound]
    exact h hE hcode kept
  | none =>
    rw [sliceBound]
    refine (constant_makes _).bind fun i => .ret fun K hi => ?_
    obtain ⟨j, span, rfl, hj⟩ := hi
    intro s n c F E hE hcode kept
    beta_reduce
    rw [evalBound, hE.scope]
    exact (Sim.loadConst hE.code (hj _ hE.pool) hcode.head).bind fun _ => .ret rfl rfl

theorem boolean_follows (env : Env) (wanted : Bool) {jump : Nat → Op}
    (hjump : ∀ t, jump t = if wanted then .jumpIfTrueOrPop t else .jumpIfFalseOrPop t) (pc : Nat)
    (operands : List Expr) :
    Makes (boolean env jump pc operands) fun K code => ∀ a,
      Follows env K pc code [a] (fun E kept => evalUntil E kept wanted a operands)
        fun v => [v] := by
  match operands with
  | [] =>
    rw [boolean]
    refine .ret fun K a s n c F E hE hcode kept => ?_
    beta_reduce
    rw [evalUntil]
    exact .ret rfl rfl
  | e :: rest =>
    rw [boolean]
    refine get_makes.bind fun _ => (expr_follows env _ e).bind fun code =>
      (boolean_follows env wanted hjump _ rest).bind fun more => .ret fun K hm hc _ a => ?_
    intro s n c F E hE hcode kept
    beta_reduce
    rw [evalUntil, hE.scope]
    refine (Sim.jumpIfOrPop hE.code wanted (hjump _) hcode.left.head).bind fun truth => ?_
    split
    · exact .ret (by simp; omega) rfl
    · refine (hc hE hcode.left.tail kept).bind fun b => ?_
      exact (hm b hE (hcode.right (by simp; omega)) kept).ends (fun _ => by simp; omega)
        fun _ => rfl

theorem comparisons_follow (env : Env) (pc : Nat) (span : Span) (behind : Bool)
    (cs : List Comparison) (hcs : behind = true → cs ≠ []) :
    Makes (comparisons env pc span cs) fun K code =>
      ChainFollows env K pc code span behind cs := by
  match cs with
  | [] =>
    obtain rfl : behind = false := by simpa using hcs
    rw [comparisons]
    refine .ret fun K s n c F E hE hcode hends kept a => ?_
    rw [evalChain]
    exact .ret rfl rfl
  | [.mk op right] =>
    rw [comparisons]
    simp only [at_one]
    refine (expr_follows env pc right).bind fun r => .at <| .ret fun K hr => ?_
    intro s n c F E hE hcode hends kept a
    rw [evalChain, hE.scope]
    refine ((hr hE hcode.left _).lower (List.suffix_cons a kept)).bind fun b => ?_
    unfold Setting.holds
    rw [hE.scope]
    refine (Sim.comparison hE.code (hcode.last rfl)).bind fun r => ?_
    cases behind with
    | false => exact .ret (by simp [Nat.add_assoc]) rfl
    | true =>
      obtain ⟨_, _, _, hends⟩ := hends rfl
      rw [List.length_append, List.length_singleton, ← Nat.add_assoc] at hends
      exact (Sim.jump hE.code hends.head).bind fun _ => .ret (by simp; omega) rfl
  | .mk op right :: next :: rest =>
    rw [comparisons]
    · simp only [at_one]
      refine (expr_follows env pc right).bind fun r => .at <|
        (comparisons_follow env _ span true (next :: rest) nofun).bind fun more =>
        .ret fun K hm hr => ?_
      intro s n c F E hE hcode hends kept a
      rw [evalChain, hE.scope]
      · refine ((hr hE hcode.left.left.left _).lower (List.suffix_cons a kept)).bind fun b => ?_
        have hkeep := hcode.left.left.right rfl
        refine (Sim.dup hE.code hkeep.head).bind fun _ =>
          (Sim.rot3 hE.code hkeep.tail.head).bind fun _ => ?_
        unfold Setting.holds
        rw [hE.scope]
        refine ((Sim.comparison hE.code hkeep.tail.tail.head).lower
          (List.suffix_cons b kept)).bind fun holds => ?_
        have hskip : F.instrs[pc + r.length + 1 + 1 + 1]? = some _ := hcode.left.last (by simp; rfl)
        refine (Sim.jumpIfBoolOrPop hE.code false rfl hskip).bind fun _ => ?_
        have hlong : (behind || decide (1 < (Comparison.mk op right :: next :: rest).length)) =
            true := by simp
        have hdrops := hends hlong
        rw [hlong]
        simp only [List.length_append, List.length_cons, List.length_nil, Nat.zero_add,
          ← Nat.add_assoc] at hdrops ⊢
        cases holds with
        | true =>
          exact (hm hE (hcode.right (by simp; omega)) (fun _ => hdrops) kept b).ends
            (fun _ => by simp) fun _ => rfl
        | false =>
          obtain ⟨_, _, _, hdrop⟩ := hdrops
          exact ((Sim.rot2 hE.code hdrop.tail.head).starts (by simp)).bind fun _ =>
            (Sim.pop hE.code hdrop.tail.tail.head).bind fun _ => .ret (by simp) rfl
      · exact List.cons_ne_nil _ _
    · exact List.cons_ne_nil _ _

theorem packed_follows (env : Env) (pc count : Nat) (started : Bool) (args : List Expr)
    (h : started = true ∨ args.any isStarred = true) :
    Makes (packed env pc count started args) fun K code => ∀ packed pending,
      pending.length = count → Option.isSome packed = started →
        Follows env K pc code (Setting.gathered packed pending [])
          (fun E kept => evalSpliced E kept packed pending args) fun values => [.tuple values] := by
  match args with
  | [] =>
    obtain rfl : started = true := by simpa using h
    rw [packed]
    split
    · next hcount =>
      refine (one_makes _).bind fun build => (one_makes _).bind fun add =>
        .ret fun K hadd hbuild packed pending hpending hpacked => ?_
      obtain ⟨_, rfl⟩ := hadd
      obtain ⟨_, rfl⟩ := hbuild
      obtain ⟨items, rfl⟩ := Option.isSome_iff_exists.mp hpacked
      have hsome : pending ≠ [] := List.ne_nil_of_length_pos (hpending ▸ hcount)
      intro s n c F E hE hcode kept
      beta_reduce
      rw [evalSpliced, if_neg (by simpa using hsome)]
      rw [← hpending] at hcode
      exact gather_follows_some hsome _ _ hE hcode kept
    · next hcount =>
      refine .ret fun K packed pending hpending hpacked => ?_
      obtain ⟨items, rfl⟩ := Option.isSome_iff_exists.mp hpacked
      obtain rfl := List.eq_nil_of_length_eq_zero (hpending.trans (by omega))
      intro s n c F E hE hcode kept
      beta_reduce
      rw [evalSpliced]
      exact .ret rfl rfl
  | .mk span form :: rest =>
    cases form with
    | starred operand =>
      rw [packed]
      simp only [at_one]
      refine gather_makes env pc fun gather =>
        (expr_follows env _ operand).bind fun code => .at <|
        (packed_follows env _ 0 true rest (.inl rfl)).bind fun more =>
        .ret fun K hm hc hg packed pending hpending hpacked => ?_
      intro s n c F E hE hcode kept
      rw [gathered_append]
      beta_reduce
      rw [evalSpliced, hE.scope]
      have hgather := hg packed pending hpending hpacked hE hcode.left.left.left kept
      rw [gathered_append] at hgather
      refine hgather.bind fun items => ?_
      refine ((hc hE (hcode.left.left.right rfl) (.tuple items :: kept)).lower
        (List.suffix_cons _ kept)).bind fun v => ?_
      have hjoin : F.Holds (pc + gather.length + code.length) _ :=
        hcode.left.right (by simp [Nat.add_assoc])
      refine ((Sim.toTuple hE.code hjoin.head).lower (List.suffix_cons _ kept)).bind fun more => ?_
      refine (Sim.addTuples hE.code hjoin.tail.head).bind fun _ => ?_
      exact ((hm (some (items ++ more)) [] rfl rfl hE (hcode.right rfl) kept).starts
        (by simp; omega)).ends (fun _ => by simp; omega) fun _ => rfl
    | _ =>
      exact packed_cons_follows rfl (expr_follows env pc _) fun q =>
        packed_follows env q (count + 1) started rest
          (h.imp_right fun h => by simpa [isStarred] using h)

theorem keywords_follow (env : Env) (pc : Nat) (kws : List Keyword) :
    Makes (keywords env pc kws) fun K code =>
      FollowsAll env K pc code kws.length fun E kept => evalKeywords E kept kws := by
  match kws with
  | [] =>
    rw [keywords]
    refine .ret fun K s n c F E hE hcode kept => ?_
    beta_reduce
    rw [evalKeywords]
    exact .noValues kept
  | .mk name value :: rest =>
    rw [keywords]
    refine (expr_follows env pc value).bind fun code =>
      (keywords_follow env _ rest).bind fun more => .ret fun K hm hc => ?_
    intro s n c F E hE hcode kept
    beta_reduce
    rw [evalKeywords]
    refine (hc hE hcode.left kept).bind fun v => ?_
    exact .more [v] (hm hE (hcode.right rfl) (v :: kept)) (Nat.add_comm _ 1)
      (by simp [Nat.add_assoc])

end

end Compile

end Resumable
