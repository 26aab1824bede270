import Resumable.Proofs.Simulation.Function

/-!
# Simple statements

The code of a statement that has no statements in it does what its execution does: it comes to the
instruction behind it, to where a jump out of the loop leads, to the end of the function, or to the
handler of an exception.
-/

namespace Resumable

open Machine Semantics

section
variable {s : Script} {n : Nat} {env : Compile.Env} {K : Compile.State} {c : Ctx} {F : Code}
  {E : Setting} {x : Exits} {o : Outer} {base kept : List Value} {pc pc' : Nat}

/-- Code in other surroundings. -/
theorem Semantics.Setting.Matches.surrounded (h : E.Matches s n env K c F)
    (loop : Option Compile.Loop) (blocks : List Compile.Block) :
    E.Matches s n { env with loop, blocks } K c F :=
  ⟨h.code, h.pool, h.slots, ⟨h.names.locals, h.names.module, h.names.slots⟩, h.locals, h.scope,
    h.fuel, h.calls⟩

theorem Semantics.Setting.Matches.guarded (h : E.Matches s n env K c F) (b : Resumable.Block) :
    E.Matches s n env K (c.guarded b) F :=
  ⟨h.code, h.pool, h.slots, h.names, h.locals, h.scope, h.fuel, h.calls⟩

theorem Semantics.Setting.Matches.handling (h : E.Matches s n env K c F) (e : Raised) :
    (E.handling e).Matches s n env K (c.handling e) F :=
  ⟨h.code, h.pool, h.slots, h.names, h.locals, by rw [Setting.handling, h.scope]; rfl, h.fuel,
    h.calls⟩

/-- A statement is over. -/
theorem Sim.next (hpc : pc = pc') :
    Sim s n c base pc kept (pure .next) (Ends s env c o kept pc') :=
  fun _ events => .ok ⟨events, by rw [hpc]⟩

/-- Where a statement ends may be said in another way. -/
theorem Sim.endsAt {c' : Ctx} {act : Sem Flow} {start : List Value} (q : Nat)
    (h : Sim s n c' base pc start act (Ends s env c o kept q)) (hq : q = pc') :
    Sim s n c' base pc start act (Ends s env c o kept pc') := hq ▸ h

/-- A statement goes on if its first part does not end it. -/
theorem Sim.andThen {act rest : Sem Flow} {start : List Value}
    (h : Sim s n c base pc start act (Ends s env c o kept pc'))
    {q : Nat} (hrest : Sim s n c base pc' kept rest (Ends s env c o kept q)) :
    Sim s n c base pc start (act >>= fun flow => match flow with
      | .next => rest
      | flow => pure flow) (Ends s env c o kept q) := fun σ events =>
  (h σ events).bind fun flow τ p hp => by
    cases flow with
    | next =>
      obtain ⟨events', rfl⟩ := hp
      exact hrest τ events'
    | «break» => exact .ok hp
    | «continue» => exact .ok hp
    | «return» v => exact .ok hp

variable {loop : Compile.Loop} {out : List Instr} {act : Sem Flow}
  {good : Flow → Semantics.State → Phase → Prop}

/-- Outside of the loop, instructions are counted in the same way. -/
theorem Around.charge_eq (h : Around env x c o loop) (hE : E.scope = c.scope) (kept : List Value) :
    charge E.scope kept = charge o.ctx.scope kept :=
  charge_congr (by rw [hE, Ctx.scope, Ctx.scope, h.inside.callers]) kept

/-- A jump out of a loop first leaves the blocks that are inside the loop. -/
theorem Around.leaves (h : Around env x c o loop)
    (hout : Crosses s n o.ctx c kept pc kept
      (leaveBlocks E kept (Compile.blocksInside env loop).length)
      (o.ctx.To (pc + out.length) kept))
    (hcalm : Calm act) (hact : Sim s n o.ctx kept (pc + out.length) kept act good) :
    Sim s n c kept pc kept (leaveBlocks E kept x.blocks >>= fun _ => act) good := by
  intro σ events
  rw [h.blocks]
  have houter : Meets s n o.ctx kept good
      ((leaveBlocks E kept (Compile.blocksInside env loop).length >>= fun _ => act) σ)
      (c.phase pc kept σ events) := by
    refine (hout σ events).bind fun _ τ q hq => ?_
    obtain ⟨events', rfl⟩ := hq
    exact hact τ events'
  exact houter.recontext ((Calm.leaveBlocks E kept _).bind (fun _ => hcalm) σ)

end

namespace Compile

section
variable {env : Env} {K : State} {pc : Nat}

/-- Statements one after the other. -/
theorem Performs.append {l r : List Draft} {q : Nat}
    {act act' : Setting → Exits → List Value → Sem Flow} (hl : Performs env K pc l act)
    (hr : Performs env K q r act') (hq : q = pc + l.length) :
    Performs env K pc (l ++ r) fun E x kept => act E x kept >>= fun flow =>
      match flow with
      | .next => act' E x kept
      | flow => pure flow := by
  subst hq
  intro s n c F E hE x o ho hcode kept
  rw [filled_append] at hcode
  rw [List.length_append, ← Nat.add_assoc]
  exact (hl hE x o ho hcode.left kept).andThen
    (hr hE x o ho (hcode.right (by rw [length_filled])) kept)

end

/-! ## Statements without statements in them -/

section
variable {module : List String} {k : Nat} (env : Env) (pc : Nat)

theorem stmt_expr_makes (value : Expr) :
    Makes (stmt env pc (.expr value)) fun K code =>
      Performs env K pc code fun E x kept => exec E x kept k (.expr value) := by
  rw [stmt]
  refine (expr_follows env pc value).bind fun code => (one_makes _).bind fun i =>
    .ret fun K hi hc => ?_
  obtain ⟨_, rfl⟩ := hi
  intro s n c F E hE x o ho hcode kept
  rw [filled_drafts] at hcode
  beta_reduce
  rw [exec, hE.scope]
  exact (hc hE hcode.left kept).bind fun v => (Sim.pop hE.code (hcode.last rfl)).bind fun _ =>
    .next (by simp [drafts, Nat.add_assoc])

theorem stmt_assign_makes (first : Target) (rest : List Target) (value : Expr) :
    Makes (stmt env pc (.assign first rest value)) fun K code =>
      Performs env K pc code fun E x kept => exec E x kept k (.assign first rest value) := by
  rw [stmt]
  refine (expr_follows env pc value).bind fun code =>
    (assignAll_follows env _ value.span first rest).bind fun more => .ret fun K hm hc => ?_
  intro s n c F E hE x o ho hcode kept
  rw [filled_drafts] at hcode
  beta_reduce
  rw [exec]
  exact (hc hE hcode.left kept).bind fun v => (hm v hE (hcode.right rfl) kept).bind fun _ =>
    .next (by simp [drafts, Nat.add_assoc])

theorem stmt_augName_makes (id : String) (op : Operator) (value : Expr) (span : Span) :
    Makes (stmt env pc (.augAssign (.name id) op value span)) fun K code =>
      Performs env K pc code fun E x kept =>
        exec E x kept k (.augAssign (.name id) op value span) := by
  rw [stmt, at_load]
  simp only [at_one]
  refine .at <| (place_makes env id).bind fun p => .at <| (expr_follows env _ value).bind
    fun code => .at <| (store_makes env id).bind fun w => .ret fun K hw hc hp => ?_
  intro s n c F E hE x o ho hcode kept
  rw [filled_drafts] at hcode
  obtain ⟨rfl, hname⟩ := hp E.names hE.names
  obtain ⟨_, rfl⟩ := hw E.names hE.names
  beta_reduce
  rw [exec, hE.scope]
  refine (Sim.load hE hname hcode.left.head).bind fun a => ?_
  refine ((hc hE hcode.left.tail (a :: kept)).lower (List.suffix_cons a kept)).bind fun b => ?_
  have hwrite : F.Holds (pc + 1 + code.length) _ := hcode.right (by simp; omega)
  exact (Sim.inplace hE.code hwrite.head).bind fun v => (Sim.store hE hwrite.tail.head).bind
    fun _ => .next (by simp [drafts]; omega)

theorem stmt_augSubscript_makes (object index : Expr) (op : Operator) (value : Expr) (span : Span) :
    Makes (stmt env pc (.augAssign (.subscript object index) op value span)) fun K code =>
      Performs env K pc code fun E x kept =>
        exec E x kept k (.augAssign (.subscript object index) op value span) := by
  rw [stmt]
  simp only [at_one]
  refine (expr_follows env pc object).bind fun a => (expr_follows env _ index).bind fun i => .at <|
    (expr_follows env _ value).bind fun code => .at <| .ret fun K hc hi ha => ?_
  intro s n c F E hE x o ho hcode kept
  rw [filled_drafts] at hcode
  beta_reduce
  rw [exec, hE.scope]
  refine (ha hE hcode.left.left.left.left kept).bind fun v => ?_
  refine ((hi hE (hcode.left.left.left.right rfl) (v :: kept)).lower
    (List.suffix_cons v kept)).bind fun w => ?_
  have hread : F.Holds (pc + a.length + i.length) _ :=
    hcode.left.left.right (by simp [Nat.add_assoc])
  refine (Sim.dup2 hE.code hread.head).bind fun _ => ?_
  refine ((Sim.subscript hE.code hread.tail.head).lower
    (List.suffix_append [w, v] kept)).bind fun old => ?_
  refine ((hc hE (hcode.left.right (by simp; omega)) (old :: w :: v :: kept)).lower
    (List.suffix_append [old, w, v] kept)).bind fun b => ?_
  have hwrite : F.Holds (pc + a.length + i.length + 2 + code.length) _ :=
    hcode.right (by simp; omega)
  refine ((Sim.inplace hE.code hwrite.head).lower (List.suffix_append [w, v] kept)).bind fun r => ?_
  exact (Sim.rot3 hE.code hwrite.tail.head).bind fun _ =>
    (Sim.storeSubscript hE.code hwrite.tail.tail.head).bind fun _ =>
      .next (by simp [drafts]; omega)

theorem stmt_pass_makes {s : Stmt} (hs : s = .pass ∨ ∃ names, s = .global names) :
    Makes (stmt env pc s) fun K code =>
      Performs env K pc code fun E x kept => exec E x kept k s := by
  obtain rfl | ⟨names, rfl⟩ := hs <;> rw [stmt] <;>
    exact .ret fun K s n c F E hE x o ho hcode kept => by
      simp only [exec_pass, exec_global]
      exact .next rfl

theorem stmt_raise_makes (exc : Expr) (span : Span) :
    Makes (stmt env pc (.raise (some exc) span)) fun K code =>
      Performs env K pc code fun E x kept => exec E x kept k (.raise (some exc) span) := by
  rw [stmt]
  simp only [at_one]
  refine (expr_follows env pc exc).bind fun code => .at <| .ret fun K hc => ?_
  intro s n c F E hE x o ho hcode kept
  rw [filled_drafts] at hcode
  beta_reduce
  rw [exec, hE.scope]
  exact (hc hE hcode.left kept).bind fun v => .raise hE.code (hcode.last rfl)

theorem stmt_reraise_makes (span : Span) :
    Makes (stmt env pc (.raise none span)) fun K code =>
      Performs env K pc code fun E x kept => exec E x kept k (.raise none span) := by
  rw [stmt]
  simp only [at_one]
  refine .at <| .ret fun K s n c F E hE x o ho hcode kept => ?_
  rw [filled_drafts] at hcode
  beta_reduce
  rw [exec, hE.scope]
  cases hhandled : c.scope.handled with
  | nil => exact .reraise_nothing hE.code hhandled hcode.head
  | cons e handled => exact .reraise hE.code hhandled hcode.head (List.suffix_refl kept)

theorem stmt_import_makes (module : Module) (binding : String) :
    Makes (stmt env pc (.import module binding)) fun K code =>
      Performs env K pc code fun E x kept => exec E x kept k (.import module binding) := by
  rw [stmt]
  refine (one_makes _).bind fun i => (store_makes env binding).bind fun w => .ret fun K hw hi => ?_
  obtain ⟨_, rfl⟩ := hi
  intro s n c F E hE x o ho hcode kept
  rw [filled_drafts] at hcode
  obtain ⟨_, rfl⟩ := hw E.names hE.names
  beta_reduce
  rw [exec, hE.scope]
  exact (Sim.importModule hE.code hcode.head).bind fun _ =>
    (Sim.store hE hcode.tail.head).bind fun _ => .next rfl

theorem stmt_importFrom_makes (module : Module) (names : List (String × String)) (span : Span) :
    Makes (stmt env pc (.importFrom module names span)) fun K code =>
      Performs env K pc code fun E x kept => exec E x kept k (.importFrom module names span) := by
  rw [stmt, ← bind_assoc]
  refine (importNames_follow env pc span module names).bind fun code => .ret fun K hc => ?_
  intro s n c F E hE x o ho hcode kept
  rw [filled_drafts] at hcode
  beta_reduce
  rw [exec]
  exact (hc hE hcode kept).bind fun _ => .next (by simp [drafts])

theorem stmt_return_makes (value : Option Expr) (span : Span) :
    Makes (stmt env pc (.return value span)) fun K code =>
      Performs env K pc code fun E x kept => exec E x kept k (.return value span) := by
  rw [stmt]
  split
  · exact .fail_bind
  · next hlocals =>
    dsimp only
    split
    · exact .fail_bind
    · next hguarded =>
      have hsome : env.locals.isSome = true := by simpa [Option.isSome_iff_ne_none] using hlocals
      have hblocks : .guarded ∉ env.blocks := by simpa using hguarded
      simp only [at_one]
      cases value with
      | none =>
        refine (constant_makes _).bind fun i => .bind (.ret (Q := fun _ code => code = [i])
          fun _ => rfl) fun code => .at <| .ret fun K hcode' hi => ?_
        obtain ⟨j, _, rfl, hj⟩ := hi
        subst hcode'
        intro s n c F E hE x o ho hcode kept
        rw [filled_drafts] at hcode
        beta_reduce
        rw [exec, hE.scope]
        exact (Sim.loadConst hE.code (hj _ hE.pool) hcode.head).bind fun _ =>
          .return hE.code hcode.tail.head fun _ _ hp => ⟨hsome, hblocks, hp⟩
      | some e =>
        refine (expr_follows env pc e).bind fun code => .at <| .ret fun K hc => ?_
        intro s n c F E hE x o ho hcode kept
        rw [filled_drafts] at hcode
        beta_reduce
        rw [exec, hE.scope]
        exact (hc hE hcode.left kept).bind fun v =>
          .return hE.code (hcode.last rfl) fun _ _ hp => ⟨hsome, hblocks, hp⟩

theorem stmt_break_makes (span : Span) :
    Makes (stmt env pc (.break span)) fun K code =>
      Performs env K pc code fun E x kept => exec E x kept k (.break span) := by
  rw [stmt]
  refine .at ?_
  cases hloop : env.loop with
  | none => exact .fail
  | some loop =>
    refine (leave_makes "break" span (blocksInside env loop)).bind fun out => ?_
    dsimp only
    cases hfor : loop.isFor with
    | true =>
      refine (one_makes _).bind fun i => .bind (.ret (Q := fun _ code => code = [i])
        fun _ => rfl) fun code => .ret fun K hcode' hi hout => ?_
      obtain ⟨_, rfl⟩ := hi
      subst hcode'
      obtain ⟨hguarded, hout⟩ := hout
      intro s n c F E hE x o ho hcode kept
      rw [filled_append, filled_drafts] at hcode
      have h := ho loop hloop
      have hF := h.inside.function ▸ hE.code
      beta_reduce
      rw [exec, h.isFor, hfor]
      refine h.leaves (hout E kept pc kept h.inside hE.code hcode.left.left (by rw [hE.scope]))
        ((Calm.charge _ _).bind fun _ => (Calm.charge _ _).bind fun _ => .ret _) ?_
      dsimp only
      rw [if_pos rfl, if_pos rfl, h.charge_eq hE.scope, h.charge_eq hE.scope]
      have hjump : F.instrs[pc + out.length + 1]? = some _ := hcode.last (by simp [Nat.add_assoc])
      exact (Sim.drop hF (hcode.left.last rfl)).bind fun _ => (Sim.jump hF hjump).bind
        fun _ _ events => .ok ⟨loop, hloop, hguarded, events, by rw [hfor]; rfl⟩
    | false =>
      refine .bind (.ret (Q := fun _ code => code = []) fun _ => rfl) fun code =>
        .ret fun K hcode' hout => ?_
      subst hcode'
      obtain ⟨hguarded, hout⟩ := hout
      intro s n c F E hE x o ho hcode kept
      rw [filled_append, filled_drafts, List.append_nil] at hcode
      have h := ho loop hloop
      have hF := h.inside.function ▸ hE.code
      beta_reduce
      rw [exec, h.isFor, hfor]
      refine h.leaves (hout E kept pc kept h.inside hE.code hcode.left (by rw [hE.scope]))
        ((Calm.charge _ _).bind fun _ => .ret _) ?_
      dsimp only
      rw [if_neg Bool.false_ne_true, if_neg Bool.false_ne_true, h.charge_eq hE.scope]
      exact (Sim.jump hF (hcode.last rfl)).bind
        fun _ _ events => .ok ⟨loop, hloop, hguarded, events, by rw [hfor]; rfl⟩

theorem stmt_continue_makes (span : Span) :
    Makes (stmt env pc (.continue span)) fun K code =>
      Performs env K pc code fun E x kept => exec E x kept k (.continue span) := by
  rw [stmt]
  refine .at ?_
  cases hloop : env.loop with
  | none => exact .fail
  | some loop =>
    refine (leave_makes "continue" span (blocksInside env loop)).bind fun out =>
      (one_makes _).bind fun i => .ret fun K hi hout => ?_
    obtain ⟨_, rfl⟩ := hi
    obtain ⟨hguarded, hout⟩ := hout
    intro s n c F E hE x o ho hcode kept
    rw [filled_drafts] at hcode
    have h := ho loop hloop
    have hF := h.inside.function ▸ hE.code
    beta_reduce
    rw [exec]
    refine h.leaves (hout E kept pc kept h.inside hE.code hcode.left (by rw [hE.scope]))
      ((Calm.charge _ _).bind fun _ => .ret _) ?_
    rw [h.charge_eq hE.scope]
    exact (Sim.jump hF (hcode.last rfl)).bind fun _ σ events =>
      .ok ⟨loop, hloop, hguarded, events, rfl⟩

/-- The exception of an assertion is made and raised. -/
theorem assertion_fails {s : Script} {n : Nat} {env : Env} {K : State} {c : Ctx} {F : Code}
    {E : Setting} {pc k : Nat} {kept : List Value} {span : Span}
    {good : Flow → Semantics.State → Phase → Prop} (args : List Value)
    (hE : E.Matches s n env K c F) (hk : args.length = k) (hargs : args.reverse = args)
    (hcode : F.Holds pc [⟨.call k none, span⟩, ⟨.raise, span⟩]) :
    Sim s n c kept pc (args ++ .excClass .assertionError :: kept) (do
      let v ← perform c.scope span (args ++ .excClass .assertionError :: kept)
        (Semantics.onHeap (makeException .assertionError ⟨args, []⟩))
      perform c.scope span (v :: kept) (Semantics.raiseValue v)) good := by
  let cls := Value.excClass .assertionError
  let named : List Value := []
  have hcall : Sim s n c kept pc (named.reverse ++ argumentStack false args (cls :: kept))
      (perform c.scope span (named.reverse ++ argumentStack false args (cls :: kept))
        (Semantics.callValue E.calls c.scope kept cls ⟨args, List.zip [] named⟩))
      (c.At (fun _ => pc + 1) fun v => v :: kept) :=
    Sim.call hE.code hcode.head hE.calls rfl (fun _ => hk) rfl rfl
  unfold argumentStack at hcall
  rw [if_neg Bool.false_ne_true, List.reverse_nil, List.nil_append, hargs] at hcall
  exact hcall.bind fun v => .raise hE.code hcode.tail.head

theorem stmt_assert_makes (test : Expr) (message : Option Expr) (span : Span) :
    Makes (stmt env pc (.assert test message span)) fun K code =>
      Performs env K pc code fun E x kept => exec E x kept k (.assert test message span) := by
  rw [stmt]
  simp only [at_one]
  refine (expr_follows env pc test).bind fun t => get_makes.bind fun s => .at ?_
  cases message with
  | none =>
    refine .bind (.ret (Q := fun _ code => code = []) fun _ => rfl) fun m => .at <|
      .ret fun K hm _ ht => ?_
    subst hm
    intro s n c F E hE x o ho hcode kept
    rw [filled_drafts, List.append_nil] at hcode
    beta_reduce
    rw [exec, hE.scope]
    have hskip : F.Holds (pc + t.length) _ := hcode.left.right rfl
    refine (ht hE hcode.left.left kept).bind fun v =>
      (Sim.jumpIf hE.code true rfl hskip.head).bind fun holds => ?_
    cases holds with
    | true => exact .next (by simp [drafts]; omega)
    | false =>
      refine (Sim.loadExcClass hE.code hskip.tail.head).bind fun _ => ?_
      exact assertion_fails [] hE rfl rfl (hcode.right (by simp; omega))
  | some e =>
    refine (expr_follows env _ e).bind fun m => .at <| .ret fun K hm _ ht => ?_
    intro s n c F E hE x o ho hcode kept
    rw [filled_drafts] at hcode
    beta_reduce
    rw [exec, hE.scope]
    have hskip : F.Holds (pc + t.length) _ := hcode.left.left.right rfl
    refine (ht hE hcode.left.left.left kept).bind fun v =>
      (Sim.jumpIf hE.code true rfl hskip.head).bind fun holds => ?_
    cases holds with
    | true => exact .next (by simp [drafts]; omega)
    | false =>
      refine (Sim.loadExcClass hE.code hskip.tail.head).bind fun _ => ?_
      refine ((hm hE (hcode.left.right (by simp [Nat.add_assoc]))
        (.excClass .assertionError :: kept)).lower (List.suffix_cons _ kept)).bind fun w => ?_
      exact assertion_fails [w] hE rfl rfl (hcode.right (by simp; omega))

end

end Compile

end Resumable
