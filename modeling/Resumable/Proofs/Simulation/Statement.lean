import Resumable.Proofs.Simulation.Simple

/-!
# Statements

The code of a statement does what its execution does: from the same state of everything it comes to
the instruction behind it, to where a jump out of the loop leads, to the end of the function, or to
the handler of the exception that the execution raises (`stmt_adds`).
-/

namespace Resumable

open Machine Semantics

/-- A run that comes to another phase has executed at least one instruction. -/
theorem Phase.Leads.passes {s : Script} {p q : Phase} (h : Leads s p q) (hne : p ≠ q) :
    Passes s p q := by
  obtain ⟨k, rfl⟩ := h
  cases k with
  | zero => exact absurd rfl hne
  | succ k => exact ⟨k, (after_succ s k p).symm⟩

/-- Phases with different operands are different. -/
theorem Ctx.phase_ne {c : Ctx} {pc pc' : Nat} {stack stack' : List Value} {σ σ' : Semantics.State}
    {events events' : Option (List Event)} (h : stack.length ≠ stack'.length) :
    c.phase pc stack σ events ≠ c.phase pc' stack' σ' events' := by
  intro heq
  injection heq with hm _
  exact h (congrArg (fun m : Machine => m.stack.length) hm)

/-- Where a turn of a loop leads: to the next turn, or to an end of the loop. -/
def Turned (s : Script) (env : Compile.Env) (c : Ctx) (o : Outer) (kept : List Value)
    (stop start : Nat) (kept' : List Value) (turn : Option Flow) (σ : Semantics.State) (p : Phase) :
    Prop :=
  turn.elim (c.To start kept' () σ p) fun flow => Ends s env c o kept stop flow σ p

theorem Meets.turned {s : Script} {n : Nat} {env : Compile.Env} {c : Ctx} {o : Outer}
    {base kept kept' : List Value} {stop start : Nat} {p q : Phase}
    {r : EStateM.Result Halt Semantics.State (Option Flow)}
    (h : Meets s n c base (Turned s env c o kept stop start kept') r q) (hpq : Phase.Passes s p q) :
    Meets s n c base (fun turn σ q => turn.elim
      ((∃ events, q = c.phase start kept' σ events) ∧ Phase.Passes s p q)
      fun flow => Ends s env c o kept stop flow σ q) r q := by
  refine h.track.imp fun turn σ q ⟨hturn, hq⟩ => ?_
  cases turn with
  | none => exact ⟨hturn, hpq.trans hq⟩
  | some flow => exact hturn

namespace Compile

/-- The code of statements does what their execution does, wherever it stands. -/
def StmtsAdd (module : List String) (k : Nat) (ss : List Stmt) : Prop :=
  ∀ env pc, env.moduleNames = module → Adds module k (functionsIn k ss) (stmts env pc ss)
    fun K code => Performs env K pc code fun E x kept => execAll E x kept k ss

section
variable {module : List String} {k : Nat} {env : Env} {pc : Nat}
  {ds ds' : List Semantics.Function} {K : State} (henv : env.moduleNames = module)
include henv

/-! ## Functions -/

theorem functionDef_adds {name : String} {params : List Param} {body : List Stmt} {span : Span}
    (hbody : StmtsAdd module (k + 1) body) :
    Adds module k (functionsBy k (.functionDef name params body span))
      (stmt env pc (.functionDef name params body span)) fun K code =>
        Performs env K pc code fun E x kept =>
          exec E x kept k (.functionDef name params body span) := by
  rw [stmt, functionsBy]
  let locals := Resumable.Scope.locals (params.map (·.name)) body
  let inner : Env := { env with locals := some locals, loop := none, blocks := [] }
  have hinner : inner.moduleNames = module := henv
  refine .at <| .bind (defaults_follow env pc params) fun x => .last (addFunction_adds
    (d := ⟨name, locals, params.length, body, false, k + 1⟩) hinner rfl rfl
    (functionBody_adds rfl rfl rfl (hbody inner 0 hinner))) fun index =>
    (one_makes _).bind fun i => (store_makes env name).bind fun w =>
    .ret fun K hw hi hindex hx => ?_
  obtain ⟨_, rfl⟩ := hi
  subst hindex
  intro s n c F E hE x' o ho hcode kept
  rw [filled_drafts] at hcode
  obtain ⟨_, rfl⟩ := hw E.names hE.names
  beta_reduce
  rw [exec, hE.scope]
  refine (hx hE hcode.left kept).bind_gives fun values hvalues => ?_
  have hmake : F.Holds (pc + x.1.length) _ := hcode.right rfl
  exact (Sim.makeFunction hE.code hvalues hmake.head).bind fun _ =>
    (Sim.store hE hmake.tail.head).bind fun _ => .next (by simp [drafts, Nat.add_assoc])

/-! ## Conditionals -/

theorem ifElse_adds {test : Expr} {body orElse : List Stmt} (hbody : StmtsAdd module k body)
    (horElse : StmtsAdd module (k + (functionsIn k body).length) orElse) :
    Adds module k (functionsBy k (.ifElse test body orElse))
      (stmt env pc (.ifElse test body orElse)) fun K code =>
        Performs env K pc code fun E x kept => exec E x kept k (.ifElse test body orElse) := by
  rw [stmt, functionsBy]
  refine .bind (expr_follows env pc test) fun t => .bind get_makes fun s =>
    (hbody env _ henv).seq fun b => ?_
  split
  · next hempty =>
    obtain rfl := List.isEmpty_iff.mp hempty
    rw [functionsIn]
    refine .ret fun K hb _ ht => ?_
    intro s n c F E hE x o ho hcode kept
    rw [filled_append, filled_drafts] at hcode
    beta_reduce
    rw [exec, hE.scope]
    refine (ht hE hcode.left.left kept).bind fun v =>
      (Sim.jumpIf hE.code false rfl (hcode.left.last rfl)).bind fun holds => ?_
    cases holds with
    | true =>
      exact Sim.andThen (hb hE x o ho (hcode.right (by simp [Nat.add_assoc])) kept)
        (.next (by simp [drafts]; omega))
    | false =>
      rw [execAll_nil]
      exact .next (by simp [drafts]; omega)
  · next hsome =>
    refine .bind get_makes fun s' => (horElse env _ henv).last fun o =>
      .ret fun K ho' _ hb _ ht => ?_
    intro s n c F E hE x out hout hcode kept
    simp only [filled_append, filled_drafts] at hcode
    beta_reduce
    rw [exec, hE.scope]
    have hbranch := hcode.left.left.left.last rfl
    refine (ht hE hcode.left.left.left.left kept).bind fun v =>
      (Sim.jumpIf hE.code false rfl hbranch).bind fun holds => ?_
    cases holds with
    | true =>
      have hskip : F.instrs[pc + t.length + 1 + b.length]? = some _ :=
        hcode.left.last (by simp [length_filled]; omega)
      refine Sim.andThen
        (hb hE x out hout (hcode.left.left.right (by simp [Nat.add_assoc])) kept) ?_
      rw [if_pos (by simpa using hsome)]
      exact (Sim.jump hE.code hskip).bind fun _ => .next (by simp [drafts]; omega)
    | false =>
      exact (ho' hE x out hout (hcode.right (by simp [length_filled]; omega)) kept).endsAt _
        (by simp [drafts]; omega)

/-! ## Loops -/

omit henv in
/-- The body of a loop has no blocks around it that are inside the loop. -/
theorem placed_loop (env : Env) (start : Nat) (isFor : Bool) (c : Ctx) (stop : Nat) :
    Env.Placed { env with loop := some ⟨start, env.blocks.length, isFor⟩ } ⟨0, isFor⟩ c
      ⟨c, stop⟩ := by
  intro loop hloop
  cases hloop
  have hblocks : blocksInside { env with loop := some ⟨start, env.blocks.length, isFor⟩ }
      ⟨start, env.blocks.length, isFor⟩ = [] := by
    rw [blocksInside, Nat.sub_self, List.take_zero]
  exact ⟨le_rfl, hblocks ▸ .nil c, by rw [hblocks]; rfl, rfl⟩

omit henv in
/-- Where the body of a loop has ended, the run is back at the start of the loop or goes on where
the loop ends. -/
theorem turn_of_body {s : Script} {n : Nat} {c : Ctx} {F : Code} {env : Env} {out : Outer}
    {base kept kept' : List Value} {pc start stop back : Nat} {span : Span}
    {scope : Semantics.Scope} {act : Sem Flow} (isFor : Bool)
    (hF : s.bytecode.functions[c.function]? = some F)
    (hscope : scope = c.scope) (hback : F.instrs[back]? = some ⟨.jump start, span⟩)
    (hkept : (if isFor then kept'.tail else kept') = kept) (hsuffix : kept <:+ kept')
    (h : Sim s n c base pc kept' act
      (Ends s { env with loop := some ⟨start, env.blocks.length, isFor⟩ } c ⟨c, stop⟩ kept' back)) :
    Sim s n c base pc kept' (act >>= fun flow => match flow with
      | .next => charge scope kept' >>= fun _ => pure none
      | .continue => pure none
      | .break => pure (some .next)
      | .return v => pure (some (.return v))) (Turned s env c out kept stop start kept') := by
  intro σ events
  refine (h σ events).bind fun flow τ q hq => ?_
  cases flow with
  | next =>
    obtain ⟨events', rfl⟩ := hq
    rw [hscope]
    exact ((Sim.jump hF hback).bind fun _ σ events => .ok ⟨events, rfl⟩) τ events'
  | «break» =>
    obtain ⟨loop, hloop, -, hq⟩ := hq
    cases hloop
    rw [hkept] at hq
    exact .ok hq
  | «continue» =>
    obtain ⟨loop, hloop, -, hq⟩ := hq
    cases hloop
    exact .ok hq
  | «return» v => exact .ok ⟨hq.1, hq.2.1, hq.2.2.lower hsuffix⟩

theorem while_adds {test : Expr} {body orElse : List Stmt} (hbody : StmtsAdd module k body)
    (horElse : StmtsAdd module (k + (functionsIn k body).length) orElse) :
    Adds module k (functionsBy k (.while test body orElse))
      (stmt env pc (.while test body orElse)) fun K code =>
        Performs env K pc code fun E x kept => exec E x kept k (.while test body orElse) := by
  rw [stmt, functionsBy]
  refine .bind (expr_follows env pc test) fun t => .bind get_makes fun s =>
    (hbody { env with loop := some ⟨pc, env.blocks.length, false⟩ } _ henv).seq fun b =>
    .bind (one_makes _) fun back => (horElse env _ henv).last fun o =>
    .ret fun K ho hback hb _ ht => ?_
  obtain ⟨_, rfl⟩ := hback
  intro s n c F E hE x out hout hcode kept
  simp only [filled_append, filled_drafts, filled_fill] at hcode
  refine Sim.endsAt (pc + t.length + 1 + b.length + 1 + o.length) (fun σ events => ?_)
    (by simp [drafts]; omega)
  beta_reduce
  rw [exec, hE.scope, hE.fuel]
  refine Meets.loop (n := n) (I := fun τ p => ∃ events, p = c.phase pc kept τ events) ?_
    (fun τ p hI => ?_) le_rfl ⟨events, rfl⟩
  · rintro τ _ ⟨events, rfl⟩
    exact .zero s _ _
  obtain ⟨events, rfl⟩ := hI
  refine (ht hE hcode.left.left.left.left kept τ events).track.bind fun v τ q h => ?_
  obtain ⟨⟨events, rfl⟩, hlead⟩ := h
  refine (Sim.jumpIf hE.code false rfl (hcode.left.left.left.last rfl) τ events).track.bind
    fun holds τ q h => ?_
  obtain ⟨⟨events, rfl⟩, hbranch⟩ := h
  refine Meets.turned ?_ (.of_leads hlead (hbranch.passes (Ctx.phase_ne (by simp))))
  cases holds with
  | true =>
    have hturn := hb (hE.surrounded _ _) ⟨0, false⟩ _ (placed_loop env pc false c _)
      (hcode.left.left.right (by simp; omega)) kept
    exact turn_of_body false hE.code rfl
      (hcode.left.last (by simp [length_filled]; omega)) rfl (List.suffix_refl kept)
      hturn τ events
  | false =>
    exact (ho hE x out hout (hcode.right (by simp [length_filled]; omega)) kept τ events).map
      fun flow τ q hq => hq

theorem for_adds {t : Target} {iter : Expr} {body orElse : List Stmt} {span : Span}
    (hbody : StmtsAdd module k body)
    (horElse : StmtsAdd module (k + (functionsIn k body).length) orElse) :
    Adds module k (functionsBy k (.for t iter body orElse span))
      (stmt env pc (.for t iter body orElse span)) fun K code =>
        Performs env K pc code fun E x kept => exec E x kept k (.for t iter body orElse span) := by
  rw [stmt, functionsBy]
  simp only [at_one]
  refine .bind (expr_follows env pc iter) fun i => .at <|
    .bind (target_follows env _ span t) fun bind =>
    (hbody { env with loop := some ⟨pc + i.length + 1, env.blocks.length, true⟩ } _ henv).seq
    fun b => .bind (one_makes _) fun back => (horElse env _ henv).last fun o =>
    .ret fun K ho hback hb ht hi => ?_
  obtain ⟨_, rfl⟩ := hback
  intro s n c F E hE x out hout hcode kept
  simp only [filled_append, filled_drafts, filled_fill] at hcode
  refine Sim.endsAt (pc + i.length + 1 + 1 + bind.length + b.length + 1 + o.length) ?_
    (by simp [drafts]; omega)
  beta_reduce
  rw [exec, hE.scope, hE.fuel]
  have hheader : F.Holds (pc + i.length) _ := hcode.left.left.left.left.right rfl
  refine (hi hE hcode.left.left.left.left.left kept).bind fun items =>
    (Sim.getIter hE.code hheader.head).bind fun it => ?_
  intro σ events
  refine Meets.loop (n := n)
    (I := fun τ p => ∃ events, p = c.phase (pc + i.length + 1) (it :: kept) τ events) ?_
    (fun τ p hI => ?_) le_rfl ⟨events, rfl⟩
  · rintro τ _ ⟨events, rfl⟩
    exact .zero s _ _
  obtain ⟨events, rfl⟩ := hI
  refine (Sim.forIter hE.code hheader.tail.head τ events).track.bind fun item τ q h => ?_
  obtain ⟨⟨events, rfl⟩, hlead⟩ := h
  refine Meets.turned ?_ (hlead.passes (Ctx.phase_ne (by cases item <;> simp)))
  cases item with
  | some item =>
    have hbind := ht item hE (hcode.left.left.left.right (by simp; omega)) (it :: kept)
    have hturn := hb (hE.surrounded _ _) ⟨0, true⟩ _ (placed_loop env _ true c _)
      (hcode.left.left.right (by simp; omega)) (it :: kept)
    refine ((hbind.lower (List.suffix_cons it kept)).bind fun _ => ?_) τ events
    exact turn_of_body true hE.code rfl
      (hcode.left.last (by simp [length_filled]; omega)) rfl (List.suffix_cons it kept)
      (hturn.lower (List.suffix_cons it kept))
  | none =>
    exact (ho hE x out hout (hcode.right (by simp [length_filled]; omega)) kept τ events).map
      fun flow τ q hq => hq

end

/-! ## Handlers -/

/-- The code of `except` clauses does what the handling of an exception does. Behind them stands the
instruction that raises the exception again. -/
def Catches (env : Env) (K : State) (pc : Nat) (code : List Draft)
    (act : Setting → Exits → List Value → Raised → Sem Flow) : Prop :=
  ∀ ⦃s n c F⦄ ⦃E : Setting⦄, E.Matches s n env K c F → ∀ x o, env.Placed x c o →
    F.Holds pc (filled o.stop code) →
    (∃ span, F.instrs[pc + code.length]? = some ⟨.reraise, span⟩) → ∀ kept e,
      Sim s n (c.handling e) kept pc (.exception e :: kept) (act (E.handling e) x.inside kept e)
        (Ends s env c o kept (pc + code.length + 1))

/-- The instruction that binds the exception of a clause to its name, or drops it. -/
def bindOp (ns : Names) : Option String → Op
  | some id => storeOp ns id
  | none => .pop

theorem binding_adds {α : Type} {module : List String} {k : Nat} {ds : List Semantics.Function}
    (env : Env) {name : Option String} {f : Instr → Build α} {R : State → α → Prop}
    (hf : ∀ i, Adds module k ds (f i) fun K c =>
      (∀ ns : Names, ns.Suits env K → ∃ span, i = ⟨bindOp ns name, span⟩) → R K c) :
    Adds module k ds (match name with
      | some id => do
        let bind ← store env id
        f bind
      | none => do
        let bind ← one .pop
        f bind) R := by
  cases name with
  | none => exact .bind (one_makes _) fun i => (hf i).imp fun K c h hi => h fun _ _ => hi
  | some id => exact .bind (store_makes env id) hf

section
variable {module : List String} {k : Nat} {env : Env} {s : Script} {n : Nat} {K : State} {c : Ctx}
  {F : Code} {E : Setting} {x : Exits} {o : Outer} {kept : List Value} {pc stop : Nat} {e : Raised}
  {name : Option String} {span : Span} {b : List Draft}
  {act : Setting → Exits → List Value → Sem Flow}

/-- The exception is bound to the name of a clause. -/
def bindException (E : Setting) (kept : List Value) (e : Raised) : Option String → Sem Unit
  | some id => E.store kept (.exception e) id
  | none => charge E.scope (.exception e :: kept)

theorem Sim.bindException (hE : E.Matches s n env K c F)
    (hi : F.instrs[pc]? = some ⟨bindOp E.names name, span⟩) :
    Sim s n c kept pc (.exception e :: kept) (Compile.bindException E kept e name)
      (c.To (pc + 1) kept) := by
  cases name with
  | none =>
    unfold Compile.bindException
    rw [hE.scope]
    exact .pop hE.code hi
  | some id => exact .store hE hi

/-- A clause binds its exception, executes its statements and goes on behind all clauses. -/
theorem clause_follows {q r : Nat} (kept : List Value) (e : Raised) (hE : E.Matches s n env K c F)
    (ho : env.Placed x c o) (hi : F.instrs[pc]? = some ⟨bindOp E.names name, span⟩)
    (hb : Performs { env with blocks := .handling :: env.blocks } K r b act)
    (hcode : F.Holds r (filled o.stop b)) {span' span'' : Span}
    (hend : F.Holds q [⟨.popExcept, span'⟩, ⟨.jump stop, span''⟩])
    (hr : r = pc + 1) (hq : q = r + b.length) :
    Sim s n (c.handling e) kept pc (.exception e :: kept)
      (Compile.bindException (E.handling e) kept e name >>= fun _ =>
        act (E.handling e) x.inside kept >>= fun flow => match flow with
        | .next => do
          charge (E.handling e).scope kept
          charge (E.handling e).scope kept
          pure .next
        | flow => pure flow) (Ends s env c o kept stop) := by
  subst hr hq
  refine (Sim.bindException (hE.handling e) hi).bind fun _ σ events => ?_
  have hbody := hb ((hE.handling e).surrounded env.loop (.handling :: env.blocks)) x.inside o
    (ho.enter (Inside.handling e)) hcode kept
  refine (hbody σ events).bind fun flow τ p hp => ?_
  cases flow with
  | next =>
    obtain ⟨events', rfl⟩ := hp
    have hscope : charge (E.handling e).scope kept = charge c.scope kept :=
      charge_congr (by rw [Setting.handling, hE.scope]) kept
    have hnext : Crosses s n (c.handling e) c kept stop kept (pure .next)
        (Ends s env c o kept stop) := fun σ events => .ok ⟨events, rfl⟩
    rw [hscope]
    exact (Sim.popExcept hE.code hend.head).crosses
      ((Sim.jump hE.code hend.tail.head).crosses hnext) τ events'
  | _ => exact .ok (Ends.outside ho (fun h => h.handling) (by simp) hp)

end

section
variable {module : List String} {k : Nat} {env : Env} {pc : Nat}
  {ds ds' ds'' : List Semantics.Function}
  {body orElse handlers : Env → Nat → Build (List Draft)}
  {act actElse : Setting → Exits → List Value → Sem Flow}
  {actHandlers : Setting → Exits → List Value → Raised → Sem Flow}

theorem layTry_adds (henv : env.moduleNames = module)
    (hbody : ∀ env pc, env.moduleNames = module →
      Adds module k ds (body env pc) fun K code => Performs env K pc code act)
    (horElse : ∀ env pc, env.moduleNames = module → Adds module (k + ds.length) ds'
      (orElse env pc) fun K code => Performs env K pc code actElse)
    (hhandlers : ∀ env pc, env.moduleNames = module → Adds module (k + ds.length + ds'.length) ds''
      (handlers env pc) fun K code => Catches env K pc code actHandlers) :
    Adds module k (ds ++ (ds' ++ ds'')) (layTry env pc body handlers orElse) fun K code =>
      Performs env K pc code fun E x kept => (do
        charge E.scope kept
        match ← attempt (act E x.inside kept) with
        | .ok .next => do
          charge E.scope kept
          match ← actElse E x kept with
          | .next => do
            charge E.scope kept
            pure .next
          | flow => pure flow
        | .ok flow => pure flow
        | .error e => actHandlers (E.handling e) x.inside kept e) := by
  unfold layTry
  refine .bind get_makes fun s => (hbody { env with blocks := .tryBody :: env.blocks } _ henv).seq
    fun b => .bind (one_makes _) fun popBlock => (horElse env _ henv).seq fun o =>
    .bind get_makes fun s' => (hhandlers env _ henv).last fun h =>
    (one_makes _).bind fun again => .ret fun K hagain hh _ ho hpop hb _ => ?_
  obtain ⟨_, rfl⟩ := hpop
  obtain ⟨_, rfl⟩ := hagain
  intro s n c F E hE x out hout hcode kept
  simp only [filled_append, filled_drafts] at hcode
  refine Sim.endsAt (pc + 1 + b.length + 1 + o.length + 1 + h.length + 1) ?_
    (by simp [drafts]; omega)
  beta_reduce
  rw [hE.scope]
  have hsetup := hcode.left.left.left.left.left.left.head
  refine (Sim.setupExcept hE.code hsetup).crosses fun σ events => ?_
  have hguarded := hb ((hE.guarded ⟨pc + 1 + b.length + 1 + o.length + 1, kept.length,
    c.handled.length⟩).surrounded env.loop (.tryBody :: env.blocks)) x.inside out
    (hout.enter (Inside.tryBody _))
    (hcode.left.left.left.left.left.right rfl) kept
  refine (hguarded σ events).attempt.bind fun r τ q hq => ?_
  cases r with
  | error e =>
    obtain ⟨events', rfl⟩ := hq
    have hagain : F.instrs[pc + 1 + b.length + 1 + o.length + 1 + h.length]? = some _ :=
      hcode.last (by simp [length_filled]; omega)
    have hclauses := hh hE x out hout (hcode.left.right (by simp [length_filled]; omega))
      ⟨_, hagain⟩ kept e
    exact (hclauses τ events').outside
  | ok flow =>
    replace hq : Ends s _ _ out kept _ flow τ q := hq
    cases flow with
    | next =>
      obtain ⟨events', rfl⟩ := hq
      have hpop : F.instrs[pc + 1 + b.length]? = some _ :=
        hcode.left.left.left.left.last (by simp [length_filled]; omega)
      have hskip : F.instrs[pc + 1 + b.length + 1 + o.length]? = some _ :=
        hcode.left.left.last (by simp [length_filled]; omega)
      have helse := (ho hE x out hout
        (hcode.left.left.left.right (by simp [length_filled]; omega)) kept).andThen
          ((Sim.jump hE.code hskip).bind fun _ => .next rfl)
      exact (Sim.popBlock hE.code hpop).crosses helse.crossing τ events'
    | _ => exact .ok (Ends.outside hout (fun h => h.guarded) nofun hq)

/-- What the instructions of a `finally` clause do that follow an exception in what it guards. -/
theorem raised_follows {s : Script} {n : Nat} {K : State} {c : Ctx} {F : Code} {E : Setting}
    {x : Exits} {out : Outer} {span span' : Span} {b : List Draft} (kept : List Value) (e : Raised)
    (stop : Nat) (hE : E.Matches s n env K c F) (hout : env.Placed x c out)
    (hdrop : F.instrs[pc]? = some ⟨.pop, span⟩)
    (hb : Performs { env with blocks := .handling :: env.blocks } K (pc + 1) b act)
    (hcode : F.Holds (pc + 1) (filled out.stop b))
    (hagain : F.instrs[pc + 1 + b.length]? = some ⟨.reraise, span'⟩) :
    Sim s n (c.handling e) kept pc (.exception e :: kept) (do
      charge (E.handling e).scope (.exception e :: kept)
      match ← act (E.handling e) x.inside kept with
      | .next => do
        charge (E.handling e).scope kept
        raiseAgain e
      | other => pure other) (Ends s env c out kept stop) := by
  have hhandling := hE.handling e
  rw [hhandling.scope]
  refine (Sim.pop hhandling.code hdrop).bind fun _ σ events => ?_
  have hbody := hb (hhandling.surrounded env.loop (.handling :: env.blocks)) x.inside out
    (hout.enter (Inside.handling e)) hcode kept
  refine (hbody σ events).bind fun flow τ q hq => ?_
  cases flow with
  | next =>
    obtain ⟨events', rfl⟩ := hq
    exact Sim.reraise hhandling.code rfl hagain (List.suffix_refl kept) τ events'
  | _ => exact .ok (Ends.outside hout (fun h => h.handling) nofun hq)

theorem layFinally_adds {final : List Stmt} {guarded : Env → Nat → Build (List Draft)} (pc : Nat)
    (henv : env.moduleNames = module)
    (hguarded : ∀ env pc, env.moduleNames = module →
      Adds module k ds (guarded env pc) fun K code => Performs env K pc code act)
    (hfinal : ∀ n, StmtsAdd module n final) :
    Adds module k (ds ++ (functionsIn (k + ds.length) final ++
        functionsIn (k + ds.length + (functionsIn (k + ds.length) final).length) final))
      (layFinally env pc guarded fun env pc => stmts env pc final) fun K code =>
        Performs env K pc code fun E x kept => (do
          charge E.scope kept
          match ← attempt (act E x.inside kept) with
          | .ok flow => do
            charge E.scope kept
            match ← execAll E x kept (k + ds.length) final with
            | .next => do
              charge E.scope kept
              pure flow
            | other => pure other
          | .error e => do
            charge (E.handling e).scope (.exception e :: kept)
            match ← execAll (E.handling e) x.inside kept
                (k + ds.length + (functionsIn (k + ds.length) final).length) final with
            | .next => do
              charge (E.handling e).scope kept
              raiseAgain e
            | other => pure other) := by
  unfold layFinally
  refine .bind get_makes fun s =>
    (hguarded { env with blocks := .guarded :: env.blocks } _ henv).seq fun b =>
    .bind (one_makes _) fun popBlock =>
    (hfinal _ env _ henv).seq fun f =>
    .bind get_makes fun s' =>
    .bind (one_makes _) fun drop =>
    (hfinal _ { env with blocks := .handling :: env.blocks } _ henv).last fun r =>
    (one_makes _).bind fun again => .ret fun K hagain hr hdrop _ hf hpop hb _ => ?_
  obtain ⟨_, rfl⟩ := hpop
  obtain ⟨_, rfl⟩ := hdrop
  obtain ⟨_, rfl⟩ := hagain
  intro s n c F E hE x out hout hcode kept
  simp only [filled_append, filled_drafts] at hcode
  refine Sim.endsAt (pc + 1 + b.length + 1 + f.length + 1 + 1 + r.length + 1) ?_
    (by simp [drafts]; omega)
  beta_reduce
  rw [hE.scope]
  have hsetup := hcode.left.left.left.left.left.left.head
  refine (Sim.setupExcept hE.code hsetup).crosses fun σ events => ?_
  have hbody := hb ((hE.guarded ⟨pc + 1 + b.length + 1 + f.length + 1, kept.length,
    c.handled.length⟩).surrounded env.loop (.guarded :: env.blocks)) x.inside out
    (hout.enter (Inside.guarded _)) (hcode.left.left.left.left.left.right rfl) kept
  have hhandler : F.Holds (pc + 1 + b.length + 1 + f.length) _ :=
    hcode.left.left.right (by simp [length_filled]; omega)
  refine (hbody σ events).attempt.bind fun a τ q hq => ?_
  cases a with
  | error e =>
    obtain ⟨events', rfl⟩ := hq
    have hraised := raised_follows kept e (pc + 1 + b.length + 1 + f.length + 1 + 1 + r.length + 1)
      hE hout hhandler.tail.head hr
      (hcode.left.right (by simp [length_filled]; omega))
      (hcode.last (by simp [length_filled]; omega))
    exact (hraised τ events').outside
  | ok flow =>
    replace hq : Ends s _ _ out kept _ flow τ q := hq
    cases Ends.next_of_guarded hout hq
    obtain ⟨events', rfl⟩ := hq
    have hpop : F.instrs[pc + 1 + b.length]? = some _ :=
      hcode.left.left.left.left.last (by simp [length_filled]; omega)
    have hnormal := (hf hE x out hout
      (hcode.left.left.left.right (by simp [length_filled]; omega)) kept).andThen
        ((Sim.jump hE.code hhandler.head).bind fun _ => .next rfl)
    exact (Sim.popBlock hE.code hpop).crosses hnormal.crossing τ events'

end

/-- What a `try` does before its `finally` clause. -/
theorem guarded_adds {module : List String} {k : Nat} {body orElse : List Stmt}
    {hs : List Handler} (hbody : StmtsAdd module k body)
    (horElse : StmtsAdd module (k + (functionsIn k body).length) orElse)
    (hhandlers : ∀ env pc, env.moduleNames = module →
      Adds module (k + (functionsIn k body).length +
          (functionsIn (k + (functionsIn k body).length) orElse).length)
        (functionsInHandlers (k + (functionsIn k body).length +
          (functionsIn (k + (functionsIn k body).length) orElse).length) hs)
        (handlers env pc hs) fun K code => Catches env K pc code fun E x kept e =>
          handle E x kept (k + (functionsIn k body).length +
            (functionsIn (k + (functionsIn k body).length) orElse).length) e hs)
    (env : Env) (pc : Nat) (henv : env.moduleNames = module) :
    Adds module k (functionsIn k body ++ (functionsIn (k + (functionsIn k body).length) orElse ++
        functionsInHandlers (k + (functionsIn k body).length +
          (functionsIn (k + (functionsIn k body).length) orElse).length) hs))
      (if hs.isEmpty then do
        let b ← stmts env pc body
        return b ++ (← stmts env (pc + b.length) orElse)
      else
        layTry env pc (fun env pc => stmts env pc body) (fun env pc => handlers env pc hs)
          (fun env pc => stmts env pc orElse)) fun K code =>
      Performs env K pc code fun E x kept => (
        if hs.isEmpty then do
          match ← execAll E x kept k body with
          | .next => execAll E x kept (k + (functionsIn k body).length) orElse
          | flow => pure flow
        else do
          charge E.scope kept
          match ← attempt (execAll E x.inside kept k body) with
          | .ok .next => do
            charge E.scope kept
            match ← execAll E x kept (k + (functionsIn k body).length) orElse with
            | .next => do
              charge E.scope kept
              pure .next
            | flow => pure flow
          | .ok flow => pure flow
          | .error e =>
            handle (E.handling e) x.inside kept (k + (functionsIn k body).length +
              (functionsIn (k + (functionsIn k body).length) orElse).length) e hs) := by
  split
  · next hempty =>
    obtain rfl := List.isEmpty_iff.mp hempty
    rw [functionsInHandlers, List.append_nil]
    exact (hbody env pc henv).seq fun b => (horElse env _ henv).last fun o =>
      .ret fun K ho hb => hb.append ho rfl
  · exact layTry_adds henv hbody horElse hhandlers

/-! ## All statements -/

mutual

theorem stmt_adds {module : List String} (k : Nat) (env : Env) (pc : Nat) (s : Stmt)
    (henv : env.moduleNames = module) :
    Adds module k (functionsBy k s) (stmt env pc s) fun K code =>
      Performs env K pc code fun E x kept => exec E x kept k s := by
  match s with
  | .expr value => exact (stmt_expr_makes env pc value).adds
  | .assign first rest value => exact (stmt_assign_makes env pc first rest value).adds
  | .augAssign (.name id) op value span => exact (stmt_augName_makes env pc id op value span).adds
  | .augAssign (.subscript object index) op value span =>
    exact (stmt_augSubscript_makes env pc object index op value span).adds
  | .augAssign (.tuple _) _ _ span =>
    rw [stmt]
    exact .fail
  | .ifElse test body orElse =>
    exact ifElse_adds henv (stmts_adds k body) (stmts_adds _ orElse)
  | .while test body orElse =>
    exact while_adds henv (stmts_adds k body) (stmts_adds _ orElse)
  | .for t iter body orElse span =>
    exact for_adds henv (stmts_adds k body) (stmts_adds _ orElse)
  | .break span => exact (stmt_break_makes env pc span).adds
  | .continue span => exact (stmt_continue_makes env pc span).adds
  | .pass => exact (stmt_pass_makes env pc (.inl rfl)).adds
  | .global names => exact (stmt_pass_makes env pc (.inr ⟨names, rfl⟩)).adds
  | .functionDef name params body span =>
    exact functionDef_adds henv (stmts_adds (k + 1) body)
  | .return value span => exact (stmt_return_makes env pc value span).adds
  | .try body hs orElse final =>
    have hbody : StmtsAdd module k body := stmts_adds k body
    have hguarded := guarded_adds hbody (stmts_adds _ orElse) (handlers_add _ · · hs)
    rw [stmt, functionsBy]
    simp only [exec]
    split
    · next hempty =>
      obtain rfl := List.isEmpty_iff.mp hempty
      simp only [functionsIn, List.append_nil, List.append_assoc]
      exact hguarded env pc henv
    · have h := layFinally_adds pc henv hguarded fun n => stmts_adds n final
      simp only [List.length_append, ← Nat.add_assoc, List.append_assoc] at h ⊢
      exact h
  | .raise (some exc) span => exact (stmt_raise_makes env pc exc span).adds
  | .raise none span => exact (stmt_reraise_makes env pc span).adds
  | .assert test message span => exact (stmt_assert_makes env pc test message span).adds
  | .import m binding => exact (stmt_import_makes env pc m binding).adds
  | .importFrom m names span => exact (stmt_importFrom_makes env pc m names span).adds

theorem stmts_adds {module : List String} (k : Nat) (ss : List Stmt) : StmtsAdd module k ss := by
  intro env pc henv
  match ss with
  | [] =>
    rw [stmts, functionsIn]
    refine .ret fun K s n c F E hE x o ho hcode kept => ?_
    beta_reduce
    rw [execAll_nil]
    exact .next rfl
  | s :: rest =>
    rw [stmts, functionsIn]
    simp only [execAll]
    exact (stmt_adds k env pc s henv).seq fun code => (stmts_adds _ rest env _ henv).last
      fun more => .ret fun K hm hc => hc.append hm rfl

theorem handlers_add {module : List String} (k : Nat) (env : Env) (pc : Nat) (hs : List Handler)
    (henv : env.moduleNames = module) :
    Adds module k (functionsInHandlers k hs) (handlers env pc hs) fun K code =>
      Catches env K pc code fun E x kept e => handle E x kept k e hs := by
  match hs with
  | [] =>
    rw [handlers, functionsInHandlers]
    refine .ret fun K s n c F E hE x o ho hcode hagain kept e => ?_
    obtain ⟨span, hagain⟩ := hagain
    beta_reduce
    rw [handle, (hE.handling e).scope]
    exact .reraise (hE.handling e).code rfl hagain (List.suffix_cons _ kept)
  | .mk none name body :: rest =>
    rw [handlers, functionsInHandlers]
    refine .bind (.ret (Q := fun _ code => code = []) fun _ => rfl) fun test => .bind get_makes
      fun s => binding_adds env fun bind => (stmts_adds k body
        { env with blocks := .handling :: env.blocks } _ henv).seq fun b => .bind (one_makes _)
      fun pop => .bind get_makes fun s' => (handlers_add _ env _ rest henv).last fun more =>
      .ret fun K hm _ hpop hb hbind _ htest => ?_
    obtain ⟨_, rfl⟩ := hpop
    subst htest
    intro s n c F E hE x o ho hcode hagain kept e
    simp only [filled_append, filled_drafts] at hcode
    obtain ⟨_, rfl⟩ := hbind E.names hE.names
    beta_reduce
    rw [handle]
    have hbind' : F.instrs[pc]? = some _ := hcode.left.left.left.head
    have hend : F.Holds (pc + 1 + b.length) _ := hcode.left.right (by simp [length_filled]; omega)
    have hfollows := clause_follows kept e hE ho hbind' hb (hcode.left.left.right rfl) hend rfl rfl
    cases name <;> exact hfollows.endsAt _ (by simp [drafts]; omega)
  | .mk (some t) name body :: rest =>
    rw [handlers, functionsInHandlers]
    simp only [at_one, pure_bind]
    refine .bind (one_makes _) fun copy => .bind (expr_follows env _ t) fun code => .at <|
      .bind get_makes fun s => binding_adds env fun bind => (stmts_adds k body
        { env with blocks := .handling :: env.blocks } _ henv).seq fun b => .bind (one_makes _)
      fun pop => .bind get_makes fun s' => (handlers_add _ env _ rest henv).last fun more =>
      .ret fun K hm _ hpop hb hbind _ hc hcopy => ?_
    obtain ⟨_, rfl⟩ := hcopy
    obtain ⟨_, rfl⟩ := hpop
    intro s n c F E hE x o ho hcode hagain kept e
    simp only [filled_append, filled_drafts] at hcode
    obtain ⟨_, rfl⟩ := hbind E.names hE.names
    have hhandling := hE.handling e
    beta_reduce
    rw [handle, hhandling.scope]
    have htest := hcode.left.left.left.left
    refine (Sim.dup hhandling.code htest.left.head).bind fun _ => ?_
    refine ((hc hhandling htest.left.left.tail (.exception e :: .exception e :: kept)).lower
      (List.suffix_append [_, _] kept)).bind fun cls => ?_
    have hcheck : F.instrs[pc + 1 + code.length]? = some _ :=
      htest.left.last (by simp; omega)
    have hskip : F.instrs[pc + 1 + code.length + 1]? = some _ :=
      htest.last (by simp; omega)
    refine ((Sim.checkExcMatch hhandling.code hcheck).lower (List.suffix_cons _ kept)).bind
      fun answer => (Sim.jumpIfBool hhandling.code false rfl hskip).bind fun _ => ?_
    cases answer with
    | false =>
      obtain ⟨span, hagain⟩ := hagain
      have hmore := hm hE x o ho (hcode.right (by simp [length_filled]; omega))
        ⟨span, by rw [← hagain]; congr 1; simp [drafts]; omega⟩ kept e
      exact hmore.endsAt _ (by simp [drafts]; omega)
    | true =>
      have hbind' : F.instrs[pc + 1 + code.length + 1 + 1]? = some _ :=
        hcode.left.left.left.last (by simp; omega)
      have hfollows := clause_follows kept e hE ho hbind' hb
        (hcode.left.left.right (by simp; omega)) (hcode.left.right rfl) (by simp; omega)
        (by simp [length_filled]; omega)
      rw [← hhandling.scope]
      cases name <;> exact hfollows.endsAt _ (by simp [drafts]; omega)

end

end Compile

end Resumable
