import Resumable.Proofs.Discipline.Expression
import Resumable.Proofs.Discipline.Build

/-!
# Layouts of statements

The code of a statement leaves the shape that it finds (`stmt_rests`), whatever loops and blocks
surround it. A gap that a `break` leaves has the shape that the code behind the loop finds, so it
can be filled with a jump there.
-/

namespace Resumable.Compile

variable {F : State} {slots pc n k : Nat} {exit : Option Shape}

/-- A part of the code of a statement keeps to the labels; gaps have the label `exit`. -/
def draftKeeps (F : State) (slots : Nat) (exit : Option Shape) :
    Shapes → Nat → Shape → Draft → Prop
  | S, pc, σ, .instr i => keepsIn F slots S pc σ i
  | S, _, σ, .breakTo _ => exit = some σ ∧ Guarded S 0 σ

theorem drafts_layout {Γ : Shapes → Prop} {σ τ : Shape} {code : List Instr}
    (h : Layout (keepsIn F slots) Γ pc σ code τ) :
    Layout (draftKeeps F slots exit) Γ pc σ (drafts code) τ :=
  (h.map (f := Draft.instr) (Δ := fun _ => True) fun _ _ _ _ _ hi => hi).weaken
    fun _ hS => ⟨hS, trivial⟩

theorem Lays.drafts {code : List Instr} (h : Lays F slots pc n k code) {Γ : Shapes → Prop}
    {σ : Shape} (hΓ : ∀ S, Γ S → Guarded S 0 σ) :
    Layout (draftKeeps F slots exit) Γ pc (σ.up n) (drafts code) (σ.up k) :=
  drafts_layout ((h σ).weaken hΓ)

/-- Code leaves the shape that it finds, in whatever surroundings. -/
def Rests (F : State) (env : Env) (pc : Nat) (code : List Draft) : Prop :=
  ∀ σ exit, Layout (draftKeeps F env.slots exit) (Scoped · env exit σ) pc σ code σ

theorem Rests.nil {env : Env} : Rests F env pc [] := fun _ _ => .nil

theorem Rests.append {env : Env} {l r : List Draft} {q : Nat} (hl : Rests F env pc l)
    (hr : Rests F env q r) (hq : q = pc + l.length) : Rests F env pc (l ++ r) :=
  fun σ exit => (hl σ exit).append (hr σ exit) hq

theorem Lays.rests {env : Env} {code : List Instr} (h : Lays F env.slots pc 0 0 code) :
    Rests F env pc (Compile.drafts code) := fun _ _ => h.drafts fun _ hS => hS.guarded

/-- The gaps of a loop's body are filled with jumps behind the loop. -/
theorem fill_layout {Γ : Shapes → Prop} {σ ρ τ : Shape} {t : Nat} {code : List Draft}
    (h : Layout (draftKeeps F slots (some ρ)) Γ pc σ code τ) (exit : Option Shape) :
    Layout (draftKeeps F slots exit) (fun S => Γ S ∧ S t = some ρ) pc σ (code.map (.fill t)) τ :=
  h.map fun S ht _ _ d hd => by
    cases d with
    | instr i => exact hd
    | breakTo span =>
      obtain ⟨hσ, hg⟩ := hd
      cases hσ
      exact jump_keeps rfl hg ht

/-! ## Targets -/

mutual

theorem target_lays (env : Env) (pc : Nat) (span : Span) (t : Target) :
    Builds (target env pc span t) fun F => Lays F env.slots pc 1 0 := by
  match t with
  | .name id =>
    rw [target]
    exact (store_builds env id).bind fun i => .ret fun F hi => .plain hi
  | .subscript object index =>
    rw [target]
    refine (expr_lays env pc object).bind fun o => (expr_lays env _ index).bind fun i =>
      (at_builds span).bind fun _ => (one_builds _).bind fun s => .ret fun F hs _ hi ho => ?_
    exact ((ho.above 1).append (hi.above 2) rfl).snoc hs rfl rfl trivial
  | .tuple ts =>
    rw [target]
    refine (at_builds span).bind fun _ => (one_builds _).bind fun unpack =>
      (targets_lays env _ span ts).bind fun code => .ret fun F hc hu _ => ?_
    have hu : Lays F env.slots pc 1 ts.length [unpack] := .op hu rfl rfl trivial
    exact hu.append hc rfl

theorem targets_lays (env : Env) (pc : Nat) (span : Span) (ts : List Target) :
    Builds (targets env pc span ts) fun F => Lays F env.slots pc ts.length 0 := by
  match ts with
  | [] => rw [targets]; exact .ret fun F => .nil
  | t :: rest =>
    rw [targets]
    refine (target_lays env pc span t).bind fun code => (targets_lays env _ span rest).bind
      fun more => .ret fun F hm hc => ?_
    have hc := hc.shift rest.length
    rw [Nat.add_comm, Nat.zero_add] at hc
    exact hc.append hm rfl

end

theorem assignAll_lays (env : Env) (pc : Nat) (span : Span) (first : Target) (rest : List Target) :
    Builds (assignAll env pc span first rest) fun F => Lays F env.slots pc 1 0 := by
  induction rest generalizing pc first with
  | nil => rw [assignAll]; exact target_lays env pc span first
  | cons next rest ih =>
    rw [assignAll]
    refine (one_builds _).bind fun copy => (target_lays env _ span first).bind fun code =>
      (ih _ next).bind fun more => .ret fun F hm hc hcopy => ?_
    have hcopy : Lays F env.slots pc 1 2 [copy] := .op hcopy rfl rfl trivial
    exact (hcopy.append (hc.shift 1) rfl).append hm (by simp; omega)

theorem defaults_lays (env : Env) (pc : Nat) (params : List Param) :
    Builds (defaults env pc params) fun F x => Lays F env.slots pc 0 x.2 x.1 := by
  induction params generalizing pc with
  | nil => rw [defaults]; exact .ret fun F => .nil
  | cons p rest ih =>
    rw [defaults]
    split
    · exact ih pc
    · next e _ =>
      refine (expr_lays env pc e).bind fun code => (ih _).bind fun x => .ret fun F hm hc => ?_
      exact hc.append (hm.above 1) rfl

theorem importNames_lays (env : Env) (pc : Nat) (module : Module) (names : List (String × String)) :
    Builds (importNames env module names) fun F => Lays F env.slots pc 0 0 := by
  induction names generalizing pc with
  | nil => rw [importNames]; exact .ret fun F => .nil
  | cons x names ih =>
    rw [importNames]
    refine (one_builds _).bind fun i => (addName_builds x.1).bind fun n => (one_builds _).bind
      fun g => (store_builds env x.2).bind fun w => (ih (pc + 3)).bind fun more =>
      .ret fun F hm hw hg hn hi => ?_
    have hig : Lays F env.slots pc 0 1 ([i] ++ [g]) :=
      Lays.append (.op hi rfl rfl trivial) (.op hg rfl rfl hn) rfl
    exact (hig.append (.plain hw) rfl).append hm rfl

/-! ## Jumps out of loops -/

theorem popBlock_keeps {S : Shapes} {σ : Shape} {i : Instr} (hi : i.op = .popBlock)
    (hS : Guarded S 0 σ) (hb : σ.blocks ≠ [])
    (hnext : S (pc + 1) = some { σ with blocks := σ.blocks.tail }) :
    keepsIn F slots S pc σ i where
  fits := by
    obtain ⟨n, bs, h⟩ := σ
    cases bs with
    | nil => contradiction
    | cons b bs => rw [hi]; exact .popBlock hnext
  guarded := by rw [hi]; exact hS
  inRange := by rw [hi]; trivial

theorem popExcept_keeps {S : Shapes} {σ : Shape} {i : Instr} (hi : i.op = .popExcept)
    (hS : Guarded S 0 σ.handling) (hnext : S (pc + 1) = some σ) :
    keepsIn F slots S pc σ.handling i where
  fits := by rw [hi]; exact .popExcept hnext
  guarded := by rw [hi]; exact hS
  inRange := by rw [hi]; trivial

theorem forIter_keeps {S : Shapes} {σ : Shape} {i : Instr} {t : Nat} (hi : i.op = .forIter t)
    (hS : Guarded S 0 σ) (hnext : S (pc + 1) = some (σ.up 2)) (ht : S t = some σ) :
    keepsIn F slots S pc (σ.up 1) i where
  fits := by rw [hi]; exact .forIter hnext ht
  guarded := by rw [hi]; simpa [Op.pops] using hS.up 1
  inRange := by rw [hi]; trivial

theorem return_keeps {S : Shapes} {σ : Shape} {i : Instr} (hi : i.op = .return)
    (hS : Guarded S 0 σ) : keepsIn F slots S pc (σ.up 1) i where
  fits := by rw [hi]; exact .return
  guarded := by rw [hi]; simpa [Op.pops] using hS.up 1
  inRange := by rw [hi]; trivial

theorem raise_keeps {S : Shapes} {σ : Shape} {i : Instr} (hi : i.op = .raise)
    (hS : Guarded S 0 σ) : keepsIn F slots S pc (σ.up 1) i where
  fits := by rw [hi]; exact .raise
  guarded := by rw [hi]; simpa [Op.pops] using hS.up 1
  inRange := by rw [hi]; trivial

theorem reraise_keeps {S : Shapes} {σ : Shape} {i : Instr} (hi : i.op = .reraise)
    (hS : Guarded S 0 σ) : keepsIn F slots S pc σ i where
  fits := by rw [hi]; exact .reraise
  guarded := by rw [hi]; exact hS
  inRange := by rw [hi]; trivial

theorem leave_builds (env : Env) (word : String) (span : Span) (pc : Nat) (bs : List Block) :
    Builds (leave word span bs) fun F code => ∀ σ exit,
      Layout (draftKeeps F env.slots exit) (Open · bs σ) pc σ (drafts code) (σ.leaveAll bs) := by
  induction bs generalizing pc with
  | nil => exact .ret fun F σ exit => .nil
  | cons b bs ih =>
    cases b with
    | guarded => exact .fail
    | tryBody =>
      refine (one_builds _).bind fun i => (ih (pc + 1)).bind fun code =>
        .ret fun F hc hi σ exit => ?_
      exact .cons (.single fun S hS _ hnext => popBlock_keeps hi hS.1 hS.2.1 hnext)
        ((hc (σ.leave .tryBody) exit).weaken fun S hS => hS.2.2)
    | handling =>
      refine (one_builds _).bind fun i => (ih (pc + 1)).bind fun code =>
        .ret fun F hc hi σ exit => ?_
      refine .cons (.single fun S hS _ hnext => ?_)
        ((hc (σ.leave .handling) exit).weaken fun S hS => hS.2.2)
      obtain ⟨ρ, rfl⟩ : ∃ ρ : Shape, ρ.handling = σ := ⟨σ.leave .handling, by
        obtain ⟨n, bs, h⟩ := σ
        exact congrArg (Shape.mk n bs) (Nat.sub_add_cancel hS.2.1)⟩
      exact popExcept_keeps hi hS.1 hnext

/-- The iterator of a loop is dropped on the way out. -/
theorem exit_layout {Γ : Shapes → Prop} {loop : Loop} {σ : Shape} {drop : List Instr}
    (hdrop : if loop.isFor = true then ∃ i : Instr, i.op = .pop ∧ drop = [i] else drop = [])
    (hΓ : ∀ S, Γ S → Guarded S 0 (loop.exit σ))
    (hiter : ∀ S, Γ S → loop.isFor = true → 0 < σ.operands) :
    Layout (draftKeeps F slots exit) Γ pc σ (drafts drop) (loop.exit σ) := by
  split at hdrop
  · next hfor =>
    obtain ⟨i, hi, rfl⟩ := hdrop
    refine .single fun S hS _ hnext => ?_
    have hσ : (loop.exit σ).up 1 = σ := by
      rw [Loop.exit, if_pos hfor]
      obtain ⟨n, bs, h⟩ := σ
      exact congrArg (Shape.mk · bs h) (Nat.sub_add_cancel (hiter S hS hfor))
    have hpop : Plain F slots 1 0 i := ⟨by rw [hi]; rfl, by rw [hi]; rfl, by rw [hi]; trivial⟩
    rw [← hσ]
    exact hpop.keeps (hΓ S hS) hnext
  · next hfor =>
    subst hdrop
    rw [Loop.exit, if_neg hfor]
    exact .nil

theorem drop_bind {α : Type} {loop : Loop} {f : List Instr → Build α} {R : State → α → Prop}
    (hf : ∀ drop, Builds (f drop) fun F c =>
      (if loop.isFor = true then ∃ i : Instr, i.op = .pop ∧ drop = [i] else drop = []) → R F c) :
    Builds (if loop.isFor = true then do
        let i ← one .pop
        let drop ← pure [i]
        f drop
      else do
        let drop ← pure []
        f drop) R := by
  split at hf <;> split
  · exact (one_builds _).bind fun i => .ret_bind ((hf [i]).imp fun F c h hi => h ⟨i, hi, rfl⟩)
  · contradiction
  · contradiction
  · exact .ret_bind ((hf []).imp fun F c h => h rfl)

/-! ## Exceptions -/

theorem setupExcept_keeps {S : Shapes} {σ : Shape} {i : Instr} {t : Nat}
    (hi : i.op = .setupExcept t) (hS : Guarded S 0 σ)
    (hnext : S (pc + 1) = some (σ.protected_ t)) : keepsIn F slots S pc σ i where
  fits := by rw [hi]; exact .setupExcept hnext
  guarded := by rw [hi]; exact hS
  inRange := by rw [hi]; trivial

/-- Code inside a block, and code behind it that jumps over the handler of the block. -/
theorem protected_layout {env : Env} {k : Block} (hk : k ≠ .handling)
    {b o : List Draft} {setup pop jump : Instr} {start stop : Nat}
    (hsetup : setup.op = .setupExcept start)
    (hb : Rests F { env with blocks := k :: env.blocks } (pc + 1) b) (hpop : pop.op = .popBlock)
    (ho : Rests F env (pc + 1 + b.length + 1) o) (hjump : jump.op = .jump stop)
    (hstart : start = pc + 1 + b.length + 1 + o.length + 1) (σ : Shape) (exit : Option Shape) :
    Layout (draftKeeps F env.slots exit) (fun S => Scoped S env exit σ ∧ S stop = some σ) pc σ
      (.instr setup :: (b ++ .instr pop :: (o ++ [.instr jump]))) (σ.handling.up 1) := by
  refine .marked start (by simp; omega) ?_
  refine .cons (.single fun S hS _ hnext => setupExcept_keeps hsetup hS.1.1.guarded hnext) ?_
  refine .append ((hb _ exit).weaken fun S hS => hS.1.1.protected_ hk hS.2.2)
    (.cons (ρ := σ) (.single fun S hS _ hnext => ?_) ?_) rfl
  · exact popBlock_keeps hpop (guarded_protected hS.2.2) (List.cons_ne_nil _ _) hnext
  · refine .append ((ho σ exit).weaken fun S hS => hS.1.1) (.single fun S hS _ _ => ?_) rfl
    exact jump_keeps hjump hS.1.1.guarded hS.1.2

/-- The clauses of a `try`, which jump one index behind their end. -/
def Handles (F : State) (env : Env) (pc : Nat) (code : List Draft) : Prop :=
  ∀ σ exit, Layout (draftKeeps F env.slots exit)
    (fun S => Scoped S env exit σ ∧ S (pc + code.length + 1) = some σ)
    pc (σ.handling.up 1) code (σ.handling.up 1)

/-- A clause in front of others: behind a test that may go on at the next one, the exception is
bound. -/
theorem clause_handles {env : Env} {l : List Instr} {bind pop jump : Instr} {b more : List Draft}
    {q next : Nat}
    (hl : ∀ σ : Shape, Layout (keepsIn F env.slots)
      (fun S => Guarded S 0 σ ∧ S next = some (σ.up 1)) pc (σ.up 1) l (σ.up 1))
    (hbind : Plain F env.slots 1 0 bind)
    (hb : Rests F { env with blocks := .handling :: env.blocks } q b)
    (hpop : pop.op = .popExcept) (hjump : jump.op = .jump (next + more.length + 1))
    (hmore : Handles F env next more)
    (hq : q = pc + l.length + 1) (hnext : next = q + b.length + 2) :
    Handles F env pc (drafts (l ++ [bind]) ++ b ++ drafts [pop, jump] ++ more) := by
  intro σ exit
  have hlen : pc + (drafts (l ++ [bind]) ++ b ++ drafts [pop, jump] ++ more).length + 1 =
    next + more.length + 1 := by simp [drafts]; omega
  rw [hlen]
  refine .append (.marked next (by simp [drafts]; omega) ?_) (hmore σ exit)
    (by simp [drafts]; omega)
  rw [drafts_append]
  refine .append (.append (.append ((drafts_layout (hl σ.handling)).weaken fun S hS =>
    ⟨guarded_handling hS.1.1.guarded, hS.2.2⟩) (.single fun S hS _ hnext => ?_) rfl)
    ((hb _ exit).weaken fun S hS => hS.1.1.handling) (by simp [drafts]; omega))
    (.cons (ρ := σ) (.single fun S hS _ hnext => ?_) (.single fun S hS _ _ => ?_)) rfl
  · exact hbind.keeps (guarded_handling hS.1.1.guarded) hnext
  · exact popExcept_keeps hpop (guarded_handling hS.1.1.guarded) hnext
  · exact jump_keeps hjump hS.1.1.guarded hS.1.2

section
variable {body handlers orElse : Env → Nat → Build (List Draft)}

theorem layTry_rests (hbody : ∀ env pc, Builds (body env pc) fun F => Rests F env pc)
    (hhandlers : ∀ env pc, Builds (handlers env pc) fun F => Handles F env pc)
    (horElse : ∀ env pc, Builds (orElse env pc) fun F => Rests F env pc) (env : Env) (pc : Nat) :
    Builds (layTry env pc body handlers orElse) fun F => Rests F env pc := by
  unfold layTry
  refine get_builds.bind fun s => (hbody _ _).bind fun b => (one_builds _).bind fun pop =>
    (horElse env _).bind fun o => get_builds.bind fun s' => (hhandlers env _).bind fun h =>
    (one_builds _).bind fun again => .ret fun F hagain hh _ ho hpop hb _ σ exit => ?_
  generalize hx : (⟨.setupExcept _, s.span⟩ : Instr) = x
  generalize hy : (⟨.jump _, s'.span⟩ : Instr) = y
  rw [show drafts [x] ++ b ++ drafts [pop] ++ o ++ drafts [y] ++ h ++ drafts [again] =
    .instr x :: (b ++ .instr pop :: (o ++ [.instr y])) ++ (h ++ [.instr again]) by simp [drafts]]
  refine .marked (pc + 1 + b.length + 1 + o.length + 1 + h.length + 1) (by simp; omega) ?_
  refine .append ((protected_layout (k := .tryBody) nofun (by rw [← hx]) hb hpop ho
    (by rw [← hy]) rfl σ exit).weaken fun S hS => ⟨hS.1, hS.2.2⟩) (.append ((hh σ exit).weaken
    fun S hS => ⟨hS.1, hS.2.2⟩) (.single fun S hS _ _ => ?_) rfl) (by simp; omega)
  exact reraise_keeps hagain ((guarded_handling hS.1.guarded).above 1)

theorem layFinally_rests (hbody : ∀ env pc, Builds (body env pc) fun F => Rests F env pc)
    (horElse : ∀ env pc, Builds (orElse env pc) fun F => Rests F env pc) (env : Env) (pc : Nat) :
    Builds (layFinally env pc body orElse) fun F => Rests F env pc := by
  unfold layFinally
  refine get_builds.bind fun s => (hbody _ _).bind fun b => (one_builds _).bind fun pop =>
    (horElse env _).bind fun o => get_builds.bind fun s' => (one_builds _).bind fun drop =>
    (horElse _ _).bind fun r =>
    (one_builds _).bind fun again => .ret fun F hagain hr hdrop _ ho hpop hb _ σ exit => ?_
  generalize hx : (⟨.setupExcept _, s.span⟩ : Instr) = x
  generalize hy : (⟨.jump _, s'.span⟩ : Instr) = y
  rw [show drafts [x] ++ b ++ drafts [pop] ++ o ++ drafts [y, drop] ++ r ++ drafts [again] =
    .instr x :: (b ++ .instr pop :: (o ++ [.instr y])) ++ (.instr drop :: (r ++ [.instr again]))
    by simp [drafts]]
  refine .marked (pc + 1 + b.length + 1 + o.length + 1 + 1 + r.length + 1) (by simp; omega) ?_
  refine .append ((protected_layout (k := .guarded) nofun (by rw [← hx]) hb hpop ho
    (by rw [← hy]) rfl σ exit).weaken fun S hS => ⟨hS.1, hS.2.2⟩) (.cons (ρ := σ.handling)
    (.single fun S hS _ hnext => ?_) (.append ((hr _ exit).weaken fun S hS => hS.1.handling)
    (.single fun S hS _ _ => ?_) rfl)) (by simp; omega)
  · have hdrop : Plain F env.slots 1 0 drop :=
      ⟨by rw [hdrop]; rfl, by rw [hdrop]; rfl, by rw [hdrop]; trivial⟩
    exact hdrop.keeps (guarded_handling hS.1.guarded) hnext
  · exact reraise_keeps hagain (guarded_handling hS.1.guarded)

end

theorem binding_bind {α : Type} (env : Env) {name : Option String} {f : Instr → Build α}
    {R : State → α → Prop}
    (hf : ∀ i, Builds (f i) fun F c => Plain F env.slots 1 0 i → R F c) :
    Builds (match name with
      | some id => do
        let bind ← store env id
        f bind
      | none => do
        let bind ← one .pop
        f bind) R := by
  cases name with
  | none =>
    exact (one_builds _).bind fun i => (hf i).imp fun F c h hi =>
      h ⟨by rw [hi]; rfl, by rw [hi]; rfl, by rw [hi]; trivial⟩
  | some id => exact (store_builds env id).bind hf

theorem value_bind {α : Type} (env : Env) (pc : Nat) {value : Option Expr}
    {f : List Instr → Build α} {R : State → α → Prop}
    (hf : ∀ code, Builds (f code) fun F c => Lays F env.slots pc 0 1 code → R F c) :
    Builds (match value with
      | some e => do
        let code ← expr env pc e
        f code
      | none => do
        let i ← constant .none
        let code ← pure [i]
        f code) R := by
  cases value with
  | none => exact (constant_builds _ env.slots pc).bind fun i => .ret_bind (hf [i])
  | some e => exact (expr_lays env pc e).bind hf

theorem message_bind {α : Type} (env : Env) (pc : Nat) {message : Option Expr}
    {f : List Instr → Build α} {R : State → α → Prop}
    (hf : ∀ code, Builds (f code) fun F c =>
      Lays F env.slots pc 0 (if message.isSome = true then 1 else 0) code → R F c) :
    Builds (match message with
      | some e => do
        let code ← expr env pc e
        f code
      | none => do
        let code ← pure []
        f code) R := by
  cases message with
  | none => exact .ret_bind ((hf []).imp fun F c h => h .nil)
  | some e => exact (expr_lays env pc e).bind hf

/-! ## Functions -/

theorem drafts_filterMap {code : List Draft} (h : ∀ d ∈ code, ∃ i, d = .instr i) :
    drafts (code.filterMap Draft.instr?) = code := by
  induction code with
  | nil => rfl
  | cons d code ih =>
    obtain ⟨i, rfl⟩ := h d (.head _)
    exact congrArg (Draft.instr i :: ·) (ih fun d hd => h d (.tail _ hd))

/-- A code object that is laid out without gaps and returns at its end can be labelled. -/
theorem sound_of_layout {b : List Draft} {r : Instr} {τ : Shape}
    (hb : Layout (draftKeeps F slots none) (fun _ => True) 0 .empty b (τ.up 1))
    (hτ : τ.blocks = []) (hr : r.op = .return) {c : Code}
    (hc : c.instrs = (b.filterMap Draft.instr? ++ [r]).toArray) (hpool : c.pool = F.pool)
    (hlocals : c.locals.length = slots) : c.Sound F.functions.size F.globals.length := by
  obtain ⟨ls, rfl, hσ, hk⟩ := hb
  let all := ls ++ [(τ.up 1, Draft.instr r)]
  let S : Shapes := fun pc => (all.map Prod.fst)[pc]?
  have hfst : all.map Prod.fst = ls.map Prod.fst ++ [τ.up 1] := List.map_append
  have hS : Assigns S 0 (ls.map Prod.fst ++ [τ.up 1]) := by
    rw [← hfst]; exact assigns_getElem? [] _
  have hguard : Guarded S 0 τ := fun b rest hb => by rw [hτ] at hb; cases hb
  have hall : AllKeep (draftKeeps F slots none) S 0 all :=
    allKeep_append.mpr ⟨hk S hS trivial, return_keeps hr hguard, trivial⟩
  have hinstr : ∀ x ∈ all, ∃ i, x.2 = .instr i := fun x hx => by
    obtain ⟨pc, hpc⟩ := List.getElem?_of_mem hx
    have hx := hall.get hpc
    cases hd : x.2 with
    | instr i => exact ⟨i, rfl⟩
    | breakTo span => rw [hd] at hx; exact nomatch hx.1
  have hfilled : drafts ((all.map Prod.snd).filterMap Draft.instr?) = all.map Prod.snd :=
    drafts_filterMap fun d hd => by
      obtain ⟨x, hx, rfl⟩ := List.mem_map.mp hd
      exact hinstr x hx
  have hcode : drafts c.instrs.toList = all.map Prod.snd := by
    rw [← hfilled, hc, List.map_append, List.filterMap_append]
    rfl
  have hget : ∀ pc : Nat, (c.instrs[pc]?).map Draft.instr = (all[pc]?).map Prod.snd := fun pc => by
    rw [← List.getElem?_map, ← hcode, drafts, List.getElem?_map, Array.getElem?_toList]
  refine ⟨S, ⟨?_, fun pc σ hpc => ?_⟩, fun pc i hi => ?_⟩
  · show (all.map Prod.fst)[0]? = _
    rw [hfst, ← List.head?_eq_getElem?, hσ]
  · obtain ⟨x, hx, rfl⟩ := Option.map_eq_some_iff.mp ((List.getElem?_map ..).symm.trans hpc)
    obtain ⟨i, hi⟩ := hinstr x (List.mem_of_getElem? hx)
    have hkeeps := hall.get hx
    have hg := hget pc
    rw [hx, Option.map_some, hi] at hg
    obtain ⟨j, hj, hij⟩ := Option.map_eq_some_iff.mp hg
    cases hij
    rw [hi, Nat.zero_add] at hkeeps
    exact ⟨i, hj, by rw [hpool, hlocals]; exact hkeeps⟩
  · have hg := hget pc
    rw [hi, Option.map_some] at hg
    obtain ⟨x, hx, -⟩ := Option.map_eq_some_iff.mp hg.symm
    show ((all.map Prod.fst)[pc]?).isSome
    rw [List.getElem?_map, hx]
    rfl

/-- The code of a function can be labelled, whatever object it becomes the code of. -/
def Closed (slots : Nat) (F : State) (code : List Instr) : Prop :=
  ∀ c : Code, c.instrs = code.toArray → c.pool = F.pool → c.locals.length = slots →
    c.Sound F.functions.size F.globals.length

/-- Nothing surrounds the code of a function. -/
theorem scoped_empty {env : Env} (hloop : env.loop = none) (S : Shapes) (exit : Option Shape) :
    Scoped S env exit .empty :=
  ⟨nofun, fun loop hl => by rw [hloop] at hl; cases hl⟩

theorem functionBody_builds {env : Env} (hloop : env.loop = none) {body : Build (List Draft)}
    (h : Builds body fun F => Rests F env 0) :
    Builds (functionBody body) fun F => Closed env.slots F := by
  refine h.bind fun b => (constant_builds _ env.slots b.length).bind fun k =>
    (one_builds _).bind fun r => .ret fun F hr hk hb c hc hpool hlocals => ?_
  have hbk : Layout (draftKeeps F env.slots none) (fun _ => True) 0 .empty (b ++ drafts [k])
      (Shape.empty.up 1) :=
    .append ((hb .empty none).weaken fun S _ => scoped_empty hloop S none)
      (hk.drafts fun S _ => (scoped_empty hloop S none).guarded) (Nat.zero_add _).symm
  refine sound_of_layout hbk rfl hr ?_ hpool hlocals
  rw [hc, List.filterMap_append, List.append_assoc]
  rfl

theorem addFunction_builds {name : String} {locals : List String} {count : Nat} {span : Span}
    {code : Build (List Instr)} (h : Builds code fun F => Closed locals.length F) :
    Builds (addFunction name locals count span code) fun F i => i < F.functions.size := by
  intro s a t hs
  change (code ⟨s.functions.push default, s.globals, .empty, span⟩ >>= fun x => Except.ok
    (s.functions.size, { x.2 with
      functions := x.2.functions.setIfInBounds s.functions.size
        ⟨name, x.1.toArray, x.2.pool, locals, count⟩
      pool := s.pool, span })) = _ at hs
  cases hcode : code ⟨s.functions.push default, s.globals, .empty, span⟩ with
  | error e => rw [hcode] at hs; cases hs
  | ok x =>
    obtain ⟨instrs, u⟩ := x
    rw [hcode] at hs
    cases hs
    obtain ⟨hgrows, hclosed⟩ := h hcode
    have hsize : s.functions.size + 1 ≤ u.functions.size := by simpa using hgrows.functions
    -- the pool of the function ends where its code does
    have hbelow : ∀ {fs : Array Code} (F : State), fs.size = u.functions.size →
        State.Below ⟨fs, u.globals, s.pool, span⟩ F → u.Below { F with pool := u.pool } :=
      fun F hfs hF => ⟨hfs ▸ hF.functions, hF.globals, .refl _⟩
    refine ⟨⟨⟨by simp; omega, hgrows.globals, .refl _⟩, fun i hi => ?_, fun F hF i c hi hc => ?_⟩,
      fun F hF => ?_⟩
    · rw [Array.getElem?_setIfInBounds_ne (by omega), hgrows.kept i (by simp; omega)]
      exact Array.getElem?_push_lt hi ▸ (Array.getElem?_eq_getElem hi).symm
    · rcases hi.eq_or_lt with rfl | hi
      · rw [Array.getElem?_setIfInBounds_self_of_lt hsize] at hc
        cases hc
        exact hclosed _ (hbelow F (by simp) hF) _ rfl rfl rfl
      · rw [Array.getElem?_setIfInBounds_ne (by omega)] at hc
        exact hgrows.added _ (hbelow F (by simp) hF) i c (by simp; omega) hc
    · have := hF.functions
      simp only [Array.size_setIfInBounds] at this
      omega

/-! ## Statements -/

mutual

theorem stmt_rests (env : Env) (pc : Nat) (s : Stmt) :
    Builds (stmt env pc s) fun F => Rests F env pc := by
  match s with
  | .expr value =>
    rw [stmt]
    refine (expr_lays env pc value).bind fun code => (one_builds _).bind fun i =>
      .ret fun F hi hc => ?_
    exact (hc.snoc hi rfl rfl trivial).rests
  | .assign first rest value =>
    rw [stmt]
    refine (expr_lays env pc value).bind fun code =>
      (assignAll_lays env _ value.span first rest).bind fun more => .ret fun F hm hc => ?_
    exact (hc.append hm rfl).rests
  | .augAssign (.name id) op value span =>
    rw [stmt]
    refine (at_builds span).bind fun _ => (load_builds env id).bind fun read =>
      (expr_lays env _ value).bind fun code => (at_builds span).bind fun _ =>
      (one_builds _).bind fun i => (store_builds env id).bind fun write =>
      .ret fun F hw hi _ hc hr _ => ?_
    have hiw : Lays F env.slots (pc + code.length + 1) 2 0 ([i] ++ [write]) :=
      (Lays.op hi rfl rfl trivial).append (.plain hw) rfl
    exact (((Lays.plain hr).append (hc.above 1) rfl).append hiw (by simp; omega)).rests
  | .augAssign (.subscript object index) op value span =>
    rw [stmt]
    refine (expr_lays env pc object).bind fun o => (expr_lays env _ index).bind fun i =>
      (at_builds span).bind fun _ => (one_builds _).bind fun dup => (one_builds _).bind fun read =>
      (expr_lays env _ value).bind fun code => (at_builds span).bind fun _ =>
      (one_builds _).bind fun update => (one_builds _).bind fun rot =>
      (one_builds _).bind fun write => .ret fun F hw hrot hu _ hc hr hd _ hi ho => ?_
    have hread : Lays F env.slots (pc + (o ++ i).length) 2 3 ([dup] ++ [read]) :=
      Lays.append (.op hd rfl rfl trivial) ((Lays.op hr rfl rfl trivial).shift 2) rfl
    have hwrite : Lays F env.slots (pc + (o ++ i ++ [dup, read] ++ code).length) 4 0
        ([update] ++ [rot] ++ [write]) :=
      (((Lays.op hu rfl rfl trivial).shift 2).append (.op hrot rfl rfl trivial) rfl).append
        (.op hw rfl rfl trivial) rfl
    have hoi := ho.append (hi.above 1) rfl
    exact (((hoi.append hread rfl).append (hc.above 3) (by simp; omega)).append hwrite rfl).rests
  | .augAssign (.tuple _) _ _ span =>
    rw [stmt]
    exact .fail
  | .ifElse test body orElse =>
    rw [stmt]
    refine (expr_lays env pc test).bind fun t => get_builds.bind fun s =>
      (stmts_rests env _ body).bind fun b => ?_
    split
    · refine .ret fun F hb _ ht σ exit => ?_
      rw [drafts_append]
      refine .marked (pc + t.length + 1 + b.length) (by simp [drafts]; omega) ?_
      refine .append (.append (ht.drafts fun S hS => hS.1.guarded) (.single fun S hS _ hnext => ?_)
        rfl) ((hb σ exit).weaken fun S hS => hS.1) (by simp [drafts]; omega)
      exact jumpIfFalse_keeps rfl hS.1.guarded hnext hS.2.2
    · refine get_builds.bind fun s' => (stmts_rests env _ orElse).bind fun o =>
        .ret fun F ho _ hb _ ht σ exit => ?_
      generalize hx : (⟨.jumpIfFalse _, s.span⟩ : Instr) = x
      generalize hy : (⟨.jump _, s'.span⟩ : Instr) = y
      rw [show drafts (t ++ [x]) ++ b ++ drafts [y] ++ o =
        drafts t ++ (.instr x :: (b ++ [.instr y]) ++ o) by simp [drafts]]
      refine .marked (pc + t.length + 1 + b.length + 1 + o.length) (by simp [drafts]; omega) ?_
      refine .append (ht.drafts fun S hS => hS.1.guarded) (.append (ρ := σ) (.marked
        (pc + t.length + 1 + b.length + 1) (by simp [drafts]; omega) ?_)
        ((ho σ exit).weaken fun S hS => hS.1) (by simp [drafts]; omega)) rfl
      rw [length_drafts]
      refine .cons (.single fun S hS _ hnext => ?_) (.append ((hb σ exit).weaken
        fun S hS => hS.1.1) (.single fun S hS _ _ => ?_) rfl)
      · exact jumpIfFalse_keeps (by rw [← hx]) hS.1.1.guarded hnext hS.2.2
      · exact jump_keeps (by rw [← hy]) hS.1.1.guarded hS.1.2.2
  | .while test body orElse =>
    rw [stmt]
    refine (expr_lays env pc test).bind fun t => get_builds.bind fun s =>
      (stmts_rests _ _ body).bind fun b => (one_builds _).bind fun back =>
      (stmts_rests env _ orElse).bind fun o => .ret fun F ho hback hb _ ht σ exit => ?_
    generalize hx : (⟨.jumpIfFalse _, s.span⟩ : Instr) = x
    generalize hstop : pc + t.length + 1 + b.length + 1 + o.length = stop
    rw [show drafts (t ++ [x]) ++ b.map (.fill stop) ++ drafts [back] ++ o =
      drafts t ++ .instr x :: (b.map (.fill stop) ++ [.instr back]) ++ o by simp [drafts]]
    refine .marked stop (by simp [drafts]; omega) ?_
    refine .append (.marked (pc + t.length + 1 + b.length + 1) (by simp [drafts]; omega) ?_)
      ((ho σ exit).weaken fun S hS => hS.1) (by simp [drafts]; omega)
    refine .append (ht.drafts fun S hS => hS.1.1.guarded) ?_ rfl
    rw [length_drafts]
    refine .cons (ρ := σ) (.single fun S hS _ hnext => ?_) (.append ((fill_layout (hb σ (some σ))
      exit).weaken fun S hS => ⟨hS.1.1.loop rfl rfl hS.2.1, hS.1.2.2⟩)
      (.single fun S hS _ _ => ?_) rfl)
    · exact jumpIfFalse_keeps (by rw [← hx]) hS.1.1.guarded hnext hS.2.2
    · exact jump_keeps hback hS.1.1.guarded hS.2.1
  | .for t iter body orElse span =>
    rw [stmt]
    refine (expr_lays env pc iter).bind fun i => (at_builds span).bind fun _ =>
      (one_builds _).bind fun getIter => (target_lays env _ span t).bind fun bind =>
      (stmts_rests _ _ body).bind fun b => (one_builds _).bind fun back =>
      (stmts_rests env _ orElse).bind fun o => .ret fun F ho hback hb ht hget _ hi σ exit => ?_
    generalize hx : (⟨.forIter _, span⟩ : Instr) = x
    generalize hstop : pc + i.length + 1 + 1 + bind.length + b.length + 1 + o.length = stop
    rw [show drafts (i ++ [getIter, x] ++ bind) ++ b.map (.fill stop) ++ drafts [back] ++ o =
      drafts (i ++ [getIter]) ++
        (.instr x :: (drafts bind ++ (b.map (.fill stop) ++ [.instr back])) ++ o)
      by simp [drafts]]
    refine .marked stop (by simp [drafts]; omega) ?_
    have hi := hi.snoc hget rfl rfl trivial
    refine .append (hi.drafts fun S hS => hS.1.guarded) (.append (.marked
      (pc + i.length + 1 + 1 + bind.length + b.length + 1) (by simp [drafts]; omega) ?_)
      ((ho σ exit).weaken fun S hS => hS.1) (by simp [drafts]; omega)) rfl
    rw [length_drafts, List.length_append, List.length_singleton, ← Nat.add_assoc]
    refine .cons (ρ := σ.up 2) (.single fun S hS _ hnext => ?_) (.append
      (ht.drafts (σ := σ.up 1) fun S hS => hS.1.1.guarded.above 1) ?_ rfl)
    · exact forIter_keeps (by rw [← hx]) hS.1.1.guarded hnext hS.2.2
    · rw [length_drafts]
      refine .append ((fill_layout (hb (σ.up 1) (some σ)) exit).weaken fun S hS =>
        ⟨hS.1.1.loop rfl rfl hS.2.1, hS.1.2.2⟩) (.single fun S hS _ _ => ?_) rfl
      exact jump_keeps hback (hS.1.1.guarded.above 1) hS.2.1
  | .break span =>
    rw [stmt]
    refine (at_builds span).bind fun _ => ?_
    split
    · exact .fail
    · next loop hloop =>
      refine (leave_builds env _ span pc _).bind fun out => drop_bind fun drop =>
        .ret fun F hdrop hout _ σ exit => ?_
      rw [drafts_append]
      refine .append (.append ((hout σ exit).weaken fun S hS => (hS.inLoop loop hloop).blocks)
        (exit_layout hdrop (fun S hS => (hS.inLoop loop hloop).guarded)
          fun S hS => (hS.inLoop loop hloop).iterator) rfl) (.single fun S hS _ _ => ?_) rfl
      exact ⟨(hS.inLoop loop hloop).exit, (hS.inLoop loop hloop).guarded⟩
  | .continue span =>
    rw [stmt]
    refine (at_builds span).bind fun _ => ?_
    split
    · exact .fail
    · next loop hloop =>
      refine (leave_builds env _ span pc _).bind fun out => (one_builds _).bind fun i =>
        .ret fun F hi hout _ σ exit => ?_
      rw [drafts_append]
      refine .append ((hout σ exit).weaken fun S hS => (hS.inLoop loop hloop).blocks)
        (.single fun S hS _ _ => ?_) rfl
      exact jump_keeps hi (hS.inLoop loop hloop).blocks.last (hS.inLoop loop hloop).start
  | .pass => rw [stmt]; exact .ret fun F => .nil
  | .global _ => rw [stmt]; exact .ret fun F => .nil
  | .functionDef name params body span =>
    rw [stmt]
    refine (at_builds span).bind fun _ => (defaults_lays env pc params).bind fun x =>
      (addFunction_builds (functionBody_builds rfl (stmts_rests _ 0 body))).bind fun index =>
      (one_builds _).bind fun make => (store_builds env name).bind fun w =>
      .ret fun F hw hm hindex hx _ => ?_
    have hm : Lays F env.slots (pc + x.1.length) x.2 1 [make] := .op hm rfl rfl hindex
    exact (hx.append (hm.append (.plain hw) rfl) rfl).rests
  | .return value span =>
    rw [stmt]
    split
    · exact .fail_bind
    · simp only
      split
      · exact .fail_bind
      · refine value_bind env pc fun code => (at_builds span).bind fun _ =>
          (one_builds _).bind fun i => .ret fun F hi _ hc σ exit => ?_
        rw [drafts_append]
        refine .append (hc.drafts fun S hS => hS.guarded) (.single fun S hS _ _ => ?_) rfl
        exact return_keeps hi hS.guarded
  | .try body hs orElse finally_ =>
    have hinner : ∀ env pc, Builds (if hs.isEmpty = true then do
          let b ← stmts env pc body
          return b ++ (← stmts env (pc + b.length) orElse)
        else
          layTry env pc (fun env pc => stmts env pc body) (fun env pc => handlers env pc hs)
            (fun env pc => stmts env pc orElse)) fun F => Rests F env pc := by
      intro env pc
      split
      · exact (stmts_rests env pc body).bind fun b => (stmts_rests env _ orElse).bind fun o =>
          .ret fun F ho hb => hb.append ho rfl
      · exact layTry_rests (fun env pc => stmts_rests env pc body)
          (fun env pc => handlers_handle env pc hs) (fun env pc => stmts_rests env pc orElse) env pc
    rw [stmt]
    split
    · exact hinner env pc
    · exact layFinally_rests hinner (fun env pc => stmts_rests env pc finally_) env pc
  | .raise (some e) span =>
    rw [stmt]
    refine (expr_lays env pc e).bind fun code => (at_builds span).bind fun _ =>
      (one_builds _).bind fun i => .ret fun F hi _ hc σ exit => ?_
    rw [drafts_append]
    refine .append (hc.drafts fun S hS => hS.guarded) (.single fun S hS _ _ => ?_) rfl
    exact raise_keeps hi hS.guarded
  | .raise none span =>
    rw [stmt]
    refine (at_builds span).bind fun _ => (one_builds _).bind fun i => .ret fun F hi _ σ exit => ?_
    exact .single fun S hS _ _ => reraise_keeps hi hS.guarded
  | .assert test message span =>
    rw [stmt]
    refine (expr_lays env pc test).bind fun t => get_builds.bind fun s =>
      (at_builds span).bind fun _ => (one_builds _).bind fun cls => message_bind env _ fun m =>
      (at_builds span).bind fun _ => (one_builds _).bind fun call =>
      (one_builds _).bind fun raise => .ret fun F hraise hcall _ hm hcls _ _ ht σ exit => ?_
    generalize hx : (⟨.jumpIfTrue _, s.span⟩ : Instr) = x
    rw [show drafts (t ++ [x, cls] ++ m ++ [call, raise]) =
      drafts t ++ (.instr x :: (drafts ([cls] ++ m ++ [call]) ++ [.instr raise])) by simp [drafts]]
    refine .marked (pc + t.length + 2 + m.length + 2) (by simp [drafts]; omega) ?_
    refine .append (ht.drafts fun S hS => hS.1.guarded) ?_ rfl
    rw [length_drafts]
    have hcls : Lays F env.slots (pc + t.length + 1) 0 1 [cls] := .op hcls rfl rfl trivial
    have hcode := (hcls.append (hm.above 1) rfl).snoc hcall rfl rfl nofun
    refine .cons (.single fun S hS _ hnext => ?_) (.append (hcode.drafts fun S hS => hS.1.guarded)
      (.single fun S hS _ _ => raise_keeps hraise hS.1.guarded) rfl)
    exact jumpIfTrue_keeps (by rw [← hx]) hS.1.guarded hnext hS.2.2
  | .import module binding =>
    rw [stmt]
    refine (one_builds _).bind fun i => (store_builds env binding).bind fun w =>
      .ret fun F hw hi => ?_
    exact (Lays.append (.op hi rfl rfl trivial) (.plain hw) rfl).rests
  | .importFrom module names span =>
    rw [stmt]
    exact (at_builds span).bind fun _ => (importNames_lays env pc module names).bind fun code =>
      .ret fun F hc _ => hc.rests

theorem stmts_rests (env : Env) (pc : Nat) (ss : List Stmt) :
    Builds (stmts env pc ss) fun F => Rests F env pc := by
  match ss with
  | [] => rw [stmts]; exact .ret fun F => .nil
  | s :: rest =>
    rw [stmts]
    exact (stmt_rests env pc s).bind fun code => (stmts_rests env _ rest).bind fun more =>
      .ret fun F hm hc => hc.append hm rfl

theorem handlers_handle (env : Env) (pc : Nat) (hs : List Handler) :
    Builds (handlers env pc hs) fun F => Handles F env pc := by
  match hs with
  | [] => rw [handlers]; exact .ret fun F σ exit => .nil
  | .mk none name body :: rest =>
    rw [handlers]
    refine .ret_bind (get_builds.bind fun s => binding_bind env fun bind =>
      (stmts_rests _ _ body).bind fun b => (one_builds _).bind fun pop => get_builds.bind fun s' =>
      (handlers_handle env _ rest).bind fun more => .ret fun F hm _ hpop hb hbind _ => ?_)
    exact clause_handles (fun σ => .nil) hbind hb hpop rfl hm (by simp) rfl
  | .mk (some e) name body :: rest =>
    rw [handlers]
    refine (one_builds _).bind fun copy => (expr_lays env _ e).bind fun code =>
      (at_builds _).bind fun _ => (one_builds _).bind fun check =>
      .ret_bind (get_builds.bind fun s => binding_bind env fun bind =>
      (stmts_rests _ _ body).bind fun b => (one_builds _).bind fun pop => get_builds.bind fun s' =>
      (handlers_handle env _ rest).bind fun more =>
      .ret fun F hm _ hpop hb hbind _ hcheck _ hc hcopy => ?_)
    have hcopy : Lays F env.slots pc 1 2 [copy] := .op hcopy rfl rfl trivial
    have htest := (hcopy.append (hc.above 2) rfl).append
      ((Lays.op hcheck rfl rfl trivial).shift 1) rfl
    refine clause_handles (fun σ => .append ((htest σ).weaken fun S hS => hS.1)
      (.single fun S hS _ hnext => ?_) rfl) hbind hb hpop rfl hm (by simp; omega) rfl
    exact jumpIfFalse_keeps rfl (hS.1.above 1) hnext hS.2

end

end Resumable.Compile
