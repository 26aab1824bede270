import Resumable.Proofs.Naming.Expression

/-!
# Uses of names in the code of programs

`Produces P ds b Q` says of a build `b`: if it succeeds, it has added a code object for each of the
functions `ds` of a program, and the accesses of each are for the uses of its function. Main result:
`names_resolve`, of whole programs. Whatever a program assigns to is a name that it binds, and in
each code object every use of a name is an access of the one place of the name in this function.
-/

namespace Resumable

open Semantics (Names functionsBy functionsIn functionsInHandlers)

namespace Compile

/-! ## Simple statements -/

/-- The accesses of code with gaps are for some uses; a gap is none. -/
def Drafted (env : Env) (F : State) (uses : List NameUse) (code : List Draft) : Prop :=
  Spells env F uses (code.filterMap Draft.instr?)

section
variable {env : Env} {F : State} {us vs : List NameUse} {l r : List Draft} {code : List Instr}

theorem Drafted.append (hl : Drafted env F us l) (hr : Drafted env F vs r) :
    Drafted env F (us ++ vs) (l ++ r) := by
  have h := Spells.append hl hr
  rwa [← List.filterMap_append] at h

theorem filterMap_drafts (code : List Instr) : (drafts code).filterMap Draft.instr? = code := by
  rw [drafts, List.filterMap_map]
  exact List.filterMap_some

theorem Spells.drafted (h : Spells env F us code) : Drafted env F us (drafts code) := by
  rw [Drafted, filterMap_drafts]
  exact h

theorem Drafted.append_silent (hl : Drafted env F us l) (hr : Spells env F [] code) :
    Drafted env F us (l ++ drafts code) := by
  have h := hl.append hr.drafted
  rwa [List.append_nil] at h

theorem Drafted.nil : Drafted env F [] [] := Spells.nil

/-- What a filled gap adds is no access. -/
theorem accesses_fill (target : Nat) (l : List Draft) :
    accesses ((l.map (.fill target)).filterMap Draft.instr?) =
      accesses (l.filterMap Draft.instr?) := by
  induction l with
  | nil => rfl
  | cons d l ih =>
    cases d with
    | instr i =>
      have hcons : ∀ code, accesses (i :: code) = accesses [i] ++ accesses code :=
        fun code => accesses_append [i] code
      change accesses (i :: _) = accesses (i :: _)
      rw [hcons, ih, ← hcons]
    | breakTo span => exact ih

theorem Drafted.fill (h : Drafted env F us l) (target : Nat) :
    Drafted env F us (l.map (.fill target)) := by
  intro ns hns hbinds
  rw [accesses_fill]
  exact h ns hns hbinds

/-- Loops and blocks do not change what names mean. -/
theorem Drafted.surrounded {loop : Option Loop} {blocks : List Block}
    (h : Drafted { env with loop, blocks } F us l) : Drafted env F us l :=
  fun ns hns => h ns ⟨hns.locals, hns.module, hns.slots⟩

end

mutual

theorem target_spells (env : Env) (pc : Nat) (span : Span) (t : Target) :
    Makes (target env pc span t) fun F code => Spells env F t.uses code := by
  match t with
  | .name id =>
    rw [target]
    exact (store_spells env id).bind fun i => .ret fun F hi => hi
  | .subscript object index =>
    rw [target]
    refine (expr_reads env pc object).bind fun o => (expr_reads env _ index).bind fun x =>
      .at <| (one_makes _).bind fun i => .ret fun F hi hx ho => ?_
    exact (ho.append hx).behind rfl hi
  | .tuple ts =>
    rw [target]
    refine .at <| (one_makes _).bind fun unpack => (targets_spell env _ span ts).bind fun code =>
      .ret fun F hc hunpack => ?_
    exact (Spells.nil.behind rfl hunpack).silent_append hc

theorem targets_spell (env : Env) (pc : Nat) (span : Span) (ts : List Target) :
    Makes (targets env pc span ts) fun F code => Spells env F (Target.allUses ts) code := by
  match ts with
  | [] =>
    rw [targets]
    exact .ret fun F => .nil
  | t :: rest =>
    rw [targets]
    exact (target_spells env pc span t).bind fun code => (targets_spell env _ span rest).bind
      fun more => .ret fun F hm hc => hc.append hm

end

theorem assignAll_spells (env : Env) (pc : Nat) (span : Span) (first : Target)
    (rest : List Target) :
    Makes (assignAll env pc span first rest) fun F code =>
      Spells env F (first.uses ++ Target.allUses rest) code := by
  induction rest generalizing pc first with
  | nil =>
    rw [assignAll, Target.allUses, List.append_nil]
    exact target_spells env pc span first
  | cons next rest ih =>
    rw [assignAll]
    refine (one_makes _).bind fun copy => (target_spells env _ span first).bind fun code =>
      (ih _ next).bind fun more => .ret fun F hm hc hcopy => ?_
    exact (Spells.nil.behind rfl hcopy).silent_append (hc.append hm)

theorem defaults_read (env : Env) (pc : Nat) (params : List Param) :
    Makes (defaults env pc params) fun F x => Reads env F (Param.allLoads params) x.1 := by
  induction params generalizing pc with
  | nil =>
    rw [defaults]
    exact .ret fun F => .nil
  | cons p rest ih =>
    rw [defaults, Param.allLoads]
    cases p.default with
    | none => exact ih pc
    | some e =>
      exact (expr_reads env pc e).bind fun code => (ih _).bind fun x =>
        .ret fun F hm hc => hc.append hm

theorem importNames_spell (env : Env) (module : Module) (names : List (String × String)) :
    Makes (importNames env module names) fun F code =>
      Spells env F (names.map fun x => .store x.2) code := by
  induction names with
  | nil =>
    rw [importNames]
    exact .ret fun F => .nil
  | cons x rest ih =>
    rw [importNames]
    refine (one_makes _).bind fun i => (addName_makes _).bind fun j => (one_makes _).bind fun g =>
      (store_spells env _).bind fun w => ih.bind fun more => .ret fun F hm hw hg _ hi => ?_
    have hfetch : Spells env F [] [i, g] := (Spells.nil.behind rfl hi).behind rfl hg
    exact (hfetch.silent_append hw).append hm

theorem leave_silent (env : Env) (word : String) (span : Span) (blocks : List Block) :
    Makes (leave word span blocks) fun F code => Spells env F [] code := by
  induction blocks with
  | nil => exact .ret fun F => .nil
  | cons b rest ih =>
    have hstep : ∀ {op : Op}, op.isAccess = false →
        Makes (one op >>= fun i => leave word span rest >>= fun code => pure (i :: code))
          fun F code => Spells env F [] code := fun hop =>
      (one_makes _).bind fun i => ih.bind fun code => .ret fun F hc hi =>
        (Spells.nil.behind hop hi).append_silent hc
    cases b with
    | tryBody => exact hstep rfl
    | handling => exact hstep rfl
    | guarded => exact .fail_bind

end Compile

/-! ## Functions -/

/-- In a code object, each access is for a use of a name in the function, one by one, and finds the
place that the name has in the function. -/
structure Code.Resolves (F : Code) (d : Semantics.Function) (ns : Names) : Prop where
  name : F.name = d.name
  locals : F.locals = d.locals
  spells : List.Forall₂ (fun u op => u.Resolves ns op) d.uses (accesses F.instrs.toList)

namespace Compile

/-- What a build adds if it succeeds: code objects for some functions of a program. -/
def Produces {α : Type} (P : Semantics.Program) (ds : List Semantics.Function) (b : Build α)
    (Q : State → α → Prop) : Prop :=
  ∀ ⦃s a t⦄, b s = .ok (a, t) →
    s.Within t ∧ ∃ new, t.functions.toList = s.functions.toList ++ new ∧ ∀ K, t.Within K →
      Q K a ∧ (K.globals <+: P.slots → List.Forall₂ (fun d F =>
        (∀ name, .store name ∈ d.uses → (P.names d).Binds name) → F.Resolves d (P.names d)) ds new)

theorem Makes.produces {α : Type} {P : Semantics.Program} {b : Build α} {Q : State → α → Prop}
    (h : Makes b Q) : Produces P [] b Q := by
  intro s a t hs
  obtain ⟨ht, hst, hQ⟩ := h hs
  exact ⟨hst, [], by rw [ht, List.append_nil], fun K hK => ⟨hQ K hK, fun _ => .nil⟩⟩

namespace Produces

variable {α β : Type} {P : Semantics.Program} {ds ds' : List Semantics.Function}
  {Q : State → α → Prop}
  {R : State → β → Prop}

theorem ret {a : α} (h : ∀ K, Q K a) : Produces P [] (pure a) Q := (Makes.ret h).produces

theorem fail {e : SourceError} : Produces P ds (throw e) Q := fun _ _ _ hs => nomatch hs

theorem imp {Q' : State → α → Prop} {b : Build α} (hb : Produces P ds b Q)
    (h : ∀ K a, Q K a → Q' K a) : Produces P ds b Q' := fun _ _ _ hs =>
  let ⟨hst, new, hnew, hQ⟩ := hb hs
  ⟨hst, new, hnew, fun K hK => ⟨h K _ (hQ K hK).1, (hQ K hK).2⟩⟩

/-- One part that adds functions after the other. -/
theorem seq {b : Build α} {f : α → Build β} (hb : Produces P ds b Q)
    (hf : ∀ a, Produces P ds' (f a) fun K c => Q K a → R K c) :
    Produces P (ds ++ ds') (b >>= f) R := by
  intro s c u hs
  obtain ⟨a, t, hbs, hfs⟩ := exists_of_bind hs
  obtain ⟨hst, new, hnew, hQ⟩ := hb hbs
  obtain ⟨htu, more, hmore, hR⟩ := hf a hfs
  refine ⟨hst.trans htu, new ++ more, ?_, fun K hK => ?_⟩
  · rw [hmore, hnew, List.append_assoc]
  · obtain ⟨hQ, hds⟩ := hQ K (htu.trans hK)
    obtain ⟨hR, hds'⟩ := hR K hK
    exact ⟨hR hQ, fun hslots => List.rel_append (hds hslots) (hds' hslots)⟩

/-- A part in front that adds no functions. -/
theorem bind {b : Build α} {f : α → Build β} (hb : Makes b Q)
    (hf : ∀ a, Produces P ds (f a) fun K c => Q K a → R K c) : Produces P ds (b >>= f) R := by
  have hnone : Produces P [] b Q := hb.produces
  exact hnone.seq hf

/-- Behind the part that adds functions, none are added. -/
theorem last {b : Build α} {f : α → Build β} (hb : Produces P ds b Q)
    (hf : ∀ a, Makes (f a) fun K c => Q K a → R K c) : Produces P ds (b >>= f) R := by
  rw [← List.append_nil ds]
  exact hb.seq fun a => (hf a).produces

theorem «at» {span : Span} {b : Build α} (h : Produces P ds b Q) :
    Produces P ds (at_ span >>= fun _ => b) Q := by
  have hat : Makes (at_ span >>= fun _ => pure ()) fun _ _ => True :=
    .at (.ret fun _ => trivial)
  have hb := bind hat fun _ => h.imp fun _ _ hQ (_ : True) => hQ
  exact hb

end Produces

section
variable {P : Semantics.Program} {env : Env} {ds : List Semantics.Function}

theorem functionBody_produces {body : Build (List Draft)} {us : List NameUse}
    (h : Produces P ds body fun F code => Drafted env F us code) :
    Produces P ds (functionBody body) fun F code => Spells env F us code := by
  unfold functionBody
  refine h.last fun b => (constant_spells env _).bind fun i => (one_makes _).bind fun r =>
    .ret fun F hr hi hb => ?_
  have hreturn : Spells env F [] [i, r] := hi.behind rfl hr
  exact Spells.append_silent hb hreturn

/-- A function gets a code object of its own in front of those of the functions in it. -/
theorem addFunction_produces {d : Semantics.Function} {span : Span} {code : Build (List Instr)}
    (hmodule : env.moduleNames = P.module) (hlocals : env.locals = some d.locals)
    (hd : d.isModule = false)
    (h : Produces P ds code fun F code => Spells env F d.uses code) :
    Produces P (d :: ds) (addFunction d.name d.locals d.paramCount span code)
      fun _ _ => True := by
  intro s a t hs
  change (code ⟨s.functions.push default, s.globals, .empty, span⟩ >>= fun x => Except.ok
    (s.functions.size, { x.2 with
      functions := x.2.functions.setIfInBounds s.functions.size
        ⟨d.name, x.1.toArray, x.2.pool, d.locals, d.paramCount⟩
      pool := s.pool, span })) = _ at hs
  cases hcode : code ⟨s.functions.push default, s.globals, .empty, span⟩ with
  | error e => rw [hcode] at hs; cases hs
  | ok x =>
    obtain ⟨instrs, u⟩ := x
    rw [hcode] at hs
    cases hs
    obtain ⟨hwithin, new, hnew, hQ⟩ := h hcode
    refine ⟨⟨hwithin.globals, .refl _⟩,
      ⟨d.name, instrs.toArray, u.pool, d.locals, d.paramCount⟩ :: new, ?_, fun K hK => ?_⟩
    · rw [Array.toList_setIfInBounds, hnew, Array.toList_push, List.append_assoc,
        ← Array.length_toList, List.set_append_right _ _ (Nat.le_refl _), Nat.sub_self]
      rfl
    · -- the pool of the function ends where its code does
      obtain ⟨hspells, hinside⟩ := hQ { K with pool := u.pool } ⟨hK.globals, .refl _⟩
      refine ⟨trivial, fun hslots => .cons (fun hbinds => ⟨rfl, rfl, ?_⟩) (hinside hslots)⟩
      have hnames : (P.names d).Suits env { K with pool := u.pool } := by
        refine ⟨?_, hmodule.symm, hslots⟩
        rw [hlocals, Semantics.Program.names, hd]
        rfl
      exact hspells _ hnames hbinds

/-- The layout of a `try` uses what its parts use, in their order. -/
theorem layTry_produces {body handlers orElse : Env → Nat → Build (List Draft)}
    {ds' ds'' : List Semantics.Function} {us vs ws : List NameUse}
    (henv : env.moduleNames = P.module)
    (pc : Nat)
    (hbody : ∀ env pc, env.moduleNames = P.module →
      Produces P ds (body env pc) fun F code => Drafted env F us code)
    (horElse : ∀ env pc, env.moduleNames = P.module →
      Produces P ds' (orElse env pc) fun F code => Drafted env F vs code)
    (hhandlers : ∀ env pc, env.moduleNames = P.module →
      Produces P ds'' (handlers env pc) fun F code => Drafted env F ws code) :
    Produces P (ds ++ (ds' ++ ds'')) (layTry env pc body handlers orElse) fun F code =>
      Drafted env F (us ++ vs ++ ws) code := by
  unfold layTry
  refine .bind get_makes fun s => (hbody { env with blocks := .tryBody :: env.blocks } _ henv).seq
    fun b => .bind (one_makes _) fun popBlock => (horElse env _ henv).seq fun o =>
    .bind get_makes fun s' => (hhandlers env _ henv).last fun h =>
    (one_makes _).bind fun again => .ret fun F hagain hh _ ho hpop hb _ => ?_
  have hsetup : ∀ stop, Drafted env F [] (drafts [⟨.setupExcept stop, s.span⟩]) :=
    fun _ => (Spells.one rfl).drafted
  have hjump : ∀ stop, Spells env F [] [⟨.jump stop, s'.span⟩] := fun _ => .one rfl
  have hpop : Spells env F [] [popBlock] := Spells.nil.behind rfl hpop
  have hagain : Spells env F [] [again] := Spells.nil.behind rfl hagain
  have hguarded := fun stop => ((hsetup stop).append hb.surrounded).append_silent hpop
  exact ((((hguarded _).append ho).append_silent (hjump _)).append hh).append_silent hagain

/-- A `finally` clause is laid out twice. -/
theorem layFinally_produces {guarded final : Env → Nat → Build (List Draft)}
    {ds' ds'' : List Semantics.Function} {us vs : List NameUse} (henv : env.moduleNames = P.module)
    (pc : Nat)
    (hguarded : ∀ env pc, env.moduleNames = P.module →
      Produces P ds (guarded env pc) fun F code => Drafted env F us code)
    (hfinal : ∀ env pc, env.moduleNames = P.module →
      Produces P ds' (final env pc) fun F code => Drafted env F vs code)
    (hagain : ∀ env pc, env.moduleNames = P.module →
      Produces P ds'' (final env pc) fun F code => Drafted env F vs code) :
    Produces P (ds ++ (ds' ++ ds'')) (layFinally env pc guarded final) fun F code =>
      Drafted env F (us ++ vs ++ vs) code := by
  unfold layFinally
  refine .bind get_makes fun s =>
    (hguarded { env with blocks := .guarded :: env.blocks } _ henv).seq fun b =>
    .bind (one_makes _) fun popBlock => (hfinal env _ henv).seq fun f => .bind get_makes fun s' =>
    .bind (one_makes _) fun drop =>
    (hagain { env with blocks := .handling :: env.blocks } _ henv).last fun r =>
    (one_makes _).bind fun again => .ret fun F hagain hr hdrop _ hf hpop hb _ => ?_
  have hsetup : ∀ stop, Drafted env F [] (drafts [⟨.setupExcept stop, s.span⟩]) :=
    fun _ => (Spells.one rfl).drafted
  have hjump : ∀ stop, Spells env F [] [⟨.jump stop, s'.span⟩, drop] := fun stop =>
    Spells.behind (.one (i := ⟨.jump stop, s'.span⟩) rfl) rfl hdrop
  have hpop : Spells env F [] [popBlock] := Spells.nil.behind rfl hpop
  have hagain : Spells env F [] [again] := Spells.nil.behind rfl hagain
  have hguarded := fun stop => ((hsetup stop).append hb.surrounded).append_silent hpop
  exact ((((hguarded _).append hf).append_silent (hjump _)).append hr.surrounded).append_silent
    hagain

end

/-! ## Statements -/

/-- The code of statements uses what they use, and their functions are added. -/
def StmtsProduce (P : Semantics.Program) (k : Nat) (ss : List Stmt) : Prop :=
  ∀ env pc, env.moduleNames = P.module → Produces P (functionsIn k ss) (stmts env pc ss)
    fun F code => Drafted env F (Stmt.allUses ss) code

section
variable {P : Semantics.Program} {k : Nat} {env : Env} (henv : env.moduleNames = P.module)
  (pc : Nat)

theorem augAssign_spells (target : Target) (op : Operator) (value : Expr) (span : Span) :
    Makes (stmt env pc (.augAssign target op value span)) fun F code =>
      Drafted env F (target.augmentedUses (value.loads.map .load)) code := by
  cases target with
  | name id =>
    rw [stmt]
    refine .at <| (load_spells env id).bind fun read => (expr_reads env _ value).bind fun code =>
      .at <| (one_makes _).bind fun i => (store_spells env id).bind fun w =>
      .ret fun F hw hi hc hread => Spells.drafted ?_
    exact (Spells.append hread hc).append ((Spells.nil.behind rfl hi).silent_append hw)
  | subscript object index =>
    rw [stmt]
    refine (expr_reads env pc object).bind fun o => (expr_reads env _ index).bind fun x => .at <|
      (one_makes _).bind fun copy => (one_makes _).bind fun read =>
      (expr_reads env _ value).bind fun code => .at <| (one_makes _).bind fun i =>
      (one_makes _).bind fun rot => (one_makes _).bind fun w =>
      .ret fun F hw hrot hi hc hread hcopy hx ho => Spells.drafted ?_
    have hfetch : Spells env F [] [copy, read] := (Spells.nil.behind rfl hcopy).behind rfl hread
    have hstore : Spells env F [] [i, rot, w] :=
      ((Spells.nil.behind rfl hi).behind rfl hrot).behind rfl hw
    have hitem : Spells env F ((object.loads ++ index.loads).map .load) (o ++ x) := ho.append hx
    exact ((hitem.append_silent hfetch).append hc).append_silent hstore
  | tuple ts =>
    rw [stmt]
    exact .fail

theorem return_spells (value : Option Expr) (span : Span) :
    Makes (stmt env pc (.return value span)) fun F code =>
      Drafted env F ((Expr.maybeLoads value).map .load) code := by
  rw [stmt]
  split
  · exact .fail_bind
  · dsimp only
    split
    · exact .fail_bind
    · cases value with
      | none =>
        refine (constant_spells env _).bind fun i => .bind (.ret (Q := fun _ code => code = [i])
          fun _ => rfl) fun code => .at <| (one_makes _).bind fun r => .ret fun F hr hcode hi => ?_
        subst hcode
        exact (hi.behind rfl hr).drafted
      | some e =>
        exact (expr_reads env pc e).bind fun code => .at <| (one_makes _).bind fun r =>
          .ret fun F hr hc => Spells.drafted (Reads.behind hc rfl hr)

theorem break_spells (span : Span) :
    Makes (stmt env pc (.break span)) fun F code => Drafted env F [] code := by
  rw [stmt]
  refine .at ?_
  cases env.loop with
  | none => exact .fail
  | some loop =>
    refine (leave_silent env _ span _).bind fun out => ?_
    dsimp only
    split
    · refine (one_makes _).bind fun i => .bind (.ret (Q := fun _ code => code = [i])
        fun _ => rfl) fun code => .ret fun F hcode hi hout => ?_
      subst hcode
      exact (hout.append_silent (Spells.nil.behind rfl hi)).drafted.append .nil
    · refine .bind (.ret (Q := fun _ code => code = []) fun _ => rfl) fun code =>
        .ret fun F hcode hout => ?_
      subst hcode
      exact (hout.append_silent .nil).drafted.append .nil

theorem continue_spells (span : Span) :
    Makes (stmt env pc (.continue span)) fun F code => Drafted env F [] code := by
  rw [stmt]
  refine .at ?_
  cases env.loop with
  | none => exact .fail
  | some loop =>
    exact (leave_silent env _ span _).bind fun out => (one_makes _).bind fun i =>
      .ret fun F hi hout => (hout.behind rfl hi).drafted

theorem assert_spells (test : Expr) (message : Option Expr) (span : Span) :
    Makes (stmt env pc (.assert test message span)) fun F code =>
      Drafted env F (test.loads.map .load ++ .assertion :: (Expr.maybeLoads message).map .load)
        code := by
  have hparts : ∀ {F : State} {t m : List Instr} {cls call raise : Instr} {k stop : Nat}
      {span : Span}, Reads env F test.loads t →
      (∃ span, cls = ⟨.loadExcClass .assertionError, span⟩) →
      Reads env F (Expr.maybeLoads message) m → (∃ span, call = ⟨.call k none, span⟩) →
      (∃ span, raise = ⟨.raise, span⟩) → Drafted env F
        (test.loads.map .load ++ .assertion :: (Expr.maybeLoads message).map .load)
        (drafts (t ++ [⟨.jumpIfTrue stop, span⟩, cls] ++ m ++ [call, raise])) := by
    intro F t m cls call raise k stop span ht hcls hm hcall hraise
    obtain ⟨span', rfl⟩ := hcls
    have hskip : Spells env F [] [⟨.jumpIfTrue stop, span⟩] := .one rfl
    have hclass : Spells env F [.assertion] [⟨.loadExcClass .assertionError, span'⟩] :=
      .use fun ns _ _ => rfl
    have hend : Spells env F [] [call, raise] := (Spells.nil.behind rfl hcall).behind rfl hraise
    rw [List.append_cons]
    exact (((Spells.append ht (hskip.silent_append hclass)).append hm).append_silent hend).drafted
  rw [stmt]
  refine (expr_reads env pc test).bind fun t => get_makes.bind fun s => .at <|
    (one_makes _).bind fun cls => ?_
  cases message with
  | none =>
    refine .bind (.ret (Q := fun _ code => code = []) fun _ => rfl) fun m => .at <|
      (one_makes _).bind fun call => (one_makes _).bind fun raise =>
      .ret fun F hraise hcall hm hcls _ ht => ?_
    subst hm
    exact hparts ht hcls .nil hcall hraise
  | some e =>
    exact (expr_reads env _ e).bind fun m => .at <| (one_makes _).bind fun call =>
      (one_makes _).bind fun raise => .ret fun F hraise hcall hm hcls _ ht =>
      hparts ht hcls hm hcall hraise

theorem raise_spells (value : Option Expr) (span : Span) :
    Makes (stmt env pc (.raise value span)) fun F code =>
      Drafted env F ((Expr.maybeLoads value).map .load) code := by
  cases value with
  | none =>
    rw [stmt]
    exact .at <| (one_makes _).bind fun i => .ret fun F hi =>
      (Spells.nil.behind rfl hi).drafted
  | some e =>
    rw [stmt]
    exact (expr_reads env pc e).bind fun code => .at <| (one_makes _).bind fun i =>
      .ret fun F hi hc => Spells.drafted (Reads.behind hc rfl hi)

end

/-- The instruction that binds the exception of a clause, or drops it. -/
theorem binding_produces {α : Type} {P : Semantics.Program} {ds : List Semantics.Function}
    {env : Env}
    {name : Option String} {f : Instr → Build α} {Q : State → α → Prop}
    (hf : ∀ i, Produces P ds (f i) fun F c =>
      Spells env F (name.toList.map .store) [i] → Q F c) :
    Produces P ds (match name with
      | some id => do
        let bind ← store env id
        f bind
      | none => do
        let bind ← one .pop
        f bind) Q := by
  cases name with
  | none =>
    exact .bind (one_makes _) fun i => (hf i).imp fun F c h hi => h (Spells.nil.behind rfl hi)
  | some id => exact .bind (store_spells env id) hf

/-- What a `try` uses before its `finally` clause. -/
theorem guarded_produces {P : Semantics.Program} {k : Nat} {body orElse : List Stmt}
    {hs : List Handler}
    (hbody : StmtsProduce P k body)
    (horElse : StmtsProduce P (k + (functionsIn k body).length) orElse)
    (hhandlers : ∀ env pc, env.moduleNames = P.module →
      Produces P (functionsInHandlers (k + (functionsIn k body).length +
          (functionsIn (k + (functionsIn k body).length) orElse).length) hs) (handlers env pc hs)
        fun F code => Drafted env F (Handler.allUses hs) code)
    (env : Env) (pc : Nat) (henv : env.moduleNames = P.module) :
    Produces P (functionsIn k body ++ (functionsIn (k + (functionsIn k body).length) orElse ++
        functionsInHandlers (k + (functionsIn k body).length +
          (functionsIn (k + (functionsIn k body).length) orElse).length) hs))
      (if hs.isEmpty then do
        let b ← stmts env pc body
        return b ++ (← stmts env (pc + b.length) orElse)
      else
        layTry env pc (fun env pc => stmts env pc body) (fun env pc => handlers env pc hs)
          (fun env pc => stmts env pc orElse)) fun F code =>
      Drafted env F (Stmt.allUses body ++ Stmt.allUses orElse ++ Handler.allUses hs) code := by
  split
  · next hempty =>
    obtain rfl := List.isEmpty_iff.mp hempty
    rw [functionsInHandlers, List.append_nil, Handler.allUses, List.append_nil]
    exact (hbody env pc henv).seq fun b => (horElse env _ henv).last fun o =>
      .ret fun F ho hb => hb.append ho
  · exact layTry_produces henv pc hbody horElse hhandlers

mutual

theorem stmt_produces (P : Semantics.Program) (k : Nat) (env : Env) (pc : Nat) (s : Stmt)
    (henv : env.moduleNames = P.module) :
    Produces P (functionsBy k s) (stmt env pc s) fun F code => Drafted env F s.uses code := by
  match s with
  | .expr value =>
    rw [stmt]
    refine Makes.produces <| (expr_reads env pc value).bind fun code => (one_makes _).bind fun i =>
      .ret fun F hi hc => ?_
    exact Spells.drafted (Reads.behind hc rfl hi)
  | .assign first rest value =>
    rw [stmt]
    refine Makes.produces <| (expr_reads env pc value).bind fun code =>
      (assignAll_spells env _ _ first rest).bind fun more => .ret fun F hm hc => ?_
    rw [Stmt.uses, List.append_assoc]
    exact (Spells.append hc hm).drafted
  | .augAssign target op value span => exact (augAssign_spells pc target op value span).produces
  | .ifElse test body orElse =>
    rw [stmt, functionsBy]
    refine .bind (expr_reads env pc test) fun t => .bind get_makes fun s =>
      (stmts_produce P k body env _ henv).seq fun b => ?_
    split
    · next hempty =>
      obtain rfl := List.isEmpty_iff.mp hempty
      refine .ret fun F hb _ ht => ?_
      have hnone : Stmt.allUses [] = [] := rfl
      rw [Stmt.uses, hnone, List.append_nil]
      exact (Reads.append_silent ht (.one rfl)).drafted.append hb
    · refine .bind get_makes fun s' => (stmts_produce P _ orElse env _ henv).last fun o =>
        .ret fun F ho _ hb _ ht => ?_
      have htest := fun i h => (Reads.append_silent ht (.one (i := i) h)).drafted
      exact (((htest _ rfl).append hb).append_silent (.one rfl)).append ho
  | .while test body orElse =>
    rw [stmt, functionsBy]
    refine .bind (expr_reads env pc test) fun t => .bind get_makes fun s =>
      (stmts_produce P k body { env with loop := some ⟨pc, env.blocks.length, false⟩ } _ henv).seq
      fun b => .bind (one_makes _) fun back => (stmts_produce P _ orElse env _ henv).last fun o =>
      .ret fun F ho hback hb _ ht => ?_
    have htest := fun i h => (Reads.append_silent ht (.one (i := i) h)).drafted
    have hback : Spells env F [] [back] := Spells.nil.behind rfl hback
    exact (((htest _ rfl).append (hb.surrounded.fill _)).append_silent hback).append ho
  | .for t iter body orElse span =>
    rw [stmt, functionsBy]
    refine .bind (expr_reads env pc iter) fun i => .at <| .bind (one_makes _) fun getIter =>
      .bind (target_spells env _ span t) fun bind => (stmts_produce P k body
        { env with loop := some ⟨pc + i.length + 1, env.blocks.length, true⟩ } _ henv).seq
      fun b => .bind (one_makes _) fun back => (stmts_produce P _ orElse env _ henv).last fun o =>
      .ret fun F ho hback hb ht hget hi => ?_
    have hhead : ∀ exit, Spells env F [] [getIter, ⟨.forIter exit, span⟩] := fun exit =>
      (Spells.nil.behind rfl hget).append_silent (.one rfl)
    have hback : Spells env F [] [back] := Spells.nil.behind rfl hback
    have hturn := fun exit => (Spells.append (Reads.append_silent hi (hhead exit)) ht).drafted
    exact (((hturn _).append (hb.surrounded.fill _)).append_silent hback).append ho
  | .break span => exact (break_spells pc span).produces
  | .continue span => exact (continue_spells pc span).produces
  | .pass | .global names =>
    rw [stmt]
    exact .ret fun F => .nil
  | .functionDef name params body span =>
    rw [stmt, functionsBy]
    let locals := Resumable.Scope.locals (params.map (·.name)) body
    let inner : Env := { env with locals := some locals, loop := none, blocks := [] }
    have hinner : inner.moduleNames = P.module := henv
    refine .at <| .bind (defaults_read env pc params) fun x => .last (addFunction_produces
      (d := ⟨name, locals, params.length, body, false, k + 1⟩) hinner rfl rfl
      (functionBody_produces (stmts_produce P (k + 1) body inner 0 hinner))) fun index =>
      (one_makes _).bind fun i => (store_spells env name).bind fun w =>
      .ret fun F hw hi _ hx => ?_
    have hmake : Spells env F [.store name] [i, w] := (Spells.nil.behind rfl hi).silent_append hw
    exact (Spells.append hx hmake).drafted
  | .return value span => exact (return_spells pc value span).produces
  | .try body hs orElse final =>
    have hguarded := guarded_produces (stmts_produce P k body) (stmts_produce P _ orElse)
      (handlers_produce P _ · · hs)
    rw [stmt, functionsBy, Stmt.uses]
    split
    · next hempty =>
      obtain rfl := List.isEmpty_iff.mp hempty
      have hnone : Stmt.allUses [] = [] := rfl
      simp only [functionsIn, List.append_nil, List.append_assoc, hnone]
      have h := hguarded env pc henv
      rw [List.append_assoc] at h
      exact h
    · have h := fun m n => layFinally_produces henv pc hguarded (stmts_produce P m final)
        (stmts_produce P n final)
      simp only [List.append_assoc] at h ⊢
      exact h _ _
  | .raise value span => exact (raise_spells pc value span).produces
  | .assert test message span => exact (assert_spells pc test message span).produces
  | .import m binding =>
    rw [stmt]
    refine Makes.produces <| (one_makes _).bind fun i => (store_spells env binding).bind fun w =>
      .ret fun F hw hi => ?_
    have hboth : Spells env F [.store binding] [i, w] :=
      (Spells.nil.behind rfl hi).silent_append hw
    exact hboth.drafted
  | .importFrom m names span =>
    rw [stmt]
    exact Makes.produces <| .at <| (importNames_spell env m names).bind fun code =>
      .ret fun F hc => hc.drafted

theorem stmts_produce (P : Semantics.Program) (k : Nat) (ss : List Stmt) : StmtsProduce P k ss := by
  intro env pc henv
  match ss with
  | [] =>
    rw [stmts, functionsIn]
    exact .ret fun F => .nil
  | s :: rest =>
    rw [stmts, functionsIn]
    exact (stmt_produces P k env pc s henv).seq fun code => (stmts_produce P _ rest env _ henv).last
      fun more => .ret fun F hm hc => hc.append hm

theorem handlers_produce (P : Semantics.Program) (k : Nat) (env : Env) (pc : Nat)
    (hs : List Handler) (henv : env.moduleNames = P.module) :
    Produces P (functionsInHandlers k hs) (handlers env pc hs) fun F code =>
      Drafted env F (Handler.allUses hs) code := by
  match hs with
  | [] =>
    rw [handlers, functionsInHandlers]
    exact .ret fun F => .nil
  | .mk none name body :: rest =>
    rw [handlers, functionsInHandlers]
    refine .bind (.ret (Q := fun _ code => code = []) fun _ => rfl) fun test => .bind get_makes
      fun s => binding_produces fun bind => (stmts_produce P k body
        { env with blocks := .handling :: env.blocks } _ henv).seq fun b => .bind (one_makes _)
      fun pop => .bind get_makes fun s' => (handlers_produce P _ env _ rest henv).last fun more =>
      .ret fun F hm _ hpop hb hbind _ htest => ?_
    subst htest
    have hend : ∀ stop, Spells env F [] [pop, ⟨.jump stop, s'.span⟩] := fun stop =>
      (Spells.nil.behind rfl hpop).append_silent (.one rfl)
    exact ((hbind.drafted.append hb.surrounded).append_silent (hend _)).append hm
  | .mk (some t) name body :: rest =>
    rw [handlers, functionsInHandlers]
    simp only [pure_bind]
    refine .bind (one_makes _) fun copy => .bind (expr_reads env _ t) fun code => .at <|
      .bind (one_makes _) fun check =>
      .bind get_makes fun s => binding_produces fun bind => (stmts_produce P k body
        { env with blocks := .handling :: env.blocks } _ henv).seq fun b => .bind (one_makes _)
      fun pop => .bind get_makes fun s' => (handlers_produce P _ env _ rest henv).last fun more =>
      .ret fun F hm _ hpop hb hbind _ hcheck hc hcopy => ?_
    have htest := (Spells.silent_append (Spells.nil.behind rfl hcopy) hc).behind rfl hcheck
    have hend : ∀ stop, Spells env F [] [pop, ⟨.jump stop, s'.span⟩] := fun stop =>
      (Spells.nil.behind rfl hpop).append_silent (.one rfl)
    have hstart : ∀ next, Spells env F (t.loads.map .load ++ name.toList.map .store)
        (copy :: code ++ [check] ++ [⟨.jumpIfFalse next, s.span⟩] ++ [bind]) := fun next =>
      (htest.append_silent (.one rfl)).append hbind
    exact (((hstart _).drafted.append hb.surrounded).append_silent (hend _)).append hm

end

/-! ## Programs -/

theorem moduleBody_produces {P : Semantics.Program} {env : Env} (k pc : Nat) (program : List Stmt)
    (henv : env.moduleNames = P.module) :
    Produces P (functionsIn k program) (moduleBody env pc program) fun F code =>
      Drafted env F (Stmt.allUses program) code := by
  induction program generalizing k pc with
  | nil =>
    rw [moduleBody]
    exact Makes.produces <| (constant_spells env _).bind fun i => .ret fun F hi => hi.drafted
  | cons s rest ih =>
    by_cases hlast : ∃ value, s = .expr value ∧ rest = []
    · obtain ⟨value, rfl, rfl⟩ := hlast
      rw [moduleBody]
      refine Makes.produces <| (expr_reads env pc value).bind fun code => .ret fun F hc => ?_
      rw [Stmt.allUses, Stmt.allUses, Stmt.uses, List.append_nil]
      exact Spells.drafted hc
    · rw [moduleBody, functionsIn]
      · exact (stmt_produces P k env pc s henv).seq fun code => (ih _ _).last fun more =>
          .ret fun F hm hc => hc.append hm
      · exact fun value hs hrest => hlast ⟨value, hs, hrest⟩

theorem main_produces {P : Semantics.Program} {env : Env} (program : List Stmt)
    (henv : env.moduleNames = P.module) :
    Produces P (functionsIn 1 program) (do
        let body ← moduleBody env 0 program
        return body ++ drafts [← one .return]) fun F code =>
      Drafted env F (Stmt.allUses program) code :=
  (moduleBody_produces 1 0 program henv).last fun _ => (one_makes _).bind fun _ =>
    .ret fun _ hr hb => hb.append_silent (Spells.nil.behind rfl hr)

end Compile

/-- A global name has the slot of its name, whatever is local. -/
theorem slot_of_place_eq_global {ns : Names} {name : String} {slot : Nat}
    (h : ns.place name = .global slot) : slot = ns.slot name := by
  unfold Names.place at h
  split at h
  · cases h
  · split at h
    · cases h
      rfl
    · split at h
      · cases h
      · cases h
      · cases h
        rfl

/-- The scan of a program for names and its compilation agree. Whatever a function of the program
assigns to, or its module body, is a local of it or a name of the module. In the code object of each
function, the accesses are for the uses of names in the function, one by one: all uses of a name in
one function access the one place that the name has there, whose slot belongs to the name, and no
assignment is to a builtin. A name that is global in two functions has the same slot in both. -/
theorem names_resolve (preset : List String) (program : List Stmt) :
    (∀ slots, let P := Semantics.Program.ofStmts preset slots program
      ∀ d ∈ P.functions, ∀ name, .store name ∈ d.uses → (P.names d).Binds name) ∧
    ∀ code, compile preset program = .ok code →
      let P := Semantics.Program.ofStmts preset code.globals program
      List.Forall₂ (fun d F => F.Resolves d (P.names d)) P.functions code.functions.toList ∧
        ∀ d ∈ P.functions, ∀ d' ∈ P.functions, ∀ name slot slot',
          (P.names d).place name = .global slot → (P.names d').place name = .global slot' →
            slot = slot' := by
  have hbinds : ∀ slots, let P := Semantics.Program.ofStmts preset slots program
      ∀ d ∈ P.functions, ∀ name, .store name ∈ d.uses → (P.names d).Binds name :=
    fun slots d hd name h => binds_of_store preset slots program hd h
  refine ⟨hbinds, fun code h => ⟨?_, ?_⟩⟩
  · unfold compile at h
    simp only at h
    generalize hb : StateT.run _ _ = x at h
    cases x with
    | error e => cases h
    | ok x =>
      obtain ⟨body, s⟩ := x
      cases h
      let P := Semantics.Program.ofStmts preset s.globals program
      obtain ⟨-, new, hnew, hQ⟩ := Compile.main_produces (P := P) program rfl hb
      obtain ⟨hmain, hfunctions⟩ := hQ s (.refl s)
      have hall : List.Forall₂ (fun d F =>
          (∀ name, .store name ∈ d.uses → (P.names d).Binds name) → F.Resolves d (P.names d))
          P.functions (s.functions.setIfInBounds 0 ⟨"<module>",
            (body.filterMap Compile.Draft.instr?).toArray, s.pool, [], 0⟩).toList := by
        rw [Array.toList_setIfInBounds, hnew]
        refine .cons (fun hmodule => ⟨rfl, rfl, ?_⟩) (hfunctions (List.prefix_refl _))
        exact hmain _ ⟨rfl, rfl, List.prefix_refl _⟩ hmodule
      have hboth := (List.forall₂_and_left _ _).mpr ⟨hbinds s.globals, hall⟩
      exact hboth.imp fun d F h => h.2 h.1
  · intro d hd d' hd' name slot slot' h h'
    rw [slot_of_place_eq_global h, slot_of_place_eq_global h']
    rfl

/-- A function that declares a builtin's name global, and assigns to it in a `finally` clause. -/
theorem names_resolve_declared :
    let name : Expr := .mk .unknown (.name "len")
    let inner : Stmt := .try [.expr name] [] [] [.assign (.name "len") [] name]
    let program : List Stmt := [.functionDef "f" [] [.global ["len"], inner] .unknown, .expr name]
    ∃ code, compile [] program = .ok code ∧ code.globals = ["len", "f"] ∧
      let P := Semantics.Program.ofStmts [] code.globals program
      (∀ d ∈ P.functions, ∀ name, .store name ∈ d.uses → (P.names d).Binds name) ∧
      List.Forall₂ (fun d F => F.Resolves d (P.names d)) P.functions code.functions.toList ∧
        ∀ d ∈ P.functions, ∀ d' ∈ P.functions, ∀ name slot slot',
          (P.names d).place name = .global slot → (P.names d').place name = .global slot' →
            slot = slot' := by
  intro name inner program
  obtain ⟨code, hcode, hglobals⟩ : ∃ code, compile [] program = .ok code ∧
      code.globals = ["len", "f"] := ⟨_, rfl, rfl⟩
  obtain ⟨hbinds, hresolve⟩ := names_resolve [] program
  exact ⟨code, hcode, hglobals, hbinds code.globals, hresolve code hcode⟩

end Resumable
