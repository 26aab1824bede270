import Mathlib.Data.List.Forall2
import Resumable.Proofs.Naming.Use
import Resumable.Proofs.Simulation.Expression

/-!
# Uses of names in the code of expressions

The instructions of a code object that read or bind names are those of the uses of names, one after
the other. `Spells env F uses code` says so of a piece of code: in every later state of the compiler
each of its accesses is for the next use. It holds of the code of each expression and each target.
-/

namespace Resumable

open Semantics (Names)

/-- Whether an instruction reads or binds a name. -/
def Op.isAccess : Op → Bool
  | .loadLocal _ | .storeLocal _ | .loadGlobal _ | .storeGlobal _ | .loadBuiltin _
  | .loadExcClass _ => true
  | _ => false

/-- The instructions that read or bind names. -/
def accesses (code : List Instr) : List Op := (code.map (·.op)).filter (·.isAccess)

theorem accesses_append (l r : List Instr) : accesses (l ++ r) = accesses l ++ accesses r := by
  rw [accesses, List.map_append, List.filter_append]
  rfl

theorem Compile.Place.load_isAccess (p : Place) : p.load.isAccess = true := by
  cases p <;> rfl

theorem Compile.Place.store?_isAccess {p : Place} {op : Op} (h : p.store? = some op) :
    op.isAccess = true := by
  cases p <;> cases h <;> rfl

/-- The instruction of a use is an access. -/
theorem NameUse.Resolves.isAccess {ns : Names} {u : NameUse} {op : Op} (h : u.Resolves ns op) :
    op.isAccess = true := by
  cases u with
  | load name => exact h.2 ▸ Compile.Place.load_isAccess _
  | store name => exact Compile.Place.store?_isAccess h.2
  | assertion => exact h ▸ rfl

namespace Compile

/-- The accesses of code are for some uses, one by one, wherever names have the places that the
compiler gives them. -/
def Spells (env : Env) (F : State) (uses : List NameUse) (code : List Instr) : Prop :=
  ∀ ns : Names, ns.Suits env F → (∀ name, .store name ∈ uses → ns.Binds name) →
    List.Forall₂ (fun u op => u.Resolves ns op) uses (accesses code)

section
variable {env : Env} {F : State} {us vs : List NameUse} {l r : List Instr} {i : Instr}

theorem Spells.append (hl : Spells env F us l) (hr : Spells env F vs r) :
    Spells env F (us ++ vs) (l ++ r) := by
  intro ns hns hbinds
  rw [accesses_append]
  refine List.rel_append (hl ns hns fun name h => hbinds name ?_)
    (hr ns hns fun name h => hbinds name ?_)
  · exact List.mem_append_left vs h
  · exact List.mem_append_right us h

/-- Code without accesses is for no uses. -/
theorem Spells.silent (h : ∀ i ∈ l, i.op.isAccess = false) : Spells env F [] l := by
  intro ns hns hbinds
  have hnone : accesses l = [] := by
    simpa [accesses] using h
  rw [hnone]
  exact .nil

theorem Spells.one (h : i.op.isAccess = false) : Spells env F [] [i] := by
  refine .silent fun j hj => ?_
  obtain rfl := List.mem_singleton.mp hj
  exact h

theorem Spells.append_silent (hl : Spells env F us l) (hr : Spells env F [] r) :
    Spells env F us (l ++ r) := by
  have h := hl.append hr
  rwa [List.append_nil] at h

theorem Spells.silent_append (hl : Spells env F [] l) (hr : Spells env F us r) :
    Spells env F us (l ++ r) := hl.append hr

/-- An instruction behind code that is none of the accesses. -/
theorem Spells.behind (hl : Spells env F us l) {op : Op} (h : op.isAccess = false)
    (hi : ∃ span, i = ⟨op, span⟩) : Spells env F us (l ++ [i]) := by
  obtain ⟨span, rfl⟩ := hi
  exact hl.append_silent (.one h)

theorem Spells.nil : Spells env F [] [] := .silent nofun

/-- The instruction of a single use. -/
theorem Spells.use {u : NameUse} (h : ∀ ns : Names, ns.Suits env F →
    (∀ name, u = .store name → ns.Binds name) → u.Resolves ns i.op) : Spells env F [u] [i] := by
  intro ns hns hbinds
  have hu := h ns hns fun name hname => hbinds name (hname ▸ List.mem_singleton_self u)
  have hone : accesses [i] = [i.op] := by
    simp [accesses, hu.isAccess]
  rw [hone]
  exact .cons hu .nil

end

/-! ## Places of names -/

theorem load_spells (env : Env) (name : String) :
    Makes (load env name) fun F i => Spells env F [.load name] [i] := by
  rw [load_eq]
  refine (place_makes env name).bind fun p => (one_makes _).imp fun F i hi hp => ?_
  obtain ⟨span, rfl⟩ := hi
  refine .use fun ns hns _ => ?_
  obtain ⟨rfl, hname⟩ := hp ns hns
  exact ⟨hname, rfl⟩

/-- The name that a program binds has a slot. -/
theorem not_builtin_of_binds {ns : Names} {name : String} (h : ns.Binds name) :
    (∃ slot, ns.place name = .local slot) ∨ ∃ slot, ns.place name = .global slot := by
  unfold Names.place
  split
  · next slot _ => exact .inl ⟨slot, rfl⟩
  · next hnone =>
    rcases h with ⟨names, hlocals, hmem⟩ | hmodule
    · rw [hlocals] at hnone
      have hmiss := List.findIdx?_eq_none_iff.mp hnone name hmem
      simp at hmiss
    · rw [if_pos (List.contains_iff_mem.mpr hmodule)]
      exact .inr ⟨_, rfl⟩

/-- The instruction that binds a name that the program binds; it is never one of the others. -/
theorem store?_of_binds {ns : Names} {name : String} (h : ns.Binds name) :
    (ns.place name).store? = some (storeOp ns name) := by
  unfold storeOp
  rcases not_builtin_of_binds h with ⟨slot, hp⟩ | ⟨slot, hp⟩ <;> rw [hp] <;> rfl

theorem store_spells (env : Env) (name : String) :
    Makes (store env name) fun F i => Spells env F [.store name] [i] := by
  have hplace : ∀ {F : State} {i : Instr} {p : Place},
      (∀ ns : Names, ns.Suits env F → ns.place name = p ∧ p.Names ns name) →
      (∀ op, p.store? = some op → ∃ span, i = ⟨op, span⟩) →
      Spells env F [.store name] [i] := by
    intro F i p hp hi
    refine .use fun ns hns hbinds => ?_
    obtain ⟨rfl, hname⟩ := hp ns hns
    have hop := store?_of_binds (hbinds name rfl)
    obtain ⟨span, rfl⟩ := hi _ hop
    exact ⟨hname, hop⟩
  unfold store
  refine (place_makes env name).bind fun p => ?_
  cases p with
  | «local» slot => exact (one_makes _).imp fun F i hi hp => hplace hp fun | _, rfl => hi
  | global slot => exact (one_makes _).imp fun F i hi hp => hplace hp fun | _, rfl => hi
  | builtin b =>
    exact (globalSlot_makes env name).bind fun slot =>
      (one_makes _).imp fun F i _ _ hp => hplace hp nofun
  | excClass t =>
    exact (globalSlot_makes env name).bind fun slot =>
      (one_makes _).imp fun F i _ _ hp => hplace hp nofun

/-! ## Expressions -/

section
variable {α : Type} {Q : State → α → Prop}

/-- Pending arguments are put into a tuple, if there are any or no tuple; no name is used. -/
theorem gather_spells (env : Env) {count : Nat} {started : Bool} {f : List Instr → Build α}
    (hf : ∀ g, Makes (f g) fun F c => Spells env F [] g → Q F c) :
    Makes (if (decide (count > 0) || !started) = true then do
        let build ← one (.buildTuple count)
        if started = true then do
          let add ← one (.binary .add)
          let g ← pure [build, add]
          f g
        else do
          let g ← pure [build]
          f g
      else do
        let g ← pure []
        f g) Q := by
  split
  · refine (one_makes _).bind fun build => ?_
    split
    · refine (one_makes _).bind fun add => (hf [build, add]).imp fun F c h hadd hbuild => h ?_
      exact (Spells.nil.behind rfl hbuild).behind rfl hadd
    · refine (hf [build]).imp fun F c h hbuild => h ?_
      exact Spells.nil.behind rfl hbuild
  · exact (hf []).imp fun F c h => h .nil

/-- The positional arguments of a call, packed or not. -/
theorem arguments_spell {env : Env} {us : List NameUse} {packed : Bool} {a b : Build (List Instr)}
    {f : List Instr → Build α} (ha : Makes a fun F code => Spells env F us code)
    (hb : Makes b fun F code => Spells env F us code)
    (hf : ∀ code, Makes (f code) fun F c => Spells env F us code → Q F c) :
    Makes (if packed = true then a >>= f else b >>= f) Q := by
  split
  · exact ha.bind hf
  · exact hb.bind hf

end

theorem constant_spells (env : Env) (v : Literal) :
    Makes (constant v) fun F i => Spells env F [] [i] := by
  refine (constant_makes v).imp fun F i hi => ?_
  obtain ⟨j, span, rfl, -⟩ := hi
  exact .one rfl

/-- Code that reads names, one after the other. -/
def Reads (env : Env) (F : State) (names : List String) (code : List Instr) : Prop :=
  Spells env F (names.map .load) code

section
variable {env : Env} {F : State} {l r : List Instr} {xs ys : List String}

theorem Reads.append (hl : Reads env F xs l) (hr : Reads env F ys r) :
    Reads env F (xs ++ ys) (l ++ r) := by
  have h := Spells.append hl hr
  rwa [← List.map_append] at h

theorem Reads.nil : Reads env F [] [] := Spells.nil

theorem Reads.append_silent (hl : Reads env F xs l) (hr : Spells env F [] r) :
    Reads env F xs (l ++ r) := Spells.append_silent hl hr

theorem Reads.behind (hl : Reads env F xs l) {i : Instr} {op : Op} (h : op.isAccess = false)
    (hi : ∃ span, i = ⟨op, span⟩) : Reads env F xs (l ++ [i]) := Spells.behind hl h hi

end

/-- An argument that is not to be spliced in is read before the others. -/
theorem packed_cons_reads {env : Env} {pc count : Nat} {started : Bool} {arg : Expr}
    {rest : List Expr} (harg : isStarred arg = false)
    (hexpr : Makes (expr env pc arg) fun F code => Reads env F arg.loads code)
    (hrest : ∀ q, Makes (packed env q (count + 1) started rest) fun F code =>
      Reads env F (Expr.allLoads rest) code) :
    Makes (packed env pc count started (arg :: rest)) fun F code =>
      Reads env F (Expr.allLoads (arg :: rest)) code := by
  rw [packed]
  · exact hexpr.bind fun code => (hrest _).bind fun more => .ret fun F hm hc => hc.append hm
  · rintro span operand rfl
    cases harg

mutual

theorem expr_reads (env : Env) (pc : Nat) (e : Expr) :
    Makes (expr env pc e) fun F code => Reads env F e.loads code := by
  match e with
  | .mk span form =>
    rw [expr]
    exact .at (exprForm_reads env pc span form)

theorem exprForm_reads (env : Env) (pc : Nat) (span : Span) (form : ExprForm) :
    Makes (exprForm env pc span form) fun F code => Reads env F form.loads code := by
  match form with
  | .literal value =>
    rw [exprForm]
    exact (constant_spells env value).bind fun i => .ret fun F hi => hi
  | .format parts =>
    rw [exprForm]
    refine (formatParts_read env pc span parts).bind fun code => (one_makes _).bind fun i =>
      .ret fun F hi hc => ?_
    exact hc.behind rfl hi
  | .name id =>
    rw [exprForm]
    exact (load_spells env id).bind fun i => .ret fun F hi => hi
  | .list items | .tuple items =>
    rw [exprForm]
    refine (exprs_read env pc items).bind fun code => .at <| (one_makes _).bind fun i =>
      .ret fun F hi hc => ?_
    exact hc.behind rfl hi
  | .dict items =>
    rw [exprForm]
    refine (dictItems_read env pc items).bind fun code => .at <| (one_makes _).bind fun i =>
      .ret fun F hi hc => ?_
    exact hc.behind rfl hi
  | .binary left op right =>
    rw [exprForm]
    refine (expr_reads env pc left).bind fun l => (expr_reads env _ right).bind fun r =>
      .at <| (one_makes _).bind fun i => .ret fun F hi hr hl => ?_
    exact (hl.append hr).behind rfl hi
  | .all first rest | .any first rest =>
    rw [exprForm]
    refine (expr_reads env pc first).bind fun code =>
      (boolean_reads env (fun _ => rfl) _ rest).bind fun more => .ret fun F hm hc => ?_
    exact hc.append hm
  | .not operand =>
    rw [exprForm]
    refine (expr_reads env pc operand).bind fun code => (one_makes _).bind fun i =>
      .ret fun F hi hc => ?_
    exact hc.behind rfl hi
  | .neg operand | .pos operand | .await operand =>
    rw [exprForm]
    refine (expr_reads env pc operand).bind fun code => .at <| (one_makes _).bind fun i =>
      .ret fun F hi hc => ?_
    exact hc.behind rfl hi
  | .compare left rest =>
    rw [exprForm]
    refine (expr_reads env pc left).bind fun l => (comparisons_read env _ span rest).bind
      fun chain => ?_
    split
    · exact .ret fun F hc hl => hl.append hc
    · refine (one_makes _).bind fun skip => (one_makes _).bind fun rot =>
        (one_makes _).bind fun pop => .ret fun F hpop hrot hskip hc hl => ?_
      obtain ⟨_, rfl⟩ := hpop
      obtain ⟨_, rfl⟩ := hrot
      obtain ⟨_, rfl⟩ := hskip
      exact (hl.append hc).append_silent (.silent (by simp [Op.isAccess]))
  | .conditional test body orElse =>
    rw [exprForm]
    refine (expr_reads env pc test).bind fun t => get_makes.bind fun _ =>
      (expr_reads env _ body).bind fun b => get_makes.bind fun _ =>
      (expr_reads env _ orElse).bind fun o => .ret fun F ho _ hb _ ht => ?_
    refine (((ht.append_silent ?_).append hb).append_silent ?_).append ho
    · exact .one rfl
    · exact .one rfl
  | .call callee args kws =>
    rw [exprForm]
    refine (expr_reads env pc callee).bind fun c => arguments_spell
      (packed_reads env _ 0 false args) (exprs_read env _ args) fun a =>
      (keywords_read env _ kws).bind fun k => (addKeywords_makes _).bind fun names => .at <|
      (one_makes _).bind fun i => .ret fun F hi _ hk ha hc => ?_
    refine ((hc.append ha).append hk).behind ?_ hi
    split <;> rfl
  | .methodCall object method args kws =>
    rw [exprForm]
    refine (expr_reads env pc object).bind fun c => arguments_spell
      (packed_reads env _ 0 false args) (exprs_read env _ args) fun a =>
      (keywords_read env _ kws).bind fun k => (addKeywords_makes _).bind fun names =>
      (addName_makes method).bind fun name => .at <| (one_makes _).bind fun i =>
      .ret fun F hi _ _ hk ha hc => ?_
    refine ((hc.append ha).append hk).behind ?_ hi
    split <;> rfl
  | .attribute object name =>
    rw [exprForm]
    refine (expr_reads env pc object).bind fun code => (addName_makes name).bind fun j => .at <|
      (one_makes _).bind fun i => .ret fun F hi _ hc => ?_
    exact hc.behind rfl hi
  | .subscript object index =>
    rw [exprForm]
    refine (expr_reads env pc object).bind fun o => (expr_reads env _ index).bind fun x =>
      .at <| (one_makes _).bind fun i => .ret fun F hi hx ho => ?_
    exact (ho.append hx).behind rfl hi
  | .slice lower upper step =>
    rw [exprForm]
    refine (sliceBound_reads env pc lower).bind fun l => (sliceBound_reads env _ upper).bind
      fun u => (sliceBound_reads env _ step).bind fun x => .at <| (one_makes _).bind fun i =>
      .ret fun F hi hx hu hl => ?_
    exact ((hl.append hu).append hx).behind rfl hi
  | .starred operand =>
    rw [exprForm]
    exact .fail

theorem exprs_read (env : Env) (pc : Nat) (es : List Expr) :
    Makes (exprs env pc es) fun F code => Reads env F (Expr.allLoads es) code := by
  match es with
  | [] =>
    rw [exprs]
    exact .ret fun F => .nil
  | e :: rest =>
    rw [exprs]
    exact (expr_reads env pc e).bind fun code => (exprs_read env _ rest).bind fun more =>
      .ret fun F hm hc => hc.append hm

theorem sliceBound_reads (env : Env) (pc : Nat) (bound : Option Expr) :
    Makes (sliceBound env pc bound) fun F code => Reads env F (Expr.maybeLoads bound) code := by
  match bound with
  | some e =>
    rw [sliceBound]
    exact expr_reads env pc e
  | none =>
    rw [sliceBound]
    exact (constant_spells env _).bind fun i => .ret fun F hi => hi

theorem formatParts_read (env : Env) (pc : Nat) (span : Span) (parts : List FormatPart) :
    Makes (formatParts env pc span parts) fun F code =>
      Reads env F (FormatPart.allLoads parts) code := by
  match parts with
  | [] =>
    rw [formatParts]
    exact .ret fun F => .nil
  | .text text :: rest =>
    rw [formatParts]
    exact (constant_spells env _).bind fun i => (formatParts_read env _ span rest).bind
      fun more => .ret fun F hm hi => hi.silent_append hm
  | .field value conversion spec :: rest =>
    rw [formatParts]
    refine (expr_reads env pc value).bind fun code => spec_makes fun j => .at <|
      (one_makes _).bind fun i => (formatParts_read env _ span rest).bind fun more =>
      .ret fun F hm hi _ hc => ?_
    exact Reads.append (hc.behind rfl hi) hm

theorem dictItems_read (env : Env) (pc : Nat) (items : List DictItem) :
    Makes (dictItems env pc items) fun F code => Reads env F (DictItem.allLoads items) code := by
  match items with
  | [] =>
    rw [dictItems]
    exact .ret fun F => .nil
  | .mk key value :: rest =>
    rw [dictItems]
    exact (expr_reads env pc key).bind fun k => (expr_reads env _ value).bind fun v =>
      (dictItems_read env _ rest).bind fun more => .ret fun F hm hv hk => (hk.append hv).append hm

theorem boolean_reads (env : Env) {jump : Nat → Op} (hjump : ∀ t, (jump t).isAccess = false)
    (pc : Nat) (operands : List Expr) :
    Makes (boolean env jump pc operands) fun F code =>
      Reads env F (Expr.allLoads operands) code := by
  match operands with
  | [] =>
    rw [boolean]
    exact .ret fun F => .nil
  | e :: rest =>
    rw [boolean]
    refine get_makes.bind fun s => (expr_reads env _ e).bind fun code =>
      (boolean_reads env hjump _ rest).bind fun more => .ret fun F hm hc _ => ?_
    have hskip : Reads env F [] [⟨jump (pc + 1 + code.length + more.length), s.span⟩] :=
      Spells.one (hjump _)
    exact hskip.append (hc.append hm)

theorem comparisons_read (env : Env) (pc : Nat) (span : Span) (cs : List Comparison) :
    Makes (comparisons env pc span cs) fun F code =>
      Reads env F (Comparison.allLoads cs) code := by
  match cs with
  | [] =>
    rw [comparisons]
    exact .ret fun F => .nil
  | [.mk op right] =>
    rw [comparisons]
    refine (expr_reads env pc right).bind fun r => .at <| (one_makes _).bind fun i =>
      .ret fun F hi hr => ?_
    rw [Comparison.allLoads, Comparison.allLoads, List.append_nil]
    exact hr.behind rfl hi
  | .mk op right :: next :: rest =>
    rw [comparisons]
    · refine (expr_reads env pc right).bind fun r => .at <| (one_makes _).bind fun copy =>
        (one_makes _).bind fun rot => (one_makes _).bind fun test =>
        (comparisons_read env _ span (next :: rest)).bind fun more =>
        .ret fun F hm htest hrot hcopy hr => ?_
      have hkeep : Spells env F [] [copy, rot, test] :=
        ((Spells.nil.behind rfl hcopy).behind rfl hrot).behind rfl htest
      exact ((hr.append_silent hkeep).append_silent (.one rfl)).append hm
    · exact List.cons_ne_nil _ _

theorem packed_reads (env : Env) (pc count : Nat) (started : Bool) (args : List Expr) :
    Makes (packed env pc count started args) fun F code =>
      Reads env F (Expr.allLoads args) code := by
  match args with
  | [] =>
    rw [packed]
    split
    · exact (one_makes _).bind fun build => (one_makes _).bind fun add =>
        .ret fun F hadd hbuild => (Spells.nil.behind rfl hbuild).behind rfl hadd
    · exact .ret fun F => .nil
  | .mk span form :: rest =>
    cases form with
    | starred operand =>
      rw [packed]
      refine gather_spells env fun gather => (expr_reads env _ operand).bind fun code => .at <|
        (one_makes _).bind fun collect => (one_makes _).bind fun add =>
        (packed_reads env _ 0 true rest).bind fun more =>
        .ret fun F hm hadd hcollect hc hgather => ?_
      have hjoin : Spells env F [] [collect, add] :=
        (Spells.nil.behind rfl hcollect).behind rfl hadd
      have hcode : Reads env F operand.loads (gather ++ code) := hgather.silent_append hc
      exact (hcode.append_silent hjoin).append hm
    | _ =>
      refine packed_cons_reads rfl (expr_reads env pc _) fun q => packed_reads env q _ started rest

theorem keywords_read (env : Env) (pc : Nat) (kws : List Keyword) :
    Makes (keywords env pc kws) fun F code => Reads env F (Keyword.allLoads kws) code := by
  match kws with
  | [] =>
    rw [keywords]
    exact .ret fun F => .nil
  | .mk name value :: rest =>
    rw [keywords]
    exact (expr_reads env pc value).bind fun code => (keywords_read env _ rest).bind
      fun more => .ret fun F hm hc => hc.append hm

end

end Compile

end Resumable
