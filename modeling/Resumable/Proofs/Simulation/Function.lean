import Resumable.Proofs.Simulation.Block

/-!
# Functions

The functions of a program are compiled one by one, and each code object does what the function
means (`Code.Implements`). `Adds module k ds b Q` says of a build `b` that starts with `k`
functions: if it succeeds, it has added code objects for the functions `ds`.
-/

namespace Resumable

open Machine Semantics

/-- A code object does what a function means, in a program that binds the names `module` outside of
its functions and has given slots to the names `globals`. -/
structure Code.Implements (F : Code) (d : Semantics.Function) (module globals : List String) :
    Prop where
  name : F.name = d.name
  locals : F.locals = d.locals
  paramCount : F.paramCount = d.paramCount
  runs : ∀ ⦃s n c E⦄, s.bytecode.functions[c.function]? = some F →
    E.names = ⟨if d.isModule then none else some d.locals, module, s.bytecode.globals⟩ →
    globals <+: s.bytecode.globals → E.scope = c.scope → E.fuel = n → CallsFollow s n E.calls →
    ∀ kept, Sim s n c kept 0 kept (d.run E kept) fun v => Returns s c kept v

namespace Compile

/-- The code of a statement does what its execution does. -/
def Performs (env : Env) (K : State) (pc : Nat) (code : List Draft)
    (act : Setting → Exits → List Value → Sem Flow) : Prop :=
  ∀ ⦃s n c F E⦄, E.Matches s n env K c F → ∀ x o, env.Placed x c o →
    F.Holds pc (filled o.stop code) → ∀ kept,
      Sim s n c kept pc kept (act E x kept) (Ends s env c o kept (pc + code.length))

/-- All code of a function does what an evaluation does, and returns its value. -/
def BodyFollows (env : Env) (K : State) (code : List Instr)
    (act : Setting → List Value → Sem Value) : Prop :=
  ∀ ⦃s n c F E⦄, E.Matches s n env K c F → F.instrs = code.toArray → ∀ kept,
    Sim s n c kept 0 kept (act E kept) fun v => Returns s c kept v

/-- What a build adds if it succeeds. -/
def Adds {α : Type} (module : List String) (k : Nat) (ds : List Semantics.Function) (b : Build α)
    (Q : State → α → Prop) : Prop :=
  ∀ ⦃s a t⦄, s.functions.size = k → b s = .ok (a, t) →
    t.functions.size = k + ds.length ∧ (∀ j < k, t.functions[j]? = s.functions[j]?) ∧
      s.Within t ∧ ∀ K, t.Within K → Q K a ∧ ∀ j d, ds[j]? = some d →
        ∃ F, t.functions[k + j]? = some F ∧ F.Implements d module K.globals

theorem Makes.adds {α : Type} {module : List String} {k : Nat} {b : Build α}
    {Q : State → α → Prop} (h : Makes b Q) : Adds module k [] b Q := by
  intro s a t hk hs
  obtain ⟨ht, hst, hQ⟩ := h hs
  exact ⟨by rw [ht, hk]; rfl, fun j _ => by rw [ht], hst, fun K hK => ⟨hQ K hK, nofun⟩⟩

namespace Adds

variable {α β : Type} {module : List String} {k : Nat} {ds ds' : List Semantics.Function}
  {Q : State → α → Prop} {R : State → β → Prop}

theorem ret {a : α} (h : ∀ K, Q K a) : Adds module k [] (pure a) Q := (Makes.ret h).adds

theorem fail {e : SourceError} : Adds module k ds (throw e) Q := fun _ _ _ _ hs => nomatch hs

theorem imp {Q' : State → α → Prop} {b : Build α} (hb : Adds module k ds b Q)
    (h : ∀ K a, Q K a → Q' K a) : Adds module k ds b Q' := fun _ _ _ hk hs =>
  let ⟨hsize, hold, hst, hQ⟩ := hb hk hs
  ⟨hsize, hold, hst, fun K hK => ⟨h K _ (hQ K hK).1, (hQ K hK).2⟩⟩

/-- One part that adds functions after the other. -/
theorem seq {b : Build α} {f : α → Build β} (hb : Adds module k ds b Q)
    (hf : ∀ a, Adds module (k + ds.length) ds' (f a) fun K c => Q K a → R K c) :
    Adds module k (ds ++ ds') (b >>= f) R := by
  intro s c u hk hs
  obtain ⟨a, t, hbs, hfs⟩ := exists_of_bind hs
  obtain ⟨htsize, htold, hst, hQ⟩ := hb hk hbs
  obtain ⟨husize, huold, htu, hR⟩ := hf a htsize hfs
  refine ⟨by rw [husize, List.length_append, Nat.add_assoc], fun j hj => ?_, hst.trans htu,
    fun K hK => ?_⟩
  · rw [huold j (Nat.lt_add_right _ hj), htold j hj]
  · obtain ⟨hR, hnew'⟩ := hR K hK
    obtain ⟨hQ, hnew⟩ := hQ K (htu.trans hK)
    refine ⟨hR hQ, fun j d hd => ?_⟩
    rcases Nat.lt_or_ge j ds.length with hj | hj
    · rw [List.getElem?_append_left hj] at hd
      obtain ⟨F, hF, himp⟩ := hnew j d hd
      exact ⟨F, by rw [huold _ (Nat.add_lt_add_left hj k), hF], himp⟩
    · rw [List.getElem?_append_right hj] at hd
      obtain ⟨F, hF, himp⟩ := hnew' _ d hd
      exact ⟨F, by rw [← hF]; congr 1; omega, himp⟩

/-- A part in front that adds no functions. -/
theorem bind {b : Build α} {f : α → Build β} (hb : Makes b Q)
    (hf : ∀ a, Adds module k ds (f a) fun K c => Q K a → R K c) :
    Adds module k ds (b >>= f) R := by
  have hnone : Adds module k [] b Q := hb.adds
  exact hnone.seq hf

/-- Behind the part that adds functions, none are added. -/
theorem last {b : Build α} {f : α → Build β} (hb : Adds module k ds b Q)
    (hf : ∀ a, Makes (f a) fun K c => Q K a → R K c) : Adds module k ds (b >>= f) R := by
  rw [← List.append_nil ds]
  exact hb.seq fun a => (hf a).adds

theorem «at» {span : Span} {b : Build α} (h : Adds module k ds b Q) :
    Adds module k ds (at_ span >>= fun _ => b) Q := by
  have hat : Makes (at_ span) fun _ _ => True := by
    intro s a t hs
    cases hs
    exact ⟨rfl, ⟨List.prefix_refl _, .refl _⟩, fun _ _ => trivial⟩
  exact bind hat fun _ => h.imp fun _ _ hQ _ => hQ

theorem and {P : α → Prop} {b : Build α} (hb : Adds module k ds b Q)
    (h : ∀ s a t, b s = .ok (a, t) → P a) : Adds module k ds b fun K a => Q K a ∧ P a :=
  fun _ _ _ hk hs =>
    let ⟨hsize, hold, hst, hQ⟩ := hb hk hs
    ⟨hsize, hold, hst, fun K hK => ⟨⟨(hQ K hK).1, h _ _ _ hs⟩, (hQ K hK).2⟩⟩

end Adds

/-! ## Bodies -/

/-- Code that can be labelled where no loop is left has no gaps. -/
theorem instr_of_layout {K : State} {slots : Nat} {σ τ : Shape} {code : List Draft}
    (h : Layout (draftKeeps K slots none) (fun _ => True) 0 σ code τ) :
    ∀ d ∈ code, ∃ i, d = .instr i := by
  obtain ⟨ls, rfl, -, hk⟩ := h
  have hkeeps := hk _ (assigns_getElem? [] _) trivial
  intro d hd
  obtain ⟨x, hx, rfl⟩ := List.mem_map.mp hd
  obtain ⟨pc, hpc⟩ := List.getElem?_of_mem hx
  have hx := hkeeps.get hpc
  cases h : x.2 with
  | instr i => exact ⟨i, rfl⟩
  | breakTo span => rw [h] at hx; exact nomatch hx.1

/-- Statements outside of all loops have code without gaps. -/
theorem instr_of_stmts {env : Env} {ss : List Stmt} {s t : State} {code : List Draft}
    (hloop : env.loop = none) (h : stmts env 0 ss s = .ok (code, t)) :
    ∀ d ∈ code, ∃ i, d = .instr i :=
  instr_of_layout (((stmts_rests env 0 ss h).2 t (.refl t) .empty none).weaken
    fun S _ => scoped_empty hloop S none)

/-- Code without gaps is what its gaps are filled to. -/
theorem filterMap_eq_filled {code : List Draft} (h : ∀ d ∈ code, ∃ i, d = .instr i) (t : Nat) :
    code.filterMap Draft.instr? = filled t code := by
  have hfilled := filled_drafts t (code.filterMap Draft.instr?)
  rw [drafts_filterMap h] at hfilled
  exact hfilled.symm

theorem holds_toArray {F : Code} {code : List Instr} (h : F.instrs = code.toArray) :
    F.Holds 0 code := fun j i hj => by
  rw [h, Nat.zero_add, List.getElem?_toArray, hj]

section
variable {module : List String} {k : Nat} {ds : List Semantics.Function} {env : Env}

theorem function_run_eq {d : Semantics.Function} (E : Setting) (kept : List Value)
    (hd : d.isModule = false) :
    d.run E kept = execAll E ⟨0, false⟩ kept d.first d.body >>= fun flow =>
      match flow with
      | .return v => pure v
      | _ => charge E.scope kept >>= fun _ => charge E.scope (.none :: kept) >>= fun _ =>
        pure .none := by
  rw [Semantics.Function.run, hd]
  rfl

/-- The code of a function, from that of the statements in it. -/
theorem functionBody_adds {ss : List Stmt} {d : Semantics.Function} (hloop : env.loop = none)
    (hd : d.isModule = false) (hbody : d.body = ss)
    (h : Adds module k ds (stmts env 0 ss) fun K code =>
      Performs env K 0 code fun E x kept => execAll E x kept d.first ss) :
    Adds module k ds (functionBody (stmts env 0 ss)) fun K code =>
      BodyFollows env K code fun E kept => d.run E kept := by
  refine (h.and fun _ _ _ => instr_of_stmts hloop).last fun b => (constant_makes _).bind fun i =>
    (one_makes _).bind fun r => .ret fun K hr hi hb => ?_
  obtain ⟨_, rfl⟩ := hr
  obtain ⟨j, _, rfl, hj⟩ := hi
  obtain ⟨hb, hinstr⟩ := hb
  intro s n c F E hE hF kept
  have hcode := holds_toArray hF
  rw [filterMap_eq_filled hinstr 0] at hcode
  beta_reduce
  rw [function_run_eq E kept hd, hbody]
  intro σ events
  refine (hb hE ⟨0, false⟩ ⟨c, 0⟩ (Env.placed_of_loop_eq_none hloop) hcode.left kept σ events).bind
    fun flow τ q hq => ?_
  obtain rfl | ⟨v, rfl⟩ := hq.next_or_return hloop
  · obtain ⟨events', rfl⟩ := hq
    have hend : F.Holds (0 + b.length) _ := hcode.right (by rw [length_filled])
    rw [hE.scope]
    exact ((Sim.loadConst hE.code (hj _ hE.pool) hend.head).bind fun _ =>
      .return hE.code hend.tail.head fun _ _ hp => hp) τ events'
  · exact .ok hq.2.2

/-- A function gets the next number, and a code object that does what it means. -/
theorem addFunction_adds {d : Semantics.Function} {span : Span} {code : Build (List Instr)}
    (hmodule : env.moduleNames = module) (hlocals : env.locals = some d.locals)
    (hd : d.isModule = false)
    (h : Adds module (k + 1) ds code fun K code =>
      BodyFollows env K code fun E kept => d.run E kept) :
    Adds module k (d :: ds) (addFunction d.name d.locals d.paramCount span code)
      fun _ i => i = k := by
  intro s a t hk hs
  change (code ⟨s.functions.push default, s.globals, .empty, span⟩ >>= fun x => Except.ok
    (s.functions.size, { x.2 with
      functions := x.2.functions.setIfInBounds s.functions.size
        ⟨d.name, x.1.toArray, x.2.pool, d.locals, d.paramCount⟩
      pool := s.pool, span })) = _ at hs
  cases hcode : code ⟨s.functions.push default, s.globals, .empty, span⟩ with
  | error e => rw [hcode] at hs; cases hs
  | ok x =>
    obtain ⟨instrs, u⟩ := x
    rw [hcode] at hs
    cases hs
    obtain ⟨hsize, hold, hwithin, hQ⟩ := h (by simp [hk]) hcode
    subst hk
    refine ⟨by simp [hsize]; omega, fun j hj => ?_, ⟨hwithin.globals, .refl _⟩, fun K hK =>
      ⟨rfl, fun j f hf => ?_⟩⟩
    · rw [Array.getElem?_setIfInBounds_ne (by omega), hold j (by omega)]
      exact Array.getElem?_push_lt hj ▸ (Array.getElem?_eq_getElem hj).symm
    · -- the pool of the function ends where its code does
      obtain ⟨hfollows, hnew⟩ := hQ { K with pool := u.pool } ⟨hK.globals, .refl _⟩
      cases j with
      | zero =>
        cases hf
        refine ⟨_, Array.getElem?_setIfInBounds_self_of_lt (by simp [hsize]; omega), rfl, rfl, rfl,
          fun s n c E hF hnames hglobals hscope hfuel hcalls kept => ?_⟩
        rw [hd] at hnames
        refine hfollows ⟨hF, .refl _, by rw [hnames], ⟨?_, ?_, ?_⟩, ?_, hscope, hfuel, hcalls⟩ rfl
          kept
        · rw [hnames, hlocals]
          rfl
        · rw [hnames, hmodule]
        · rw [hnames]
          exact hglobals
        · intro names hnames
          rw [hlocals] at hnames
          exact Option.some.inj hnames
      | succ j =>
        obtain ⟨F, hF, himp⟩ := hnew j f hf
        refine ⟨F, ?_, himp⟩
        rw [Array.getElem?_setIfInBounds_ne (by omega), ← hF]
        congr 1
        omega

end

end Compile

end Resumable
