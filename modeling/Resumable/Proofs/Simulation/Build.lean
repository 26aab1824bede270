import Resumable.Proofs.Semantics.Expression

/-!
# What a build keeps

While a program is compiled, pools and global names only grow at their ends. `Makes b Q` says of a
build `b`: whenever it succeeds, it has added no functions and has kept everything else, and its
result has the property `Q` in every state that keeps what the build ends with.
-/

namespace Resumable

/-- A pool has everything that another one has, at the same indices. -/
structure Pool.Within (p q : Pool) : Prop where
  consts : ∀ (i : Nat) (v : Literal), p.consts[i]? = some v → q.consts[i]? = some v
  names : ∀ (i : Nat) (name : String), p.names[i]? = some name → q.names[i]? = some name
  keywords : ∀ (i : Nat) (names : List String),
    p.keywords[i]? = some names → q.keywords[i]? = some names

theorem Pool.Within.refl (p : Pool) : p.Within p := ⟨fun _ _ h => h, fun _ _ h => h, fun _ _ h => h⟩

theorem Pool.Within.trans {p q r : Pool} (h : p.Within q) (h' : q.Within r) : p.Within r :=
  ⟨fun i v hi => h'.consts i v (h.consts i v hi), fun i v hi => h'.names i v (h.names i v hi),
    fun i v hi => h'.keywords i v (h.keywords i v hi)⟩

/-- Names mean what they are compiled to. -/
structure Semantics.Names.Suits (ns : Semantics.Names) (env : Compile.Env) (F : Compile.State) :
    Prop where
  locals : ns.locals = env.locals
  module : ns.module = env.moduleNames
  slots : F.globals <+: ns.slots

namespace Compile

/-- A state of the compiler keeps the pool and the global names of another one. -/
structure State.Within (s t : State) : Prop where
  globals : s.globals <+: t.globals
  pool : s.pool.Within t.pool

theorem State.Within.refl (s : State) : s.Within s := ⟨List.prefix_refl _, .refl _⟩

theorem State.Within.trans {s t u : State} (h : s.Within t) (h' : t.Within u) : s.Within u :=
  ⟨h.globals.trans h'.globals, h.pool.trans h'.pool⟩

/-- What a build makes if it succeeds. -/
def Makes {α : Type} (b : Build α) (Q : State → α → Prop) : Prop :=
  ∀ ⦃s a t⦄, b s = .ok (a, t) →
    t.functions = s.functions ∧ s.Within t ∧ ∀ F, t.Within F → Q F a

namespace Makes

variable {α β : Type} {Q : State → α → Prop} {R : State → β → Prop}

theorem ret {a : α} (h : ∀ F, Q F a) : Makes (pure a) Q := by
  intro s _ t hs
  cases hs
  exact ⟨rfl, .refl s, fun F _ => h F⟩

theorem bind {b : Build α} {f : α → Build β} (hb : Makes b Q)
    (hf : ∀ a, Makes (f a) fun F c => Q F a → R F c) : Makes (b >>= f) R := by
  intro s c u hs
  obtain ⟨a, t, hbs, hfs⟩ := exists_of_bind hs
  obtain ⟨ht, hst, hQ⟩ := hb hbs
  obtain ⟨hu, htu, hR⟩ := hf a hfs
  exact ⟨hu.trans ht, hst.trans htu, fun F hF => hR F hF (hQ F (htu.trans hF))⟩

theorem imp {Q' : State → α → Prop} {b : Build α} (hb : Makes b Q)
    (h : ∀ F a, Q F a → Q' F a) : Makes b Q' := fun _ _ _ hs =>
  let ⟨ht, hst, hQ⟩ := hb hs
  ⟨ht, hst, fun F hF => h F _ (hQ F hF)⟩

theorem map {f : α → β} {b : Build α} (hb : Makes b Q) (h : ∀ F a, Q F a → R F (f a)) :
    Makes (f <$> b) R := by
  rw [map_eq_pure_bind]
  exact hb.bind fun a => .ret fun F hQ => h F a hQ

theorem fail {e : SourceError} : Makes (throw e) Q := fun _ _ _ hs => nomatch hs

theorem fail_bind {e : SourceError} {f : α → Build β} : Makes (throw e >>= f) R :=
  fun _ _ _ hs => nomatch hs

end Makes

variable {α : Type} {Q : State → α → Prop}

/-! ## Steps of a build -/

theorem get_makes : Makes get fun _ _ => True := by
  intro s a t hs
  cases hs
  exact ⟨rfl, .refl s, fun _ _ => trivial⟩

theorem Makes.at {span : Span} {b : Build α} (h : Makes b Q) :
    Makes (at_ span >>= fun _ => b) Q := by
  have hat : Makes (at_ span) fun _ _ => True := by
    intro s a t hs
    cases hs
    exact ⟨rfl, ⟨List.prefix_refl _, .refl _⟩, fun _ _ => trivial⟩
  exact hat.bind fun _ => h.imp fun _ _ hQ _ => hQ

/-- An instruction with the span that has been set. -/
theorem at_one (span : Span) (op : Op) (f : Instr → Build α) :
    (at_ span >>= fun _ => one op >>= f) = at_ span >>= fun _ => f ⟨op, span⟩ :=
  funext fun _ => rfl

/-- A build leaves the span of the instructions to come as it is. -/
def Quiet (b : Build α) : Prop := ∀ ⦃s a t⦄, b s = .ok (a, t) → t.span = s.span

/-- Behind a quiet part, the span is still set. -/
theorem at_quiet {β : Type} {b : Build β} (hb : Quiet b) (span : Span) (f : β → Build α) :
    (at_ span >>= fun _ => b >>= f) =
      at_ span >>= fun _ => b >>= fun a => at_ span >>= fun _ => f a := by
  funext s
  change (b { s with span } >>= fun x => f x.1 x.2) =
    (b { s with span } >>= fun x => f x.1 { x.2 with span })
  cases h : b { s with span } with
  | error e => rfl
  | ok x =>
    have hspan : x.2.span = span := hb h
    have hx : { x.2 with span } = x.2 := by rw [← hspan]
    change f x.1 x.2 = f x.1 { x.2 with span }
    rw [hx]

theorem one_quiet (op : Op) : Quiet (one op) := by
  intro s a t h
  cases h
  rfl

theorem pooled_quiet {ι : Type} (add : Pool → ι × Pool) : Quiet (pooled add) := by
  intro s a t h
  cases h
  rfl

theorem Quiet.ret (a : α) : Quiet (pure a) := by
  intro s a t h
  cases h
  rfl

theorem Quiet.bind {β : Type} {b : Build β} {f : β → Build α} (hb : Quiet b)
    (hf : ∀ a, Quiet (f a)) : Quiet (b >>= f) := by
  intro s a u h
  obtain ⟨c, t, hbs, hfs⟩ := exists_of_bind h
  exact (hf c hfs).trans (hb hbs)

theorem one_makes (op : Op) : Makes (one op) fun _ i => ∃ span, i = ⟨op, span⟩ := by
  intro s a t hs
  cases hs
  exact ⟨rfl, .refl s, fun _ _ => ⟨_, rfl⟩⟩

theorem pooled_makes {ι : Type} {add : Pool → ι × Pool} {g : Pool → ι → Prop}
    (hadd : ∀ p, p.Within (add p).2 ∧ ∀ q, (add p).2.Within q → g q (add p).1) :
    Makes (pooled add) fun K i => ∀ q, K.pool.Within q → g q i := by
  intro s a t hs
  cases hs
  exact ⟨rfl, ⟨List.prefix_refl _, (hadd s.pool).1⟩,
    fun K hK q hq => (hadd s.pool).2 q (hK.pool.trans hq)⟩

theorem getElem?_push_of_some {β : Type} {xs : Array β} {x y : β} {i : Nat} (h : xs[i]? = some x) :
    (xs.push y)[i]? = some x := by
  obtain ⟨hi, -⟩ := Array.getElem?_eq_some_iff.mp h
  rwa [Array.getElem?_push_lt hi, ← Array.getElem?_eq_getElem hi]

theorem addConstant_makes (v : Literal) :
    Makes (pooled (·.addConstant v)) fun K i =>
      ∀ q, K.pool.Within q → q.constant i = v := by
  have hfound : ∀ {q : Pool} {i}, q.consts[i]? = some v → q.constant i = v := by
    intro q i h
    rw [Pool.constant, h]
    rfl
  refine pooled_makes (g := fun q i => q.constant i = v) fun p => ?_
  simp only [Pool.addConstant]
  split
  · next i hi =>
    have hv : p.consts[i]? = some v := by
      split at hi
      · cases hi
      · obtain ⟨hlt, heq, -⟩ := Array.findIdx?_eq_some_iff_getElem.mp hi
        rw [Array.getElem?_eq_getElem hlt, beq_iff_eq.mp heq]
    exact ⟨.refl p, fun q hq => hfound (hq.consts i v hv)⟩
  · refine ⟨⟨fun _ _ => getElem?_push_of_some, fun _ _ h => h, fun _ _ h => h⟩, fun q hq => ?_⟩
    exact hfound (hq.consts _ v (by simp))

theorem addName_makes (name : String) :
    Makes (pooled (·.addName name)) fun K i => ∀ q, K.pool.Within q → q.name i = name := by
  have hfound : ∀ {q : Pool} {i}, q.names[i]? = some name → q.name i = name := by
    intro q i h
    rw [Pool.name, h]
    rfl
  refine pooled_makes (g := fun q i => q.name i = name) fun p => ?_
  unfold Pool.addName
  split
  · next i hi =>
    obtain ⟨hlt, heq, -⟩ := Array.findIdx?_eq_some_iff_getElem.mp hi
    have hname : p.names[i]? = some name := by
      rw [Array.getElem?_eq_getElem hlt, beq_iff_eq.mp heq]
    exact ⟨.refl p, fun q hq => hfound (hq.names i name hname)⟩
  · refine ⟨⟨fun _ _ h => h, fun _ _ => getElem?_push_of_some, fun _ _ h => h⟩, fun q hq => ?_⟩
    exact hfound (hq.names _ name (by simp))

theorem addKeywords_makes (names : List String) :
    Makes (pooled (·.addKeywords names)) fun K i =>
      ∀ q, K.pool.Within q → q.keywordNames i = names := by
  refine pooled_makes (g := fun q i => q.keywordNames i = names) fun p => ?_
  unfold Pool.addKeywords
  split
  · next h =>
    refine ⟨.refl p, fun q _ => ?_⟩
    rw [List.isEmpty_iff.mp h]
    rfl
  · refine ⟨⟨fun _ _ h => h, fun _ _ h => h, fun _ _ => getElem?_push_of_some⟩, fun q hq => ?_⟩
    have hnames : q.keywords[p.keywords.size]? = some names := hq.keywords _ names (by simp)
    rw [Pool.keywordNames, Option.bind_some, hnames]
    rfl

theorem constant_makes (v : Literal) : Makes (constant v) fun K i =>
    ∃ j span, i = ⟨.loadConst j, span⟩ ∧ ∀ q, K.pool.Within q → q.constant j = v :=
  (addConstant_makes v).bind fun j => (one_makes _).imp fun _ _ ⟨span, hi⟩ hj => ⟨j, span, hi, hj⟩

/-! ## Names -/

/-- The slot of a place belongs to a name. -/
def Place.Names (ns : Semantics.Names) (name : String) : Place → Prop
  | .local slot => ns.locals.bind (·[slot]?) = some name
  | .global slot => ns.slots[slot]? = some name
  | .builtin _ | .excClass _ => True

/-- The instruction that reads a place. -/
def Place.load : Place → Op
  | .local slot => .loadLocal slot
  | .global slot => .loadGlobal slot
  | .builtin b => .loadBuiltin b
  | .excClass t => .loadExcClass t

/-- The instruction that binds a name. -/
def storeOp (ns : Semantics.Names) (name : String) : Op :=
  match ns.place name with
  | .local slot => .storeLocal slot
  | .global slot => .storeGlobal slot
  | .builtin _ | .excClass _ => .storeGlobal (ns.slot name)

theorem findIdx?_eq_some {xs : List String} {name : String} {i : Nat}
    (h : xs.findIdx? (· == name) = some i) : xs[i]? = some name := by
  obtain ⟨hlt, heq, -⟩ := List.findIdx?_eq_some_iff_getElem.mp h
  rw [List.getElem?_eq_getElem hlt, beq_iff_eq.mp heq]

theorem globalSlot_quiet (name : String) : Quiet (globalSlot name) := by
  intro s a t hs
  rw [globalSlot_eq] at hs
  cases hfind : s.globals.findIdx? (· == name) with
  | some slot => rw [hfind] at hs; cases hs; rfl
  | none => rw [hfind] at hs; cases hs; rfl

/-- The global slot of a name is the first one that has the name, also when more names follow. -/
theorem globalSlot_makes (env : Env) (name : String) :
    Makes (globalSlot name) fun F i => ∀ ns : Semantics.Names, ns.Suits env F →
      ns.slot name = i ∧ ns.slots[i]? = some name := by
  have hslot : ∀ {F i}, F.globals.findIdx? (· == name) = some i → ∀ ns : Semantics.Names,
      ns.Suits env F → ns.slot name = i ∧ ns.slots[i]? = some name := by
    intro F i h ns hns
    obtain ⟨more, hmore⟩ := hns.slots
    have hfind : ns.slots.findIdx? (· == name) = some i := by
      rw [← hmore, List.findIdx?_append, h]
      rfl
    exact ⟨by rw [Semantics.Names.slot, hfind]; rfl, findIdx?_eq_some hfind⟩
  have hwithin : ∀ {s F : State} {i}, s.Within F → s.globals.findIdx? (· == name) = some i →
      F.globals.findIdx? (· == name) = some i := by
    intro s F i hF h
    obtain ⟨more, hmore⟩ := hF.globals
    rw [← hmore, List.findIdx?_append, h]
    rfl
  intro s a t hs
  rw [globalSlot_eq] at hs
  cases hfind : s.globals.findIdx? (· == name) with
  | some slot =>
    rw [hfind] at hs
    cases hs
    exact ⟨rfl, .refl s, fun F hF => hslot (hwithin hF hfind)⟩
  | none =>
    rw [hfind] at hs
    cases hs
    refine ⟨rfl, ⟨List.prefix_append _ _, .refl _⟩, fun F hF => hslot (hwithin hF ?_)⟩
    rw [List.findIdx?_append, hfind]
    simp

theorem place_quiet (env : Env) (name : String) : Quiet (place env name) := by
  have hglobal : Quiet (do return Place.global (← globalSlot name)) :=
    (globalSlot_quiet name).bind fun _ => .ret _
  unfold place
  split
  · exact .ret _
  · split
    · exact hglobal
    · split
      · exact .ret _
      · split
        · exact .ret _
        · exact hglobal

/-- A name that the program does not bind. -/
theorem place_free (ns : Semantics.Names) (name : String)
    (hlocals : (ns.locals.bind fun names => names.findIdx? (· == name)) = none)
    (hmodule : ¬ ns.module.contains name = true) : ns.place name =
      match Builtin.ofName? name, ExceptionType.ofName? name with
      | some b, _ => .builtin b
      | none, some t => .excClass t
      | none, none => .global (ns.slot name) := by
  unfold Semantics.Names.place
  rw [hlocals]
  exact if_neg hmodule

/-- A name has the place that it is compiled to. -/
theorem place_makes (env : Env) (name : String) :
    Makes (place env name) fun F p => ∀ ns : Semantics.Names, ns.Suits env F →
      ns.place name = p ∧ p.Names ns name := by
  have hglobal : Makes (do return Place.global (← globalSlot name)) fun F p =>
      ∀ ns : Semantics.Names, ns.Suits env F →
        Place.global (ns.slot name) = p ∧ p.Names ns name := by
    refine (globalSlot_makes env name).bind fun i => .ret fun F hi ns hns => ?_
    obtain ⟨hslot, hname⟩ := hi ns hns
    exact ⟨by rw [hslot], hname⟩
  unfold place
  split
  · next slot h =>
    refine .ret fun F ns hns => ⟨?_, ?_⟩
    · unfold Semantics.Names.place
      rw [hns.locals, h]
    · obtain ⟨names, hnames, hfind⟩ := Option.bind_eq_some_iff.mp h
      rw [Place.Names, hns.locals, hnames]
      exact findIdx?_eq_some hfind
  · next h =>
    split
    · next hmodule =>
      refine hglobal.imp fun F p hp ns hns => ?_
      obtain ⟨hplace, hname⟩ := hp ns hns
      refine ⟨?_, hname⟩
      unfold Semantics.Names.place
      rw [hns.locals, h, hns.module, ← hplace]
      exact if_pos hmodule
    · next hmodule =>
      have hplace {F : State} (ns : Semantics.Names) (hns : ns.Suits env F) :=
        place_free ns name (by rw [hns.locals, h]) (by rwa [hns.module])
      split
      · next b hb => exact .ret fun F ns hns => ⟨by rw [hplace ns hns, hb], trivial⟩
      · next hb =>
        split
        · next t ht => exact .ret fun F ns hns => ⟨by rw [hplace ns hns, hb, ht], trivial⟩
        · next ht =>
          refine hglobal.imp fun F p hp ns hns => ?_
          rw [hplace ns hns, hb, ht]
          exact hp ns hns

theorem load_eq (env : Env) (name : String) :
    load env name = place env name >>= fun p => one p.load := by
  unfold load
  congr 1
  funext p
  cases p <;> rfl

/-- The instruction that reads a name has the span that has been set. -/
theorem at_load (env : Env) (name : String) (span : Span) (f : Instr → Build α) :
    (at_ span >>= fun _ => load env name >>= f) =
      at_ span >>= fun _ => place env name >>= fun p => at_ span >>= fun _ => f ⟨p.load, span⟩ := by
  rw [load_eq]
  simp only [bind_assoc]
  exact at_quiet (place_quiet env name) span fun p => one p.load >>= f

theorem store_quiet (env : Env) (name : String) : Quiet (store env name) := by
  refine (place_quiet env name).bind fun p => ?_
  cases p with
  | builtin b => exact (globalSlot_quiet name).bind fun _ => one_quiet _
  | excClass t => exact (globalSlot_quiet name).bind fun _ => one_quiet _
  | _ => exact one_quiet _

theorem store_makes (env : Env) (name : String) :
    Makes (store env name) fun F i => ∀ ns : Semantics.Names, ns.Suits env F →
      ∃ span, i = ⟨storeOp ns name, span⟩ := by
  refine (place_makes env name).bind fun p => ?_
  cases p with
  | «local» slot =>
    refine (one_makes _).imp fun F i hi hp ns hns => ?_
    rw [storeOp, (hp ns hns).1]
    exact hi
  | global slot =>
    refine (one_makes _).imp fun F i hi hp ns hns => ?_
    rw [storeOp, (hp ns hns).1]
    exact hi
  | builtin b =>
    refine (globalSlot_makes env name).bind fun slot =>
      (one_makes _).imp fun F i hi hslot hp ns hns => ?_
    rw [storeOp, (hp ns hns).1, (hslot ns hns).1]
    exact hi
  | excClass t =>
    refine (globalSlot_makes env name).bind fun slot =>
      (one_makes _).imp fun F i hi hslot hp ns hns => ?_
    rw [storeOp, (hp ns hns).1, (hslot ns hns).1]
    exact hi

end Compile

end Resumable
