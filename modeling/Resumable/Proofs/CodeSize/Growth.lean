import Mathlib.Tactic.Ring
import Resumable.Proofs.CodeSize.Statement

/-!
# Growth of code

The code of a program is linear in the nodes of the program, with a factor of two for every
`finally` clause inside another one and one for the depth of the `try` statements
(`compile_length_le`). Neither factor can be left out, nor can the parts that `Stmt.allNodes` counts
beside the statements and expressions (`compile_not_linear`).
-/

namespace Resumable

namespace Compile

/-! ## A bound -/

/-- Behind the statements of a module stands at most the instruction that loads its result. -/
theorem moduleBody_emits (F D : Nat) (env : Env) (pc : Nat) (ss : List Stmt)
    (hF : Stmt.allFinallyDepth ss ≤ F)
    (hD : env.blocks.length + 2 * Stmt.allTryDepth ss + 10 ≤ D) :
    Emits (moduleBody env pc ss) fun k code =>
      k + code.length ≤ rate F D * Stmt.allNodes 1 ss + 1 := by
  have hr : 10 ≤ rate F D := Nat.le_trans (by omega) (le_rate F D)
  induction ss generalizing pc with
  | nil =>
    rw [moduleBody]
    exact (constant_silent _).bind fun i => .ret (by simp [drafts])
  | cons s rest ih =>
    simp only [Stmt.allFinallyDepth, Stmt.allTryDepth] at hF hD
    by_cases hlast : ∃ value, s = .expr value ∧ rest = []
    · obtain ⟨value, rfl, rfl⟩ := hlast
      rw [moduleBody]
      refine (expr_rate hr env pc value).bind fun code => .ret fun j hc => ?_
      simp only [length_drafts, Stmt.allNodes, Stmt.nodes, Nat.mul_add]
      omega
    · rw [moduleBody]
      · refine (stmt_emits F D env pc s (by omega) (by omega)).bind fun code =>
          (ih _ (by omega) (by omega)).bind fun more => .ret fun j hm k hc => ?_
        simp only [List.length_append, Stmt.allNodes, Nat.mul_add]
        omega
      · exact fun value hs hrest => hlast ⟨value, hs, hrest⟩

/-- The code of a program. -/
theorem main_emits (F D : Nat) (env : Env) (program : List Stmt)
    (hF : Stmt.allFinallyDepth program ≤ F)
    (hD : env.blocks.length + 2 * Stmt.allTryDepth program + 10 ≤ D) :
    Emits (do
        let body ← moduleBody env 0 program
        return body ++ drafts [← one .return]) fun k code =>
      k + (code.filterMap Draft.instr?).length ≤ rate F D * Stmt.allNodes 1 program + 2 := by
  refine (moduleBody_emits F D env 0 program hF hD).bind fun body => (one_silent _).bind fun i =>
    .ret fun j hj => ?_
  have := (body ++ drafts [i]).length_filterMap_le Draft.instr?
  simp only [List.length_append, length_drafts, List.length_singleton] at this
  omega

end Compile

open Compile

/-- All code objects of a program together have at most ten instructions for each of its nodes,
doubled as often as `finally` clauses stand inside one another, times the depth of its `try`
statements. -/
theorem compile_length_le {preset : List String} {program : List Stmt} {code : Bytecode}
    (h : compile preset program = .ok code) :
    code.length ≤ 10 * (2 ^ Stmt.allFinallyDepth program *
      ((Stmt.allTryDepth program + 1) * (Stmt.allNodes 1 program + 1))) := by
  unfold compile at h
  simp only at h
  generalize hb : StateT.run _ _ = x at h
  cases x with
  | error e => cases h
  | ok x =>
    obtain ⟨body, s⟩ := x
    cases h
    let F := Stmt.allFinallyDepth program
    let T := Stmt.allTryDepth program
    let N := Stmt.allNodes 1 program
    let instrs := body.filterMap Draft.instr?
    obtain ⟨k, hk, hbody⟩ := main_emits F (2 * T + 10) _ program (Nat.le_refl F) (by simp [T]) hb
    replace hk : Code.lengthOf s.functions.toList ≤ k := by rwa [← Nat.zero_add k]
    let main : Code := ⟨"<module>", instrs.toArray, s.pool, [], 0⟩
    calc Code.lengthOf (s.functions.setIfInBounds 0 main).toList
      _ ≤ Code.lengthOf s.functions.toList + instrs.length := by
        rw [Array.toList_setIfInBounds]
        exact Code.lengthOf_set_le ..
      _ ≤ k + instrs.length := Nat.add_le_add_right hk _
      _ ≤ rate F (2 * T + 10) * N + 2 := hbody
      _ ≤ rate F (2 * T + 10) * (N + 1) := by
        have := le_rate F (2 * T + 10)
        rw [Nat.mul_succ]
        omega
      _ ≤ 10 * rate F (T + 1) * (N + 1) := by
        refine Nat.mul_le_mul_right _ ?_
        rw [rate, rate, Nat.mul_left_comm]
        exact Nat.mul_le_mul_left _ (by omega)
      _ = 10 * (2 ^ F * ((T + 1) * (N + 1))) := by rw [rate, Nat.mul_assoc, Nat.mul_assoc]

/-- `while x: try: break except: pass` and `try: pass finally: pass` come to 19 instructions. -/
theorem compile_length_le_break :
    let x : Expr := .mk .unknown (.name "x")
    let program : List Stmt :=
      [.while x [.try [.break .unknown] [.mk none none [.pass]] [] []] [],
        .try [.pass] [] [] [.pass]]
    ∃ code, compile ["x"] program = .ok code ∧ code.length = 19 ∧
      code.length ≤ 10 * (2 ^ 1 * ((1 + 1) * (9 + 1))) := by
  intro x program
  obtain ⟨code, hcode, hlength⟩ : ∃ code, compile ["x"] program = .ok code ∧ code.length = 19 :=
    ⟨_, rfl, rfl⟩
  exact ⟨code, hcode, hlength, compile_length_le hcode⟩

/-! ## Programs with much code -/

namespace Compile

variable {α β : Type} {P : α → Prop} {Q : β → Prop}

/-- A build that succeeds from every state, adds no function and gives a result with a property. -/
def Yields (b : Build α) (P : α → Prop) : Prop :=
  ∀ s, ∃ a t, b s = .ok (a, t) ∧ t.functions = s.functions ∧ P a

namespace Yields

theorem ret {a : α} (h : P a) : Yields (pure a) P := fun s => ⟨a, s, rfl, rfl, h⟩

theorem ret_bind {a : α} {f : α → Build β} (hf : Yields (f a) Q) : Yields (pure a >>= f) Q := hf

theorem bind {b : Build α} {f : α → Build β} (hb : Yields b P)
    (hf : ∀ a, P a → Yields (f a) Q) : Yields (b >>= f) Q := by
  intro s
  obtain ⟨a, t, hbs, ht, ha⟩ := hb s
  obtain ⟨c, u, hfs, hu, hc⟩ := hf a ha t
  refine ⟨c, u, ?_, hu.trans ht, hc⟩
  change (b s >>= fun x => f x.1 x.2) = _
  rw [hbs]
  exact hfs

end Yields

theorem at_yields (span : Span) : Yields (at_ span) fun _ => True :=
  fun _ => ⟨_, _, rfl, rfl, trivial⟩

theorem one_yields (op : Op) : Yields (one op) fun _ => True := fun _ => ⟨_, _, rfl, rfl, trivial⟩

theorem get_yields : Yields get fun _ => True := fun _ => ⟨_, _, rfl, rfl, trivial⟩

theorem pooled_yields {ι : Type} (add : Pool → ι × Pool) : Yields (pooled add) fun _ => True :=
  fun _ => ⟨_, _, rfl, rfl, trivial⟩

theorem constant_yields (v : Literal) : Yields (constant v) fun _ => True :=
  (pooled_yields _).bind fun _ _ => one_yields _

theorem globalSlot_yields (name : String) : Yields (globalSlot name) fun _ => True := by
  intro s
  rw [globalSlot_eq]
  cases s.globals.findIdx? (· == name) <;> exact ⟨_, _, rfl, rfl, trivial⟩

theorem place_yields (env : Env) (name : String) : Yields (place env name) fun _ => True := by
  have hglobal : Yields (do return Place.global (← globalSlot name)) fun _ => True :=
    (globalSlot_yields name).bind fun _ _ => .ret trivial
  unfold place
  split
  · exact .ret trivial
  · split
    · exact hglobal
    · split
      · exact .ret trivial
      · split
        · exact .ret trivial
        · exact hglobal

theorem store_yields (env : Env) (name : String) : Yields (store env name) fun _ => True := by
  refine (place_yields env name).bind fun p _ => ?_
  cases p with
  | «local» | global => exact one_yields _
  | builtin | excClass => exact (globalSlot_yields name).bind fun _ _ => one_yields _

theorem stmts_nil_yields (env : Env) (pc : Nat) : Yields (stmts env pc []) (· = []) := by
  rw [stmts]
  exact .ret rfl

theorem stmts_single_yields {P : List Draft → Prop} {env : Env} {pc : Nat} {s : Stmt}
    (h : Yields (stmt env pc s) P) : Yields (stmts env pc [s]) P := by
  rw [stmts]
  refine h.bind fun ds hds => (stmts_nil_yields env _).bind fun more hmore => .ret ?_
  rwa [hmore, List.append_nil]

/-- The instructions of code with gaps. -/
def instrCount (ds : List Draft) : Nat := (ds.filterMap Draft.instr?).length

theorem instrCount_append (l r : List Draft) :
    instrCount (l ++ r) = instrCount l + instrCount r := by
  rw [instrCount, List.filterMap_append, List.length_append]
  rfl

theorem instrCount_drafts (code : List Instr) : instrCount (drafts code) = code.length := by
  rw [instrCount, drafts, List.filterMap_map]
  exact congrArg List.length List.filterMap_some

theorem instrCount_fill (t : Nat) (ds : List Draft) :
    instrCount (ds.map (.fill t)) = ds.length := by
  induction ds with
  | nil => rfl
  | cons d ds ih => cases d <;> simpa [instrCount, Draft.fill, Draft.instr?] using ih

/-- A program of one statement is compiled to at least the code of the statement. -/
theorem compile_yields {s : Stmt} {n : Nat} (hs : ∀ value, s ≠ .expr value)
    (h : ∀ env, env.blocks = [] → Yields (stmt env 0 s) fun ds => n ≤ instrCount ds) :
    ∃ code, compile [] [s] = .ok code ∧ n ≤ code.length := by
  let env : Env := ⟨none, Scope.moduleNames (Scope.insertAll [] []) [s], none, []⟩
  have hbody : Yields (moduleBody env 0 [s]) fun ds => n ≤ instrCount ds := by
    rw [moduleBody]
    · refine (h env rfl).bind fun ds hds => ?_
      rw [moduleBody]
      refine ((constant_yields _).bind fun i _ => .ret trivial).bind (P := fun _ => True)
        fun more _ => .ret ?_
      rw [instrCount_append]
      omega
    · exact fun value hv _ => hs value hv
  have hmain : Yields (do
        let body ← moduleBody env 0 [s]
        return body ++ drafts [← one .return]) fun ds => n ≤ instrCount ds := by
    refine hbody.bind fun ds hds => (one_yields _).bind fun i _ => .ret ?_
    rw [instrCount_append]
    omega
  obtain ⟨ds, t, hds, ht, hn⟩ := hmain ⟨#[default], Scope.insertAll [] [], .empty, .unknown⟩
  let main : Code := ⟨"<module>", (ds.filterMap Draft.instr?).toArray, t.pool, [], 0⟩
  refine ⟨⟨t.functions.setIfInBounds 0 main, t.globals⟩, ?_, Nat.le_trans hn ?_⟩
  · unfold compile
    simp only [StateT.run]
    rw [hds]
    rfl
  · rw [ht]
    simp [Bytecode.length, Code.lengthOf, main, instrCount]

/-! ### Clauses that are there twice -/

/-- `n` `try` statements, each in the `finally` clause of the one around it. -/
def nested : Nat → Stmt
  | 0 => .pass
  | n + 1 => .try [.pass] [] [] [nested n]

theorem nested_yields (env : Env) (pc n : Nat) :
    Yields (stmt env pc (nested n)) fun ds => 5 * (2 ^ n - 1) ≤ instrCount ds := by
  induction n generalizing env pc with
  | zero => rw [nested, stmt]; exact .ret (Nat.zero_le _)
  | succ n ih =>
    have hbody : ∀ env pc, Yields (stmts env pc [.pass]) fun _ => True := fun env pc =>
      stmts_single_yields (by rw [stmt]; exact .ret trivial)
    rw [nested, stmt]
    refine get_yields.bind fun s _ => .bind (P := fun _ => True) ((hbody _ _).bind fun b _ =>
      (stmts_nil_yields _ _).bind fun e _ => .ret trivial) fun b _ =>
      (one_yields _).bind fun pop _ =>
      (stmts_single_yields (ih _ _)).bind fun o ho => get_yields.bind fun s' _ =>
      (one_yields _).bind fun drop _ => (stmts_single_yields (ih _ _)).bind fun r hr =>
      (one_yields _).bind fun again _ => .ret ?_
    simp only [instrCount_append, instrCount_drafts, List.length_cons, List.length_nil,
      Nat.pow_succ]
    omega

/-! ### Jumps out of blocks -/

/-- `n` `try` statements with an `except` clause, each in the body of the one around it. -/
def guarded (body : List Stmt) : Nat → List Stmt
  | 0 => body
  | n + 1 => [.try (guarded body n) [.mk none none []] [] []]

/-- A loop with `n` jumps out of it from inside `n` `try` statements. -/
def breaks (n : Nat) : Stmt :=
  .while (.mk .unknown (.list [])) (guarded (.replicate n (.break .unknown)) n) []

/-- A jump out of `k` statements is as long as they are many. -/
theorem break_yields {env : Env} {loop : Loop} (hloop : env.loop = some loop)
    (hdepth : loop.depth = 0) (hfor : loop.isFor = false) {k : Nat}
    (hblocks : env.blocks = .replicate k .tryBody) (pc : Nat) :
    Yields (stmt env pc (.break .unknown)) fun ds => k ≤ ds.length := by
  have hleave : ∀ k : Nat, Yields (leave "break" .unknown (.replicate k .tryBody)) fun code =>
      code.length = k := fun k => by
    induction k with
    | zero => exact .ret rfl
    | succ k ih =>
      refine (one_yields _).bind fun i _ => ih.bind fun code hcode => .ret ?_
      rw [List.length_cons, hcode]
  have hinside : blocksInside env loop = .replicate k .tryBody := by
    rw [blocksInside, hdepth, hblocks, Nat.sub_zero, List.take_length]
  rw [stmt, hloop]
  refine (at_yields _).bind fun _ _ => ?_
  simp only [hfor, hinside, Bool.false_eq_true, if_false]
  refine (hleave k).bind fun out hout => .ret ?_
  simp only [List.length_append, length_drafts, List.append_nil, hout]
  omega

theorem guarded_yields {env : Env} {loop : Loop} (hloop : env.loop = some loop)
    (hdepth : loop.depth = 0) (hfor : loop.isFor = false) (n : Nat) {j k : Nat}
    (hblocks : env.blocks = .replicate j .tryBody) (pc : Nat) :
    Yields (stmts env pc (guarded (.replicate n (.break .unknown)) k)) fun ds =>
      n * (j + k) ≤ ds.length := by
  induction k generalizing env j pc with
  | zero =>
    rw [guarded]
    induction n generalizing pc with
    | zero =>
      rw [List.replicate, stmts]
      exact .ret (by simp)
    | succ n ih =>
      rw [List.replicate_succ, stmts]
      refine (break_yields hloop hdepth hfor hblocks pc).bind fun ds hds => (ih _).bind
        fun more hmore => .ret ?_
      rw [List.length_append, Nat.succ_mul]
      omega
  | succ k ih =>
    rw [guarded]
    refine stmts_single_yields ?_
    rw [stmt]
    simp only [List.isEmpty_cons, List.isEmpty_nil, if_true, Bool.false_eq_true, if_false]
    let inside : Env := { env with blocks := .tryBody :: env.blocks }
    have hinside : inside.blocks = .replicate (j + 1) .tryBody := congrArg (List.cons _) hblocks
    have hbody := ih (show inside.loop = some loop from hloop) hinside
    have hhandler : ∀ pc, Yields (handlers env pc [.mk none none []]) fun _ => True := fun pc => by
      rw [handlers]
      refine .ret_bind (get_yields.bind fun s _ => (one_yields _).bind fun bind _ =>
        (stmts_nil_yields _ _).bind fun b _ => (one_yields _).bind fun pop _ =>
        get_yields.bind fun s' _ => .bind (P := fun _ => True) ?_ fun more _ => .ret trivial)
      rw [handlers]
      exact .ret trivial
    refine get_yields.bind fun s _ => (hbody _).bind fun b hb => (one_yields _).bind fun pop _ =>
      (stmts_nil_yields _ _).bind fun o _ => get_yields.bind fun s' _ =>
      (hhandler _).bind fun h _ => (one_yields _).bind fun again _ => .ret ?_
    rw [Nat.add_right_comm] at hb
    rw [← Nat.add_assoc]
    simp only [List.length_append]
    omega

theorem breaks_yields {env : Env} (hblocks : env.blocks = []) (pc n : Nat) :
    Yields (stmt env pc (breaks n)) fun ds => n * n ≤ instrCount ds := by
  have htest : Yields (expr env pc (.mk .unknown (.list []))) fun _ => True := by
    rw [expr, exprForm, exprs]
    exact (at_yields _).bind fun _ _ => .ret_bind ((at_yields _).bind fun _ _ =>
      (one_yields _).bind fun i _ => .ret trivial)
  let inside := { env with loop := some ⟨pc, env.blocks.length, false⟩ }
  have hbody : ∀ q, Yields (stmts inside q (guarded (.replicate n (.break .unknown)) n))
      fun ds => n * (0 + n) ≤ ds.length :=
    guarded_yields rfl (congrArg List.length hblocks) rfl n hblocks
  rw [breaks, stmt]
  refine htest.bind fun t _ => get_yields.bind fun s _ => (hbody _).bind fun b hb =>
    (one_yields _).bind fun back _ => (stmts_nil_yields _ _).bind fun o _ => .ret ?_
  rw [Nat.zero_add] at hb
  simp only [instrCount_append, instrCount_fill]
  omega

/-! ### Imports -/

/-- An import of one name, `n` times. -/
def imports (n : Nat) : Stmt := .importFrom .os (.replicate n ("getenv", "getenv")) .unknown

theorem imports_yields (env : Env) (pc n : Nat) :
    Yields (stmt env pc (imports n)) fun ds => n ≤ instrCount ds := by
  have hnames : ∀ n : Nat, Yields (importNames env .os (.replicate n ("getenv", "getenv")))
      fun code => n ≤ code.length := fun n => by
    induction n with
    | zero => exact .ret (Nat.zero_le _)
    | succ n ih =>
      rw [List.replicate_succ, importNames]
      refine (one_yields _).bind fun i _ => (pooled_yields _).bind fun a _ =>
        (one_yields _).bind fun g _ => (store_yields env _).bind fun w _ => ih.bind fun more hm =>
        .ret ?_
      simp only [List.length_append, List.length_cons, List.length_nil]
      omega
  rw [imports, stmt]
  refine (at_yields _).bind fun _ _ => (hnames n).bind fun code hcode => .ret ?_
  rwa [instrCount_drafts]

/-! ### Sizes -/

theorem nodes_nested (w n : Nat) : (nested n).nodes w = 2 * n + 1 := by
  induction n with
  | zero => rfl
  | succ n ih =>
    simp only [nested, Stmt.nodes, Stmt.allNodes, Handler.allNodes, ih]
    omega

theorem tryDepth_nested (n : Nat) : (nested n).tryDepth = n := by
  induction n with
  | zero => rfl
  | succ n ih => simp [nested, Stmt.tryDepth, Stmt.allTryDepth, Handler.allTryDepth, ih]

theorem nodes_guarded (body : List Stmt) (n : Nat) :
    Stmt.allNodes 1 (guarded body n) = Stmt.allNodes 1 body + 2 * n := by
  induction n with
  | zero => rfl
  | succ n ih =>
    simp only [guarded, Stmt.allNodes, Stmt.nodes, Handler.allNodes, Expr.maybeNodes, ih]
    omega

theorem finallyDepth_guarded (body : List Stmt) (n : Nat) :
    Stmt.allFinallyDepth (guarded body n) = Stmt.allFinallyDepth body := by
  induction n with
  | zero => rfl
  | succ n ih =>
    simp [guarded, Stmt.allFinallyDepth, Stmt.finallyDepth, Handler.allFinallyDepth, ih]

theorem nodes_breaks (n : Nat) : (breaks n).nodes 1 = 3 * n + 2 := by
  have hbreaks : Stmt.allNodes 1 (.replicate n (.break .unknown)) = n := by
    induction n with
    | zero => rfl
    | succ n ih => rw [List.replicate_succ, Stmt.allNodes, ih, Stmt.nodes, Nat.add_comm]
  simp only [breaks, Stmt.nodes, nodes_guarded, hbreaks, Expr.nodes, ExprForm.nodes,
    Expr.allNodes, Stmt.allNodes]
  omega

theorem finallyDepth_breaks (n : Nat) : (breaks n).finallyDepth = 0 := by
  have hbreaks : Stmt.allFinallyDepth (.replicate n (.break .unknown)) = 0 := by
    induction n with
    | zero => rfl
    | succ n ih => rw [List.replicate_succ, Stmt.allFinallyDepth, ih]; rfl
  rw [breaks, Stmt.finallyDepth, finallyDepth_guarded, hbreaks]
  rfl

/-! ### No constant -/

/-- All programs have at most a constant times as many instructions as their size says. -/
def CodeWithin (size : List Stmt → Nat) : Prop :=
  ∃ C, ∀ preset program code, compile preset program = .ok code → code.length ≤ C * size program

theorem not_codeWithin {size : List Stmt → Nat} {s : Nat → Stmt} {n : Nat → Nat}
    (h : ∀ i env, env.blocks = [] → Yields (stmt env 0 (s i)) fun ds => n i ≤ instrCount ds)
    (hs : ∀ i value, s i ≠ .expr value)
    (hlarge : ∀ C, ∃ i, C * size [s i] < n i) : ¬ CodeWithin size := by
  rintro ⟨C, hC⟩
  obtain ⟨i, hi⟩ := hlarge C
  obtain ⟨code, hcode, hn⟩ := compile_yields (hs i) (h i)
  exact absurd (hC [] [s i] code hcode) (by omega)

/-- Powers of two outgrow every multiple of the sizes of `nested`. -/
theorem exists_lt_two_pow (C : Nat) : ∃ n, C * ((n + 1) * (2 * n + 2)) < 5 * (2 ^ n - 1) := by
  let m := 18 * C + 1
  let y := (m + 1) * (m + 1)
  refine ⟨3 * m, ?_⟩
  have hpow : (m + 1) * y ≤ 2 ^ (3 * m) := by
    have hm : m + 1 ≤ 2 ^ m := m.lt_two_pow_self
    calc (m + 1) * y
      _ ≤ 2 ^ m * (2 ^ m * 2 ^ m) := Nat.mul_le_mul hm (Nat.mul_le_mul hm hm)
      _ = 2 ^ (3 * m) := by rw [← Nat.pow_add, ← Nat.pow_add]; congr 1; omega
  have hsize : C * ((3 * m + 1) * (2 * (3 * m) + 2)) ≤ m * y :=
    calc C * ((3 * m + 1) * (2 * (3 * m) + 2))
      _ ≤ C * ((3 * (m + 1)) * (6 * (m + 1))) :=
        Nat.mul_le_mul_left C (Nat.mul_le_mul (by omega) (by omega))
      _ = 18 * C * y := by simp only [y]; ring
      _ ≤ m * y := Nat.mul_le_mul_right y (Nat.le_succ _)
  have hy : 2 * 2 ≤ y := Nat.mul_le_mul (by omega) (by omega)
  rw [Nat.succ_mul] at hpow
  omega

theorem nested_not_codeWithin {size : List Stmt → Nat}
    (hsize : ∀ n, size [nested n] ≤ (n + 1) * (2 * n + 2)) : ¬ CodeWithin size := by
  refine not_codeWithin (fun i env _ => nested_yields env 0 i)
    (fun i value => by cases i <;> nofun) fun C => ?_
  obtain ⟨n, hn⟩ := exists_lt_two_pow C
  exact ⟨n, Nat.lt_of_le_of_lt (Nat.mul_le_mul_left C (hsize n)) hn⟩

end Compile

/-- No constant bounds the instructions for a node, because clauses inside one another are laid out
twice each; nor if a factor of `compile_length_le` is left out, or the parts that are neither
statements nor expressions are not counted. -/
theorem compile_not_linear :
    ¬ CodeWithin (fun p => Stmt.allNodes 0 p + 1) ∧
    ¬ CodeWithin (fun p => (Stmt.allTryDepth p + 1) * (Stmt.allNodes 1 p + 1)) ∧
    ¬ CodeWithin (fun p => 2 ^ Stmt.allFinallyDepth p * (Stmt.allNodes 1 p + 1)) ∧
    ¬ CodeWithin (fun p =>
      2 ^ Stmt.allFinallyDepth p * ((Stmt.allTryDepth p + 1) * (Stmt.allNodes 0 p + 1))) := by
  have hbreaks := fun i (env : Env) (h : env.blocks = []) => breaks_yields h 0 i
  have himports := fun i (env : Env) (_ : env.blocks = []) => imports_yields env 0 i
  refine ⟨nested_not_codeWithin fun n => ?_, nested_not_codeWithin fun n => ?_,
    not_codeWithin hbreaks (fun _ _ => nofun) fun C => ⟨3 * C + 1, ?_⟩,
    not_codeWithin himports (fun _ _ => nofun) fun C => ⟨2 * C + 1, ?_⟩⟩
  · simp only [Stmt.allNodes, nodes_nested]
    exact Nat.le_mul_of_pos_left _ n.succ_pos
  · simp [Stmt.allTryDepth, Stmt.allNodes, tryDepth_nested, nodes_nested]
  · simp only [Stmt.allFinallyDepth, Stmt.allNodes, finallyDepth_breaks, nodes_breaks]
    have hsquare : (3 * C + 1) * (3 * C + 1) = C * (3 * (3 * C + 1) + 3) + 1 := by ring
    rw [hsquare, Nat.max_self, Nat.pow_zero, Nat.one_mul]
    exact Nat.lt_succ_self _
  · simp only [imports, Stmt.allFinallyDepth, Stmt.finallyDepth, Stmt.allTryDepth, Stmt.tryDepth,
      Stmt.allNodes, Stmt.nodes, Nat.mul_zero, Nat.max_self, Nat.pow_zero]
    omega

end Resumable
