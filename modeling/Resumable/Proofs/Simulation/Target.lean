import Resumable.Proofs.Simulation.Expression

/-!
# Targets

The code that binds targets takes the values from the stack and does what their evaluation does. So
does the code of other parts of statements that only load and store: the defaults of parameters, and
imports.
-/

namespace Resumable

open Machine Semantics

section
variable {α : Type} {s : Script} {n : Nat} {c : Ctx} {F : Code} {pc : Nat}
  {base kept start : List Value} {span : Span} {v : Value}

/-- A property of all values of an evaluation. -/
theorem Sim.gives {P : α → Prop} {act : Sem α} {q : α → Nat} {stack : α → List Value}
    (h : Sim s n c base pc start act (c.At q stack))
    (hP : ∀ σ a τ, act σ = .ok a τ → P a) : Sim s n c base pc start act (c.Gives P q stack) := by
  intro σ events
  obtain ⟨p, hp, hmet⟩ := h σ events
  refine ⟨p, hp, ?_⟩
  cases hr : act σ with
  | ok a τ =>
    rw [hr] at hmet
    exact ⟨hP σ a τ hr, hmet⟩
  | error e τ =>
    rw [hr] at hmet
    cases e <;> exact hmet

theorem perform_ok {c : Scope} {act : Sem α} {σ τ : Semantics.State} {a : α}
    (h : perform c span kept act σ = .ok a τ) : ∃ υ, act υ = .ok a τ := by
  change EStateM.bind (charge c kept) (fun _ => located c span act) σ = _ at h
  unfold EStateM.bind at h
  cases hc : charge c kept σ with
  | error e υ => rw [hc] at h; cases h
  | ok u υ =>
    rw [hc] at h
    refine ⟨υ, ?_⟩
    change located c span act υ = _ at h
    unfold located at h
    cases ha : act υ with
    | ok b υ' => rw [ha] at h; exact h
    | error e υ' => rw [ha] at h; cases e <;> cases h

theorem unpack_length {k : Nat} {h h' : Heap} {items : List Value}
    (hu : Index.unpack v k h = .ok items h') : items.length = k := by
  have hget : (MonadState.get : Heap.Action Heap) h = .ok h h := rfl
  rw [Index.unpack, bind_ok hget] at hu
  cases hitems : h.items? v with
  | none => rw [hitems] at hu; cases hu
  | some xs =>
    rw [hitems] at hu
    dsimp only at hu
    split at hu
    · cases hu
    · split at hu
      · cases hu
      · cases hu
        rw [Array.length_toList]
        omega

theorem Sim.unpacks {k : Nat} (hF : s.bytecode.functions[c.function]? = some F)
    (hi : F.instrs[pc]? = some ⟨.unpackSequence k, span⟩) :
    Sim s n c kept pc (v :: kept)
      (perform c.scope span (v :: kept) (Semantics.onHeap (Index.unpack v k)))
      (c.Gives (·.length = k) (fun _ => pc + 1) fun items => items ++ kept) := by
  refine (Sim.unpackSequence hF hi).gives fun σ items τ h => ?_
  obtain ⟨υ, hυ⟩ := perform_ok h
  unfold Semantics.onHeap at hυ
  cases hu : Index.unpack v k υ.heap with
  | ok items' heap =>
    rw [hu] at hυ
    cases hυ
    exact unpack_length hu
  | error e heap => rw [hu] at hυ; cases hυ

end

namespace Compile

mutual

theorem target_follows (env : Env) (pc : Nat) (span : Span) (t : Target) :
    Makes (target env pc span t) fun K code => ∀ v,
      Follows env K pc code [v] (fun E kept => bindTo E kept span v t) fun _ => [] := by
  match t with
  | .name id =>
    rw [target]
    refine (store_makes env id).bind fun i => .ret fun K hi v => ?_
    intro s n c F E hE hcode kept
    obtain ⟨_, rfl⟩ := hi E.names hE.names
    beta_reduce
    rw [bindTo]
    exact Sim.store hE hcode.head
  | .subscript object index =>
    rw [target]
    simp only [at_one]
    refine (expr_follows env pc object).bind fun o => (expr_follows env _ index).bind fun i =>
      .at <| .ret fun K hi ho v => ?_
    intro s n c F E hE hcode kept
    beta_reduce
    rw [bindTo, hE.scope]
    refine ((ho hE hcode.left.left (v :: kept)).lower (List.suffix_cons v kept)).bind fun a =>
      ((hi hE (hcode.left.right rfl) (a :: v :: kept)).lower
        (List.suffix_append [a, v] kept)).bind fun b => ?_
    exact (Sim.storeSubscript hE.code (hcode.last (by simp [Nat.add_assoc]))).ends
      (fun _ => by simp [Nat.add_assoc]) fun _ => rfl
  | .tuple ts =>
    rw [target]
    simp only [at_one]
    refine .at <| (targets_follow env _ span ts).bind fun code => .ret fun K hc v => ?_
    intro s n c F E hE hcode kept
    beta_reduce
    rw [bindTo, hE.scope]
    refine (Sim.unpacks hE.code hcode.head).bind_gives fun items hitems => ?_
    exact (hc items hitems hE hcode.tail kept).ends (fun _ => by simp; omega) fun _ => rfl

theorem targets_follow (env : Env) (pc : Nat) (span : Span) (ts : List Target) :
    Makes (targets env pc span ts) fun K code => ∀ values, values.length = ts.length →
      Follows env K pc code values (fun E kept => bindEach E kept span values ts) fun _ => [] := by
  match ts with
  | [] =>
    rw [targets]
    refine .ret fun K values hvalues s n c F E hE hcode kept => ?_
    obtain rfl := List.eq_nil_of_length_eq_zero hvalues
    beta_reduce
    rw [bindEach]
    exact .ret rfl rfl
  | t :: ts =>
    rw [targets]
    refine (target_follows env pc span t).bind fun code => (targets_follow env _ span ts).bind
      fun more => .ret fun K hm hc values hvalues => ?_
    obtain ⟨v, values, rfl⟩ := List.exists_cons_of_length_eq_add_one hvalues
    intro s n c F E hE hcode kept
    beta_reduce
    rw [bindEach]
    refine ((hc v hE hcode.left (values ++ kept)).lower (List.suffix_append _ _)).bind fun _ => ?_
    exact (hm values (Nat.succ.inj hvalues) hE (hcode.right rfl) kept).ends
      (fun _ => by simp [Nat.add_assoc]) fun _ => rfl

end

theorem assignAll_follows (env : Env) (pc : Nat) (span : Span) (first : Target)
    (rest : List Target) :
    Makes (assignAll env pc span first rest) fun K code => ∀ v,
      Follows env K pc code [v] (fun E kept => bindAll E kept span v first rest) fun _ => [] := by
  induction rest generalizing pc first with
  | nil =>
    rw [assignAll]
    refine (target_follows env pc span first).imp fun K code h v => ?_
    intro s n c F E hE hcode kept
    beta_reduce
    rw [bindAll]
    exact h v hE hcode kept
  | cons next rest ih =>
    rw [assignAll]
    refine (one_makes _).bind fun copy => (target_follows env _ span first).bind fun code =>
      (ih _ next).bind fun more => .ret fun K hm hc hcopy v => ?_
    obtain ⟨_, rfl⟩ := hcopy
    intro s n c F E hE hcode kept
    beta_reduce
    rw [bindAll, hE.scope]
    refine (Sim.dup hE.code hcode.left.head).bind fun _ =>
      ((hc v hE hcode.left.tail (v :: kept)).lower (List.suffix_cons v kept)).bind fun _ => ?_
    exact (hm v hE (hcode.right (by simp; omega)) kept).ends (fun _ => by simp; omega) fun _ => rfl

theorem defaults_follow (env : Env) (pc : Nat) (params : List Param) :
    Makes (defaults env pc params) fun K x =>
      FollowsAll env K pc x.1 x.2 fun E kept => evalDefaults E kept params := by
  induction params generalizing pc with
  | nil =>
    rw [defaults]
    refine .ret fun K s n c F E hE hcode kept => ?_
    beta_reduce
    rw [evalDefaults]
    exact .noValues kept
  | cons p rest ih =>
    rw [defaults]
    split
    · next hnone =>
      refine (ih pc).imp fun K x h => ?_
      intro s n c F E hE hcode kept
      beta_reduce
      rw [evalDefaults, hnone]
      exact h hE hcode kept
    · next e hsome =>
      refine (expr_follows env pc e).bind fun code => (ih _).bind fun x => .ret fun K hm hc => ?_
      intro s n c F E hE hcode kept
      beta_reduce
      rw [evalDefaults, hsome]
      refine (hc hE hcode.left kept).bind fun v => ?_
      exact .more [v] (hm hE (hcode.right rfl) (v :: kept)) (Nat.add_comm _ 1)
        (by simp [Nat.add_assoc])

/-- The instruction that stores a name, behind one whose span has been set. -/
theorem at_store {α : Type} (env : Env) (name : String) (span : Span) (f : Instr → Build α) :
    (at_ span >>= fun _ => store env name >>= f) =
      at_ span >>= fun _ => store env name >>= fun i => at_ span >>= fun _ => f i :=
  at_quiet (store_quiet env name) span f

theorem at_pooled {α ι : Type} (add : Pool → ι × Pool) (span : Span) (f : ι → Build α) :
    (at_ span >>= fun _ => pooled add >>= f) =
      at_ span >>= fun _ => pooled add >>= fun i => at_ span >>= fun _ => f i :=
  at_quiet (pooled_quiet add) span f

theorem importNames_follow (env : Env) (pc : Nat) (span : Span) (module : Module)
    (names : List (String × String)) :
    Makes (at_ span >>= fun _ => importNames env module names) fun K code =>
      Follows env K pc code [] (fun E kept => importAll E kept span module names) fun _ => [] := by
  induction names generalizing pc with
  | nil =>
    rw [importNames]
    refine .at <| .ret fun K s n c F E hE hcode kept => ?_
    beta_reduce
    rw [importAll]
    exact .ret rfl rfl
  | cons x names ih =>
    rw [importNames]
    simp only [at_one]
    rw [at_pooled]
    simp only [at_one]
    refine .at <| (addName_makes x.1).bind fun j => ?_
    rw [at_store]
    refine .at <| (store_makes env x.2).bind fun w => ?_
    rw [← bind_assoc]
    refine (ih (pc + 3)).bind fun more => .ret fun K hm hw hj => ?_
    intro s n c F E hE hcode kept
    obtain ⟨_, rfl⟩ := hw E.names hE.names
    beta_reduce
    rw [importAll, hE.scope]
    refine (Sim.importModule hE.code hcode.left.head).bind fun _ => ?_
    refine (Sim.getAttr hE.code hcode.left.tail.head rfl (hj _ hE.pool)).bind fun v => ?_
    refine (Sim.store hE hcode.left.tail.tail.head).bind fun _ => ?_
    exact (hm hE (hcode.right rfl) kept).ends (fun _ => by simp; omega) fun _ => rfl

end Compile

end Resumable
