import Resumable.Machine.Step
import Resumable.Proofs.Discipline.Machine

/-!
# Instructions and the stacks

An instruction that fits its label leads to a machine that has the label of an instruction that
comes next (`execute_leads`), on the same frame, on that of a function that it has called, or on
that of the caller; or it stops for the host, which owes it a value then.
-/

namespace Resumable

/-- An instruction may call something, or wait for it. -/
def Op.calls : Op → Bool
  | .getAttr _ | .call .. | .callVar _ | .callMethod .. | .callMethodVar .. | .await => true
  | _ => false

theorem Op.pushes_of_calls {op : Op} (h : op.calls = true) : op.pushes = some 1 := by
  cases op <;> first | rfl | cases h

namespace Machine

variable {f : Frame} {callers : List Frame} {kept : List Value} {pc n k : Nat} {σ : Shape}

/-! ## Operands -/

theorem get_leads {α : Type} {act : Machine → Exec α} {P : Machine → Prop} {E : Machine → Prop}
    {Q : α → Machine → Prop} (h : ∀ m, Leads P (act m) Q E) : Leads P (get >>= act) Q E :=
  .read fun m _ => h m

theorem unpack_leads (v : Value) (k : Nat) :
    Leads (Stands f callers kept pc (σ.up n)) (onHeap (Index.unpack v k))
      (fun items m => items.length = k ∧ Stands f callers kept pc (σ.up n) m)
      (Fallen f callers kept pc σ) := by
  refine onHeap_leads' (Leads.read fun h _ => ?_)
  split
  · exact .fail fun _ _ => trivial
  · simp only
    split
    · exact .fail fun _ _ => trivial
    · split
      · exact .fail fun _ _ => trivial
      · exact .ret fun _ _ => by rw [Array.length_toList]; omega

theorem sliceBounds_leads (vs : List Value) :
    Leads (Stands f callers kept pc (σ.up n)) (vs.mapM sliceBound)
      (fun _ => Stands f callers kept pc (σ.up n)) (Fallen f callers kept pc σ) := by
  have hone : ∀ v, Leads (Stands f callers kept pc (σ.up n)) (sliceBound v)
      (fun _ => Stands f callers kept pc (σ.up n)) (Fallen f callers kept pc σ) := fun v => by
    unfold sliceBound
    split
    · exact .ret fun m h => h
    · split
      · exact .ret fun m h => h
      · exact fail_leads _
  induction vs with
  | nil => exact .ret fun m h => h
  | cons v vs ih =>
    rw [List.mapM_cons]
    exact (hone v).bind fun _ => ih.bind fun _ => .ret fun m h => h

theorem spread_leads (v : Value) :
    Leads (Stands f callers kept pc (σ.up n)) (spread v)
      (fun _ => Stands f callers kept pc (σ.up n)) (Fallen f callers kept pc σ) := by
  unfold spread
  split
  · exact .ret fun m h => h
  · refine get_leads fun m => ?_
    simp only
    split
    · exact .ret fun m h => h
    · exact fail_leads _

theorem exists_cons_cons_of_length {α : Type} {xs : List α} {n : Nat} (h : xs.length = n + 2) :
    ∃ a b rest, xs = a :: b :: rest := by
  obtain ⟨a, xs, rfl⟩ := List.exists_cons_of_length_eq_add_one h
  obtain ⟨b, rest, rfl⟩ := List.exists_cons_of_length_eq_add_one (Nat.succ.inj h)
  exact ⟨a, b, rest, rfl⟩

/-! ## Instructions that only change operands -/

theorem executePlain_leads (code : Bytecode) (pool : Pool) {op : Op} (hop : op.calls = false)
    (hk : op.pushes = some k) :
    Leads (Stands f callers kept pc (σ.up (op.pops pool))) (executePlain code op)
      (fun _ => Stands f callers kept pc (σ.up k)) (Fallen f callers kept pc σ) := by
  cases op with
  | loadConst i =>
    cases hk
    exact get_leads fun m => push_leads _
  | loadLocal slot =>
    cases hk
    refine get_leads fun m => ?_
    split
    · exact fail_leads (n := 0) _
    · exact fail_leads (n := 0) _
    · exact push_leads _
  | storeLocal slot =>
    cases hk
    refine pop_leads.bind fun v => .update fun m h => ?_
    obtain ⟨locals, hf⟩ := h.frame
    exact { h with frame := ⟨locals.setIfInBounds slot v, by rw [hf]⟩ }
  | loadGlobal slot =>
    cases hk
    refine get_leads fun m => ?_
    split
    · exact fail_leads (n := 0) _
    · exact fail_leads (n := 0) _
    · exact push_leads _
  | storeGlobal slot =>
    cases hk
    exact pop_leads.bind fun v => .update fun m h => { h with }
  | loadBuiltin b => cases hk; exact push_leads _
  | loadExcClass t => cases hk; exact push_leads _
  | pop => cases hk; exact pop_leads.bind fun _ => .ret fun m h => h
  | dup => cases hk; exact peek_leads.bind fun v => push_leads v
  | dup2 =>
    cases hk
    refine .update fun m h => { h with operands := ?_ }
    obtain ⟨own, hs, hn⟩ := h.operands
    simp only [Op.pops, Shape.up_operands] at hn
    refine ⟨own.take 2 ++ own, ?_, by simp [hn]; omega⟩
    rw [hs, List.take_append_of_le_length (by omega), List.append_assoc]
  | rot2 =>
    cases hk
    refine .update fun m h => ?_
    obtain ⟨own, hs, hn⟩ := h.operands
    obtain ⟨b, a, rest, rfl⟩ : ∃ b a rest, own = b :: a :: rest := exists_cons_cons_of_length hn
    rw [hs]
    exact { h with operands := ⟨a :: b :: rest, rfl, hn⟩ }
  | rot3 =>
    cases hk
    refine .update fun m h => ?_
    obtain ⟨own, hs, hn⟩ := h.operands
    obtain ⟨c, own, rfl⟩ := List.exists_cons_of_length_eq_add_one hn
    obtain ⟨b, a, rest, rfl⟩ : ∃ b a rest, own = b :: a :: rest :=
      exists_cons_cons_of_length (Nat.succ.inj hn)
    rw [hs]
    exact { h with operands := ⟨b :: a :: c :: rest, rfl, hn⟩ }
  | binary op =>
    cases hk
    exact pop_leads.bind fun b => pop_leads.bind fun a =>
      (onHeap_leads _).bind fun v => push_leads v
  | inplace op =>
    cases hk
    exact pop_leads.bind fun b => pop_leads.bind fun a =>
      (onHeap_leads _).bind fun v => push_leads v
  | compare op =>
    cases hk
    exact pop_leads.bind fun b => pop_leads.bind fun a =>
      (onHeap_leads _).bind fun v => push_leads _
  | not => cases hk; exact pop_leads.bind fun v => get_leads fun m => push_leads _
  | neg => cases hk; exact pop_leads.bind fun v => (onHeap_leads _).bind fun v => push_leads v
  | pos => cases hk; exact pop_leads.bind fun v => (onHeap_leads _).bind fun v => push_leads v
  | buildList count =>
    cases hk
    exact popAll_leads.bind fun vs => (onHeap_leads (n := 0) _).bind fun v => push_leads v
  | buildTuple count => cases hk; exact popAll_leads.bind fun vs => push_leads (n := 0) _
  | buildDict count =>
    cases hk
    exact popAll_leads.bind fun vs => (onHeap_leads (n := 0) _).bind fun v => push_leads v
  | buildString count =>
    cases hk
    exact popAll_leads.bind fun vs => get_leads fun m => (onHeap_leads (n := 0) _).bind fun _ =>
      push_leads _
  | formatValue conversion spec =>
    cases hk
    exact pop_leads.bind fun v => get_leads fun m => get_leads fun m' =>
      (onHeap_leads _).bind fun s => push_leads _
  | buildSlice =>
    cases hk
    refine popAll_leads.bind fun vs => (sliceBounds_leads (n := 0) vs).bind fun bounds => ?_
    split
    · exact push_leads _
    · exact push_leads _
  | toTuple => cases hk; exact pop_leads.bind fun v => (spread_leads v).bind fun v => push_leads v
  | unpackSequence count =>
    cases hk
    refine pop_leads.bind fun v => (unpack_leads v k).bind fun items => .update fun m h => ?_
    obtain ⟨own, hs, hn⟩ := h.2.operands
    exact { h.2 with
      operands := ⟨items ++ own, by rw [hs, List.append_assoc], by simp [h.1, hn, Nat.add_comm]⟩ }
  | subscript =>
    cases hk
    exact pop_leads.bind fun b => pop_leads.bind fun a =>
      (onHeap_leads _).bind fun v => push_leads v
  | storeSubscript =>
    cases hk
    exact pop_leads.bind fun i => pop_leads.bind fun o => pop_leads.bind fun v => onHeap_leads _
  | getIter => cases hk; exact pop_leads.bind fun v => (onHeap_leads _).bind fun v => push_leads v
  | makeFunction i count => cases hk; exact popAll_leads.bind fun vs => push_leads (n := 0) _
  | importModule m => cases hk; exact push_leads _
  | checkExcMatch =>
    cases hk
    refine pop_leads.bind fun cls => pop_leads.bind fun exc => ?_
    split
    · exact push_leads _
    · exact fail_leads _
  | getAttr | call | callVar | callMethod | callMethodVar | await => cases hop
  | jump | jumpIfFalse | jumpIfTrue | jumpIfFalseOrPop | jumpIfTrueOrPop | forIter => cases hk
  | «return» | setupExcept | popBlock | popExcept | raise | reraise => cases hk

/-! ## All instructions -/

variable {S : Shapes} {code : Bytecode}

/-- What an instruction leaves on the stacks, and where the run goes on. -/
inductive Landed (code : Bytecode) (S : Shapes) (f : Frame) (callers : List Frame)
    (kept : List Value) : Option Exit → Machine → Prop
  /-- In the same function. -/
  | goes {q σ m} : S q = some σ → Stands f callers kept q σ m → Landed code S f callers kept none m
  /-- In a function that has been called. -/
  | enters {q σ m} : S q = some (σ.up 1) → Guarded S 0 σ → Entered code f callers kept q σ m →
      Landed code S f callers kept none m
  /-- In the caller. -/
  | returns {g below v m} : callers = g :: below → m.frame = g → m.callers = below →
      m.stack = v :: kept → kept.length = f.base → m.handled.length = f.handledBase →
      Landed code S f callers kept none m
  /-- Where the host gives a value. -/
  | asks {x q m} {σ : Shape} : x.isCall = true → S q = some (σ.up 1) → Guarded S 0 σ →
      Stands f callers kept q σ m → Landed code S f callers kept (some x) m
  /-- At the same instruction, when futures are resolved. -/
  | waits {pending q σ m} : S q = some σ → Stands f callers kept q σ m →
      Landed code S f callers kept (some (.blocked pending)) m
  /-- Nowhere: the program has ended. -/
  | ends {v m} : callers = [] → m.callers = [] → m.stack = kept → kept.length = f.base →
      m.handled.length = f.handledBase → Landed code S f callers kept (some (.returned v)) m

/-- An instruction has failed, and the innermost handler can be entered. -/
def Failed (S : Shapes) (f : Frame) (callers : List Frame) (kept : List Value) (m : Machine) :
    Prop :=
  ∃ q σ, Guarded S 0 σ ∧ Stands f callers kept q σ m

theorem Fallen.failed {m : Machine} (h : Fallen f callers kept pc σ m) (hg : Guarded S 0 σ) :
    Failed S f callers kept m := h.elim fun n h => ⟨pc, σ.up n, hg.above n, h⟩

theorem Called.landed {x : Option Exit} {m : Machine} (h : Called code f callers kept pc σ x m)
    (hS : S pc = some (σ.up 1)) (hg : Guarded S 0 σ) : Landed code S f callers kept x m := by
  rcases h with h | ⟨rfl, h⟩
  · cases x with
    | none => exact .goes hS h
    | some x => exact .asks h.1 hS hg h.2
  · exact .enters hS hg h

/-- The pool of the code of a frame. -/
def framePool (code : Bytecode) (f : Frame) : Pool :=
  (code.functions[f.function]?).elim .empty (·.pool)

theorem popNamed_leads (code : Bytecode) (kws : Option Nat) {E : Machine → Prop} :
    Leads (Stands f callers kept pc (σ.up (n + ((framePool code f).keywordNames kws).length)))
      (popNamed code kws) (fun _ => Stands f callers kept pc (σ.up n)) E := by
  refine .read fun m hm => ?_
  obtain ⟨locals, hf⟩ := hm.frame
  have hpool : m.pool code = framePool code f := by rw [pool, hf, framePool]
  rw [hpool]
  exact popMany_leads.bind fun vs => .ret fun m h => h

theorem popPacked_leads {E : Machine → Prop} :
    Leads (Stands f callers kept pc (σ.up (n + 1))) popPacked
      (fun _ => Stands f callers kept pc (σ.up n)) E := by
  refine pop_leads.bind fun v => ?_
  split
  · exact .ret fun m h => h
  · exact .ret fun m h => h

/-- The instructions that may call something. -/
theorem execute_leads_of_calls {op : Op} (hop : op.calls = true) (hne : op ≠ .await)
    (hS : S pc = some (σ.up 1)) (hg : Guarded S 0 σ) :
    Leads (Stands f callers kept pc (σ.up (op.pops (framePool code f)))) (execute code op)
      (Landed code S f callers kept) (Failed S f callers kept) := by
  have hcalled : Leads (Stands f callers kept pc (σ.up (op.pops (framePool code f))))
      (execute code op) (Called code f callers kept pc σ) (Fallen f callers kept pc σ) := by
    cases op with
    | getAttr i =>
      exact pop_leads.bind fun v => .read fun m _ =>
        (getAttribute_leads (σ := σ) v _).imp fun _ _ h => .inl h
    | call count kws =>
      have hpops : Op.pops (framePool code f) (.call count kws) =
        0 + 1 + count + ((framePool code f).keywordNames kws).length := by rw [Op.pops]; omega
      rw [hpops]
      exact (popNamed_leads code kws).bind fun named => popMany_leads.bind fun args =>
        pop_leads.bind fun v => callValue_leads (σ := σ) code v _
    | callVar kws =>
      have hpops : Op.pops (framePool code f) (.callVar kws) =
        0 + 1 + 1 + ((framePool code f).keywordNames kws).length := by rw [Op.pops]; omega
      rw [hpops]
      exact (popNamed_leads code kws).bind fun named => popPacked_leads.bind fun args =>
        pop_leads.bind fun v => callValue_leads (σ := σ) code v _
    | callMethod i count kws =>
      have hpops : Op.pops (framePool code f) (.callMethod i count kws) =
        0 + 1 + count + ((framePool code f).keywordNames kws).length := by rw [Op.pops]; omega
      rw [hpops]
      exact (popNamed_leads code kws).bind fun named => popMany_leads.bind fun args =>
        pop_leads.bind fun v => .read fun m _ => callMethod_leads (σ := σ) code v _ _
    | callMethodVar i kws =>
      have hpops : Op.pops (framePool code f) (.callMethodVar i kws) =
        0 + 1 + 1 + ((framePool code f).keywordNames kws).length := by rw [Op.pops]; omega
      rw [hpops]
      exact (popNamed_leads code kws).bind fun named => popPacked_leads.bind fun args =>
        pop_leads.bind fun v => .read fun m _ => callMethod_leads (σ := σ) code v _ _
    | await => contradiction
    | _ => cases hop
  exact hcalled.mono (fun x m h => h.landed hS hg) fun m h => h.failed hg

theorem awaitedValue_leads (m : Machine) (v : Value) :
    Leads (Stands f callers kept pc (σ.up n)) (awaitedValue m v)
      (fun _ => Stands f callers kept pc (σ.up n)) (Fallen f callers kept pc σ) := by
  unfold awaitedValue
  split
  · split
    · exact onHeap_leads _
    · exact fail_leads _
  · split
    · exact .ret fun m h => h
    · exact fail_leads _

theorem Stands.goTo {m : Machine} (h : Stands f callers kept pc σ m) {q : Nat} {g : Frame}
    (hg : g = { m.frame with next := q }) : Stands f callers kept q σ { m with frame := g } := by
  obtain ⟨locals, hf⟩ := h.frame
  exact { h with frame := ⟨locals, by rw [hg, hf]⟩ }

theorem await_leads (hpc : S pc = some (σ.up 1)) (hnext : S (pc + 1) = some (σ.up 1))
    (hg : Guarded S 0 σ) :
    Leads (Stands f callers kept (pc + 1) (σ.up 1)) await (Landed code S f callers kept)
      (Failed S f callers kept) := by
  unfold await
  refine peek_leads.bind fun v => .read fun m hm => ?_
  have hfail : ∀ {m}, Fallen f callers kept (pc + 1) σ m → Failed S f callers kept m :=
    fun h => h.failed hg
  split
  · exact .fail fun m h => hfail h.fallen
  · split
    · refine .bind (Q := fun _ => Stands f callers kept pc (σ.up 1))
        (.update fun m h => ?_) fun _ => ?_
      · obtain ⟨locals, hf⟩ := h.frame
        exact h.goTo (by rw [hf]; rfl)
      · exact (trace_leads _ fun m events h => h.events events).bind fun _ =>
          .ret fun m h => .waits hpc h
    · refine (pop_leads (n := 0)).bind fun _ => ?_
      refine ((awaitedValue_leads (n := 0) m v).mono (fun _ _ h => h) fun m h => hfail h).bind
        fun w => (push_leads (n := 0) w).bind fun _ => .ret fun m h => .goes hnext h

theorem execute_eq_of_not_calls {op : Op} (hop : op.calls = false) (hne : op ≠ .return) :
    execute code op = do
      executePlain code op
      return none := by
  cases op <;> first | rfl | contradiction

theorem lastOf_length {α : Type} {xs : List α} {n : Nat} (h : n ≤ xs.length) :
    (lastOf n xs).length = n := by
  rw [lastOf, List.length_drop]
  omega

theorem lastOf_append {α : Type} (xs : List α) {ys : List α} {n : Nat} (h : ys.length = n) :
    lastOf n (xs ++ ys) = ys := by
  subst h
  rw [lastOf, List.length_append, Nat.add_sub_cancel, List.drop_left]

theorem leave_leads {E : Machine → Prop} :
    Leads (Stands f callers kept pc (σ.up 1)) leave (Landed code S f callers kept) E := by
  refine (pop_leads (n := 0)).bind fun v => ?_
  refine .bind (Q := fun _ m => m.callers = callers ∧ m.stack = kept ∧ kept.length = f.base ∧
    m.handled.length = f.handledBase) (.update fun m h => ?_) fun _ => .read fun m hm => ?_
  · have h : Stands f callers kept pc σ m := h
    obtain ⟨locals, hf⟩ := h.frame
    obtain ⟨own, hs, -⟩ := h.operands
    refine ⟨h.callers, ?_, h.base, ?_⟩
    · rw [hf, hs]; exact lastOf_append own h.base
    · rw [hf]; exact lastOf_length (by rw [h.handled]; exact Nat.le_add_right _ _)
  · obtain ⟨rfl, -⟩ := hm
    split
    · next hnil => exact .ret fun _ h => .ends hnil (h.1.trans hnil) h.2.1 h.2.2.1 h.2.2.2
    · next g below hcons =>
      let returned (stack : List Value) (m : Machine) : Prop := m.frame = g ∧ m.callers = below ∧
        m.stack = stack ∧ kept.length = f.base ∧ m.handled.length = f.handledBase
      refine .bind (Q := fun _ => returned kept) (.update fun _ h => ⟨rfl, rfl, h.2⟩) fun _ => ?_
      refine .bind (Q := fun _ => returned (v :: kept)) (.update fun _ h => ?_) fun _ => ?_
      · exact ⟨h.1, h.2.1, congrArg (v :: ·) h.2.2.1, h.2.2.2⟩
      · exact (trace_leads _ fun _ _ h => h).bind fun _ => .ret fun _ h =>
          .returns hcons h.1 h.2.1 h.2.2.1 h.2.2.2.1 h.2.2.2.2

/-! ## Jumps and handlers -/

theorem jump_leads (t : Nat) {E : Machine → Prop} :
    Leads (Stands f callers kept pc σ) (jump t) (fun _ => Stands f callers kept t σ) E :=
  .update fun _ h => h.goTo rfl

theorem popAndJumpIf_leads (wanted : Bool) (t : Nat) {E : Machine → Prop} :
    Leads (Stands f callers kept pc (σ.up 1)) (popAndJumpIf wanted t)
      (fun _ m => Stands f callers kept pc σ m ∨ Stands f callers kept t σ m) E := by
  refine (pop_leads (n := 0)).bind fun v => get_leads fun m => ?_
  split
  · exact (jump_leads t).imp fun _ _ h => .inr h
  · exact .ret fun m h => .inl h

theorem jumpIfOrPop_leads (wanted : Bool) (t : Nat) {E : Machine → Prop} :
    Leads (Stands f callers kept pc (σ.up 1)) (jumpIfOrPop wanted t)
      (fun _ m => Stands f callers kept pc σ m ∨ Stands f callers kept t (σ.up 1) m) E := by
  refine peek_leads.bind fun v => get_leads fun m => ?_
  split
  · exact (jump_leads t).imp fun _ _ h => .inr h
  · exact (pop_leads (n := 0)).bind fun _ => .ret fun m h => .inl h

theorem forIter_leads (code : Bytecode) (t : Nat) :
    Leads (Stands f callers kept pc (σ.up 1)) (executePlain code (.forIter t))
      (fun _ m => Stands f callers kept pc (σ.up 2) m ∨ Stands f callers kept t σ m)
      (Fallen f callers kept pc σ) := by
  have hitem : Leads (Stands f callers kept pc (σ.up 1)) nextItem
      (fun _ => Stands f callers kept pc (σ.up 1)) (Fallen f callers kept pc σ) := by
    refine peek_leads.bind fun v => ?_
    split
    · exact onHeap_leads _
    · exact .ret fun m h => h
  refine hitem.bind fun item => ?_
  split
  · exact (push_leads _).imp fun _ _ h => .inl h
  · exact (pop_leads (n := 0)).bind fun _ => (jump_leads t).imp fun _ _ h => .inr h

theorem setupExcept_leads (code : Bytecode) (t : Nat) {E : Machine → Prop} :
    Leads (Stands f callers kept pc σ) (executePlain code (.setupExcept t))
      (fun _ => Stands f callers kept pc (σ.protected_ t)) E := by
  refine .update fun m h => ?_
  obtain ⟨locals, hf⟩ := h.frame
  exact { h with frame := ⟨locals, by rw [hf, h.length, h.handled]; rfl⟩ }

theorem popBlock_leads (code : Bytecode) {b : Block} {bs : List Block} {h : Nat}
    {E : Machine → Prop} :
    Leads (Stands f callers kept pc ⟨n, b :: bs, h⟩) (executePlain code .popBlock)
      (fun _ => Stands f callers kept pc ⟨n, bs, h⟩) E := by
  refine .update fun m h => ?_
  obtain ⟨locals, hf⟩ := h.frame
  exact { h with frame := ⟨locals, by rw [hf]; rfl⟩ }

theorem popExcept_leads (code : Bytecode) {E : Machine → Prop} :
    Leads (Stands f callers kept pc σ.handling) (executePlain code .popExcept)
      (fun _ => Stands f callers kept pc σ) E := by
  refine .bind (Q := fun _ => Stands f callers kept pc σ) (.update fun m h => ?_) fun _ =>
    trace_leads _ fun m events h => h.events events
  exact { h with handled := by rw [List.length_tail, h.handled]; rfl }

theorem raise_leads (code : Bytecode) {Q : Unit → Machine → Prop} :
    Leads (Stands f callers kept pc (σ.up 1)) (executePlain code .raise) Q
      (Fallen f callers kept pc σ) := by
  refine (pop_leads (n := 0)).bind fun v => ?_
  unfold raiseValue
  split <;> exact fail_leads _

theorem reraise_leads (code : Bytecode) {Q : Unit → Machine → Prop} :
    Leads (Stands f callers kept pc σ) (executePlain code .reraise) Q
      (Fallen f callers kept pc σ) := by
  refine get_leads fun m => ?_
  split
  · exact .bind (Q := fun _ => Stands f callers kept pc (σ.up 0)) (.update fun m h => { h with })
      fun _ => fail_leads _
  · exact fail_leads (n := 0) _

/-- An instruction that fits its label. -/
theorem execute_leads {op : Op} (hfits : op.Fits (framePool code f) S pc σ) (hpc : S pc = some σ)
    (hg : Guarded S (op.pops (framePool code f)) σ) :
    Leads (Stands f callers kept (pc + 1) σ) (execute code op) (Landed code S f callers kept)
      (Failed S f callers kept) := by
  -- the instructions that do not stop for the host
  have hplain : ∀ {op : Op} {τ : Shape} {Q : Unit → Machine → Prop},
      execute code op = (do executePlain code op; return none) →
      Leads (Stands f callers kept (pc + 1) σ) (executePlain code op) Q
        (Fallen f callers kept (pc + 1) τ) →
      (∀ m, Q () m → Landed code S f callers kept none m) → Guarded S 0 τ →
      Leads (Stands f callers kept (pc + 1) σ) (execute code op) (Landed code S f callers kept)
        (Failed S f callers kept) := fun heq h hQ hτ => by
    rw [heq]
    exact (h.mono (fun _ _ h => h) fun m h => h.failed hτ).bind fun _ => .ret fun m h => hQ m h
  cases hfits with
  | @plain op σ k hk hnext =>
    by_cases hcalls : op.calls = true
    · obtain rfl : k = 1 := Option.some.inj (hk.symm.trans (Op.pushes_of_calls hcalls))
      by_cases hawait : op = .await
      · subst hawait
        exact await_leads hpc hnext hg.down
      · exact execute_leads_of_calls hcalls hawait hnext hg.down
    · have hcalls : op.calls = false := by simpa using hcalls
      exact hplain (execute_eq_of_not_calls hcalls (by rintro rfl; cases hk))
        (executePlain_leads code _ hcalls hk) (fun m h => .goes hnext h) hg.down
  | jump ht =>
    exact hplain rfl (jump_leads _) (fun m h => .goes ht h) hg
  | jumpIfFalse hnext ht =>
    exact hplain rfl (popAndJumpIf_leads _ _) (fun m h => h.elim (.goes hnext) (.goes ht)) hg.down
  | jumpIfTrue hnext ht =>
    exact hplain rfl (popAndJumpIf_leads _ _) (fun m h => h.elim (.goes hnext) (.goes ht)) hg.down
  | jumpIfFalseOrPop hnext ht =>
    exact hplain rfl (jumpIfOrPop_leads _ _) (fun m h => h.elim (.goes hnext) (.goes ht)) hg.down
  | jumpIfTrueOrPop hnext ht =>
    exact hplain rfl (jumpIfOrPop_leads _ _) (fun m h => h.elim (.goes hnext) (.goes ht)) hg.down
  | forIter hnext ht =>
    exact hplain rfl (forIter_leads code _) (fun m h => h.elim (.goes hnext) (.goes ht)) hg.down
  | «return» => exact leave_leads
  | setupExcept hnext =>
    exact hplain rfl (setupExcept_leads code _) (fun m h => .goes hnext h) hg
  | popBlock hnext =>
    exact hplain rfl (popBlock_leads code) (fun m h => .goes hnext h) hg
  | popExcept hnext =>
    exact hplain rfl (popExcept_leads code) (fun m h => .goes hnext h) hg
  | raise => exact hplain (Q := fun _ _ => False) rfl (raise_leads code) (fun m h => h.elim) hg.down
  | reraise =>
    exact hplain (Q := fun _ _ => False) rfl (reraise_leads code) (fun m h => h.elim) hg

end Machine

end Resumable
