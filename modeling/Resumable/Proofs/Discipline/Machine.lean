import Resumable.Machine.Call
import Resumable.Proofs.Discipline.Shape
import Resumable.Proofs.Hosts

/-!
# The stacks during an instruction

`Leads P act Q E`: from a machine in `P`, an action ends in `Q` or fails in `E`. While an
instruction is executed, the machine `Stands` on its frame with some shape, which every operand that
is taken or left changes by one. An instruction that fails has taken no more operands than it may:
it has `Fallen`.

A call has taken its operands when it begins. It leaves one value, or asks the host for it, or
enters a function, whose frame starts where the operands of the caller end (`Called`).
-/

namespace Resumable

/-- A block whose depths count from the bottom of the stacks. -/
def Block.above (b : Block) (base handledBase : Nat) : Block :=
  ⟨b.handler, base + b.operands, handledBase + b.handled⟩

namespace Machine

section
variable {ε τ α β : Type} {P E : τ → Prop}

/-- From `P`, an action ends in `Q`, or fails in `E`. -/
def Leads (P : τ → Prop) (act : EStateM ε τ α) (Q : α → τ → Prop) (E : τ → Prop) : Prop :=
  ∀ m, P m → match act m with
    | .ok a n => Q a n
    | .error _ n => E n

namespace Leads

variable {Q : α → τ → Prop} {R : β → τ → Prop}

theorem ret {a : α} (h : ∀ m, P m → Q a m) : Leads (ε := ε) P (pure a) Q E := h

theorem fail {e : ε} (h : ∀ m, P m → E m) : Leads P (throw e : EStateM ε τ α) Q E := h

theorem change {f : τ → α × τ} (h : ∀ m, P m → Q (f m).1 (f m).2) :
    Leads (ε := ε) P (modifyGet f) Q E := h

theorem update {f : τ → τ} {Q : Unit → τ → Prop} (h : ∀ m, P m → Q () (f m)) :
    Leads (ε := ε) P (modify f) Q E := h

theorem bind {act : EStateM ε τ α} {f : α → EStateM ε τ β} (h : Leads P act Q E)
    (hf : ∀ a, Leads (Q a) (f a) R E) : Leads P (act >>= f) R E := by
  intro m hm
  change match EStateM.bind act f m with | .ok b n => R b n | .error _ n => E n
  have h := h m hm
  unfold EStateM.bind
  generalize act m = x at h ⊢
  cases x with
  | ok a n => exact hf a n h
  | error e n => exact h

/-- Actions that look at the state first. -/
theorem read {f : τ → EStateM ε τ α} (h : ∀ m, P m → Leads P (f m) Q E) :
    Leads P (get >>= f) Q E := fun m hm => h m hm m hm

theorem mono {act : EStateM ε τ α} {Q' : α → τ → Prop} {E' : τ → Prop} (h : Leads P act Q E)
    (hQ : ∀ a m, Q a m → Q' a m) (hE : ∀ m, E m → E' m) : Leads P act Q' E' := by
  intro m hm
  have h := h m hm
  generalize act m = x at h ⊢
  cases x with
  | ok a n => exact hQ a n h
  | error e n => exact hE n h

theorem imp {act : EStateM ε τ α} {Q' : α → τ → Prop} (h : Leads P act Q E)
    (hQ : ∀ a m, Q a m → Q' a m) : Leads P act Q' E := h.mono hQ fun _ hm => hm

end Leads

end

/-- The machine executes the code of a frame before an instruction, with a shape above the base of
that frame, and with the operands `kept` below it. -/
structure Stands (f : Frame) (callers : List Frame) (kept : List Value) (pc : Nat) (σ : Shape)
    (m : Machine) : Prop where
  frame : ∃ locals, m.frame = { f with
    next := pc, locals, blocks := σ.blocks.map (·.above f.base f.handledBase) }
  callers : m.callers = callers
  base : kept.length = f.base
  operands : ∃ own, m.stack = own ++ kept ∧ own.length = σ.operands
  handled : m.handled.length = f.handledBase + σ.handled

/-- All that an instruction must leave of the operands is there. -/
def Fallen (f : Frame) (callers : List Frame) (kept : List Value) (pc : Nat) (σ : Shape)
    (m : Machine) : Prop :=
  ∃ n, Stands f callers kept pc (σ.up n) m

variable {f : Frame} {callers : List Frame} {kept : List Value} {pc n k : Nat} {σ : Shape}

theorem Stands.length {m : Machine} (h : Stands f callers kept pc σ m) :
    m.stack.length = f.base + σ.operands := by
  obtain ⟨own, hs, hn⟩ := h.operands
  rw [hs, List.length_append, hn, h.base, Nat.add_comm]

theorem Stands.fallen {m : Machine} (h : Stands f callers kept pc (σ.up n) m) :
    Fallen f callers kept pc σ m := ⟨n, h⟩

/-! ## Operands -/

theorem push_leads (v : Value) {E : Machine → Prop} :
    Leads (Stands f callers kept pc (σ.up n)) (push v)
      (fun _ => Stands f callers kept pc (σ.up (n + 1))) E := by
  refine .update fun m h => ?_
  obtain ⟨own, hs, hn⟩ := h.operands
  exact { h with operands := ⟨v :: own, by rw [hs]; rfl, congrArg (· + 1) hn⟩ }

theorem pop_leads {E : Machine → Prop} :
    Leads (Stands f callers kept pc (σ.up (n + 1))) pop
      (fun _ => Stands f callers kept pc (σ.up n)) E := by
  refine .change fun m h => ?_
  obtain ⟨own, hs, hn⟩ := h.operands
  obtain ⟨v, rest, rfl⟩ := List.exists_cons_of_length_eq_add_one hn
  rw [hs]
  exact { h with operands := ⟨rest, rfl, Nat.succ.inj hn⟩ }

theorem popMany_leads {E : Machine → Prop} :
    Leads (Stands f callers kept pc (σ.up (n + k))) (popMany k)
      (fun _ => Stands f callers kept pc (σ.up n)) E := by
  refine .change fun m h => ?_
  obtain ⟨own, hs, hn⟩ := h.operands
  simp only [Shape.up_operands] at hn
  refine { h with operands := ⟨own.drop k, ?_, by simp [hn]; omega⟩ }
  rw [hs]
  exact List.drop_append_of_le_length (by omega)

theorem popAll_leads {E : Machine → Prop} :
    Leads (Stands f callers kept pc (σ.up k)) (popMany k) (fun _ => Stands f callers kept pc σ)
      E := by
  have h : Leads (Stands f callers kept pc (σ.up (0 + k))) (popMany k)
      (fun _ => Stands f callers kept pc (σ.up 0)) E := popMany_leads
  rwa [Nat.zero_add] at h

theorem peek_leads {E : Machine → Prop} :
    Leads (Stands f callers kept pc σ) peek (fun _ => Stands f callers kept pc σ) E :=
  .read fun _ _ => .ret fun _ h => h

theorem onHeap_leads' {α : Type} {act : Heap.Action α} {Q : α → Prop}
    (hact : Leads (fun _ => True) act (fun a _ => Q a) fun _ => True) :
    Leads (Stands f callers kept pc (σ.up n)) (onHeap act)
      (fun a m => Q a ∧ Stands f callers kept pc (σ.up n) m) (Fallen f callers kept pc σ) := by
  intro m h
  have hstands : ∀ heap, Stands f callers kept pc (σ.up n) { m with heap } := fun _ => { h with }
  have hact := hact m.heap trivial
  unfold onHeap
  simp only
  generalize act m.heap = x at hact ⊢
  cases x with
  | ok a heap => exact ⟨hact, hstands heap⟩
  | error e heap => exact (hstands heap).fallen

theorem onHeap_leads {α : Type} (act : Heap.Action α) :
    Leads (Stands f callers kept pc (σ.up n)) (onHeap act)
      (fun _ => Stands f callers kept pc (σ.up n)) (Fallen f callers kept pc σ) := by
  refine (onHeap_leads' (Q := fun _ => True) fun h _ => ?_).imp fun _ _ h => h.2
  cases act h <;> trivial

theorem fail_leads {α : Type} {Q : α → Machine → Prop} (e : Failure) :
    Leads (Stands f callers kept pc (σ.up n)) (throw e : Exec α) Q
      (Fallen f callers kept pc σ) :=
  .fail fun _ h => h.fallen

theorem trace_leads (e : Machine → Event) {P E : Machine → Prop}
    (hP : ∀ m events, P m → P { m with events }) :
    Leads P (trace e) (fun _ => P) E := by
  refine .update fun m h => ?_
  unfold record
  split
  · exact h
  · exact hP m _ h

theorem Stands.events {m : Machine} (h : Stands f callers kept pc σ m)
    (events : Option (List Event)) : Stands f callers kept pc σ { m with events } := { h with }

/-! ## Calls -/

/-- A value has been left, or the host has been asked for it. -/
def Settled (f : Frame) (callers : List Frame) (kept : List Value) (pc : Nat)
    (σ : Shape) :
    Option Exit → Machine → Prop
  | none, m => Stands f callers kept pc (σ.up 1) m
  | some x, m => x.isCall = true ∧ Stands f callers kept pc σ m

/-- A function has been entered, and its caller stands before an instruction. -/
structure Entered (code : Bytecode) (f : Frame) (callers : List Frame) (kept : List Value)
    (pc : Nat) (σ : Shape)
    (m : Machine) : Prop where
  frame : ∃ i < code.functions.size, ∃ locals,
    m.frame = .start i locals (f.base + σ.operands) (f.handledBase + σ.handled)
  callers : ∃ locals, m.callers = { f with
    next := pc, locals, blocks := σ.blocks.map (·.above f.base f.handledBase) } :: callers
  base : kept.length = f.base
  operands : ∃ own, m.stack = own ++ kept ∧ own.length = σ.operands
  handled : m.handled.length = f.handledBase + σ.handled

/-- What a call leaves. -/
def Called (code : Bytecode) (f : Frame) (callers : List Frame) (kept : List Value) (pc : Nat)
    (σ : Shape)
    (x : Option Exit) (m : Machine) : Prop :=
  Settled f callers kept pc σ x m ∨ x = none ∧ Entered code f callers kept pc σ m

theorem write_leads (c : Chunk) :
    Leads (Stands f callers kept pc (σ.up n)) (write c) (fun _ => Stands f callers kept pc (σ.up n))
      (Fallen f callers kept pc σ) := by
  refine .bind (Q := fun _ => Stands f callers kept pc (σ.up n)) (.change fun m h => { h with })
    fun refusal => ?_
  split
  · exact fail_leads _
  · exact .update fun m h => { h with }

theorem writeAll_leads (cs : List Chunk) :
    Leads (Stands f callers kept pc (σ.up n)) (writeAll cs)
      (fun _ => Stands f callers kept pc (σ.up n)) (Fallen f callers kept pc σ) := by
  induction cs with
  | nil => exact .ret fun m h => h
  | cons c cs ih => exact (write_leads c).bind fun _ => ih

theorem ask_leads (kind : PauseKind) (x : Nat → Exit) (hx : ∀ call, (x call).isCall = true)
    {E : Machine → Prop} :
    Leads (Stands f callers kept pc σ) (do
      let call ← beginCall
      trace fun _ => .pause kind (some call)
      return some (x call)) (Settled f callers kept pc σ) E := by
  refine .bind (Q := fun _ => Stands f callers kept pc σ)
    (.change fun m h => { h with }) fun call => ?_
  exact (trace_leads _ fun m events h => h.events events).bind fun _ => .ret fun m h => ⟨hx call, h⟩

theorem settle_leads (r : Reply) :
    Leads (Stands f callers kept pc σ) (settle r) (Settled f callers kept pc σ)
      (Fallen f callers kept pc σ) := by
  cases r with
  | value v => exact (push_leads (n := 0) v).bind fun _ => .ret fun m h => h
  | output chunks =>
    exact (writeAll_leads (n := 0) chunks).bind fun _ => (push_leads (n := 0) _).bind fun _ =>
      .ret fun m h => h
  | request function args => exact ask_leads .os _ fun _ => rfl

theorem enter_leads (code : Bytecode) (i : Nat) (defaults : List Value) (args : Arguments) :
    Leads (Stands f callers kept pc σ) (enter code i defaults args)
      (fun _ => Entered code f callers kept pc σ) (Fallen f callers kept pc σ) := by
  unfold enter
  split
  · exact fail_leads (n := 0) _
  · next c hc =>
    split
    · exact fail_leads (n := 0) _
    · next locals _ =>
      refine .read fun m _ => (onHeap_leads (n := 0) _).bind fun _ => ?_
      refine .bind (Q := fun _ => Entered code f callers kept pc σ) (.update fun m h => ?_) fun _ =>
        trace_leads _ fun m events h => { h with }
      have h : Stands f callers kept pc σ m := h
      obtain ⟨locals', hf⟩ := h.frame
      exact {
        frame := ⟨i, (Array.getElem?_eq_some_iff.mp hc).1, locals, by
          rw [← h.length, ← h.handled]⟩
        callers := ⟨locals', by rw [hf, h.callers]⟩
        base := h.base
        operands := h.operands
        handled := h.handled }

theorem callValue_leads (code : Bytecode) (v : Value) (args : Arguments) :
    Leads (Stands f callers kept pc σ) (callValue code v args) (Called code f callers kept pc σ)
      (Fallen f callers kept pc σ) := by
  unfold callValue
  split
  · exact (enter_leads code _ _ args).bind fun _ => .ret fun m h => .inr ⟨rfl, h⟩
  · exact (ask_leads .function _ fun _ => rfl).imp fun _ _ h => .inl h
  · exact (onHeap_leads (n := 0) _).bind fun r => (settle_leads r).imp fun _ _ h => .inl h
  · exact (onHeap_leads (n := 0) _).bind fun v => (push_leads (n := 0) v).bind fun _ =>
      .ret fun m h => .inl h
  · exact .read fun m _ => fail_leads (n := 0) _

theorem getAttribute_leads (v : Value) (name : String) :
    Leads (Stands f callers kept pc σ) (getAttribute v name) (Settled f callers kept pc σ)
      (Fallen f callers kept pc σ) := by
  unfold getAttribute
  refine .read fun m _ => ?_
  split
  · exact settle_leads _
  · exact fail_leads (n := 0) _

theorem callOwnMethod_leads (v : Value) (name : String) (args : Arguments) :
    Leads (Stands f callers kept pc σ) (callOwnMethod v name args) (Settled f callers kept pc σ)
      (Fallen f callers kept pc σ) := by
  unfold callOwnMethod
  refine .read fun m _ => ?_
  split
  · exact (onHeap_leads (n := 0) _).bind fun v => (push_leads (n := 0) v).bind fun _ =>
      .ret fun m h => h
  · exact .read fun m _ => fail_leads (n := 0) _

theorem callAttribute_leads (code : Bytecode) (v : Value) (name : String) (args : Arguments) :
    Leads (Stands f callers kept pc σ) (do
      match ← getAttribute v name with
      | some exit => return some exit
      | none => do
        let callee ← pop
        callValue code callee args) (Called code f callers kept pc σ)
      (Fallen f callers kept pc σ) := by
  refine (getAttribute_leads v name).bind fun x => ?_
  cases x with
  | some x => exact .ret fun m h => .inl h
  | none => exact (pop_leads (n := 0)).bind fun v => callValue_leads code v args

theorem callMethod_leads (code : Bytecode) (v : Value) (name : String) (args : Arguments) :
    Leads (Stands f callers kept pc σ) (callMethod code v name args)
      (Called code f callers kept pc σ) (Fallen f callers kept pc σ) := by
  unfold callMethod
  split
  · exact callAttribute_leads code _ name args
  · exact callAttribute_leads code _ name args
  · exact callAttribute_leads code _ name args
  · split
    · exact (settle_leads _).imp fun _ _ h => .inl h
    · exact (callOwnMethod_leads _ name args).imp fun _ _ h => .inl h
  · exact (callOwnMethod_leads v name args).imp fun _ _ h => .inl h

end Machine

end Resumable
