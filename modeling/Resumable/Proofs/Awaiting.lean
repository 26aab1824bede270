import Resumable.Proofs.Limits
import Resumable.Proofs.Lockstep.Ahead

/-!
# Waiting for futures

A run stops for futures at an instruction that awaits its topmost operand, and nowhere else; it is
still in front of that instruction then (`awaits_of_blocked`). When none of the operand's futures
is pending any more, the instruction does not stop the run again (`Awaits.proceeds`).
-/

namespace Resumable.Machine

variable {code : Bytecode} {m n : Machine} {ids pending : List Nat} {x : Exit} {i : Instr}

/-- The next instruction awaits the topmost operand, which waits for these futures. -/
structure Awaits (code : Bytecode) (m : Machine) (ids : List Nat) : Prop where
  fetch : ∃ i, m.fetch code = some i ∧ i.op = .await
  operand : awaitedFutures (m.stack.head?.getD .none) = some ids

/-- The next instruction comes to an end without a stop: the run goes on, or ends with an
exception. -/
def Proceeds (code : Bytecode) (m : Machine) : Prop :=
  (∃ n, advance code m = .next n) ∨ ∃ e n, advance code m = .failed e n

/-! ## The instruction -/

theorem due_eq (m : Machine) : ∃ heap, m.due = { m with heap } := by
  unfold due collected
  split <;> exact ⟨_, rfl⟩

theorem step_of_exit (h : advance code m = .exit x n) : step code m = .ok (some x) n := by
  rw [advance_eq] at h
  generalize step code m = r at h ⊢
  unfold Advance.ofResult at h
  split at h
  · cases h
  · cases h; rfl
  · split at h <;> cases h
  · cases h
  · cases h
  · cases h

theorem step_of_fetch (htick : m.heap.budget.tick.2 = none) (hi : m.fetch code = some i) :
    step code m = execute code i.op (m.due.entered i) := by
  have hdue : m.due.fetch code = some i := by
    obtain ⟨heap, heq⟩ := m.due_eq
    rw [heq]
    exact hi
  rw [step_eq, htick]
  change executeNext code m.due = _
  rw [executeNext_eq, hdue]

theorem takeResult_asks (m : Machine) (v : Value) : Asks (takeResult m v) :=
  .bind fun _ => .bind fun _ => .bind fun _ => .none

theorem awaits_of_blocked (h : advance code m = .exit (.blocked pending) n) :
    ∃ ids, n.Awaits code ids := by
  have hstep := step_of_exit h
  cases htick : m.heap.budget.tick.2 with
  | some e => rw [step_eq, htick] at hstep; cases hstep
  | none =>
    cases hi : m.fetch code with
    | none =>
      obtain ⟨heap, heq⟩ := m.due_eq
      rw [step_eq, htick] at hstep
      change executeNext code m.due = _ at hstep
      rw [executeNext_of_none (by rw [heq]; exact hi)] at hstep
      cases hstep
    | some i =>
      rw [step_of_fetch htick hi] at hstep
      by_cases hop : i.op = .await
      · rw [hop] at hstep
        change await (m.due.entered i) = _ at hstep
        rw [await_eq] at hstep
        split at hstep
        · cases hstep
        · next ids hids =>
          split at hstep
          · obtain ⟨-, rfl⟩ := EStateM.Result.ok.inj hstep
            obtain ⟨events, hback⟩ := steppedBack_entered m.due i
            obtain ⟨heap, heq⟩ := m.due_eq
            rw [hback, heq]
            rw [entered, record_eq, heq] at hids
            exact ⟨ids, ⟨i, hi, hop⟩, hids⟩
          · cases (takeResult_asks _ _).asked hstep
      · cases (Asks.execute code hop).asked hstep

/-! ## Its end -/

/-- The failures that have a result: the run goes on at a handler, or ends with an exception. -/
def Proper : Failure → Prop
  | .raised _ | .overrun _ => True
  | .endless | .stuck => False

/-- An action whose failures have a result. -/
def Terminates {α : Type} (act : Exec α) : Prop := ∀ m e n, act m = .error e n → Proper e

theorem ofLimit_proper (e : LimitError) : Proper (.ofLimit e) := by
  unfold Failure.ofLimit
  split <;> trivial

theorem allocList_terminates (items : Array Value) :
    Terminates (onHeap (Heap.allocList items)) := by
  intro k f n hend
  simp only [onHeap, Heap.allocList, Heap.alloc_eq] at hend
  cases hbudget : k.heap.budget.allocate (Cell.list items).bytes with
  | ok budget => rw [hbudget] at hend; cases hend
  | error e =>
    rw [hbudget] at hend
    exact (EStateM.Result.error.inj hend).1 ▸ ofLimit_proper e

/-- What comes of an awaited value takes its place. -/
theorem takeResult_eq (m n : Machine) (v : Value) :
    takeResult m v n = match awaitedValue m v { n with stack := n.stack.tail } with
      | .ok w n => .ok none { n with stack := w :: n.stack }
      | .error e n => .error e n := by
  have hpop : pop n = .ok (n.stack.head?.getD .none) { n with stack := n.stack.tail } := by
    obtain ⟨⟨stack⟩⟩ := n
    cases stack <;> rfl
  simp only [takeResult, bind, EStateM.bind, hpop]
  cases awaitedValue m v { n with stack := n.stack.tail } <;> rfl

theorem awaited_proper {m : Machine} {v : Value} {e : Failure} (h : m.awaited v = .error e) :
    Proper e := by
  unfold awaited at h
  split at h
  · split at h <;> cases h <;> trivial
  · cases h

theorem mapM_awaited_proper {m : Machine} {vs : List Value} {e : Failure}
    (h : vs.mapM m.awaited = .error e) : Proper e := by
  obtain ⟨_, v, _, -, -, hv⟩ := List.mapM_eq_error_iff.mp h
  exact awaited_proper hv

theorem throw_terminates {α : Type} {e : Failure} (h : Proper e) :
    Terminates (throw e : Exec α) := fun _ _ _ hend => (EStateM.Result.error.inj hend).1 ▸ h

theorem awaitedValue_terminates (m : Machine) (v : Value) : Terminates (awaitedValue m v) := by
  unfold awaitedValue
  split
  · split
    · exact allocList_terminates _
    · next e he => exact throw_terminates (mapM_awaited_proper he)
  · split
    · intro k f n hend
      cases hend
    · next e he => exact throw_terminates (awaited_proper he)

/-! ## Going on -/

theorem due_entered_stack (m : Machine) (i : Instr) : (m.due.entered i).stack = m.stack := by
  obtain ⟨heap, hdue⟩ := m.due_eq
  rw [entered, record_eq, hdue]

theorem due_entered_isPending (m : Machine) (i : Instr) (id : Nat) :
    (m.due.entered i).isPending id = m.isPending id := by
  obtain ⟨heap, hdue⟩ := m.due_eq
  rw [entered, record_eq, hdue]
  rfl

theorem Awaits.proceeds (h : m.Awaits code ids) (hids : ∀ id ∈ ids, m.isPending id = false) :
    m.Proceeds code := by
  obtain ⟨i, hi, hop⟩ := h.fetch
  unfold Proceeds
  rw [advance_eq]
  cases htick : m.heap.budget.tick.2 with
  | some e =>
    rw [step_eq, htick]
    simp only
    rw [ofLimit_of_not_catchable (not_isCatchable_tick htick)]
    exact .inr ⟨_, _, rfl⟩
  | none =>
    have hnone : ids.any (m.due.entered i).isPending = false := by
      rw [List.any_eq_false]
      intro id hid
      rw [due_entered_isPending, hids id hid]
      exact Bool.false_ne_true
    have hstep : step code m = takeResult (m.due.entered i)
        ((m.due.entered i).stack.head?.getD .none) (m.due.entered i) := by
      rw [step_of_fetch htick hi, hop]
      change await _ = _
      rw [await_eq, due_entered_stack, h.operand]
      simp only [hnone, Bool.false_eq_true, if_false]
    rw [hstep, takeResult_eq]
    cases hvalue : awaitedValue (m.due.entered i) ((m.due.entered i).stack.head?.getD .none)
        { m.due.entered i with stack := (m.due.entered i).stack.tail } with
    | ok w n => exact .inl ⟨_, rfl⟩
    | error e n =>
      have hproper := awaitedValue_terminates _ _ _ _ _ hvalue
      cases e with
      | endless => exact hproper.elim
      | stuck => exact hproper.elim
      | overrun e => exact .inr ⟨_, _, rfl⟩
      | raised e =>
        cases hunwind : n.unwind code e with
        | ok n' => exact .inl ⟨n', by simp only [Advance.ofResult, hunwind]⟩
        | error e' => exact .inr ⟨e', n, by simp only [Advance.ofResult, hunwind]⟩

/-! ## Gathers

An await of a gather looks at its items and no further: it waits for the futures among them, and a
gather among them stays what it is, whatever futures are its own items. -/

section
variable {items values rest : List Value}

/-- No item is a future without a result. -/
def Ready (m : Machine) (items : List Value) : Prop :=
  ∀ id, .future id ∈ items → m.isPending id = false

theorem awaited_of_not_future {v : Value} (h : ∀ id, v ≠ .future id) : m.awaited v = .ok v := by
  unfold awaited
  split
  · next id => exact absurd rfl (h id)
  · rfl

theorem awaitedFutures_gather (items : List Value) :
    ∃ ids, awaitedFutures (.gather items) = some ids ∧ ∀ id, id ∈ ids ↔ .future id ∈ items := by
  refine ⟨_, rfl, fun id => ?_⟩
  rw [List.mem_filterMap]
  constructor
  · rintro ⟨v, hv, hid⟩
    split at hid
    · obtain rfl := Option.some.inj hid
      exact hv
    · cases hid
  · intro h
    exact ⟨.future id, h, rfl⟩

theorem await_gather_of_not_ready (hstack : m.stack = .gather items :: rest)
    (h : ¬ m.Ready items) :
    await m = .ok (some (.blocked m.pendingFutures)) m.steppedBack := by
  obtain ⟨ids, hids, hmem⟩ := awaitedFutures_gather items
  simp only [Ready, not_forall, Bool.not_eq_false] at h
  obtain ⟨id, hid, hpending⟩ := h
  have hany : ids.any m.isPending = true := List.any_eq_true.mpr ⟨id, (hmem id).mpr hid, hpending⟩
  rw [await_eq, hstack, List.head?_cons, Option.getD_some, hids]
  simp only [hany, if_true]

theorem await_gather_of_ready (hstack : m.stack = .gather items :: rest) (h : m.Ready items) :
    await m = match awaitedValue m (.gather items) { m with stack := rest } with
      | .ok v n => .ok none { n with stack := v :: n.stack }
      | .error e n => .error e n := by
  obtain ⟨ids, hids, hmem⟩ := awaitedFutures_gather items
  have hany : ids.any m.isPending = false := by
    rw [List.any_eq_false]
    intro id hid
    rw [h id ((hmem id).mp hid)]
    exact Bool.false_ne_true
  rw [await_eq, hstack, List.head?_cons, Option.getD_some, hids]
  simp only [hany, Bool.false_eq_true, if_false]
  rw [takeResult_eq, hstack, List.tail_cons]

/-- An await of a gather waits exactly while a future among the items is pending. -/
theorem await_gather_blocks_iff (hstack : m.stack = .gather items :: rest) :
    (∃ pending n, await m = .ok (some (.blocked pending)) n) ↔
      ∃ id, .future id ∈ items ∧ m.isPending id = true := by
  constructor
  · rintro ⟨pending, n, hblocked⟩
    by_contra hnone
    have hready : m.Ready items := by
      intro id hid
      rw [← Bool.not_eq_true]
      exact fun hpending => hnone ⟨id, hid, hpending⟩
    rw [await_gather_of_ready hstack hready] at hblocked
    split at hblocked <;> cases hblocked
  · rintro ⟨id, hid, hpending⟩
    have hready : ¬ m.Ready items := by
      intro h
      rw [h id hid] at hpending
      cases hpending
    exact ⟨_, _, await_gather_of_not_ready hstack hready⟩

/-- Items that all have a value give a new list of these values, if the budget has room for it. -/
theorem await_gather_values (hstack : m.stack = .gather items :: rest) (hready : m.Ready items)
    (hvalues : List.Forall₂ (fun item v => m.awaited item = .ok v) items values)
    (hheap : m.heap.Exact) {budget : Budget}
    (hbudget : m.heap.budget.allocate (Cell.list values.toArray).bytes = .ok budget) :
    ∃ id heap, await m = .ok none { m with heap, stack := .ref id :: rest } ∧
      m.heap.cell? id = none ∧
      ∀ x, heap.cell? x = if x = id then some (.list values.toArray) else m.heap.cell? x := by
  have hexact : ({ m.heap with budget, recent := m.heap.recent + 1 } : Heap).Exact :=
    ⟨hheap.nodup, hheap.mem_free⟩
  refine ⟨m.heap.nextSlot, _, ?_, Heap.cell?_nextSlot hheap,
    Heap.cell?_place hexact ⟨.list values.toArray, (Cell.list values.toArray).bytes⟩⟩
  rw [await_gather_of_ready hstack hready, awaitedValue, List.mapM_eq_ok_iff.mpr hvalues]
  simp only [onHeap, Heap.allocList, Heap.alloc_eq, hbudget, Heap.place_fst]
  rfl

/-- A list that the budget has no room for ends the run. -/
theorem await_gather_overruns (hstack : m.stack = .gather items :: rest) (hready : m.Ready items)
    (hvalues : List.Forall₂ (fun item v => m.awaited item = .ok v) items values) {e : LimitError}
    (hbudget : m.heap.budget.allocate (Cell.list values.toArray).bytes = .error e) :
    await m = .error (.ofLimit e) { m with stack := rest } := by
  rw [await_gather_of_ready hstack hready, awaitedValue, List.mapM_eq_ok_iff.mpr hvalues]
  simp only [onHeap, Heap.allocList, Heap.alloc_eq, hbudget]

/-- The first item that has failed decides, when no item is pending. -/
theorem await_gather_raises {before after : List Value} {id : Nat} {e : Raised}
    (hstack : m.stack = .gather (before ++ .future id :: after) :: rest)
    (hready : m.Ready (before ++ .future id :: after))
    (hbefore : List.Forall₂ (fun item v => m.awaited item = .ok v) before values)
    (hfailed : m.future? id = some (.failed e)) :
    await m = .error (.raised { e with traceback := [] }) { m with stack := rest } := by
  have hitem : m.awaited (.future id) = .error (.raised { e with traceback := [] }) := by
    rw [awaited, hfailed]
  have hitems := List.mapM_eq_error_iff.mpr
    ⟨before, _, after, rfl, ⟨values, List.mapM_eq_ok_iff.mpr hbefore⟩, hitem⟩
  rw [await_gather_of_ready hstack hready, awaitedValue, hitems]
  rfl

/-- A gather of gathers gives a new list of them as they are, with futures that are pending. -/
theorem await_gather_of_gathers {gathers : List (List Value)}
    (hstack : m.stack = .gather (gathers.map .gather) :: rest) (hheap : m.heap.Exact)
    {budget : Budget}
    (hbudget : m.heap.budget.allocate (Cell.list (gathers.map .gather).toArray).bytes =
      .ok budget) :
    ∃ id heap, await m = .ok none { m with heap, stack := .ref id :: rest } ∧
      heap.cell? id = some (.list (gathers.map .gather).toArray) := by
  have hready : m.Ready (gathers.map .gather) := by
    intro id hid
    obtain ⟨_, -, hgather⟩ := List.mem_map.mp hid
    cases hgather
  have hvalues : List.Forall₂ (fun item v => m.awaited item = .ok v) (gathers.map .gather)
      (gathers.map .gather) := by
    refine List.forall₂_same.mpr fun v hv => ?_
    obtain ⟨items, -, rfl⟩ := List.mem_map.mp hv
    exact awaited_of_not_future nofun
  obtain ⟨id, heap, hawait, -, hcell⟩ := await_gather_values hstack hready hvalues hheap hbudget
  exact ⟨id, heap, hawait, by rw [hcell, if_pos rfl]⟩

end

end Resumable.Machine
