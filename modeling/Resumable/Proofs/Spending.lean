import Resumable.Proofs.Limits
import Resumable.Proofs.Hosts

/-!
# Budgets hold over whole runs

`s.Tallies inputs budget executed grown x m`: some run of the script, with some answers of its host,
has come to the machine `m` after executing so many instructions and adding so many slots and
entries to its heap. The count goes on over all pauses, also where the paused run is written and
read again. Main statement: `Script.Tallies.within`. Whatever the run has done, both are within the
limits of its budget, and so are the memory in use and the number of frames.
-/

namespace Resumable

variable {limits : Limits}

/-! ## Budgets -/

/-- A budget counts, and is within these limits. -/
structure Budget.Within (b : Budget) (limits : Limits) : Prop where
  limits_eq : b.limits = limits
  counts : b.unlimited = false
  allocations : ∀ l, limits.maxAllocations = some l → b.allocations ≤ l
  memory : ∀ l, limits.maxMemory = some l → b.memory ≤ l

/-- A budget that has granted so many charges since, and counted no instruction. -/
structure Budget.Grants (b : Budget) (n : Nat) (c : Budget) : Prop where
  allocations : c.allocations = b.allocations + n
  operations : c.operations = b.operations

namespace Budget

variable {b c d : Budget} {n k : Nat}

theorem ofLimits_within (limits : Limits) (clock : Clock) : (ofLimits limits clock).Within limits :=
  ⟨rfl, rfl, fun _ _ => Nat.zero_le _, fun _ _ => Nat.zero_le _⟩

theorem Grants.refl (b : Budget) : b.Grants 0 b := ⟨rfl, rfl⟩

theorem Grants.trans (h : b.Grants n c) (h' : c.Grants k d) : b.Grants (n + k) d where
  allocations := by rw [h'.allocations, h.allocations, Nat.add_assoc]
  operations := h'.operations.trans h.operations

theorem checkTime_operations (b : Budget) : (tick.checkTime b).1.operations = b.operations := by
  unfold tick.checkTime
  split <;> rfl

/-- All that a count of an instruction changes. -/
theorem tick_eq (b : Budget) :
    ∃ operations readings, b.tick.1 = { b with operations, readings } := by
  unfold tick tick.checkTime
  split
  · exact ⟨_, _, rfl⟩
  · simp only
    split
    · split
      · exact ⟨_, _, rfl⟩
      · split <;> exact ⟨_, _, rfl⟩
    · split <;> exact ⟨_, _, rfl⟩

theorem memoryAfter_le {bytes used l : Nat} (h : b.memoryAfter bytes = .ok used)
    (hl : b.limits.maxMemory = some l) : used ≤ l := by
  simp only [memoryAfter, hl] at h
  split at h
  · cases h
  · next hle => cases h; exact Nat.le_of_not_gt hle

namespace Within

theorem allocate (h : b.Within limits) {bytes : Nat} (hc : b.allocate bytes = .ok c) :
    c.Within limits ∧ b.Grants 1 c := by
  have charge : (∀ l, limits.maxAllocations = some l → b.allocations + 1 ≤ l) →
      allocate.charge b bytes (b.allocations + 1) = .ok c → c.Within limits ∧ b.Grants 1 c := by
    intro hcount hc
    unfold allocate.charge at hc
    split at hc
    · next used hused =>
      cases hc
      have hmemory := fun l hl => memoryAfter_le (l := l) hused (h.limits_eq ▸ hl)
      exact ⟨⟨h.limits_eq, h.counts, hcount, hmemory⟩, rfl, rfl⟩
    · cases hc
  unfold Budget.allocate at hc
  rw [h.counts, h.limits_eq, if_neg Bool.false_ne_true] at hc
  simp only at hc
  split at hc
  · next l hl =>
    split at hc
    · cases hc
    · next hle =>
      refine charge (fun l' hl' => ?_) hc
      rw [hl] at hl'
      cases hl'
      exact Nat.le_of_not_gt hle
  · next hl => exact charge (fun l hl' => by rw [hl] at hl'; cases hl') hc

theorem ask (h : b.Within limits) {q : Query} (hc : b.ask q = .ok c) :
    c.Within limits ∧ b.Grants (charges [q]) c := by
  cases q with
  | charge bytes => exact h.allocate hc
  | result bytes =>
    simp only [Budget.ask] at hc
    cases hr : b.checkResult bytes with
    | error e => rw [hr] at hc; cases hc
    | ok _ => rw [hr] at hc; cases hc; exact ⟨h, .refl b⟩
  | depth active =>
    simp only [Budget.ask] at hc
    cases hr : b.checkDepth active with
    | error e => rw [hr] at hc; cases hc
    | ok _ => rw [hr] at hc; cases hc; exact ⟨h, .refl b⟩

theorem askAll (h : b.Within limits) {qs : List Query} (hc : b.askAll qs = .ok c) :
    c.Within limits ∧ b.Grants (charges qs) c := by
  induction qs generalizing b with
  | nil => cases hc; exact ⟨h, .refl _⟩
  | cons q qs ih =>
    rw [Budget.askAll] at hc
    cases hq : b.ask q with
    | error e => rw [hq] at hc; cases hc
    | ok d =>
      rw [hq] at hc
      obtain ⟨hd, hgrants⟩ := h.ask hq
      obtain ⟨hc, hgrants'⟩ := ih hd hc
      exact ⟨hc, charges_append [q] qs ▸ hgrants.trans hgrants'⟩

/-- The charges that were granted before a refusal are within the limits as well. -/
theorem askAll_refused (h : b.Within limits) {qs : List Query} {e : LimitError}
    (hc : b.askAll qs = .error (e, c)) : c.Within limits ∧ b.allocations ≤ c.allocations := by
  induction qs generalizing b with
  | nil => cases hc
  | cons q qs ih =>
    rw [Budget.askAll] at hc
    cases hq : b.ask q with
    | error e => rw [hq] at hc; cases hc; exact ⟨h, le_rfl⟩
    | ok d =>
      rw [hq] at hc
      obtain ⟨hd, hgrants⟩ := h.ask hq
      obtain ⟨hc, hle⟩ := ih hd hc
      exact ⟨hc, (Nat.le_add_right _ _).trans (hgrants.allocations ▸ hle)⟩

/-- A budget with another count of memory, which is not larger. -/
theorem release (h : b.Within limits) (hn : n ≤ b.memory) : { b with memory := n }.Within limits :=
  { h with memory := fun l hl => hn.trans (h.memory l hl) }

/-- A budget whose clock starts anew has used up what it had. -/
theorem restart (h : b.Within limits) (clock : Clock) : (b.restart clock).Within limits :=
  { h with }

/-- Counting an instruction charges nothing. -/
theorem tick (h : b.Within limits) :
    b.tick.1.Within limits ∧ b.tick.1.allocations = b.allocations := by
  obtain ⟨operations, readings, hb⟩ := b.tick_eq
  rw [hb]
  exact ⟨{ h with }, rfl⟩

/-- An instruction that is not refused is within the limit of instructions. -/
theorem operations_tick (h : b.Within limits) {l : Nat} (hl : limits.maxOperations = some l) :
    b.tick.1.operations = b.operations + 1 ∧ (b.tick.2 = none → b.operations + 1 ≤ l) := by
  unfold Budget.tick
  rw [h.counts, h.limits_eq, if_neg Bool.false_ne_true]
  simp only [hl]
  split
  · exact ⟨rfl, nofun⟩
  · next hle => exact ⟨checkTime_operations _, fun _ => Nat.le_of_not_gt hle⟩

end Within

theorem checkDepth_le {l active : Nat} (hl : b.limits.maxRecursionDepth = some l)
    (h : b.checkDepth active = .ok ()) : active + 1 ≤ l := by
  simp only [checkDepth, hl] at h
  split at h
  · cases h
  · next hlt => exact Nat.lt_of_not_ge hlt

end Budget

/-! ## Actions -/

/-- A heap comes of an earlier one: what it has more has been charged, and its budget is still
within the limits. -/
structure Heap.Affords (limits : Limits) (h k : Heap) : Prop where
  exact : k.Exact
  within : k.budget.Within limits
  operations : k.budget.operations = h.budget.operations
  paid : ∃ n, h.Grows n k ∧ k.budget.allocations = h.budget.allocations + n

namespace Heap.Affords

variable {h i k : Heap}

theorem refl (hh : h.Exact) (hb : h.budget.Within limits) : h.Affords limits h :=
  ⟨hh, hb, rfl, 0, .refl h, rfl⟩

theorem trans (hi : h.Affords limits i) (hk : i.Affords limits k) : h.Affords limits k where
  exact := hk.exact
  within := hk.within
  operations := hk.operations.trans hi.operations
  paid := by
    obtain ⟨n, hn, hpaid⟩ := hi.paid
    obtain ⟨n', hn', hpaid'⟩ := hk.paid
    exact ⟨n + n', hn.trans hn', by rw [hpaid', hpaid, Nat.add_assoc]⟩

theorem growth_le (hk : h.Affords limits k) {g : Nat} (hg : g ≤ h.budget.allocations) :
    g + h.growth k ≤ k.budget.allocations := by
  obtain ⟨n, hn, hpaid⟩ := hk.paid
  rw [hpaid]
  exact Nat.add_le_add hg hn.growth

theorem of_paid {n : Nat} {b : Budget} (hh : h.Exact) (hpaid : Paid n h k) (hb : b.Within limits)
    (hgrants : h.budget.Grants n b) : h.Affords limits { k with budget := b } := by
  obtain ⟨hk, hg⟩ := hpaid hh
  exact ⟨⟨hk.nodup, hk.mem_free⟩, hb, hgrants.operations, n, ⟨hg.size, hg.inUse, hg.growth⟩,
    hgrants.allocations⟩

end Heap.Affords

/-- The end of an action from a heap. A limit that has been hit leaves a budget within the limits;
of the heap nothing is said then, since nothing goes on with it. -/
def Heap.Meets {σ α : Type} [Funded σ] (limits : Limits) (h : Heap) :
    EStateM.Result Failure σ α → Prop
  | .error (.overrun _) t =>
    (Funded.heap t).budget.Within limits ∧
      h.budget.allocations ≤ (Funded.heap t).budget.allocations
  | .ok _ t | .error _ t => h.Affords limits (Funded.heap t)

theorem Heap.Affords.meets {σ α : Type} [Funded σ] {h : Heap} {r : EStateM.Result Failure σ α}
    (hr : h.Affords limits (Funded.heap (endState r))) : h.Meets limits r := by
  have hle : h.budget.allocations ≤ (Funded.heap (endState r)).budget.allocations := by
    obtain ⟨n, -, hpaid⟩ := hr.paid
    exact hpaid ▸ Nat.le_add_right _ _
  match r with
  | .ok _ _ => exact hr
  | .error (.raised _) _ => exact hr
  | .error .endless _ => exact hr
  | .error .stuck _ => exact hr
  | .error (.overrun _) _ => exact ⟨hr.within, hle⟩

/-- What an obedient action adds to the heap, its budget can afford. -/
theorem Obedient.meets {σ α : Type} [Funded σ] [Passing σ] {x : EStateM Failure σ α}
    (hx : Obedient x) {s : σ} (hs : (Funded.heap s).Exact)
    (hb : (Funded.heap s).budget.Within limits) : (Funded.heap s).Meets limits (x s) := by
  obtain ⟨qs, r, hr⟩ := hx s
  have hself : Funded.under s (Funded.heap s).budget = s := Funded.under_self s
  cases hask : (Funded.heap s).budget.askAll qs with
  | ok b =>
    have hend := hr.granted hask
    rw [hself] at hend
    obtain ⟨hb, hgrants⟩ := hb.askAll hask
    refine Heap.Affords.meets ?_
    have hheap : Funded.heap (endState (x s)) =
        { Funded.heap (endState r) with budget := b } := by
      rw [hend]
      cases r <;> exact Funded.heap_under _ _
    exact hheap ▸ .of_paid hs hr.paid hb hgrants
  | error refusal =>
    obtain ⟨e, b⟩ := refusal
    obtain ⟨t, ht⟩ := hr.refused hask
    rw [hself] at ht
    have hheap : Funded.heap (endState (x s)) = { Funded.heap t with budget := b } := by
      rw [ht]
      exact Funded.heap_under _ _
    cases he : e.isCatchable with
    | true =>
      obtain ⟨ps, hps, hpaid, -⟩ := hr.caught hask he
      rw [hself] at hpaid
      obtain ⟨hb, hgrants⟩ := hb.askAll hps
      refine Heap.Affords.meets ?_
      have hbudget : Funded.heap (endState (x s)) =
          { Funded.heap (endState (x s)) with budget := b } := by rw [hheap]
      exact hbudget ▸ .of_paid hs hpaid hb hgrants
    | false =>
      rw [Machine.ofLimit_of_not_catchable he] at ht
      rw [ht] at hheap ⊢
      change Funded.heap (Funded.under t b) = _ at hheap
      obtain ⟨hb, hle⟩ := hb.askAll_refused hask
      change (Funded.heap (Funded.under t b)).budget.Within limits ∧
        _ ≤ (Funded.heap (Funded.under t b)).budget.allocations
      rw [hheap]
      exact ⟨hb, hle⟩

/-! ## Machines -/

namespace Machine

variable {code : Bytecode} {m n : Machine} {executed grown : Nat}

/-- After so many instructions and additions a run is within these limits. -/
structure Within (m : Machine) (limits : Limits) (executed grown : Nat) : Prop where
  executed_le : ∀ l, limits.maxOperations = some l → executed ≤ l
  grown_le : grown ≤ m.heap.budget.allocations
  budget : m.heap.budget.Within limits
  depth_le : ∀ l, limits.maxRecursionDepth = some l → m.depth ≤ max 1 l

/-- A run that can go on is within these limits, and its budget has counted its instructions. -/
structure Accounts (m : Machine) (limits : Limits) (executed grown : Nat) : Prop
    extends Within m limits executed grown where
  exact : m.heap.Exact
  operations : ∀ l, limits.maxOperations = some l → m.heap.budget.operations = executed

theorem collected_within (h : m.heap.budget.Within limits) (hm : m.heap.Exact) :
    m.heap.budget.Grants 0 m.collected.heap.budget ∧ m.collected.heap.budget.Within limits ∧
      m.collected.heap.Exact ∧ m.collected.callers = m.callers := by
  unfold collected
  split
  · obtain ⟨used, hused⟩ := m.heap.collect_budget m.roots
    have hle := m.heap.memory_collect_le m.roots
    rw [hused] at hle
    have hgrants : m.heap.budget.Grants 0 (m.heap.collect m.roots).budget := by
      rw [hused]
      exact ⟨rfl, rfl⟩
    exact ⟨hgrants, hused ▸ h.release hle, hm.collect _, rfl⟩
  · exact ⟨.refl _, h, hm, rfl⟩

/-- What counting an instruction and a collection leave. -/
theorem Accounts.due (h : m.Accounts limits executed grown) :
    m.due.heap.Exact ∧ m.due.heap.budget.Within limits ∧
      m.due.heap.budget.allocations = m.heap.budget.allocations ∧
      m.due.heap.budget.operations = m.heap.budget.tick.1.operations ∧
      m.due.callers = m.callers := by
  obtain ⟨hb, hallocations⟩ := h.budget.tick
  have hexact : m.ticked.heap.Exact := ⟨h.exact.nodup, h.exact.mem_free⟩
  obtain ⟨hgrants, hb, hexact, hcallers⟩ := collected_within (m := m.ticked) hb hexact
  exact ⟨hexact, hb, hgrants.allocations.trans hallocations, hgrants.operations, hcallers⟩

theorem Turn.depth_le {x : Option Exit} {l : Nat} (ht : m.Turn x n)
    (hl : m.heap.budget.limits.maxRecursionDepth = some l) (hm : m.depth ≤ max 1 l) :
    n.depth ≤ max 1 l := by
  unfold depth at hm ⊢
  cases ht with
  | goes next hs => rwa [hs.callers]
  | enters hd hc hk hn hp =>
    have hd := Budget.checkDepth_le hl hd
    rw [hc, List.length_cons]
    exact hd.trans (le_max_right _ _)
  | leaves hc hk hn hp =>
    rw [hc, List.length_cons] at hm
    exact (Nat.le_succ _).trans hm
  | returns v hs => rwa [hs.callers]
  | asks hx hc hk hn hp => rwa [hc]
  | waits next hne hs => rwa [hs.callers]

theorem depth_executeNext_le {l : Nat} (hl : m.heap.budget.limits.maxRecursionDepth = some l)
    (hm : m.depth ≤ max 1 l) : (endState (executeNext code m)).depth ≤ max 1 l := by
  cases hi : m.fetch code with
  | none => rw [executeNext_of_none hi]; exact hm
  | some i =>
    have hturn := executeNext_turns hi
    generalize executeNext code m = r at hturn ⊢
    cases r with
    | ok x n => exact hturn.depth_le hl hm
    | error e n =>
      change n.callers.length + 1 ≤ _
      rw [hturn.callers]
      exact hm

/-- Whether the budget admits the next instruction, as a number of instructions. -/
def admitted (m : Machine) : Nat := if m.heap.budget.tick.2.isNone then 1 else 0

/-- What comes of one more instruction. -/
theorem Accounts.step (code : Bytecode) (h : m.Accounts limits executed grown) :
    match step code m with
    | .error (.overrun _) n => n.Within limits (executed + m.admitted) grown
    | .ok _ n | .error _ n =>
      n.Accounts limits (executed + 1) (grown + m.due.heap.growth n.heap) := by
  obtain ⟨hexact, hbudget, hallocations, hoperations, hcallers⟩ := h.due
  rw [step_eq]
  cases htick : m.heap.budget.tick.2 with
  | some e =>
    simp only [ofLimit_of_not_catchable (not_isCatchable_tick htick)]
    obtain ⟨hb, hticked⟩ := h.budget.tick
    refine ⟨fun l hl => ?_, ?_, hb, h.depth_le⟩
    · rw [admitted, htick]
      exact h.executed_le l hl
    · exact h.grown_le.trans_eq hticked.symm
  | none =>
    have hcounted : ∀ l, limits.maxOperations = some l →
        m.due.heap.budget.operations = executed + 1 ∧ executed + 1 ≤ l := fun l hl => by
      obtain ⟨hcount, hle⟩ := h.budget.operations_tick hl
      rw [hoperations, hcount, h.operations l hl]
      exact ⟨rfl, h.operations l hl ▸ hle htick⟩
    have hgrown : grown ≤ m.due.heap.budget.allocations := hallocations ▸ h.grown_le
    have hdepth : ∀ l, limits.maxRecursionDepth = some l →
        (endState (executeNext code m.due)).depth ≤ max 1 l := fun l hl => by
      refine depth_executeNext_le (hbudget.limits_eq ▸ hl) ?_
      rw [depth, hcallers]
      exact h.depth_le l hl
    have hmeets := (executeNext_obedient code).meets hexact hbudget
    have hdue : m.ticked.collected = m.due := rfl
    dsimp only
    rw [hdue]
    have goesOn : ∀ n : Machine, m.due.heap.Affords limits n.heap →
        (∀ l, limits.maxRecursionDepth = some l → n.depth ≤ max 1 l) →
        n.Accounts limits (executed + 1) (grown + m.due.heap.growth n.heap) := fun n hn hd =>
      { executed_le := fun l hl => (hcounted l hl).2
        grown_le := hn.growth_le hgrown
        budget := hn.within
        depth_le := hd
        exact := hn.exact
        operations := fun l hl => hn.operations.trans (hcounted l hl).1 }
    generalize executeNext code m.due = r at hmeets hdepth
    cases r with
    | ok x n => exact goesOn n hmeets hdepth
    | error f n =>
      cases f with
      | overrun e =>
        refine ⟨fun l hl => ?_, hgrown.trans hmeets.2, hmeets.1, hdepth⟩
        rw [admitted, htick]
        exact (hcounted l hl).2
      | _ => exact goesOn n hmeets hdepth

theorem Caught.depth_le (h : m.Caught n) : n.depth ≤ m.depth := Nat.succ_le_succ h.callers

/-- A handler is entered at no cost. -/
theorem Accounts.caught (h : m.Accounts limits executed grown) (hc : m.Caught n) :
    n.Accounts limits executed grown := by
  have hheap := hc.heap
  exact {
    executed_le := h.executed_le
    grown_le := hheap ▸ h.grown_le
    budget := hheap ▸ h.budget
    depth_le := fun l hl => hc.depth_le.trans (h.depth_le l hl)
    exact := hheap ▸ h.exact
    operations := hheap ▸ h.operations }

/-- What comes of an instruction and of the handler that its exception may find. -/
theorem Accounts.advance (code : Bytecode) (h : m.Accounts limits executed grown) :
    match advance code m with
    | .next n | .exit _ n =>
      n.Accounts limits (executed + 1) (grown + m.due.heap.growth n.heap)
    | _ => True := by
  have hstep := h.step code
  rw [advance_eq]
  generalize Machine.step code m = r at hstep
  unfold Advance.ofResult
  cases r with
  | ok x n => cases x <;> exact hstep
  | error f n =>
    cases f with
    | raised e =>
      cases hunwind : n.unwind code e with
      | ok k =>
        have hcaught := caught_of_unwind hunwind
        simp only [hunwind]
        exact hcaught.heap ▸ hstep.caught hcaught
      | error e' => simp only [hunwind]
    | overrun e => trivial
    | endless => trivial
    | stuck => trivial

/-- What a host hands in is charged. -/
theorem Accounts.afford (h : m.Accounts limits executed grown)
    (hn : m.heap.Affords limits n.heap) (hcallers : n.callers.length ≤ m.callers.length) :
    n.Accounts limits executed (grown + m.heap.growth n.heap) where
  executed_le := h.executed_le
  grown_le := hn.growth_le h.grown_le
  budget := hn.within
  depth_le l hl := (Nat.succ_le_succ hcallers).trans (h.depth_le l hl)
  exact := hn.exact
  operations l hl := hn.operations.trans (h.operations l hl)

/-! ## Answers -/

/-- What a host hands in has been charged, and no frame is new. -/
def Takes (limits : Limits) (m n : Machine) : Prop :=
  m.heap.Affords limits n.heap ∧ n.callers.length ≤ m.callers.length

theorem Takes.of_eq (hm : m.heap.Exact) (hb : m.heap.budget.Within limits)
    (hheap : n.heap = m.heap) (hcallers : n.callers.length ≤ m.callers.length) :
    m.Takes limits n :=
  ⟨by rw [hheap]; exact .refl hm hb, hcallers⟩

theorem Takes.trans {l : Machine} (h : l.Takes limits m) (h' : m.Takes limits n) :
    l.Takes limits n := ⟨h.1.trans h'.1, h'.2.trans h.2⟩

theorem Takes.caught (h : m.Takes limits n) {n' : Machine} (hc : n.Caught n') :
    m.Takes limits n' := ⟨hc.heap ▸ h.1, hc.callers.trans h.2⟩

/-- An object that enters the heap; a limit ends that. -/
theorem takes_ofObject (hm : m.heap.Exact) (hb : m.heap.budget.Within limits) (o : Object) :
    match onHeap (Heap.ofObject o) m with
    | .error (.overrun _) _ => True
    | .ok _ n | .error _ n => m.Takes limits n := by
  have hobedient := (Heap.ofObject_plain o).obedient
  have hmeets := (onHeap_obedient hobedient).meets (s := m) hm hb
  have hcalm := onHeap_calm hobedient m
  unfold TurnsAt at hcalm
  generalize onHeap (Heap.ofObject o) m = r at hmeets hcalm
  match r with
  | .ok _ n => exact ⟨hmeets, (congrArg List.length hcalm.callers).le⟩
  | .error (.raised _) n => exact ⟨hmeets, (congrArg List.length hcalm.callers).le⟩
  | .error .endless n => exact ⟨hmeets, (congrArg List.length hcalm.callers).le⟩
  | .error .stuck n => exact ⟨hmeets, (congrArg List.length hcalm.callers).le⟩
  | .error (.overrun _) _ => trivial

theorem caught_of_answerException {e : Raised} (h : m.answerException code e = .ok n) :
    n.heap = m.heap ∧ n.callers.length ≤ m.callers.length := by
  have hc := caught_of_unwind h
  exact ⟨hc.heap, hc.callers⟩

theorem takes_receive {p : Paused} {a : Answer} (hm : m.heap.Exact)
    (hb : m.heap.budget.Within limits) (h : p.receive a m = .ok n) : m.Takes limits n := by
  have raise : ∀ {l : Machine} {e : Raised}, m.Takes limits l →
      (l.answerException p.script.bytecode e).mapError (·, l) = .ok n → m.Takes limits n := by
    intro l e hl h
    cases hraise : l.answerException p.script.bytecode e with
    | error e' => rw [hraise] at h; cases h
    | ok k =>
      rw [hraise] at h
      cases h
      obtain ⟨hheap, hcallers⟩ := caught_of_answerException hraise
      exact hl.trans (.of_eq hl.1.exact hl.1.within hheap hcallers)
  have htaken : m.Takes limits m := .of_eq hm hb rfl le_rfl
  cases a with
  | exception type message limit => exact raise htaken h
  | later =>
    simp only [Paused.receive, answerLater] at h
    cases hp : m.pendingCall with
    | none => rw [hp] at h; cases h
    | some call => rw [hp] at h; cases h; exact .of_eq hm hb rfl le_rfl
  | value o =>
    have hobject := takes_ofObject hm hb o
    unfold Paused.receive at h
    simp only at h
    generalize onHeap (Heap.ofObject o) m = r at hobject h
    cases r with
    | ok v l => cases h; exact hobject.trans (.of_eq hobject.1.exact hobject.1.within rfl le_rfl)
    | error f l =>
      cases f with
      | overrun e => cases h
      | _ => exact raise hobject h

theorem takes_toFutures {p : Paused} {done futures : List (Nat × Future)}
    {results : List (Nat × Answer)} (hm : m.heap.Exact) (hb : m.heap.budget.Within limits)
    (h : p.toFutures m done results = .ok (futures, n)) : m.Takes limits n := by
  induction results generalizing m done with
  | nil => cases h; exact .of_eq hm hb rfl le_rfl
  | cons result results ih =>
    obtain ⟨id, a⟩ := result
    cases a with
    | later => exact ih hm hb h
    | exception type message limit => exact ih hm hb h
    | value o =>
      have hobject := takes_ofObject hm hb o
      rw [Paused.toFutures] at h
      generalize onHeap (Heap.ofObject o) m = r at hobject h
      cases r with
      | ok v l => exact hobject.trans (ih hobject.1.exact hobject.1.within h)
      | error f l => cases h

theorem resolve_eq_of_ok {results : List (Nat × Future)} (h : m.resolve results = .ok n) :
    n = results.foldl (fun m (id, f) => m.setFuture id f) m := by
  unfold resolve at h
  split at h
  · cases h
  · cases h; rfl

theorem heap_setFutures (results : List (Nat × Future)) (m : Machine) :
    let n := results.foldl (fun m (id, f) => m.setFuture id f) m
    n.heap = m.heap ∧ n.callers = m.callers := by
  induction results generalizing m with
  | nil => exact ⟨rfl, rfl⟩
  | cons result results ih => exact ih (m.setFuture result.1 result.2)

theorem takes_receiveAll {p : Paused} {pending : List Nat} {results : List (Nat × Answer)}
    (hm : m.heap.Exact) (hb : m.heap.budget.Within limits)
    (h : p.receiveAll pending results m = .ok (.ok n)) : m.Takes limits n := by
  unfold Paused.receiveAll at h
  split at h
  · cases h
  · split at h
    · cases h
    · next futures l hfutures =>
      have htakes := takes_toFutures hm hb hfutures
      cases hresolve : l.resolve futures with
      | error e => rw [hresolve] at h; cases h
      | ok k =>
        rw [hresolve] at h
        cases h
        obtain ⟨hheap, hcallers⟩ := heap_setFutures futures l
        rw [← resolve_eq_of_ok hresolve] at hheap hcallers
        exact htakes.trans
          (.of_eq htakes.1.exact htakes.1.within hheap (congrArg List.length hcallers).le)

end Machine

/-! ## Runs -/

open Machine

/-- Some run of the script has executed so many instructions and added so many slots and entries to
its heap when it comes to a machine between two of its instructions, at an exit, or where it ends
with an exception. What a host hands in counts as well; that the run is written and read again does
not. An instruction that a limit ends has been
executed, unless it is the limit of instructions or of time; what it has added is not counted, since
nothing goes on with the heap. -/
inductive Script.Tallies (s : Script) (inputs : List Object) (budget : Budget) :
    Nat → Nat → Option Stop → Machine → Prop
  | start {heap globals} (traced writer) : s.globals inputs budget = .ok (heap, globals) →
      Tallies s inputs budget 0 ((Heap.ofBudget budget).growth heap) none
        (begin heap globals traced writer)
  | next {k g m n} : Tallies s inputs budget k g none m → m.advance s.bytecode = .next n →
      Tallies s inputs budget (k + 1) (g + m.due.heap.growth n.heap) none n
  | exit {k g x m n} : Tallies s inputs budget k g none m → m.advance s.bytecode = .exit x n →
      Tallies s inputs budget (k + 1) (g + m.due.heap.growth n.heap) (some (.exit x)) n
  | escape {k g e r m n} : Tallies s inputs budget k g none m →
      m.step s.bytecode = .error (.raised e) n → n.unwind s.bytecode e = .error r →
      Tallies s inputs budget (k + 1) (g + m.due.heap.growth n.heap) (some (.failed r)) n
  | overrun {k g e m n} : Tallies s inputs budget k g none m →
      m.step s.bytecode = .error (.overrun e) n →
      Tallies s inputs budget (k + m.admitted) g
        (some (.failed (n.limitException s.bytecode e))) n
  | answer {k g x m n} (a traced writer) : Tallies s inputs budget k g (some (.exit x)) m →
      x.isCall = true → (s.pause m).receive a ((s.pause m).machine traced writer) = .ok n →
      Tallies s inputs budget k (g + m.heap.growth n.heap) none n
  | resolve {k g pending m n} (results traced writer) :
      Tallies s inputs budget k g (some (.exit (.blocked pending))) m →
      (s.pause m).receiveAll pending results ((s.pause m).machine traced writer) = .ok (.ok n) →
      Tallies s inputs budget k (g + m.heap.growth n.heap) none n
  | reload {k g x m p} (codec : Codec Paused) (clock traced writer) :
      Tallies s inputs budget k g (some (.exit x)) m → (∀ v, x ≠ .returned v) →
      (s.pause m).reload codec clock = some p →
      Tallies s inputs budget k g (some (.exit x)) (p.machine traced writer)
  | unattended {k g x m n e} : Tallies s inputs budget k g (some (.exit x)) m →
      s.unavailable x = some e → m.answerException s.bytecode e = .ok n →
      Tallies s inputs budget k g none n

/-- All machines that runs come by are tallied. -/
theorem Script.Visits.tallies {s : Script} {inputs : List Object} {budget : Budget}
    {x : Option Exit} {m : Machine} (h : s.Visits inputs budget x m) :
    ∃ executed grown, s.Tallies inputs budget executed grown (x.map .exit) m := by
  induction h with
  | start traced writer hglobals => exact ⟨_, _, .start traced writer hglobals⟩
  | next _ hadvance ih =>
    obtain ⟨k, g, ih⟩ := ih
    exact ⟨_, _, ih.next hadvance⟩
  | exit _ hadvance ih =>
    obtain ⟨k, g, ih⟩ := ih
    exact ⟨_, _, ih.exit hadvance⟩
  | answer a traced writer _ hcall hreceive ih =>
    obtain ⟨k, g, ih⟩ := ih
    exact ⟨_, _, ih.answer a traced writer hcall hreceive⟩
  | resolve results traced writer _ hreceive ih =>
    obtain ⟨k, g, ih⟩ := ih
    exact ⟨_, _, ih.resolve results traced writer hreceive⟩
  | reload codec clock traced writer _ hx hp ih =>
    obtain ⟨k, g, ih⟩ := ih
    exact ⟨_, _, ih.reload codec clock traced writer hx hp⟩
  | unattended _ hexit hraise ih =>
    obtain ⟨k, g, ih⟩ := ih
    exact ⟨_, _, ih.unattended hexit hraise⟩

theorem Script.accounts_begin {s : Script} {inputs : List Object} {clock : Clock} {heap : Heap}
    {globals : Array Value} (traced : Bool) (writer : Writer)
    (h : s.globals inputs (.ofLimits limits clock) = .ok (heap, globals)) :
    (begin heap globals traced writer).Accounts limits 0
      ((Heap.ofBudget (.ofLimits limits clock)).growth heap) := by
  have hempty : (Heap.ofBudget (.ofLimits limits clock)).Exact := Heap.exact_ofBudget _
  have hobedient := (Heap.ofObjects_plain [] inputs).obedient
  have hmeets := hobedient.meets (s := Heap.ofBudget (.ofLimits limits clock)) hempty
    (Budget.ofLimits_within limits clock)
  unfold Script.globals at h
  split at h
  · cases h
  · generalize Heap.ofObjects [] inputs (.ofBudget (.ofLimits limits clock)) = r at hmeets h
    cases r with
    | error e k => cases h
    | ok values k =>
      cases h
      have hmeets : (Heap.ofBudget (.ofLimits limits clock)).Affords limits heap := hmeets
      exact {
        executed_le := fun _ _ => Nat.zero_le _
        grown_le := (Nat.zero_add _).symm.trans_le (hmeets.growth_le (Nat.zero_le _))
        budget := hmeets.within
        depth_le := fun l _ => le_max_left 1 l
        exact := hmeets.exact
        operations := fun _ _ => hmeets.operations }

/-- Where a run stands: it is within its limits, and can go on within them if it has not ended. -/
def Script.Accounted (limits : Limits) (executed grown : Nat) : Option Stop → Machine → Prop
  | some (.failed _), m => m.Within limits executed grown
  | _, m => m.Accounts limits executed grown

theorem Script.Tallies.accounted {s : Script} {inputs : List Object} {clock : Clock}
    {executed grown : Nat} {x : Option Stop} {m : Machine}
    (h : s.Tallies inputs (.ofLimits limits clock) executed grown x m) :
    Accounted limits executed grown x m := by
  induction h with
  | start traced writer hglobals => exact accounts_begin traced writer hglobals
  | next _ hadvance ih =>
    have h := Accounts.advance s.bytecode ih
    rw [hadvance] at h
    exact h
  | exit _ hadvance ih =>
    have h := Accounts.advance s.bytecode ih
    rw [hadvance] at h
    exact h
  | escape _ hstep _ ih =>
    have h := Accounts.step s.bytecode ih
    rw [hstep] at h
    exact h.toWithin
  | overrun _ hstep ih =>
    have h := Accounts.step s.bytecode ih
    rw [hstep] at h
    exact h
  | @answer k g x m n a traced writer _ _ hreceive ih =>
    have ih : m.Accounts limits k g := ih
    have h : ((s.pause m).machine traced writer).Accounts limits k g := { ih with }
    obtain ⟨haffords, hcallers⟩ := takes_receive h.exact h.budget hreceive
    exact h.afford haffords hcallers
  | @resolve k g pending m n results traced writer _ hreceive ih =>
    have ih : m.Accounts limits k g := ih
    have h : ((s.pause m).machine traced writer).Accounts limits k g := { ih with }
    obtain ⟨haffords, hcallers⟩ := takes_receiveAll h.exact h.budget hreceive
    exact h.afford haffords hcallers
  | @reload k g x m p codec clock traced writer _ _ hp ih =>
    obtain rfl := Paused.eq_of_reload hp
    have ih : m.Accounts limits k g := ih
    have h : (((s.pause m).restart clock).machine traced writer).Accounts limits k g :=
      { ih with budget := ih.budget.restart clock, exact := ⟨ih.exact.nodup, ih.exact.mem_free⟩ }
    exact h
  | @unattended k g x m n e _ _ hraise ih =>
    have ih : m.Accounts limits k g := ih
    have h : ({ m with pendingCall := none } : Machine).Accounts limits k g := { ih with }
    exact h.caught (caught_of_unwind hraise)

/-- Wherever a run has come to, and whatever it has got from its host and its clocks on the way, it
has executed no more instructions and added no more slots and entries than its limits allow; the
memory in use and the number of its frames are within theirs. -/
theorem Script.Tallies.within {s : Script} {inputs : List Object} {limits : Limits} {clock : Clock}
    {executed grown : Nat} {x : Option Stop} {m : Machine}
    (h : s.Tallies inputs (.ofLimits limits clock) executed grown x m) :
    (∀ l, limits.maxOperations = some l → executed ≤ l) ∧
    grown ≤ m.heap.budget.allocations ∧
    (∀ l, limits.maxAllocations = some l → m.heap.budget.allocations ≤ l) ∧
    (∀ l, limits.maxMemory = some l → m.heap.budget.memory ≤ l) ∧
    ∀ l, limits.maxRecursionDepth = some l → m.frames.length ≤ max 1 l := by
  have hm : m.Within limits executed grown := by
    have h := h.accounted
    unfold Accounted at h
    split at h
    · exact h
    · exact h.toWithin
  exact ⟨hm.executed_le, hm.grown_le, hm.budget.allocations, hm.budget.memory, hm.depth_le⟩

/-- A run with the input `[1]` that calls a function of the host, is written and read again, gets
`[2]`, and so uses up what it may allocate. -/
theorem Script.Tallies.within_answer :
    let s : Script := ⟨"main.py", "", ["x"], ["f"],
      ⟨#[{ name := "<module>"
           instrs := #[⟨.loadGlobal 0, .unknown⟩, ⟨.call 0 none, .unknown⟩]
           pool := .empty
           locals := []
           paramCount := 0 }], ["f", "x"]⟩⟩
    let limits := { Limits.default with
      maxOperations := some 2, maxAllocations := some 2, maxMemory := some 300 }
    ∃ m : Machine, s.Tallies [.list [.int 1]] (.ofLimits limits) 2 2 none m ∧
      m.heap.budget.allocations = 2 ∧ m.heap.budget.memory ≤ 300 ∧ m.frames.length ≤ 1000 := by
  intro s limits
  let budget := Budget.ofLimits limits
  let used (n : Nat) : Budget :=
    { budget with memory := 136, allocations := 1, operations := n }
  let heap : Heap := ⟨#[some ⟨.list #[.int 1], 136⟩], [], 1, used 0⟩
  let begun := begin heap #[.external 0, .ref 0] false .collector
  let loaded : Machine := { begun with
    heap := { heap with budget := used 1 }
    frame := { begun.frame with next := 1 }
    stack := [.external 0] }
  let called : Machine := { loaded with
    heap := { heap with budget := used 2 }
    frame := { begun.frame with next := 2 }
    stack := []
    nextCall := 1
    pendingCall := some 0 }
  let answered : Machine := { called with
    heap := ⟨#[some ⟨.list #[.int 1], 136⟩, some ⟨.list #[.int 2], 136⟩], [], 2,
      { used 2 with memory := 272, allocations := 2 }⟩
    stack := [.ref 1]
    pendingCall := none }
  have hbegun : s.Tallies [.list [.int 1]] budget 0 _ none begun := .start false .collector rfl
  have hloaded : s.Tallies [.list [.int 1]] budget 1 _ none loaded := hbegun.next rfl
  have hcalled : s.Tallies [.list [.int 1]] budget 2 _ (some (.exit (.externalCall 0 ⟨[], []⟩ 0)))
      called := hloaded.exit rfl
  have hreloaded : s.Tallies [.list [.int 1]] budget 2 _
      (some (.exit (.externalCall 0 ⟨[], []⟩ 0))) called :=
    hcalled.reload (.direct Paused) .nominal false .collector nofun rfl
  have hanswered :=
    hreloaded.answer (n := answered) (.value (.list [.int 2])) false .collector rfl rfl
  have hgrown : (Heap.ofBudget budget).growth heap + begun.due.heap.growth loaded.heap +
      loaded.due.heap.growth called.heap + called.heap.growth answered.heap = 2 := by decide
  rw [hgrown] at hanswered
  obtain ⟨-, hgrown, hallocations, hmemory, hdepth⟩ := hanswered.within
  exact ⟨answered, hanswered, le_antisymm (hallocations 2 rfl) hgrown, hmemory 300 rfl,
    hdepth 1000 rfl⟩

end Resumable
