import Resumable.Proofs.Spending

/-!
# Memory in use

`h.charged` is what has been charged for the slots in use. A charge that is granted adds to the
count of the budget and is noted at a slot (`Heap.Accrues`); a slot that is freed gives back what
has been noted at it. So the count is that sum at every point of every run, also where a charge has
been refused: `Script.Throughout.memory_eq_charged`.

The count has 64 bits and stays at its largest value instead of wrapping, so that this takes a
memory limit below that value, or charges that never reach it (`Heap.Fits`).

What a slot has been charged for covers its cell if an entry of a dict counts as one value:
`Script.Visits.covered`.
-/

namespace Resumable

variable {limits : Limits}

/-! ## Counting -/

/-- A budget has counted another `n` bytes, unless its count is at its end. -/
def Budget.Counts (b : Budget) (n : Nat) (c : Budget) : Prop :=
  c.memory = b.memory + n ∨ UInt64.size ≤ c.memory + 1 ∧ UInt64.size ≤ b.memory + n

namespace Budget

variable {b c d : Budget} {n k : Nat}

theorem Counts.refl (b : Budget) : b.Counts 0 b := .inl rfl

theorem Counts.trans (h : b.Counts n c) (h' : c.Counts k d) : b.Counts (n + k) d := by
  unfold Counts at h h' ⊢
  omega

theorem counts_memoryAfter {bytes used : Nat} (h : b.memoryAfter bytes = .ok used) :
    used = min (b.memory + bytes) (UInt64.size - 1) := by
  unfold memoryAfter at h
  simp only at h
  split at h
  · split at h
    · cases h
    · cases h; rfl
  · cases h; rfl

theorem Within.counts_allocate (h : b.Within limits) {bytes : Nat}
    (hc : b.allocate bytes = .ok c) : b.Counts bytes c := by
  have charge : ∀ count, allocate.charge b bytes count = .ok c → b.Counts bytes c := by
    intro count hc
    unfold allocate.charge at hc
    split at hc
    · next used hused =>
      cases hc
      have hsize : 0 < UInt64.size := by decide
      have hused := counts_memoryAfter hused
      unfold Counts
      dsimp only
      omega
    · cases hc
  unfold Budget.allocate at hc
  rw [h.counts, if_neg Bool.false_ne_true] at hc
  simp only at hc
  split at hc
  · split at hc
    · cases hc
    · exact charge _ hc
  · exact charge _ hc

theorem Within.counts_ask (h : b.Within limits) {q : Query} (hc : b.ask q = .ok c) :
    b.Counts (chargedBytes [q]) c := by
  cases q with
  | charge bytes => exact h.counts_allocate hc
  | result bytes =>
    simp only [Budget.ask] at hc
    cases hr : b.checkResult bytes <;> rw [hr] at hc <;> cases hc
    exact .refl b
  | depth active =>
    simp only [Budget.ask] at hc
    cases hr : b.checkDepth active <;> rw [hr] at hc <;> cases hc
    exact .refl b

theorem Within.counts_askAll (h : b.Within limits) {qs : List Query} (hc : b.askAll qs = .ok c) :
    b.Counts (chargedBytes qs) c := by
  induction qs generalizing b with
  | nil => cases hc; exact .refl _
  | cons q qs ih =>
    rw [Budget.askAll] at hc
    cases hq : b.ask q with
    | error e => rw [hq] at hc; cases hc
    | ok d =>
      rw [hq] at hc
      have hrest := ih (h.ask hq).1 hc
      exact chargedBytes_append [q] qs ▸ (h.counts_ask hq).trans hrest

end Budget

/-! ## Charges that are noted -/

namespace Heap

variable {h i k : Heap} {x : Nat}

/-- The heap `k` comes of `h` by charges that have been granted and noted. -/
def Accrues (h k : Heap) : Prop :=
  ∃ qs, h.budget.askAll qs = .ok k.budget ∧ h.Noted (chargedBytes qs) k

/-- Besides, slots that were charged for their cells still are. -/
structure Evolves (h k : Heap) : Prop where
  accrues : h.Accrues k
  covered : h.Covered → k.Covered

theorem Accrues.refl (h : Heap) : h.Accrues h := ⟨[], rfl, .refl h⟩

theorem Accrues.trans (hi : h.Accrues i) (hk : i.Accrues k) : h.Accrues k := by
  obtain ⟨qs, hqs, hnoted⟩ := hi
  obtain ⟨ps, hps, hnoted'⟩ := hk
  refine ⟨qs ++ ps, ?_, chargedBytes_append qs ps ▸ hnoted.trans hnoted'⟩
  rw [Budget.askAll_append, hqs]
  exact hps

theorem Evolves.refl (h : Heap) : h.Evolves h := ⟨.refl h, id⟩

theorem Evolves.trans (hi : h.Evolves i) (hk : i.Evolves k) : h.Evolves k :=
  ⟨hi.accrues.trans hk.accrues, fun hh => hk.covered (hi.covered hh)⟩

/-- The end of an action from a heap. -/
def Settles {σ α : Type} [Funded σ] (h : Heap) : EStateM.Result Failure σ α → Prop
  | .error (.overrun _) t => h.Accrues (Funded.heap t)
  | .ok _ t | .error _ t => h.Evolves (Funded.heap t)

theorem Evolves.settles {σ α : Type} [Funded σ] {r : EStateM.Result Failure σ α}
    (hr : h.Evolves (Funded.heap (endState r))) : h.Settles r := by
  match r with
  | .ok _ _ => exact hr
  | .error (.raised _) _ => exact hr
  | .error .endless _ => exact hr
  | .error .stuck _ => exact hr
  | .error (.overrun _) _ => exact hr.accrues

end Heap

theorem Obedient.settles {σ α : Type} [Funded σ] [Passing σ] {x : EStateM Failure σ α}
    (hx : Obedient x) (s : σ) : (Funded.heap s).Settles (x s) := by
  obtain ⟨qs, r, hr⟩ := hx s
  have hself : Funded.under s (Funded.heap s).budget = s := Funded.under_self s
  cases hask : (Funded.heap s).budget.askAll qs with
  | ok b =>
    have hend := hr.granted hask
    rw [hself] at hend
    have hheap : Funded.heap (endState (x s)) = { Funded.heap (endState r) with budget := b } := by
      rw [hend]
      cases r <;> exact Funded.heap_under _ _
    refine Heap.Evolves.settles ⟨⟨qs, ?_, ?_⟩, ?_⟩
    · rw [hheap]; exact hask
    · rw [hheap]; exact hr.noted.trans (Heap.noted_under _ b)
    · rw [hheap]; exact hr.covered
  | error refusal =>
    obtain ⟨e, b⟩ := refusal
    obtain ⟨t, ht⟩ := hr.refused hask
    obtain ⟨ps, hps, hnoted⟩ := hr.stopped hask
    rw [hself] at ht hnoted
    have haccrues : (Funded.heap s).Accrues (Funded.heap (endState (x s))) := by
      refine ⟨ps, ?_, hnoted⟩
      rw [ht]
      change _ = Except.ok (Funded.heap (Funded.under t b)).budget
      rw [Funded.heap_under]
      exact hps
    cases he : e.isCatchable with
    | true =>
      obtain ⟨-, -, -, hcovered⟩ := hr.caught hask he
      rw [hself] at hcovered
      exact Heap.Evolves.settles ⟨haccrues, hcovered⟩
    | false =>
      rw [Machine.ofLimit_of_not_catchable he] at ht
      rw [ht] at haccrues ⊢
      exact haccrues

/-! ## Freeing -/

namespace Heap

variable {h i k : Heap} {x : Nat}

theorem slot?_freeSlot (h : Heap) (x y : Nat) :
    (h.freeSlot x).slot? y = if y = x then none else h.slot? y := by
  unfold freeSlot
  split
  · next s hs =>
    have hlt : x < h.slots.size := (Array.getElem?_eq_some_iff.mp hs).1
    simp only [slot?, Array.getElem?_setIfInBounds]
    by_cases hxy : y = x
    · simp [hxy, hlt]
    · simp [hxy, Ne.symm hxy]
  · next hs =>
    by_cases hxy : y = x
    · rw [if_pos hxy, hxy, slot?]
      rcases hx : h.slots[x]? with _ | _ | s
      · rfl
      · rfl
      · exact absurd hx (hs s)
    · rw [if_neg hxy]

/-- What a slot has been charged for is taken off. -/
theorem charged_freeSlot (h : Heap) (x : Nat) :
    (h.freeSlot x).charged + h.chargedAt x = h.charged := by
  have hsum := charged_of_slot (h := h) (k := h.freeSlot x) x fun y hy => by
    rw [slot?_freeSlot, if_neg hy]
  rwa [chargedAt, chargedAt, slot?_freeSlot, if_pos rfl] at hsum

theorem memory_freeSlot (hb : h.budget.unlimited = false) (x : Nat) :
    (h.freeSlot x).budget.memory = h.budget.memory - h.chargedAt x := by
  unfold freeSlot
  split
  · next s hs =>
    rw [Budget.release, hb, if_neg Bool.false_ne_true, chargedAt, slot?, hs]
    rfl
  · next hs =>
    rw [chargedAt, slot?]
    rcases hx : h.slots[x]? with _ | _ | s
    · rfl
    · rfl
    · exact absurd hx (hs s)

theorem Covered.freeSlot (hh : h.Covered) (x : Nat) : (h.freeSlot x).Covered := by
  intro y s hs
  rw [slot?_freeSlot] at hs
  split at hs
  · cases hs
  · exact hh y s hs

theorem Covered.collect (hh : h.Covered) (vs : List Value) : (h.collect vs).Covered := by
  unfold Heap.collect
  simp only
  generalize (List.range h.slots.size).filter (unmarked (h.reachable vs)) = xs
  have hcovered : ({ h with recent := 0 } : Heap).Covered := hh
  generalize ({ h with recent := 0 } : Heap) = k at hcovered
  induction xs generalizing k with
  | nil => exact hcovered
  | cons x xs ih => exact ih _ (hcovered.freeSlot x)

/-- A collection without roots frees every slot. -/
theorem charged_collect_nil (h : Heap) : (h.collect []).charged = 0 := by
  refine Finset.sum_eq_zero fun x _ => ?_
  have hnone : (h.collect []).cell? x = none := by
    refine (cell?_sweep _ _ x).trans ?_
    split
    · rfl
    · next hx =>
      refine cell?_eq_none_of_size_le (Nat.le_of_not_lt fun hlt => hx ?_)
      have hunmarked : unmarked (h.reachable []) x = true := by
        rw [reachable, Value.allRefs, mark, unmarked, Array.getElem?_replicate, if_pos hlt]
        rfl
      exact List.mem_filter.mpr ⟨List.mem_range.mpr hlt, hunmarked⟩
  rw [cell?_eq_slot?, Option.map_eq_none_iff] at hnone
  rw [chargedAt, hnone]
  rfl

/-! ## Balanced heaps -/

/-- The count of a budget with these limits does not come to its end. -/
def Fits (h : Heap) (limits : Limits) : Prop :=
  (∀ l, limits.maxMemory = some l → UInt64.size ≤ l + 1) → h.charged < UInt64.size

/-- The budget has these limits, and has counted what has been charged for the slots in use. -/
structure Balanced (h : Heap) (limits : Limits) : Prop where
  exact : h.Exact
  within : h.budget.Within limits
  memory : h.budget.memory = h.charged

theorem balanced_ofBudget (limits : Limits) (clock : Clock) :
    (ofBudget (.ofLimits limits clock)).Balanced limits :=
  ⟨exact_ofBudget _, Budget.ofLimits_within limits clock, rfl⟩

namespace Balanced

theorem accrue (hh : h.Balanced limits) (hk : h.Accrues k) (hfits : k.Fits limits) :
    k.Balanced limits := by
  obtain ⟨qs, hqs, hnoted⟩ := hk
  obtain ⟨hexact, hcharged⟩ := hnoted.ledger hh.exact
  obtain ⟨hwithin, -⟩ := hh.within.askAll hqs
  refine ⟨hexact, hwithin, ?_⟩
  rw [hcharged, ← hh.memory]
  rcases hh.within.counts_askAll hqs with hcount | ⟨hend, hsum⟩
  · exact hcount
  · -- At its end the count is within the limit, so that the limit is not below the end.
    have hlt := hfits fun l hl => hend.trans (Nat.succ_le_succ (hwithin.memory l hl))
    rw [hcharged, ← hh.memory] at hlt
    omega

theorem freeSlot (hh : h.Balanced limits) (x : Nat) : (h.freeSlot x).Balanced limits := by
  have hmemory := memory_freeSlot hh.within.counts x
  have hcharged := charged_freeSlot h x
  obtain ⟨n, hn⟩ := freeSlot_budget h x
  refine ⟨hh.exact.freeSlot x, ?_, by rw [hmemory, hh.memory]; omega⟩
  have hle := memory_freeSlot_le h x
  rw [hn] at hle ⊢
  exact hh.within.release hle

theorem sweep (hh : h.Balanced limits) (xs : List Nat) :
    (xs.foldl Heap.freeSlot h).Balanced limits := by
  induction xs generalizing h with
  | nil => exact hh
  | cons x xs ih => exact ih (hh.freeSlot x)

theorem collect (hh : h.Balanced limits) (vs : List Value) : (h.collect vs).Balanced limits :=
  sweep (h := { h with recent := 0 }) ⟨⟨hh.exact.nodup, hh.exact.mem_free⟩, hh.within, hh.memory⟩ _

/-- Every slot can be given back in full. -/
theorem chargedAt_le (hh : h.Balanced limits) (x : Nat) : h.chargedAt x ≤ h.budget.memory :=
  hh.memory ▸ Heap.chargedAt_le h x

end Balanced

end Heap

/-! ## Machines -/

namespace Machine

variable {code : Bytecode} {m n : Machine}

theorem balanced_ticked (hm : m.heap.Balanced limits) : m.ticked.heap.Balanced limits where
  exact := ⟨hm.exact.nodup, hm.exact.mem_free⟩
  within := hm.within.tick.1
  memory := by
    obtain ⟨operations, readings, hb⟩ := m.heap.budget.tick_eq
    change m.heap.budget.tick.1.memory = m.heap.charged
    rw [hb]
    exact hm.memory

theorem balanced_due (hm : m.heap.Balanced limits) : m.due.heap.Balanced limits := by
  unfold due collected
  split
  · exact (balanced_ticked hm).collect _
  · exact balanced_ticked hm

theorem covered_due (hm : m.heap.Covered) : m.due.heap.Covered := by
  unfold due collected
  split
  · exact Heap.Covered.collect (h := m.ticked.heap) hm _
  · exact hm

/-- What an instruction does to the heap after it has been counted. -/
theorem heap_advance (code : Bytecode) (m : Machine) :
    match advance code m with
    | .next n | .exit _ n => m.due.heap.Evolves n.heap
    | .failed _ n => n.heap = m.ticked.heap ∨ m.due.heap.Accrues n.heap
    | .endless => True := by
  have hends := (executeNext_obedient code).settles m.due
  rw [advance_eq, step_eq]
  cases htick : m.heap.budget.tick.2 with
  | some e =>
    dsimp only
    rw [ofLimit_of_not_catchable (not_isCatchable_tick htick)]
    exact .inl rfl
  | none =>
    change match Advance.ofResult code (executeNext code m.due) with
      | .next n | .exit _ n => m.due.heap.Evolves n.heap
      | .failed _ n => n.heap = m.ticked.heap ∨ m.due.heap.Accrues n.heap
      | .endless => True
    generalize executeNext code m.due = r at hends ⊢
    unfold Advance.ofResult
    match r with
    | .ok none n => exact hends
    | .ok (some x) n => exact hends
    | .error (.raised e) n =>
      have hends : m.due.heap.Evolves n.heap := hends
      cases hunwind : n.unwind code e with
      | ok k =>
        simp only [hunwind]
        exact (caught_of_unwind hunwind).heap ▸ hends
      | error e' =>
        simp only [hunwind]
        exact .inr hends.accrues
    | .error (.overrun e) n => exact .inr hends
    | .error .endless n => trivial
    | .error .stuck n => trivial

end Machine

/-! ## Answers -/

namespace Paused

open Machine

variable {p : Paused} {m n : Machine}

/-- What an answer does to the heap. -/
theorem heap_receive (p : Paused) (a : Answer) (m : Machine) :
    match p.receive a m with
    | .ok n => m.heap.Evolves n.heap
    | .error (_, n) => m.heap.Accrues n.heap := by
  have raise : ∀ (l : Machine) (e : Raised), m.heap.Evolves l.heap →
      match (l.answerException p.script.bytecode e).mapError (·, l) with
      | .ok n => m.heap.Evolves n.heap
      | .error (_, n) => m.heap.Accrues n.heap := by
    intro l e hl
    cases hraise : l.answerException p.script.bytecode e with
    | ok n =>
      change m.heap.Evolves n.heap
      rwa [(caught_of_answerException hraise).1]
    | error e' => exact hl.accrues
  cases a with
  | later =>
    simp only [receive, answerLater]
    cases m.pendingCall with
    | none => exact .refl _
    | some call => exact .refl _
  | exception type message limit => exact raise m _ (.refl _)
  | value o =>
    have hends := (onHeap_obedient (Heap.ofObject_plain o).obedient).settles m
    unfold receive
    simp only
    generalize onHeap (Heap.ofObject o) m = r at hends ⊢
    cases r with
    | ok v l => exact hends
    | error f l =>
      cases f with
      | overrun e => exact hends
      | raised e => exact raise l _ hends
      | endless => exact raise l _ hends
      | stuck => exact raise l _ hends

theorem heap_toFutures {done futures : List (Nat × Future)} {results : List (Nat × Answer)}
    (h : p.toFutures m done results = .ok (futures, n)) : m.heap.Evolves n.heap := by
  induction results generalizing m done with
  | nil => cases h; exact .refl _
  | cons result results ih =>
    obtain ⟨id, a⟩ := result
    cases a with
    | later => exact ih h
    | exception type message limit => exact ih h
    | value o =>
      have hends := (onHeap_obedient (Heap.ofObject_plain o).obedient).settles m
      rw [toFutures] at h
      generalize onHeap (Heap.ofObject o) m = r at hends h
      cases r with
      | ok v l => exact Heap.Evolves.trans hends (ih h)
      | error f l => cases h

theorem heap_receiveAll {pending : List Nat} {results : List (Nat × Answer)} :
    ∀ {received}, p.receiveAll pending results m = .ok received →
      match received with
      | .ok n | .error (_, n) => m.heap.Evolves n.heap := by
  intro received h
  unfold receiveAll at h
  split at h
  · cases h
  · split at h
    · cases h
    · next futures l hfutures =>
      cases h
      have hevolves := heap_toFutures hfutures
      cases hresolve : l.resolve futures with
      | error e => exact hevolves
      | ok k =>
        have hheap := (heap_setFutures futures l).1
        rw [← resolve_eq_of_ok hresolve] at hheap
        change m.heap.Evolves k.heap
        rwa [hheap]

end Paused

/-! ## Runs -/

open Machine

/-- One move of a run: an instruction, or what its host makes of an exit. A snapshot may be taken up
again with any writer, traced or not, and may be written and read again before. -/
inductive Script.Moves (s : Script) : Option Stop → Machine → Option Stop → Machine → Prop
  | next {m n} : m.advance s.bytecode = .next n → s.Moves none m none n
  | exit {x m n} : m.advance s.bytecode = .exit x n → s.Moves none m (some (.exit x)) n
  | fail {e m n} : m.advance s.bytecode = .failed e n → s.Moves none m (some (.failed e)) n
  | answer {x m n} (a traced writer) : x.isCall = true →
      (s.pause m).receive a ((s.pause m).machine traced writer) = .ok n →
      s.Moves (some (.exit x)) m none n
  | refuse {x m e n} (a traced writer) : x.isCall = true →
      (s.pause m).receive a ((s.pause m).machine traced writer) = .error (e, n) →
      s.Moves (some (.exit x)) m (some (.failed e)) n
  | resolve {pending m n} (results traced writer) :
      (s.pause m).receiveAll pending results ((s.pause m).machine traced writer) = .ok (.ok n) →
      s.Moves (some (.exit (.blocked pending))) m none n
  | reject {pending m e n} (results traced writer) :
      (s.pause m).receiveAll pending results ((s.pause m).machine traced writer) =
        .ok (.error (e, n)) →
      s.Moves (some (.exit (.blocked pending))) m (some (.failed e)) n
  | reload {x m p} (codec : Codec Paused) (clock traced writer) : (∀ v, x ≠ .returned v) →
      (s.pause m).reload codec clock = some p →
      s.Moves (some (.exit x)) m (some (.exit x)) (p.machine traced writer)
  | unattended {x m n e} : s.unavailable x = some e → m.answerException s.bytecode e = .ok n →
      s.Moves (some (.exit x)) m none n

/-- Some run of the script has come to a machine between two of its instructions, at an exit, or
where it has failed, and all machines that it has come by are as `P` says. -/
inductive Script.Throughout (s : Script) (inputs : List Object) (budget : Budget)
    (P : Machine → Prop) : Option Stop → Machine → Prop
  | start {heap globals} (traced writer) : s.globals inputs budget = .ok (heap, globals) →
      P (begin heap globals traced writer) →
      Throughout s inputs budget P none (begin heap globals traced writer)
  | move {x y m n} : Throughout s inputs budget P x m → s.Moves x m y n → P n →
      Throughout s inputs budget P y n

theorem Script.evolves_globals {s : Script} {inputs : List Object} {budget : Budget} {heap : Heap}
    {globals : Array Value} (h : s.globals inputs budget = .ok (heap, globals)) :
    (Heap.ofBudget budget).Evolves heap := by
  have hends := (Heap.ofObjects_plain [] inputs).obedient.settles (Heap.ofBudget budget)
  unfold Script.globals at h
  split at h
  · cases h
  · generalize Heap.ofObjects [] inputs (.ofBudget budget) = r at hends h
    cases r with
    | error e k => cases h
    | ok values k => cases h; exact hends

/-- Each move keeps the balance, as long as the count does not come to its end. -/
theorem Script.Moves.balanced {s : Script} {x y : Option Stop} {m n : Machine} (h : s.Moves x m y n)
    (hm : m.heap.Balanced limits) (hfits : n.heap.Fits limits) : n.heap.Balanced limits := by
  cases h with
  | next hadvance =>
    have hheap := heap_advance s.bytecode m
    rw [hadvance] at hheap
    exact (balanced_due hm).accrue hheap.accrues hfits
  | exit hadvance =>
    have hheap := heap_advance s.bytecode m
    rw [hadvance] at hheap
    exact (balanced_due hm).accrue hheap.accrues hfits
  | fail hadvance =>
    have hheap := heap_advance s.bytecode m
    rw [hadvance] at hheap
    rcases hheap with hheap | haccrues
    · rw [hheap]
      exact balanced_ticked hm
    · exact (balanced_due hm).accrue haccrues hfits
  | answer a traced writer _ hreceive =>
    have hheap := (s.pause m).heap_receive a ((s.pause m).machine traced writer)
    rw [hreceive] at hheap
    exact hm.accrue hheap.accrues hfits
  | refuse a traced writer _ hreceive =>
    have hheap := (s.pause m).heap_receive a ((s.pause m).machine traced writer)
    rw [hreceive] at hheap
    exact hm.accrue hheap hfits
  | resolve results traced writer hreceive =>
    exact hm.accrue (Paused.heap_receiveAll hreceive).accrues hfits
  | reject results traced writer hreceive =>
    exact hm.accrue (Paused.heap_receiveAll hreceive).accrues hfits
  | reload codec clock traced writer _ hp =>
    obtain rfl := Paused.eq_of_reload hp
    exact ⟨⟨hm.exact.nodup, hm.exact.mem_free⟩, hm.within.restart clock, hm.memory⟩
  | unattended _ hraise =>
    rw [(caught_of_answerException hraise).1]
    exact hm

theorem Script.Throughout.balanced {s : Script} {inputs : List Object} {clock : Clock}
    {x : Option Stop} {m : Machine}
    (h : s.Throughout inputs (.ofLimits limits clock) (·.heap.Fits limits) x m) :
    m.heap.Balanced limits := by
  induction h with
  | start traced writer hglobals hfits =>
    exact (Heap.balanced_ofBudget limits clock).accrue (evolves_globals hglobals).accrues hfits
  | move _ hmove hfits ih => exact hmove.balanced ih hfits

/-- A memory limit below the largest value of the count keeps it from there. -/
theorem Heap.fits_of_limit {l : Nat} (hl : limits.maxMemory = some l) (hlt : l + 1 < UInt64.size)
    (h : Heap) : h.Fits limits := fun hend => absurd (hend l hl) (Nat.not_le.mpr hlt)

/-- All runs are made of moves. -/
theorem Script.Tallies.throughout {s : Script} {inputs : List Object} {budget : Budget}
    {P : Machine → Prop} (hP : ∀ m, P m) {executed grown : Nat} {x : Option Stop} {m : Machine}
    (h : s.Tallies inputs budget executed grown x m) : s.Throughout inputs budget P x m := by
  induction h with
  | start traced writer hglobals => exact .start traced writer hglobals (hP _)
  | next _ hadvance ih => exact ih.move (.next hadvance) (hP _)
  | exit _ hadvance ih => exact ih.move (.exit hadvance) (hP _)
  | escape _ hstep hunwind ih =>
    refine ih.move (.fail ?_) (hP _)
    simp only [advance, hstep, hunwind]
  | overrun _ hstep ih =>
    refine ih.move (.fail ?_) (hP _)
    simp only [advance, hstep]
  | answer a traced writer _ hcall hreceive ih =>
    exact ih.move (.answer a traced writer hcall hreceive) (hP _)
  | resolve results traced writer _ hreceive ih =>
    exact ih.move (.resolve results traced writer hreceive) (hP _)
  | reload codec clock traced writer _ hx hp ih =>
    exact ih.move (.reload codec clock traced writer hx hp) (hP _)
  | unattended _ hexit hraise ih => exact ih.move (.unattended hexit hraise) (hP _)

/-- Under such a limit nothing else is asked of a run. -/
theorem Script.Tallies.balanced {s : Script} {inputs : List Object} {clock : Clock}
    {l executed grown : Nat} {x : Option Stop} {m : Machine} (hl : limits.maxMemory = some l)
    (hlt : l + 1 < UInt64.size)
    (h : s.Tallies inputs (.ofLimits limits clock) executed grown x m) : m.heap.Balanced limits :=
  (h.throughout (Heap.fits_of_limit hl hlt ·.heap)).balanced

theorem Script.Throughout.memory_eq_charged {s : Script} {inputs : List Object} {limits : Limits}
    {clock : Clock} {x : Option Stop} {m : Machine}
    (h : s.Throughout inputs (.ofLimits limits clock) (·.heap.Fits limits) x m) :
    m.heap.budget.memory = m.heap.charged ∧
    (∀ freed : List Nat, let left := freed.foldl Heap.freeSlot m.heap
      left.budget.memory = left.charged ∧ ∀ x, left.chargedAt x ≤ left.budget.memory) ∧
    (m.heap.collect []).budget.memory = 0 := by
  have hm := h.balanced
  have hnone := (hm.collect []).memory
  rw [Heap.charged_collect_nil] at hnone
  exact ⟨hm.memory, fun freed => ⟨(hm.sweep freed).memory, (hm.sweep freed).chargedAt_le⟩, hnone⟩

/-- A script that extends its input by itself, and then builds another list. -/
def Script.doubling : Script :=
  ⟨"main.py", "", ["x"], [],
    ⟨#[{ name := "<module>"
         instrs := #[⟨.loadGlobal 0, .unknown⟩, ⟨.dup, .unknown⟩, ⟨.inplace .add, .unknown⟩,
           ⟨.buildList 0, .unknown⟩]
         pool := .empty
         locals := []
         paramCount := 0 }], ["x"]⟩⟩

/-- A limit that leaves no room for the other list. -/
def Script.doublingLimits : Limits := { Limits.default with maxMemory := some 200 }

/-- A run of the script with the input `[1]`, when its list has so many items and so many charged
bytes, after some instructions and allocations. -/
def Script.doublingAt (items : Array Value) (charged next allocations : Nat) (stack : List Value) :
    Machine :=
  let m := begin ⟨#[some ⟨.list items, charged⟩], [], 1,
    { Budget.ofLimits doublingLimits with allocations, memory := charged }⟩ #[.ref 0] false
    .collector
  { m with frame := { m.frame with next }, stack }

/-- The list is charged for when it is made and when it is extended. The charge for the other one is
refused, and is not counted. -/
theorem Script.Throughout.memory_eq_charged_refused :
    ∃ (e : Raised) (m : Machine),
      Script.doubling.Throughout [.list [.int 1]] (.ofLimits doublingLimits)
        (·.heap.Fits doublingLimits) (some (.failed e)) m ∧
      m.heap.budget.memory = 184 ∧ m.heap.charged = 184 ∧
      (m.heap.collect []).budget.memory = 0 := by
  have fits (m : Machine) : m.heap.Fits doublingLimits :=
    Heap.fits_of_limit (l := 200) rfl (by decide) m.heap
  have h₀ : doubling.Throughout [.list [.int 1]] (.ofLimits doublingLimits)
      (·.heap.Fits doublingLimits) none (doublingAt #[.int 1] 136 0 1 []) :=
    .start false .collector rfl (fits _)
  have h₁ := h₀.move (n := doublingAt #[.int 1] 136 1 1 [.ref 0]) (.next rfl) (fits _)
  have h₂ := h₁.move (n := doublingAt #[.int 1] 136 2 1 [.ref 0, .ref 0]) (.next rfl) (fits _)
  have h₃ := h₂.move (n := doublingAt #[.int 1, .int 1] 184 3 2 [.ref 0]) (.next rfl) (fits _)
  have h₄ := h₃.move (n := doublingAt #[.int 1, .int 1] 184 4 2 [.ref 0]) (.fail rfl) (fits _)
  obtain ⟨hcharged, -, hfreed⟩ := h₄.memory_eq_charged
  exact ⟨_, _, h₄, rfl, hcharged.symm, hfreed⟩

/-! ## Covered containers -/

/-- Whatever a run does, as long as it goes on or is at an exit, each slot has been charged for at
least its cell, where an entry of a dict counts as one value. -/
theorem Script.Visits.covered {s : Script} {inputs : List Object} {budget : Budget}
    {x : Option Exit} {m : Machine} (h : s.Visits inputs budget x m) : m.heap.Covered := by
  induction h with
  | start traced writer hglobals =>
    exact (evolves_globals hglobals).covered fun x s hs => by simp [Heap.slot?, Heap.ofBudget] at hs
  | @next m n _ hadvance ih =>
    have hheap := heap_advance s.bytecode m
    rw [hadvance] at hheap
    exact hheap.covered (covered_due ih)
  | @exit x m n _ hadvance ih =>
    have hheap := heap_advance s.bytecode m
    rw [hadvance] at hheap
    exact hheap.covered (covered_due ih)
  | @answer x m n a traced writer _ _ hreceive ih =>
    have hheap := (s.pause m).heap_receive a ((s.pause m).machine traced writer)
    rw [hreceive] at hheap
    exact hheap.covered ih
  | resolve results traced writer _ hreceive ih =>
    exact (Paused.heap_receiveAll hreceive).covered ih
  | reload codec clock traced writer _ _ hp ih =>
    obtain rfl := Paused.eq_of_reload hp
    exact ih
  | unattended _ _ hraise ih =>
    rw [(caught_of_answerException hraise).1]
    exact ih

/-- An entry that is put into a dict is charged as one value, but counts as two in the size of the
dict. -/
example :
    let h : Heap := ⟨#[some ⟨.dict .empty, 88⟩], [], 1, .free⟩
    (endState (Index.set (.ref 0) (.int 1) (.int 2) h)).slots.map
      (·.map fun slot => (slot.cell.leastBytes, slot.charged, slot.cell.bytes)) =
      #[some (136, 136, 184)] := by decide +kernel

end Resumable
