import Resumable.Proofs.Futures
import Resumable.Proofs.Simulation.Call

/-!
# Waiting for futures

While a future is pending, the instruction that waits for it is not left: the run stops for the host
and comes back to it with some results. So it follows a loop that takes a turn for each visit.
-/

namespace Resumable

open Machine Semantics

section
variable {s : Script} {n : Nat} {c : Ctx} {F : Code} {pc : Nat} {i : Instr}
  {kept : List Value} {σ : State} {events : Option (List Event)}

theorem awaited_congr {m m' : Machine} (h : m.futures = m'.futures) (v : Value) :
    m.awaited v = m'.awaited v := by
  unfold awaited future?
  rw [h]

theorem resolve_congr {m l : Machine} (h : m.futures = l.futures)
    (results : List (Nat × Future)) : l.resolve results =
      (m.resolve results).map fun n => { l with futures := n.futures } := by
  have hpending : l.isPending = m.isPending := by
    funext id
    unfold isPending future?
    rw [h]
  have hall : l.pendingFutures = m.pendingFutures := by
    unfold pendingFutures
    rw [h]
  unfold resolve
  rw [hpending, hall, setFutures_eq, setFutures_eq, h]
  cases results.find? _ <;> rfl

/-- The futures of results are the same for both sides. -/
theorem toFutures_eq (p : Paused) (results : List (Nat × Answer)) (m : Machine)
    (done : List (Nat × Future)) :
    (∃ fs heap, futuresOf results m.heap = some (fs, heap) ∧
      p.toFutures m done results = .ok (done.reverse ++ fs, { m with heap })) ∨
    futuresOf results m.heap = none ∧ ∃ e, p.toFutures m done results = .error e := by
  induction results generalizing m done with
  | nil => exact .inl ⟨[], m.heap, rfl, by rw [List.append_nil]; rfl⟩
  | cons r rest ih =>
    obtain ⟨id, a⟩ := r
    cases a with
    | later => exact ih m done
    | exception type message limit =>
      let failed : Future := .failed (.fresh type message limit)
      obtain ⟨fs, heap, hfs, hto⟩ | ⟨hfs, hto⟩ := ih m ((id, failed) :: done)
      · refine .inl ⟨(id, failed) :: fs, heap, ?_, ?_⟩
        · unfold futuresOf
          rw [hfs]
          rfl
        · unfold Paused.toFutures
          rw [hto, List.reverse_cons, List.append_assoc]
          rfl
      · refine .inr ⟨?_, hto⟩
        unfold futuresOf
        rw [hfs]
        rfl
    | value v =>
      cases hv : Heap.ofObject v m.heap with
      | error e heap =>
        refine .inr ⟨?_, ?_⟩
        · unfold futuresOf
          rw [hv]
        · unfold Paused.toFutures
          dsimp only
          rw [onHeap_error hv]
          exact ⟨_, rfl⟩
      | ok v' heap =>
        have hto : p.toFutures m done ((id, .value v) :: rest) =
            p.toFutures { m with heap } ((id, .resolved v') :: done) rest := by
          rw [Paused.toFutures, onHeap_ok hv]
        have hfs : futuresOf ((id, .value v) :: rest) m.heap =
            (futuresOf rest heap).map fun r => ((id, .resolved v') :: r.1, r.2) := by
          rw [futuresOf, hv]
        rw [hto, hfs]
        obtain ⟨fs, heap', hfs, hto⟩ | ⟨hfs, hto⟩ :=
          ih { m with heap } ((id, .resolved v') :: done)
        · refine .inl ⟨(id, .resolved v') :: fs, heap', ?_, ?_⟩
          · rw [hfs]
            rfl
          · rw [hto, List.reverse_cons, List.append_assoc]
            rfl
        · refine .inr ⟨?_, hto⟩
          rw [hfs]
          rfl

theorem Mirrors.awaitedValue (v : Value) :
    Mirrors c pc kept (get >>= fun m => Machine.awaitedValue m v)
      (Semantics.awaitedValue v) := by
  refine .depends fun σ events => ?_
  have hbare : (c.machine pc kept σ events).awaited = σ.bare.awaited :=
    funext (awaited_congr rfl)
  by_cases hv : ∃ items, v = .gather items
  · obtain ⟨items, rfl⟩ := hv
    refine ⟨_, _, ?_, ?_, .bind (.ofExcept (items.mapM σ.bare.awaited)) fun values =>
      .onHeap (Heap.allocList values.toArray)⟩
    · rw [get_bind, Machine.awaitedValue, hbare]
      cases items.mapM σ.bare.awaited <;> rfl
    · rw [Semantics.awaitedValue]
      cases items.mapM σ.bare.awaited <;> rfl
  · refine ⟨_, _, ?_, ?_, .ofExcept (σ.bare.awaited v)⟩
    · rw [get_bind, ← hbare]
      unfold Machine.awaitedValue
      split
      · exact absurd ⟨_, rfl⟩ hv
      · cases (c.machine pc kept σ events).awaited v <;> rfl
    · unfold Semantics.awaitedValue
      split
      · exact absurd ⟨_, rfl⟩ hv
      · rfl

/-! ## Results of the host -/

section
variable {pending : List Nat} {results : List (Nat × Answer)} {moves : List HostMove}

/-- Results of calls that are not pending are refused. -/
theorem receiveAll_unknown (p : Paused) (m : Machine)
    (h : (results.any fun r => !pending.contains r.1) = true) :
    ∃ e, p.receiveAll pending results m = .error e := by
  unfold Paused.receiveAll
  split
  · exact ⟨_, rfl⟩
  · next hfind =>
    obtain ⟨r, hr, hunknown⟩ := List.any_eq_true.mp h
    exact absurd hunknown (List.find?_eq_none.mp hfind r hr)

theorem receiveAll_known (p : Paused) (m : Machine)
    (h : (results.any fun r => !pending.contains r.1) = false) :
    p.receiveAll pending results m =
      match p.toFutures m [] results with
      | .error e => .error e
      | .ok (futures, m) => .ok ((m.resolve futures).mapError (·, m)) := by
  unfold Paused.receiveAll
  split
  · next hfind =>
    exact absurd (List.find?_some hfind)
      (List.any_eq_false.mp h _ (List.mem_of_find?_eq_some hfind))
  · rfl

theorem Phase.stopped_results (s : Script) (m : Machine) :
    Phase.stopped s (.blocked pending) m (.results results :: moves) =
      match (s.pause m).receiveAll pending results m with
      | .ok (.ok m) => .running m moves
      | .ok (.error (e, m)) => .ended (.failed e) m
      | .error _ => .ended (.exit (.blocked pending)) m := rfl

/-- Without results, the run is over. -/
theorem Phase.stopped_unanswered (s : Script) (m : Machine)
    (h : ∀ results rest, moves ≠ .results results :: rest) :
    Phase.stopped s (.blocked pending) m moves = .ended (.exit (.blocked pending)) m := by
  cases moves with
  | nil => rfl
  | cons move rest =>
    cases move with
    | answer a => rfl
    | results results => exact absurd rfl (h results rest)

theorem block_results (hmoves : σ.moves = .results results :: moves) :
    block σ =
      if results.any fun r => !σ.bare.pendingFutures.contains r.1 then
        .error (.stopped (.exit (.blocked σ.bare.pendingFutures))) σ
      else match futuresOf results σ.heap with
        | none => .error (.stopped (.exit (.blocked σ.bare.pendingFutures))) σ
        | some (fs, heap) =>
          match ({ σ with heap, moves } : State).bare.resolve fs with
          | .ok m => .ok () { σ with heap, moves, futures := m.futures }
          | .error e => .error (.stopped (.failed e)) { σ with heap, moves } := by
  unfold block
  dsimp only
  rewrite [hmoves]
  rfl

theorem block_unanswered (h : ∀ results rest, σ.moves ≠ .results results :: rest) :
    block σ = .error (.stopped (.exit (.blocked σ.bare.pendingFutures))) σ := by
  unfold block
  dsimp only
  split
  · next hmoves => exact absurd hmoves (h _ _)
  · rfl

end

/-- The host gives some results, or the run is over. -/
theorem Meets.blocked {v : Value} {p : Phase}
    (hp : Executes s σ.moves p (.ok (some (.blocked σ.bare.pendingFutures))
      (c.machine pc (v :: kept) σ events))) :
    Meets s n c kept (fun _ τ q => (∃ events, q = c.phase pc (v :: kept) τ events) ∧
      Phase.Passes s p q) (block σ) p := by
  let m := c.machine pc (v :: kept) σ events
  let pending := σ.bare.pendingFutures
  have hnext : p.next s = .stopped s (.blocked pending) m σ.moves := hp.next
  have hunanswered : p.next s = .ended (.exit (.blocked pending)) m →
      block σ = .error (.stopped (.exit (.blocked pending))) σ →
      Meets s n c kept (fun _ τ q => (∃ events, q = c.phase pc (v :: kept) τ events) ∧
        Phase.Passes s p q) (block σ) p := by
    intro hnext hblock
    rw [hblock]
    exact .of_next (.here ⟨m, hnext, rfl, rfl, rfl, rfl, rfl, rfl⟩)
  by_cases hresults : ∃ results moves, σ.moves = .results results :: moves
  · obtain ⟨results, moves, hmoves⟩ := hresults
    have hblock := block_results hmoves
    rw [hmoves, Phase.stopped_results] at hnext
    cases hany : results.any fun r => !pending.contains r.1 with
    | true =>
      obtain ⟨e, hall⟩ := receiveAll_unknown (s.pause m) m hany
      rw [hall] at hnext
      rw [if_pos hany] at hblock
      exact hunanswered hnext hblock
    | false =>
      rw [if_neg (ne_true_of_eq_false hany)] at hblock
      have hall := receiveAll_known (s.pause m) m hany
      obtain ⟨fs, heap, hfs, hto⟩ | ⟨hfs, e, hto⟩ := toFutures_eq (s.pause m) results m []
      · change futuresOf results σ.heap = _ at hfs
        rw [hto] at hall
        have hresolve := resolve_congr (m := ({ σ with heap, moves } : State).bare)
          (l := { m with heap }) rfl fs
        rw [hall] at hnext
        dsimp only at hnext
        rw [List.reverse_nil, List.nil_append, hresolve] at hnext
        rw [hblock, hfs]
        dsimp only
        cases hr : ({ σ with heap, moves } : State).bare.resolve fs with
        | ok k =>
          rw [hr] at hnext
          dsimp only
          refine .of_next (.ok ⟨⟨events, hnext⟩, ?_⟩)
          exact .refl s _
        | error e =>
          rw [hr] at hnext
          exact .of_next (.here ⟨_, hnext, rfl, rfl, rfl, rfl, rfl, rfl⟩)
      · change futuresOf results σ.heap = _ at hfs
        rw [hto] at hall
        rw [hall] at hnext
        rw [hfs] at hblock
        exact hunanswered hnext hblock
  · have hmoves : ∀ results rest, σ.moves ≠ .results results :: rest :=
      fun results rest h => hresults ⟨results, rest, h⟩
    exact hunanswered (hnext.trans (Phase.stopped_unanswered s m hmoves)) (block_unanswered hmoves)

theorem awaitedValue_congr {m l : Machine} (h : m.futures = l.futures) (v : Value) :
    Machine.awaitedValue m v = Machine.awaitedValue l v := by
  have hawaited : m.awaited = l.awaited := funext (awaited_congr h)
  unfold Machine.awaitedValue
  rw [hawaited]

variable (hF : s.bytecode.functions[c.function]? = some F) (hi : F.instrs[pc]? = some i)
include hF hi

theorem Sim.await {v : Value} (hop : i.op = .await) :
    Sim s n c kept pc (v :: kept) (Semantics.await c.scope i.span kept v n)
      (c.At (fun _ => pc + 1) fun v => v :: kept) := by
  intro σ events
  refine .loop (I := fun τ q => ∃ events, q = c.phase pc (v :: kept) τ events) ?_ ?_ le_rfl
    ⟨events, rfl⟩
  · rintro σ p ⟨events, rfl⟩
    exact .zero s _ _
  · rintro σ p ⟨events, rfl⟩
    refine .charge hF hi σ events fun τ events' hp => ?_
    rw [hop] at hp
    change Executes s τ.moves _ (Machine.await (c.machine (pc + 1) (v :: kept) τ events')) at hp
    unfold lookFor
    have hpeek : peek (c.machine (pc + 1) (v :: kept) τ events') =
        .ok v (c.machine (pc + 1) (v :: kept) τ events') := rfl
    cases hids : awaitedFutures v with
    | none =>
      dsimp only
      have hawait : Machine.await (c.machine (pc + 1) (v :: kept) τ events') =
          .error (.typeError s!"object {τ.heap.typeName v} can't be used in 'await' expression")
            (c.machine (pc + 1) (v :: kept) τ events') := by
        rw [Machine.await, bind_ok hpeek, get_bind, hids]
        rfl
      rw [hawait] at hp
      exact .failed [v] hF hi rfl hp
    | some ids =>
      dsimp only
      have hawait : Machine.await (c.machine (pc + 1) (v :: kept) τ events') =
          (if ids.any τ.bare.isPending = true then do
              modifyFrame fun f => { f with next := f.next - 1 }
              trace fun _ => .pause .futures none
              return some (.blocked τ.bare.pendingFutures)
            else do
              let _ ← Machine.pop
              push (← Machine.awaitedValue (c.machine (pc + 1) (v :: kept) τ events') v)
              return none : Exec (Option Exit)) (c.machine (pc + 1) (v :: kept) τ events') := by
        rw [Machine.await, bind_ok hpeek, get_bind, hids]
        rfl
      rw [hawait] at hp
      split
      · next hpending =>
        rw [if_pos hpending] at hp
        obtain ⟨events'', hexit⟩ : ∃ events'', (do
            modifyFrame fun f => { f with next := f.next - 1 }
            trace fun _ => .pause .futures none
            return some (.blocked τ.bare.pendingFutures) : Exec (Option Exit))
              (c.machine (pc + 1) (v :: kept) τ events') =
            .ok (some (.blocked τ.bare.pendingFutures)) (c.machine pc (v :: kept) τ events'') := by
          cases events' <;> exact ⟨_, rfl⟩
        rw [hexit] at hp
        exact (Meets.blocked hp).bind fun _ _ _ h => .ok h
      · next hpending =>
        rw [if_neg hpending] at hp
        refine .map (Answers.computes hF hi (.awaitedValue v) τ events' _ ?_) fun a τ q h => h
        change Executes s τ.moves _ ((Machine.awaitedValue (c.machine (pc + 1) kept τ events') v >>=
          _) _)
        rw [awaitedValue_congr (m := c.machine (pc + 1) kept τ events')
          (l := c.machine (pc + 1) (v :: kept) τ events') rfl]
        exact hp

end

end Resumable
