import Resumable.Proofs.Lockstep.Ahead

/-!
# Answers to a run that is behind

The host answers the calls of a run as planned, and gives it the results of futures. The run that is
ahead has each result at the call: when the other one receives it, the copy that was kept is caught
up with.
-/

namespace Resumable

/-- The answer to a call where the result of a future is not waited for. -/
def Plan.give (plan : Plan) (s : Script) (call : Nat) (n : Machine) :
    Except (Raised × Machine) Machine :=
  let promise := fun (n : Machine) f => (n.setFuture call f).answer (.future call)
  if plan.isLater call then
    match plan.outcome call with
    | .error (type, message, limit) => .ok (promise n (.failed (.fresh type message limit)))
    | .ok v =>
      match Machine.onHeap (Heap.ofObject v) n with
      | .ok v n => .ok (promise n (.resolved v))
      | .error e n => .error (Script.conversionException e, n)
  else (s.pause n).receive (plan.result call) n

namespace Machine

variable {plan : Plan} {kept kept' : Kept} {text : String} {done : List (Nat × Future)}
  {p q : Pairing} {m n : Machine}

theorem onHeap_eq {α : Type} {act : Heap.Action α} {m : Machine} {a : α} {h : Heap}
    (ha : act m.heap = .ok a h) : onHeap act m = .ok a { m with heap := h } := by
  unfold onHeap
  dsimp only
  rw [ha]

/-- A machine that is behind stays so under a larger pairing, with other futures that the run ahead
of it foresees. -/
theorem Alike.stillBehind {text' : String} {done' : List (Nat × Future)}
    (h : m.Alike (.ahead plan kept text done) p n) (hpq : p ≤ q) {fs gs : List (Nat × Future)}
    (hforeseen : (plan.foresight kept' done').rel q fs gs) {a b : String}
    (houtput : text' ++ a = b) (reraising : Bool) (h₁ h₂ : Heap) (as bs : Option (List Event)) :
    Alike (.ahead plan kept' text' done') q
      { m with
        futures := fs, reraising, heap := h₁, writer := .collector, output := a, events := as }
      { n with
        futures := gs, reraising, heap := h₂, writer := .collector, output := b,
        events := bs } := by
  have hevents : (World.ahead plan kept' text' done').events as bs := trivial
  exact (h.mono hpq).transfer ahead_within (.foreseen rfl hforeseen) rfl houtput hevents reraising
    h₁ h₂

/-! ## Pauses -/

/-- A run that is behind is taken up again; what it has printed is not forgotten. -/
theorem Paired.takenUp (h : m.Paired (.ahead plan kept text []) p n) (s : Script) (traced : Bool) :
    ((s.pause m).machine traced .collector).Paired (.ahead plan kept (text ++ m.output) []) p
      n := by
  have houtput : text ++ m.output ++ "" = n.output := String.append_empty.trans h.output
  have hm := h.toAlike.stillBehind le_rfl h.toAlike.foreseen houtput false m.heap n.heap
    (if traced then some [] else none) n.events
  exact {
    hm with
    reraising := h.calm.symm.trans h.reraising
    writer := h.writes.symm.trans h.writer
    heap := ⟨h.heap.transfer ahead_within h.heap.kept, h.heap.budget, h.heap.fixed⟩
    calm := rfl }

/-! ## Calls -/

/-- The machines stand behind a call that is answered with a future. -/
theorem Alike.promised (h : m.Alike (.ahead plan kept text []) p n) {call : Nat} {g : Future}
    (k : Heap) (hforeseen : ∀ i, Foreseen plan (kept' i) p i
      (if i = call then some .pending else m.future? i)
      (if i = call then some g else n.future? i)) :
    ((m.setFuture call .pending).answer (.future call)).Alike (.ahead plan kept' text []) p
      ((({ n with heap := k } : Machine).setFuture call g).answer (.future call)) := by
  have hall : (plan.foresight kept' []).rel p (m.setFuture call .pending).futures
      (n.setFuture call g).futures := by
    refine ⟨ordered_insert h.foreseen.1, fun i => ?_⟩
    change Foreseen plan (kept' i) p i ((m.setFuture call .pending).future? i)
      ((n.setFuture call g).future? i)
    rw [setFuture_future?, setFuture_future?]
    exact hforeseen i
  have hm := h.stillBehind le_rfl hall h.output false m.heap k m.events n.events
  exact {
    hm with
    stack := .cons (.future call) hm.stack
    pendingCall := rfl
    reraising := h.reraising
    writer := h.writer
    writes := h.writes }

/-- A call is answered with a future, whose result is known to the run that is ahead. -/
theorem Paired.promised (h : m.Paired (.ahead plan kept text []) p n) (hkept : kept.Distinct)
    (hplan : plan.Convertible) (s : Script) {call : Nat} (hcall : m.pendingCall = some call)
    (hlater : plan.isLater call = true) :
    ∃ m' n', m.answerLater = .ok m' ∧ plan.give s call n = .ok n' ∧
      ∃ kept' : Kept, kept'.Distinct ∧ m'.Matched (.ahead plan kept' text []) n' := by
  have hanswer : m.answerLater = .ok ((m.setFuture call .pending).answer (.future call)) := by
    rw [Machine.answerLater, hcall]
  have hforeseen : ∀ i, Foreseen plan (kept i) p i (m.future? i) (n.future? i) :=
    h.toAlike.foreseen.2
  rw [Plan.give, if_pos hlater]
  cases ho : plan.outcome call with
  | error e =>
    obtain ⟨type, message⟩ := e
    refine ⟨_, _, hanswer, rfl, kept, hkept, p,
      ⟨⟨h.toAlike.promised n.heap fun i => ?_, ?_⟩, h.calm⟩⟩
    · by_cases hi : i = call
      · subst hi
        rw [if_pos rfl, if_pos rfl]
        exact .exception hlater ho
      · rw [if_neg hi, if_neg hi]
        exact hforeseen i
    · exact h.heap
  | ok o =>
    obtain ⟨w, k, r, hw, hgrown⟩ :=
      Heap.ofObject_grown (hplan call o hlater ho) h.heap.right h.heap.budget.2
    have hheap : onHeap (Heap.ofObject o) n = .ok w { n with heap := k } := onHeap_eq hw
    -- the cells of the copy are kept for this call from now on
    let kept' : Kept := fun i y c =>
      (i = call ∧ (∃ x, r.rel x y) ∧ k.cell? y = some c) ∨ (i ≠ call ∧ kept i y c)
    have hdistinct : kept'.Distinct := by
      rintro i j y c d (⟨hi, ⟨x, hxy⟩, -⟩ | ⟨-, hy⟩) (⟨hj, ⟨x', hxy'⟩, -⟩ | ⟨-, hy'⟩)
      · exact hi.trans hj.symm
      · have := (h.heap.kept ⟨j, hy'⟩).1
        rw [hgrown.fresh hxy] at this
        cases this
      · have := (h.heap.kept ⟨i, hy⟩).1
        rw [hgrown.fresh hxy'] at this
        cases this
      · exact hkept hy hy'
    refine ⟨_,
      (({ n with heap := k } : Machine).setFuture call (.resolved w)).answer (.future call),
      hanswer, by simp only [hheap], kept', hdistinct, p,
      ⟨⟨h.toAlike.promised k fun i => ?_, ?_⟩, h.calm⟩⟩
    · by_cases hi : i = call
      · subst hi
        rw [if_pos rfl, if_pos rfl]
        exact .value hlater ho (hgrown.copied.mono fun hxy hd => .inl ⟨rfl, ⟨_, hxy⟩, hd⟩)
      · rw [if_neg hi, if_neg hi]
        exact (hforeseen i).mono le_rfl fun hc => .inr ⟨hi, hc⟩
    · refine ⟨h.heap.goAhead hgrown ahead_within ?_, ⟨h.heap.budget.1, hgrown.budget⟩,
        fun h => h.elim⟩
      rintro y c ⟨i, ⟨-, hy, hc⟩ | ⟨-, hc⟩⟩
      · exact .inr ⟨hy, hc⟩
      · exact .inl ⟨i, hc⟩

/-- A call is answered at once. -/
theorem Paired.given (h : m.Paired (.ahead plan kept text []) p n) (s : Script) {m₀ : Machine}
    {call : Nat} (hnow : plan.isLater call = false) :
    ReceivedAlike (.ahead plan kept text []) ((s.pause m₀).receive (plan.answer call) m)
      (plan.give s call n) := by
  have hanswer : plan.answer call = plan.result call := by rw [Plan.answer, hnow]; rfl
  have hgive : plan.give s call n = (s.pause n).receive (plan.result call) n := by
    rw [Plan.give, hnow]
    rfl
  rw [hanswer, hgive]
  refine h.receive_now rfl ?_
  rw [Plan.result]
  split <;> exact nofun

/-! ## Results -/

/-- A machine that is behind changes its heap and what it has received. -/
theorem Paired.stillBehind {done' : List (Nat × Future)}
    (h : m.Paired (.ahead plan kept text done) p n) (hpq : p ≤ q) {k : Heap}
    (hheap : k.Linked (.ahead plan kept' text done') q n.heap) (hbudget : k.budget = .free)
    (hforeseen : ∀ i, Foreseen plan (kept' i) q i (futureOf done' m.futures i)
      (n.futures.lookup i)) :
    ({ m with heap := k } : Machine).Paired (.ahead plan kept' text done') q n := by
  have hm := h.toAlike.stillBehind hpq ⟨h.toAlike.foreseen.1, hforeseen⟩ h.output false k n.heap
    m.events n.events
  exact {
    hm with
    reraising := h.reraising
    writer := h.writer
    writes := h.writes
    heap := ⟨hheap, ⟨hbudget, h.heap.budget.2⟩, fun h => h.elim⟩
    calm := h.calm }

/-- A result is received that the run ahead knows. -/
theorem Paired.caughtUp (h : m.Paired (.ahead plan kept text done) p n) (hkept : kept.Distinct)
    (hplan : plan.Convertible) {call : Nat}
    (hcall : futureOf done m.futures call = some .pending) :
    ∃ f m', (∀ (r : Paused) rest, r.toFutures m done ((call, plan.result call) :: rest) =
        r.toFutures m' ((call, f) :: done) rest) ∧ m'.futures = m.futures ∧
      ∃ kept' : Kept, kept'.Distinct ∧
        m'.Matched (.ahead plan kept' text ((call, f) :: done)) n := by
  have hall := h.toAlike.foreseen.2
  have hthis := hall call
  rw [hcall] at hthis
  have hfuture : ∀ f i, futureOf ((call, f) :: done) m.futures i =
      if i = call then some f else futureOf done m.futures i := by
    intro f i
    rw [futureOf, List.lookup_cons_if]
    split <;> rfl
  generalize hg : n.futures.lookup call = g at hthis
  cases hthis with
  | @exception type message limit _ ho =>
    refine ⟨.failed (.fresh type message limit), m, fun r rest => ?_, rfl, kept, hkept, p, ?_⟩
    · rw [Plan.result, ho, Paused.toFutures]
    · refine h.stillBehind le_rfl (h.heap.transfer ahead_within h.heap.kept) h.heap.budget.1
        fun i => ?_
      rw [hfuture]
      by_cases hi : i = call
      · subst hi
        rw [if_pos rfl, hg]
        exact .failed _
      · rw [if_neg hi]
        exact hall i
  | @value o r w hlater ho hcopied =>
    obtain ⟨v, k, s, hv, hgrown⟩ :=
      Heap.ofObject_grown (hplan call o hlater ho) h.heap.left h.heap.budget.1
    have hheap : onHeap (Heap.ofObject o) m = .ok v { m with heap := k } := onHeap_eq hv
    have hwithin : (World.ahead plan kept text done).Within
        (.ahead plan (kept.without call) text ((call, .resolved v) :: done)) := ahead_within
    have hleft : ∀ {y c}, (∃ i, (kept.without call) i y c) →
        (∃ i, kept i y c) ∧ ∀ d, ¬ kept call y d := by
      intro y c hc
      obtain ⟨i, hi, hc⟩ := hc
      exact ⟨⟨i, hc⟩, fun d hd => hi (hkept hc hd)⟩
    obtain ⟨q, hpq, hlinked, hvw⟩ := h.heap.catchUp hgrown hcopied (fun hc => ⟨call, hc⟩) hwithin
      ahead_values hleft
    refine ⟨.resolved v, { m with heap := k }, fun r rest => ?_, rfl, kept.without call,
      hkept.without call, q, h.stillBehind hpq hlinked hgrown.budget fun i => ?_⟩
    · rw [Plan.result, ho, Paused.toFutures]
      simp only [hheap]
    · rw [hfuture]
      by_cases hi : i = call
      · subst hi
        rw [if_pos rfl, hg]
        exact .resolved (hvw.transfer .values)
      · rw [if_neg hi]
        exact (hall i).mono hpq fun hc => ⟨hi, hc⟩

/-- Results are received that the run ahead knows. -/
theorem Paired.allCaughtUp (h : m.Paired (.ahead plan kept text done) p n) (hkept : kept.Distinct)
    (hplan : plan.Convertible) {calls : List Nat} (hnodup : calls.Nodup)
    (hcalls : ∀ call ∈ calls, futureOf done m.futures call = some .pending) (r : Paused) :
    ∃ done' m', r.toFutures m done (calls.map fun call => (call, plan.result call)) =
        .ok (done'.reverse, m') ∧ m'.futures = m.futures ∧
      (∀ x ∈ done', x ∈ done ∨ x.1 ∈ calls) ∧
      ∃ kept' : Kept, kept'.Distinct ∧ m'.Matched (.ahead plan kept' text done') n := by
  induction calls generalizing m done kept p with
  | nil => exact ⟨done, m, rfl, rfl, fun x hx => .inl hx, kept, hkept, p, h⟩
  | cons call calls ih =>
    obtain ⟨hfirst, hrest⟩ := List.nodup_cons.mp hnodup
    obtain ⟨f, m₁, hm₁, hfutures, kept₁, hkept₁, p₁, h₁⟩ :=
      h.caughtUp hkept hplan (hcalls call List.mem_cons_self)
    have hcalls₁ : ∀ c ∈ calls, futureOf ((call, f) :: done) m₁.futures c = some .pending := by
      intro c hc
      have hne : c ≠ call := fun heq => hfirst (heq ▸ hc)
      rw [hfutures, futureOf, List.lookup_cons_if, if_neg hne]
      exact hcalls c (List.mem_cons_of_mem _ hc)
    obtain ⟨done', m', hm', hfutures', hdone, hend⟩ := ih h₁ hkept₁ hrest hcalls₁
    refine ⟨done', m', ?_, hfutures'.trans hfutures, fun x hx => ?_, hend⟩
    · rw [List.map_cons, hm₁, hm']
    · rcases hdone x hx with hx | hx
      · rcases List.mem_cons.mp hx with rfl | hx
        · exact .inr List.mem_cons_self
        · exact .inl hx
      · exact .inr (List.mem_cons_of_mem _ hx)

/-- Results are recorded, the last one of a list first. -/
theorem exists_recorded (m : Machine) (done : List (Nat × Future)) :
    ∃ fs, done.foldr (fun x m => m.setFuture x.1 x.2) m = { m with futures := fs } ∧
      (m.futures.Pairwise (·.1 < ·.1) → fs.Pairwise (·.1 < ·.1)) ∧
      ∀ i, fs.lookup i = futureOf done m.futures i := by
  induction done with
  | nil => exact ⟨m.futures, rfl, id, fun i => rfl⟩
  | cons x done ih =>
    obtain ⟨fs, hfs, hordered, hlookup⟩ := ih
    refine ⟨setFuture.insert x.1 x.2 fs, ?_, fun h => ordered_insert (hordered h), fun i => ?_⟩
    · rw [List.foldr_cons, hfs]
      rfl
    · rw [lookup_insert, hlookup, futureOf, futureOf, List.lookup_cons_if]
      split <;> rfl

/-- A run that is blocked receives some of the results that it waits for. -/
theorem Paired.resolved (h : m.Paired (.ahead plan kept text []) p n) (hkept : kept.Distinct)
    (hplan : plan.Convertible) {pending calls : List Nat} (hpending : pending = m.pendingFutures)
    (hnodup : calls.Nodup) (hcalls : calls ⊆ pending) (r : Paused) :
    ∃ m', r.receiveAll pending (calls.map fun call => (call, plan.result call)) m = .ok (.ok m') ∧
      ∃ kept' : Kept, kept'.Distinct ∧ m'.Matched (.ahead plan kept' text []) n := by
  have hfuture : ∀ call ∈ calls, m.future? call = some .pending := fun call hcall =>
    pending_of_mem h.toAlike.foreseen.1 (hpending ▸ hcalls hcall)
  have hknown : (calls.map fun call => (call, plan.result call)).find?
      (fun x => !pending.contains x.1) = none := by
    rw [List.find?_eq_none]
    intro x hx
    obtain ⟨call, hcall, rfl⟩ := List.mem_map.mp hx
    simpa using hcalls hcall
  obtain ⟨done, m₁, hm₁, hfutures, hdone, kept', hkept', q, h₁⟩ :=
    h.allCaughtUp hkept hplan hnodup hfuture r
  have hnone : done.reverse.find? (fun x => !m₁.isPending x.1) = none := by
    rw [List.find?_eq_none]
    intro x hx
    rcases hdone x (List.mem_reverse.mp hx) with hx | hx
    · cases hx
    · have hx := hfuture _ hx
      unfold Machine.future? at hx
      rw [isPending, Machine.future?, hfutures, hx]
      exact Bool.false_ne_true
  obtain ⟨fs, hfs, hordered, hlookup⟩ := exists_recorded m₁ done
  have hresolve : m₁.resolve done.reverse = .ok { m₁ with futures := fs } := by
    unfold Machine.resolve
    rw [← hfs, ← List.foldl_reverse]
    simp only [hnone]
  refine ⟨{ m₁ with futures := fs }, ?_, kept', hkept', q, ?_⟩
  · unfold Paused.receiveAll
    simp only [hknown, hm₁, hresolve]
    rfl
  · have hforeseen : (plan.foresight kept' []).rel q fs n.futures := by
      refine ⟨hordered h₁.toAlike.foreseen.1, fun i => ?_⟩
      change Foreseen plan (kept' i) q i (fs.lookup i) (n.futures.lookup i)
      rw [hlookup]
      exact h₁.toAlike.foreseen.2 i
    have hm := h₁.toAlike.stillBehind le_rfl hforeseen h₁.output false m₁.heap n.heap m₁.events
      n.events
    exact {
      hm with
      reraising := h₁.reraising
      writer := h₁.writer
      writes := h₁.writes
      heap := ⟨h₁.heap.transfer ahead_within h₁.heap.kept, h₁.heap.budget, fun h => h.elim⟩
      calm := h₁.calm }

end Machine

end Resumable
