import Resumable.Proofs.Lockstep.Ahead
import Resumable.Proofs.Recount

/-!
# The table of futures

What answers and results do to the futures of a machine: an answer adds one at most, and results
belong to pending calls, whose futures are not pending any more then (`statuses_recordAll`). What a
future has resulted in stays known for the rest of the run (`Script.ComesTo.retains`).
-/

namespace Resumable

/-- Whether a future has no result yet. -/
def Future.isPending : Future → Bool
  | .pending => true
  | .resolved _ | .failed _ => false

namespace Machine

/-- Each future, and whether it is pending. -/
def statuses (futures : List (Nat × Future)) : List (Nat × Bool) :=
  futures.map fun f => (f.1, f.2.isPending)

/-- The futures after results have been recorded. -/
def recordAll (results futures : List (Nat × Future)) : List (Nat × Future) :=
  results.foldl (fun fs r => setFuture.insert r.1 r.2 fs) futures

section
variable {fs results : List (Nat × Future)} {call : Nat} {f : Future}

theorem isPending_of_ne (h : f ≠ .pending) : f.isPending = false := by
  cases f with
  | pending => exact absurd rfl h
  | resolved v => rfl
  | failed e => rfl

theorem statuses_keys (fs : List (Nat × Future)) : (statuses fs).map (·.1) = fs.map (·.1) := by
  rw [statuses, List.map_map]
  rfl

theorem pendingOf_eq (fs : List (Nat × Future)) :
    pendingOf fs = ((statuses fs).filter (·.2)).map (·.1) := by
  induction fs with
  | nil => rfl
  | cons g fs ih =>
    obtain ⟨i, g⟩ := g
    cases g with
    | pending => exact congrArg (i :: ·) ih
    | _ => exact ih

/-- A future that is known gets a result. -/
theorem statuses_insert (hfs : fs.Pairwise (·.1 < ·.1)) (hcall : call ∈ fs.map (·.1))
    (hf : f.isPending = false) :
    statuses (setFuture.insert call f fs) =
      (statuses fs).map fun status => (status.1, status.2 && status.1 != call) := by
  induction fs with
  | nil => cases hcall
  | cons g fs ih =>
    obtain ⟨i, g⟩ := g
    obtain ⟨hfirst, hrest⟩ := List.pairwise_cons.mp hfs
    rw [setFuture.insert]
    split
    · next hi =>
      obtain rfl := beq_iff_eq.mp hi
      have hkeep : (statuses fs).map (fun status => (status.1, status.2 && status.1 != i)) =
          statuses fs := by
        rw [statuses, List.map_map]
        refine List.map_congr_left fun g' hg' => ?_
        have hne : (g'.1 != i) = true := bne_iff_ne.mpr (hfirst g' hg').ne'
        rw [Function.comp_apply, hne, Bool.and_true]
      simp only [statuses, List.map_cons] at hkeep ⊢
      rw [hkeep, hf, bne_self_eq_false, Bool.and_false]
    · next hi =>
      have hi : i ≠ call := by simpa using hi
      have hcall : call ∈ fs.map (·.1) := by simpa [hi.symm] using hcall
      obtain ⟨g', hg', hkey⟩ := List.mem_map.mp hcall
      have hlt : i < call := hkey ▸ hfirst g' hg'
      have ih := ih hrest hcall
      rw [if_neg (by simpa using hlt.le)]
      simp only [statuses, List.map_cons] at ih ⊢
      rw [ih, bne_iff_ne.mpr hi, Bool.and_true]

theorem statuses_recordAll (hfs : fs.Pairwise (·.1 < ·.1))
    (hresults : ∀ r ∈ results, r.1 ∈ fs.map (·.1) ∧ r.2.isPending = false) :
    statuses (recordAll results fs) =
      (statuses fs).map fun status =>
        (status.1, status.2 && decide (status.1 ∉ results.map (·.1))) := by
  induction results generalizing fs with
  | nil => simp [recordAll]
  | cons r results ih =>
    obtain ⟨⟨hmem, hne⟩, hrest⟩ := List.forall_mem_cons.mp hresults
    have hinsert := statuses_insert hfs hmem hne
    have hkeys : (setFuture.insert r.1 r.2 fs).map (·.1) = fs.map (·.1) := by
      rw [← statuses_keys, hinsert, List.map_map, ← statuses_keys fs]
      rfl
    have ih := ih (ordered_insert hfs) fun r' hr' => hkeys ▸ hrest r' hr'
    change statuses (recordAll results (setFuture.insert r.1 r.2 fs)) = _
    rw [ih, hinsert, List.map_map]
    refine List.map_congr_left fun status _ => ?_
    have hboth : (status.1 != r.1 && decide (status.1 ∉ results.map (·.1))) =
        decide (status.1 ∉ (r :: results).map (·.1)) := by
      rw [Bool.eq_iff_iff]
      simp
    rw [Function.comp_apply, ← hboth, ← Bool.and_assoc]

theorem setFutures_eq (results : List (Nat × Future)) (m : Machine) :
    results.foldl (fun m (id, f) => m.setFuture id f) m =
      { m with futures := recordAll results m.futures } := by
  induction results generalizing m with
  | nil => rfl
  | cons r results ih => exact ih (m.setFuture r.1 r.2)

end

/-! ## Answers -/

theorem ok_of_toOption {ε α : Type} {r : Except ε α} {a : α} (h : r.toOption = some a) :
    r = .ok a := by
  cases r with
  | error e => cases h
  | ok b => cases h; rfl

variable {m n : Machine}

theorem pendingCall_receive {p : Paused} {a : Answer} (h : p.receive a m = .ok n) :
    n.pendingCall = none := by
  have raise : ∀ {l : Machine} {e : Raised},
      (l.answerException p.script.bytecode e).mapError (·, l) = .ok n → n.pendingCall = none := by
    intro l e h
    cases hraise : l.answerException p.script.bytecode e with
    | error e' => rw [hraise] at h; cases h
    | ok k =>
      rw [hraise] at h
      cases h
      exact (caught_of_unwind hraise).pendingCall
  cases a with
  | later =>
    simp only [Paused.receive, answerLater] at h
    split at h <;> cases h
    rfl
  | exception type message limit => exact raise h
  | value o =>
    unfold Paused.receive at h
    simp only at h
    split at h
    · cases h; rfl
    · cases h
    · exact raise h

theorem receive_later_ok {p : Paused} {call : Nat} (hm : m.pendingCall = some call) :
    ∃ n, p.receive .later m = .ok n := by
  simp only [Paused.receive, answerLater, hm]
  exact ⟨_, rfl⟩

/-- Results change the heap and the futures, and are those of pending calls. -/
theorem receiveAll_ok {p : Paused} {pending : List Nat} {results : List (Nat × Answer)}
    (h : p.receiveAll pending results m = .ok (.ok n)) :
    ∃ heap taken, n = { m with heap, futures := recordAll taken m.futures } ∧
      taken.map (·.1) = settledBy results ∧
      ∀ r ∈ taken, r.1 ∈ m.pendingFutures ∧ r.2.isPending = false := by
  unfold Paused.receiveAll at h
  split at h
  · cases h
  · split at h
    · cases h
    · next taken l htaken =>
      obtain ⟨⟨heap, rfl⟩, hids, hnone⟩ :=
        toFutures_ok (fun _ hf => absurd hf List.not_mem_nil) htaken
      cases hresolve : ({ m with heap } : Machine).resolve taken with
      | error e => rw [hresolve] at h; cases h
      | ok k =>
        rw [hresolve] at h
        cases h
        refine ⟨heap, taken, ?_, hids, fun r hr => ⟨?_, isPending_of_ne (hnone r hr)⟩⟩
        · rw [resolve_eq_of_ok hresolve, setFutures_eq]
        · unfold resolve at hresolve
          split at hresolve
          · cases hresolve
          · next hfind =>
            have := List.find?_eq_none.mp hfind r hr
            exact mem_pendingFutures (m := { m with heap }) (by simpa using this)

/-- Results for pending calls are taken if their values can enter the run. -/
theorem receiveAll_isOk {p : Paused} {results : List (Nat × Answer)}
    (hordered : m.futures.Pairwise (·.1 < ·.1)) (hresults : ∀ r ∈ results, r.1 ∈ m.pendingFutures)
    (h : ∃ entered, p.toFutures m [] results = .ok entered) :
    ∃ n, p.receiveAll m.pendingFutures results m = .ok (.ok n) := by
  obtain ⟨⟨taken, l⟩, htaken⟩ := h
  obtain ⟨⟨heap, rfl⟩, hids, -⟩ := toFutures_ok (fun _ hf => absurd hf List.not_mem_nil) htaken
  have hknown : results.find? (fun r => !m.pendingFutures.contains r.1) = none :=
    List.find?_eq_none.mpr fun r hr => by simpa using hresults r hr
  have hpending : taken.find? (fun r => !({ m with heap } : Machine).isPending r.1) = none := by
    refine List.find?_eq_none.mpr fun r hr => ?_
    have hid : r.1 ∈ settledBy results := by
      rw [← List.nil_append (settledBy results)]
      exact hids ▸ List.mem_map_of_mem hr
    obtain ⟨result, hresult, hkey⟩ := List.mem_map.mp hid
    have hmem : r.1 ∈ m.pendingFutures := hkey ▸ hresults _ (List.mem_of_mem_filter hresult)
    have := pending_of_mem hordered hmem
    simp [isPending, future?] at this ⊢
    simp [this]
  exact ⟨_, by simp only [Paused.receiveAll, hknown, htaken, resolve, hpending]; rfl⟩

/-! ## Results stay

A result is recorded for a future that is pending, and a promise for a call that has no future yet.
Neither of them touches a result that is known. -/

/-- The futures are in order of their calls, which have been made, and the call that waits for its
answer is a later one. -/
structure Sorted (m : Machine) : Prop where
  ordered : m.futures.Pairwise (·.1 < ·.1)
  made : ∀ id ∈ m.futures.map (·.1), id < m.nextCall
  pending : ∀ call, m.pendingCall = some call →
    call < m.nextCall ∧ ∀ id ∈ m.futures.map (·.1), id < call

/-- The results that are known in one machine are known in the other one. -/
def Retains (m n : Machine) : Prop :=
  ∀ ⦃id f⦄, m.future? id = some f → f.isPending = false → n.future? id = some f

section
variable {k : Machine} {fs results : List (Nat × Future)} {id call : Nat} {f : Future}

theorem lookup_recordAll (h : id ∉ results.map (·.1)) :
    (recordAll results fs).lookup id = fs.lookup id := by
  induction results generalizing fs with
  | nil => rfl
  | cons r results ih =>
    rw [List.map_cons, List.mem_cons, not_or] at h
    change (recordAll results (setFuture.insert r.1 r.2 fs)).lookup id = _
    rw [ih h.2, lookup_insert, if_neg h.1]

theorem Retains.of_futures (h : n.futures = m.futures) : m.Retains n := by
  intro id f hf _
  rw [future?, h]
  exact hf

theorem Retains.trans (h : m.Retains n) (h' : n.Retains k) : m.Retains k :=
  fun _ _ hf hresult => h' (h hf hresult) hresult

theorem Sorted.passes (h : m.Sorted) (hn : m.Passes n) : n.Sorted := by
  refine ⟨?_, ?_, ?_⟩
  · rw [hn.futures]
    exact h.ordered
  · rw [hn.futures, hn.nextCall]
    exact h.made
  · rw [hn.futures, hn.nextCall, hn.pendingCall]
    exact h.pending

theorem Sorted.rests {x : Exit} (h : m.Sorted) (hn : m.Rests x n) : n.Sorted ∧ m.Retains n := by
  cases hn with
  | returned v hn => exact ⟨h.passes hn, .of_futures hn.futures⟩
  | blocked _ hn => exact ⟨h.passes hn, .of_futures hn.futures⟩
  | call _ hn hnext hpending =>
    refine ⟨⟨?_, ?_, ?_⟩, .of_futures hn.futures⟩
    · rw [hn.futures]
      exact h.ordered
    · rw [hn.futures, hnext]
      exact fun id hid => (h.made id hid).trans (Nat.lt_succ_self _)
    · rw [hn.futures, hnext, hpending]
      rintro call ⟨⟩
      exact ⟨Nat.lt_succ_self _, h.made⟩

theorem Sorted.unanswered (h : m.Sorted) (hfutures : n.futures = m.futures)
    (hnext : n.nextCall = m.nextCall) (hpending : n.pendingCall = none) : n.Sorted := by
  refine ⟨?_, ?_, ?_⟩
  · rw [hfutures]
    exact h.ordered
  · rw [hfutures, hnext]
    exact h.made
  · intro call hcall
    rw [hpending] at hcall
    cases hcall

/-- An answer to the pending call. -/
theorem Sorted.receive {p : Paused} {a : Answer} (h : m.Sorted) (hn : p.receive a m = .ok n) :
    n.Sorted ∧ m.Retains n := by
  by_cases ha : a = .later
  · subst ha
    cases hm : m.pendingCall with
    | none =>
      simp only [Paused.receive, answerLater, hm] at hn
      cases hn
    | some call =>
      obtain ⟨hcall, hlast⟩ := h.pending call hm
      have hreceived := receive_later hm hn
      have hfutures : n.futures = m.futures ++ [(call, .pending)] := by
        rw [hreceived.futures]
        exact insert_last fun g hg => hlast _ (List.mem_map_of_mem hg)
      refine ⟨⟨?_, ?_, ?_⟩, ?_⟩
      · rw [hreceived.futures]
        exact ordered_insert h.ordered
      · rw [hfutures, hreceived.nextCall]
        intro id hid
        rw [List.map_append, List.mem_append] at hid
        rcases hid with hid | hid
        · exact h.made id hid
        · rw [List.mem_singleton.mp hid]
          exact hcall
      · intro call' hcall'
        rw [pendingCall_receive hn] at hcall'
        cases hcall'
      · intro id f hf _
        have hne : id ≠ call := (hlast id (List.mem_map_of_mem (List.mem_of_lookup hf))).ne
        rw [future?, hreceived.futures, lookup_insert, if_neg hne]
        exact hf
  · have hreceived := receive_now ha hn
    exact ⟨h.unanswered hreceived.futures hreceived.nextCall (pendingCall_receive hn),
      .of_futures hreceived.futures⟩

/-- Results for calls that are pending. -/
theorem Sorted.receiveAll {p : Paused} {results : List (Nat × Answer)} {pending : List Nat}
    (h : m.Sorted) (hn : p.receiveAll pending results m = .ok (.ok n)) :
    n.Sorted ∧ m.Retains n := by
  obtain ⟨heap, taken, rfl, -, htaken⟩ := receiveAll_ok hn
  have hknown : ∀ r ∈ taken, m.future? r.1 = some .pending := fun r hr =>
    pending_of_mem h.ordered (htaken r hr).1
  have hkeys : (recordAll taken m.futures).map (·.1) = m.futures.map (·.1) := by
    rw [← statuses_keys, statuses_recordAll h.ordered fun r hr =>
      ⟨List.mem_map.mpr ⟨_, List.mem_of_lookup (hknown r hr), rfl⟩, (htaken r hr).2⟩,
      List.map_map, ← statuses_keys m.futures]
    rfl
  refine ⟨⟨?_, ?_, ?_⟩, ?_⟩
  · refine List.pairwise_map.mp ?_
    rw [hkeys]
    exact List.pairwise_map.mpr h.ordered
  · rw [hkeys]
    exact h.made
  · rw [hkeys]
    exact h.pending
  · intro id f hf hresult
    have hid : id ∉ taken.map (·.1) := by
      intro hmem
      obtain ⟨r, hr, rfl⟩ := List.mem_map.mp hmem
      rw [hknown r hr] at hf
      obtain rfl := Option.some.inj hf
      cases hresult
    exact (lookup_recordAll hid).trans hf

theorem Retains.awaited {items : List Value} (h : m.Retains n)
    (hitems : ∀ id, .future id ∈ items → ∃ f, m.future? id = some f ∧ f.isPending = false) :
    ∀ v ∈ items, n.awaited v = m.awaited v := by
  intro v hv
  unfold Machine.awaited
  split
  · next id =>
    obtain ⟨f, hf, hresult⟩ := hitems id hv
    rw [hf, h hf hresult]
  · rfl

end

end Machine

open Machine

/-! ## Runs -/

namespace Script

variable {s : Script} {inputs : List Object} {budget : Budget} {x y : Option Exit} {m n : Machine}

/-- A run goes on, over any number of steps. -/
inductive ComesTo (s : Script) (x : Option Exit) (m : Machine) : Option Exit → Machine → Prop
  | refl : ComesTo s x m x m
  | step {y z n k} : ComesTo s x m y n → s.Continues y n z k → ComesTo s x m z k

theorem Continues.retains (h : s.Continues x m y n) (hm : m.Sorted) : n.Sorted ∧ m.Retains n := by
  cases h with
  | next h =>
    have hcomes := advance_comes s.bytecode m
    rw [h] at hcomes
    exact ⟨hm.passes hcomes, .of_futures hcomes.futures⟩
  | exit h _ =>
    have hcomes := advance_comes s.bytecode m
    rw [h] at hcomes
    exact hm.rests hcomes
  | answer a traced writer _ h =>
    have hpaused : ((s.pause m).machine traced writer).Sorted := ⟨hm.ordered, hm.made, hm.pending⟩
    exact hpaused.receive h
  | resolve results traced writer h =>
    have hpaused : ((s.pause m).machine traced writer).Sorted := ⟨hm.ordered, hm.made, hm.pending⟩
    exact hpaused.receiveAll h
  | reload codec clock traced writer _ hp =>
    obtain rfl := Paused.eq_of_reload hp
    exact ⟨⟨hm.ordered, hm.made, hm.pending⟩, .of_futures rfl⟩
  | unattended _ h =>
    have hcaught := caught_of_unwind h
    exact ⟨hm.unanswered hcaught.futures hcaught.nextCall hcaught.pendingCall,
      .of_futures hcaught.futures⟩

theorem ComesTo.retains (h : s.ComesTo x m y n) (hm : m.Sorted) : n.Sorted ∧ m.Retains n := by
  induction h with
  | refl => exact ⟨hm, .of_futures rfl⟩
  | step _ hstep ih =>
    obtain ⟨hsorted, hretains⟩ := hstep.retains ih.1
    exact ⟨hsorted, ih.2.trans hretains⟩

theorem Visits.sorted (h : s.Visits inputs budget x m) : m.Sorted := by
  induction h with
  | start traced writer _ => exact ⟨.nil, nofun, nofun⟩
  | next _ h ih => exact ((Continues.next h).retains ih).1
  | @exit x m n _ h ih =>
    have hcomes := advance_comes s.bytecode m
    rw [h] at hcomes
    exact (ih.rests hcomes).1
  | answer a traced writer _ hx h ih => exact ((Continues.answer a traced writer hx h).retains ih).1
  | resolve results traced writer _ h ih =>
    exact ((Continues.resolve results traced writer h).retains ih).1
  | reload codec clock traced writer _ hx hp ih =>
    exact ((Continues.reload codec clock traced writer hx hp).retains ih).1
  | unattended _ hx h ih => exact ((Continues.unattended hx h).retains ih).1

/-- Futures that have got their results result in the same whenever they are awaited again. -/
theorem Visits.awaited_again (h : s.Visits inputs budget x m) (hn : s.ComesTo x m y n)
    {items : List Value}
    (hitems : ∀ id, .future id ∈ items → ∃ f, m.future? id = some f ∧ f.isPending = false) :
    items.mapM n.awaited = items.mapM m.awaited := by
  have hsame := (hn.retains h.sorted).2.awaited hitems
  clear hitems
  induction items with
  | nil => rfl
  | cons v items ih =>
    rw [List.forall_mem_cons] at hsame
    rw [List.mapM_cons, List.mapM_cons, hsame.1, ih hsame.2]

end Script

/-! ## What comes of an answer

Whatever a call is answered with, a run with a handler goes on; only a limit may end it
(`Paused.receive_handled`). The result of an earlier call is different: a value that cannot enter
the run ends it, although the same value would have been an exception in the program as the answer
of a call (`Paused.raised_outcome`). -/

namespace Machine

variable {code : Bytecode} {m n : Machine} {e : Raised}

/-- Some active call has a handler. -/
def Handles (m : Machine) : Prop := ∃ f ∈ m.frames, f.blocks ≠ []

theorem exists_unwindFrom {recorded : Bool} {f : Frame} {below : List Frame}
    (h : ∃ g ∈ f :: below, g.blocks ≠ []) :
    ∃ n, unwindFrom code m recorded e f below = .ok n := by
  induction below generalizing m recorded e f with
  | nil =>
    obtain ⟨g, hg, hblocks⟩ := h
    obtain rfl := List.mem_singleton.mp hg
    rw [unwindFrom]
    split
    · exact ⟨_, rfl⟩
    · next hnone => exact absurd hnone hblocks
  | cons caller below ih =>
    rw [unwindFrom]
    split
    · exact ⟨_, rfl⟩
    · next hnone =>
      refine ih ?_
      obtain ⟨g, hg, hblocks⟩ := h
      rcases List.mem_cons.mp hg with rfl | hg
      · exact absurd hnone hblocks
      · exact ⟨g, hg, hblocks⟩

theorem Handles.unwind (h : m.Handles) (code : Bytecode) (e : Raised) :
    ∃ n, m.unwind code e = .ok n := exists_unwindFrom h

end Machine

namespace Paused

open Machine

variable {p : Paused} {m : Machine}

theorem answerException_handled (hm : m.Handles) (code : Bytecode) (e : Raised) :
    ∃ n, (m.answerException code e).mapError (·, m) = .ok n := by
  have hm : ({ m with pendingCall := none } : Machine).Handles := hm
  obtain ⟨n, hn⟩ := hm.unwind code e
  exact ⟨n, by rw [answerException, hn]; rfl⟩

theorem receive_handled {call : Nat} (hm : m.Handles) (hcall : m.pendingCall = some call)
    (a : Answer) :
    (∃ n, p.receive a m = .ok n) ∨
      ∃ e n, p.receive a m = .error (Script.conversionException (.overrun e), n) := by
  cases a with
  | later => exact .inl (receive_later_ok hcall)
  | exception type message limit => exact .inl (answerException_handled hm _ _)
  | value o =>
    obtain ⟨heap, hend⟩ := onHeap_end (Heap.ofObject o) m
    unfold receive
    simp only
    generalize onHeap (Heap.ofObject o) m = r at hend
    match r with
    | .ok v l => exact .inl ⟨_, rfl⟩
    | .error (.overrun e) l => exact .inr ⟨e, l, rfl⟩
    | .error (.raised e) l | .error .endless l | .error .stuck l =>
      obtain rfl : l = { m with heap } := hend
      exact .inl (answerException_handled (m := { m with heap }) hm _ _)

/-- A value that raises an exception where it enters the run is an exception in the program as an
answer, and the end of the run as a result. -/
theorem raised_outcome {o : Object} {e : Raised} {l : Machine} {pending : List Nat} {id : Nat}
    (hm : m.Handles) (ho : onHeap (Heap.ofObject o) m = .error (.raised e) l)
    (hid : id ∈ pending) :
    (∃ n, p.receive (.value o) m = .ok n) ∧
      ∃ reason : String, p.receiveAll pending [(id, .value o)] m =
        .error (.plain .runtimeError (some s!"Invalid return type for call {id}: {reason}")) := by
  obtain ⟨heap, hend⟩ := onHeap_end (Heap.ofObject o) m
  rw [ho] at hend
  obtain rfl : l = { m with heap } := hend
  constructor
  · simp only [receive, ho]
    exact answerException_handled (m := { m with heap }) hm _ _
  · have hknown : [(id, Answer.value o)].find? (fun r => !pending.contains r.1) = none := by
      simp [hid]
    simp only [receiveAll, hknown, toFutures, ho]
    exact ⟨_, rfl⟩

end Paused

end Resumable
