import Resumable.Proofs.Hosts
import Resumable.Proofs.Lockstep.Ahead
import Resumable.Proofs.Spending

/-!
# What a run asks for and prints

`s.Recounts inputs budget past text x m`: some run of the script has come to the machine `m` after
these exchanges with its host, the last one first, and printing this text. `s.Breaks inputs budget
past e` says the same of a run that has ended with an exception. A stop of the machine is either the
end, or a call with the next number, or a wait for all futures that are pending (`Machine.Rests`);
only answers change what is known of futures.
-/

namespace Resumable

/-- What a host has been shown at a stop, and what the run has got from it. -/
inductive Exchange where
  | answer (sight : Sight) (a : Answer)
  | results (pending : List Nat) (results : List (Nat × Answer))

/-- What a host has been shown. -/
def Exchange.sight : Exchange → Sight
  | .answer sight _ => sight
  | .results pending _ => .futures pending

/-- Some run of the script comes to a machine between two of its instructions, or at the stop
`x`. -/
inductive Script.Recounts (s : Script) (inputs : List Object) (budget : Budget) :
    List Exchange → String → Option Exit → Machine → Prop
  | start {heap globals} (traced writer) : s.globals inputs budget = .ok (heap, globals) →
      Recounts s inputs budget [] "" none (begin heap globals traced writer)
  | next {past text printed m n} : Recounts s inputs budget past text none m →
      m.advance s.bytecode = .next n → n.output = m.output ++ printed →
      Recounts s inputs budget past (text ++ printed) none n
  | exit {past text printed x m n} : Recounts s inputs budget past text none m →
      m.advance s.bytecode = .exit x n → n.output = m.output ++ printed →
      Recounts s inputs budget past (text ++ printed) (some x) n
  | answer {past text x p m n} (a traced writer) : Recounts s inputs budget past text (some x) m →
      x.isCall = true → s.progressAt x m = .ok p →
      (s.pause m).receive a ((s.pause m).machine traced writer) = .ok n →
      Recounts s inputs budget (.answer p.sight a :: past) text none n
  | resolve {past text pending m n} (results traced writer) :
      Recounts s inputs budget past text (some (.blocked pending)) m →
      (s.pause m).receiveAll pending results ((s.pause m).machine traced writer) = .ok (.ok n) →
      Recounts s inputs budget (.results pending results :: past) text none n

/-- Some run of the script ends with an exception: at its start, in an instruction, at a call that
it cannot show its host, or by what it gets from the host. -/
inductive Script.Breaks (s : Script) (inputs : List Object) (budget : Budget) :
    List Exchange → Exception → Prop
  | start {e} : s.globals inputs budget = .error e → Breaks s inputs budget [] e
  | instruction {past text m n e} : s.Recounts inputs budget past text none m →
      m.advance s.bytecode = .failed e n → Breaks s inputs budget past (s.exception e)
  | exit {past text x m e} : s.Recounts inputs budget past text (some x) m →
      s.progressAt x m = .error e → Breaks s inputs budget past e
  | answer {past text x p m n e} (a traced writer) :
      s.Recounts inputs budget past text (some x) m → x.isCall = true → s.progressAt x m = .ok p →
      (s.pause m).receive a ((s.pause m).machine traced writer) = .error (e, n) →
      Breaks s inputs budget (.answer p.sight a :: past) (s.exception e)
  | resolve {past text pending m n e} (results traced writer) :
      s.Recounts inputs budget past text (some (.blocked pending)) m →
      (s.pause m).receiveAll pending results ((s.pause m).machine traced writer) =
        .ok (.error (e, n)) →
      Breaks s inputs budget (.results pending results :: past) (s.exception e)
  | results {past text pending m e} (results traced writer) :
      s.Recounts inputs budget past text (some (.blocked pending)) m →
      (s.pause m).receiveAll pending results ((s.pause m).machine traced writer) = .error e →
      Breaks s inputs budget (.results pending results :: past) e

/-- The answers that are no results. -/
def Answer.isLater : Answer → Bool
  | .later => true
  | .value _ | .exception .. => false

/-- The calls that get a result. -/
def settledBy (results : List (Nat × Answer)) : List Nat :=
  (results.filter fun r => !r.2.isLater).map (·.1)

/-- The calls that get a result in an exchange. -/
def Exchange.settled : Exchange → List Nat
  | .answer sight a => if a.isLater then [] else sight.call?.toList
  | .results _ answers => settledBy answers

namespace Machine

/-! ## Instructions -/

/-- No future has changed, and what has been printed is still there. -/
structure Adds (m n : Machine) : Prop where
  futures : n.futures = m.futures
  output : ∃ printed, n.output = m.output ++ printed

/-- A run has gone on without a call of its host. -/
structure Passes (m n : Machine) : Prop extends Adds m n where
  nextCall : n.nextCall = m.nextCall
  pendingCall : n.pendingCall = m.pendingCall

/-- A run has gone on to a stop. -/
inductive Rests (m : Machine) : Exit → Machine → Prop
  | returned (v) {n} : m.Passes n → Rests m (.returned v) n
  | call {x n} : x.call? = some m.nextCall → m.Adds n → n.nextCall = m.nextCall + 1 →
      n.pendingCall = some m.nextCall → Rests m x n
  | blocked {n} : m.pendingFutures ≠ [] → m.Passes n → Rests m (.blocked m.pendingFutures) n

variable {α : Type} {code : Bytecode} {m n k : Machine} {x : Exit}

theorem Adds.trans (h : m.Adds n) (h' : n.Adds k) : m.Adds k where
  futures := h'.futures.trans h.futures
  output := by
    obtain ⟨s, hs⟩ := h.output
    obtain ⟨t, ht⟩ := h'.output
    exact ⟨s ++ t, by rw [ht, hs, String.append_assoc]⟩

theorem Passes.refl (m : Machine) : m.Passes m := ⟨⟨rfl, "", by simp⟩, rfl, rfl⟩

theorem Passes.trans (h : m.Passes n) (h' : n.Passes k) : m.Passes k :=
  ⟨h.toAdds.trans h'.toAdds, h'.nextCall.trans h.nextCall, h'.pendingCall.trans h.pendingCall⟩

theorem Keeps.adds (h : m.Keeps n) : m.Adds n := ⟨h.futures, h.output⟩

theorem Stays.passes {next : Nat} (h : m.Stays next n) : m.Passes n :=
  ⟨h.adds, h.nextCall, h.pendingCall⟩

theorem Caught.passes (h : m.Caught n) : m.Passes n :=
  ⟨⟨h.futures, "", by simp [h.output]⟩, h.nextCall, h.pendingCall⟩

theorem Passes.rests (h : m.Passes n) (hx : n.Rests x k) : m.Rests x k := by
  cases hx with
  | returned v hk => exact .returned v (h.trans hk)
  | blocked hne hk =>
    have hpending : n.pendingFutures = m.pendingFutures := by
      rw [pendingFutures, pendingFutures, h.futures]
    rw [hpending] at hne ⊢
    exact .blocked hne (h.trans hk)
  | call hcall hk hnext hpending =>
    rw [h.nextCall] at hcall hnext hpending
    exact .call hcall (h.toAdds.trans hk) hnext hpending

/-- What may come of an instruction, or of a run of instructions. -/
def Comes (m : Machine) : Option Exit → Machine → Prop
  | none, n => m.Passes n
  | some x, n => m.Rests x n

theorem Passes.comes {x : Option Exit} (h : m.Passes n) (hx : n.Comes x k) : m.Comes x k := by
  cases x with
  | none => exact h.trans hx
  | some x => exact h.rests hx

theorem Turn.comes {x : Option Exit} (h : m.Turn x n) : m.Comes x n := by
  cases h with
  | goes next hs => exact hs.passes
  | enters hd hc hk hn hp => exact ⟨hk.adds, hn, hp⟩
  | leaves hc hk hn hp => exact ⟨hk.adds, hn, hp⟩
  | returns v hs => exact .returned v hs.passes
  | asks hx hc hk hn hp => exact .call hx hk.adds hn hp
  | waits next hne hs => exact .blocked hne hs.passes

theorem due_passes (m : Machine) : m.Passes m.due := by
  unfold due collected
  split <;> exact ⟨⟨rfl, "", by simp [ticked]⟩, rfl, rfl⟩

theorem executeNext_comes (code : Bytecode) (m : Machine) :
    match executeNext code m with
    | .ok x n => m.Comes x n
    | .error _ n => m.Passes n := by
  cases hi : m.fetch code with
  | none => rw [executeNext_of_none hi]; exact .refl m
  | some i =>
    have hfetched : m.Passes m.fetched := ⟨⟨rfl, "", by simp [fetched]⟩, rfl, rfl⟩
    have hturn := executeNext_turns hi
    generalize executeNext code m = r at hturn ⊢
    cases r with
    | ok x n => exact hfetched.comes hturn.comes
    | error e n => exact hfetched.trans hturn.passes

theorem step_comes (code : Bytecode) (m : Machine) :
    match step code m with
    | .ok x n => m.Comes x n
    | .error (.overrun _) _ => True
    | .error _ n => m.Passes n := by
  rw [step_eq]
  cases htick : m.heap.budget.tick.2 with
  | some e => simp only [ofLimit_of_not_catchable (not_isCatchable_tick htick)]
  | none =>
    have hdue := m.due_passes
    have hnext := executeNext_comes code m.due
    change match executeNext code m.due with
      | .ok x n => m.Comes x n
      | .error (.overrun _) _ => True
      | .error _ n => m.Passes n
    generalize executeNext code m.due = r at hnext ⊢
    match r with
    | .ok x n => exact hdue.comes hnext
    | .error (.raised e) n => exact hdue.trans hnext
    | .error .endless n => exact hdue.trans hnext
    | .error .stuck n => exact hdue.trans hnext
    | .error (.overrun e) n => trivial

theorem advance_comes (code : Bytecode) (m : Machine) :
    match advance code m with
    | .next n => m.Passes n
    | .exit x n => m.Rests x n
    | _ => True := by
  have hstep := step_comes code m
  rw [advance_eq]
  generalize Machine.step code m = r at hstep
  unfold Advance.ofResult
  match r with
  | .ok none n => exact hstep
  | .ok (some x) n => exact hstep
  | .error (.overrun e) n => trivial
  | .error .endless n => trivial
  | .error .stuck n => trivial
  | .error (.raised e) n =>
    simp only
    cases hcaught : n.unwind code e with
    | ok n' => exact hstep.trans (caught_of_unwind hcaught).passes
    | error e' => trivial

/-! ## Answers -/

/-- An answer changes futures or none, and prints nothing. -/
structure Received (m : Machine) (futures : List (Nat × Future)) (n : Machine) : Prop where
  futures : n.futures = futures
  nextCall : n.nextCall = m.nextCall
  output : n.output = m.output

theorem Caught.received (h : m.Caught n) : m.Received m.futures n :=
  ⟨h.futures, h.nextCall, h.output⟩

theorem onHeap_end (act : Heap.Action α) (m : Machine) :
    ∃ heap, endState (onHeap act m) = { m with heap } := by
  unfold onHeap
  simp only
  cases act m.heap <;> exact ⟨_, rfl⟩

theorem receive_later {p : Paused} {call : Nat} (hm : m.pendingCall = some call)
    (h : p.receive .later m = .ok n) :
    m.Received (setFuture.insert call .pending m.futures) n := by
  simp only [Paused.receive, answerLater, hm] at h
  cases h
  exact ⟨rfl, rfl, rfl⟩

theorem receive_now {p : Paused} {a : Answer} (ha : a ≠ .later) (h : p.receive a m = .ok n) :
    m.Received m.futures n := by
  have raise : ∀ {l : Machine} {e : Raised}, m.Received m.futures l →
      (l.answerException p.script.bytecode e).mapError (·, l) = .ok n →
      m.Received m.futures n := by
    intro l e hl h
    cases hraise : l.answerException p.script.bytecode e with
    | error e' => rw [hraise] at h; cases h
    | ok k =>
      rw [hraise] at h
      cases h
      have hk := (caught_of_unwind hraise).received
      exact ⟨hk.futures.trans hl.futures, hk.nextCall.trans hl.nextCall,
        hk.output.trans hl.output⟩
  cases a with
  | later => exact (ha rfl).elim
  | exception type message limit => exact raise ⟨rfl, rfl, rfl⟩ h
  | value o =>
    obtain ⟨heap, hend⟩ := onHeap_end (Heap.ofObject o) m
    unfold Paused.receive at h
    simp only at h
    generalize onHeap (Heap.ofObject o) m = r at hend h
    have hl : m.Received m.futures (endState r) := by rw [hend]; exact ⟨rfl, rfl, rfl⟩
    match r with
    | .ok _ l => cases h; exact ⟨hl.futures, hl.nextCall, hl.output⟩
    | .error (.raised _) l => exact raise hl h
    | .error .endless l => exact raise hl h
    | .error .stuck l => exact raise hl h
    | .error (.overrun _) l => cases h

/-- The futures that have no result yet. -/
def pendingOf (futures : List (Nat × Future)) : List Nat :=
  futures.filterMap fun
    | (id, .pending) => some id
    | _ => none

theorem pendingFutures_eq (m : Machine) : m.pendingFutures = pendingOf m.futures := rfl

section
variable {fs : List (Nat × Future)} {call : Nat} {f : Future}

theorem mem_of_mem_pendingOf (h : call ∈ pendingOf fs) : (call, .pending) ∈ fs :=
  mem_of_mem_pending (m := { (default : Machine) with futures := fs }) h

/-- A future with a new number comes last. -/
theorem insert_last (h : ∀ g ∈ fs, g.1 < call) :
    setFuture.insert call f fs = fs ++ [(call, f)] := by
  induction fs with
  | nil => rfl
  | cons g fs ih =>
    obtain ⟨i, g⟩ := g
    have hi : i < call := h _ List.mem_cons_self
    rw [setFuture.insert, if_neg (by simpa using hi.ne), if_neg hi.le.not_gt,
      ih fun g hg => h g (List.mem_cons_of_mem _ hg), List.cons_append]

/-- A future that gets a result is not pending any more. -/
theorem pendingOf_insert (h : fs.Pairwise (·.1 < ·.1)) (hf : f ≠ .pending) :
    pendingOf (setFuture.insert call f fs) = (pendingOf fs).filter (· != call) := by
  have hone : pendingOf [(call, f)] = [] := by cases f <;> first | rfl | exact absurd rfl hf
  have hcons : ∀ g (gs : List (Nat × Future)),
      pendingOf (g :: gs) = pendingOf [g] ++ pendingOf gs :=
    fun g gs => by rw [pendingOf, ← List.singleton_append, List.filterMap_append]; rfl
  have hkeep : ∀ {gs : List (Nat × Future)}, (∀ g ∈ gs, g.1 ≠ call) →
      (pendingOf gs).filter (· != call) = pendingOf gs := fun hgs =>
    List.filter_eq_self.mpr fun i hi => by simpa using hgs _ (mem_of_mem_pendingOf hi)
  induction fs with
  | nil => exact hone
  | cons g fs ih =>
    obtain ⟨i, g⟩ := g
    obtain ⟨hfirst, hrest⟩ := List.pairwise_cons.mp h
    rw [setFuture.insert]
    split
    · next hi =>
      obtain rfl := beq_iff_eq.mp hi
      rw [hcons, hcons (i, g), hone, List.filter_append, hkeep fun x hx => (hfirst x hx).ne']
      cases g <;> simp [pendingOf]
    · next hi =>
      have hi : i ≠ call := by simpa using hi
      split
      · next hlt =>
        rw [hcons, hone, List.nil_append, hkeep]
        intro x hx
        rcases List.mem_cons.mp hx with rfl | hx
        · exact hi
        · exact (hlt.trans (hfirst x hx)).ne'
      · rw [hcons, hcons (i, g) fs, ih hrest, List.filter_append]
        congr 1
        exact (hkeep fun x hx => by rw [List.mem_singleton.mp hx]; exact hi).symm

end

/-- Results are in the order of the answers; none of them is a promise. -/
theorem toFutures_ok {p : Paused} {done futures : List (Nat × Future)}
    {results : List (Nat × Answer)} (hdone : ∀ f ∈ done, f.2 ≠ .pending)
    (h : p.toFutures m done results = .ok (futures, n)) :
    (∃ heap, n = { m with heap }) ∧
      futures.map (·.1) = done.reverse.map (·.1) ++ settledBy results ∧
      ∀ f ∈ futures, f.2 ≠ .pending := by
  induction results generalizing m done with
  | nil =>
    cases h
    exact ⟨⟨_, rfl⟩, by simp [settledBy], fun f hf => hdone f (List.mem_reverse.mp hf)⟩
  | cons result results ih =>
    obtain ⟨id, a⟩ := result
    cases a with
    | later => exact ih hdone h
    | exception type message limit =>
      have hdone : ∀ f ∈ (id, Future.failed (.fresh type message limit)) :: done, f.2 ≠ .pending :=
        List.forall_mem_cons.mpr ⟨by simp, hdone⟩
      obtain ⟨hn, hids, hnone⟩ := ih hdone h
      exact ⟨hn, by simpa [settledBy, Answer.isLater] using hids, hnone⟩
    | value o =>
      obtain ⟨heap, hend⟩ := onHeap_end (Heap.ofObject o) m
      rw [Paused.toFutures] at h
      generalize onHeap (Heap.ofObject o) m = r at hend h
      cases r with
      | error f l => cases h
      | ok v l =>
        obtain rfl : l = { m with heap } := hend
        have hdone : ∀ f ∈ (id, Future.resolved v) :: done, f.2 ≠ .pending :=
          List.forall_mem_cons.mpr ⟨by simp, hdone⟩
        obtain ⟨⟨heap', hn⟩, hids, hnone⟩ := ih hdone h
        exact ⟨⟨heap', hn⟩, by simpa [settledBy, Answer.isLater] using hids, hnone⟩

/-- Once results have been recorded, their futures are not pending. -/
theorem pending_setFutures (results : List (Nat × Future)) (m : Machine)
    (hm : m.futures.Pairwise (·.1 < ·.1)) (hresults : ∀ r ∈ results, r.2 ≠ .pending) :
    let n := results.foldl (fun m (id, f) => m.setFuture id f) m
    n.futures.Pairwise (·.1 < ·.1) ∧ n.nextCall = m.nextCall ∧ n.output = m.output ∧
      (∀ f ∈ n.futures, f ∈ m.futures ∨ f ∈ results) ∧
      n.pendingFutures = m.pendingFutures.filter fun id => id ∉ results.map (·.1) := by
  induction results generalizing m with
  | nil => exact ⟨hm, rfl, rfl, fun f hf => .inl hf, by simp⟩
  | cons result results ih =>
    obtain ⟨hresult, hresults⟩ := List.forall_mem_cons.mp hresults
    obtain ⟨hordered, hnext, houtput, hmem, hpending⟩ :=
      ih (m.setFuture result.1 result.2) (ordered_insert hm) hresults
    refine ⟨hordered, hnext, houtput, fun f hf => ?_, ?_⟩
    · rcases hmem f hf with hf | hf
      · rcases mem_insert hf with rfl | hf
        · exact .inr List.mem_cons_self
        · exact .inl hf
      · exact .inr (List.mem_cons_of_mem _ hf)
    · have hone : (m.setFuture result.1 result.2).pendingFutures =
          m.pendingFutures.filter (· != result.1) := pendingOf_insert hm hresult
      rw [List.foldl_cons, hpending, hone, List.filter_filter]
      refine List.filter_congr fun id _ => ?_
      rw [List.map_cons]
      grind

end Machine

/-! ## Runs -/

open Machine

/-- What a run of instructions leads to. -/
theorem Script.Recounts.run {s : Script} {inputs : List Object} {budget : Budget}
    {past : List Exchange} {text : String} {m : Machine} {steps : Nat} {stop : Stop × Machine}
    (h : s.Recounts inputs budget past text none m)
    (hrun : m.run s.bytecode steps = some stop) :
    match stop with
    | (.exit x, n) => m.Rests x n ∧ ∃ printed, n.output = m.output ++ printed ∧
        s.Recounts inputs budget past (text ++ printed) (some x) n
    | (.failed e, _) => s.Breaks inputs budget past (s.exception e) := by
  induction steps generalizing m text with
  | zero => cases hrun
  | succ steps ih =>
    have hcomes := advance_comes s.bytecode m
    rw [Machine.run] at hrun
    cases hadvance : m.advance s.bytecode with
    | failed e l =>
      rw [hadvance] at hrun
      cases hrun
      exact .instruction h hadvance
    | endless => rw [hadvance] at hrun; cases hrun
    | exit x n =>
      rw [hadvance] at hrun hcomes
      cases hrun
      obtain ⟨printed, hprinted⟩ : ∃ printed, n.output = m.output ++ printed := by
        cases hcomes with
        | returned v hp => exact hp.output
        | call hx ha hn hp => exact ha.output
        | blocked hne hp => exact hp.output
      exact ⟨hcomes, printed, hprinted, h.exit hadvance hprinted⟩
    | next l =>
      rw [hadvance] at hrun hcomes
      have hpasses : m.Passes l := hcomes
      obtain ⟨first, hfirst⟩ := hpasses.output
      have hstop := ih (h.next hadvance hfirst) hrun
      obtain ⟨stop, n⟩ := stop
      cases stop with
      | failed e => exact hstop
      | exit x =>
        obtain ⟨hrests, rest, hrest, hrecounts⟩ := hstop
        refine ⟨hpasses.rests hrests, first ++ rest, ?_, ?_⟩
        · rw [hrest, hfirst, String.append_assoc]
        · rw [← String.append_assoc]
          exact hrecounts

end Resumable
