import Resumable.Proofs.Awaiting
import Resumable.Proofs.Futures

/-!
# What a host has said, and what the run has noted

`s.Talks inputs budget d x m`: some run of the script has come to the machine `m` after the dialogue
`d` with its host. Main statement: `Script.Talks.numbered`. The numbers of calls, the table of
futures and the calls that a run waits for are what the dialogue says they are
(`Dialogue.Noted`), and a run that gets all results that it waits for goes on.
-/

namespace Resumable

/-- What a host has seen at each stop of a run and the move that it has made there, the last one
first. -/
abbrev Dialogue := List (Sight × Move)

namespace Dialogue

/-- The calls that have been answered, in order. -/
def asked (d : Dialogue) : List Nat := (d.filterMap (·.1.call?)).reverse

/-- The calls that have been answered with a future, in order. -/
def deferred (d : Dialogue) : List Nat :=
  (d.filterMap fun (sight, move) => if move.answer.isLater then sight.call? else none).reverse

/-- The calls whose futures have got a result. -/
def settled (d : Dialogue) : List Nat :=
  d.flatMap fun
    | (.futures _, move) => settledBy move.results
    | _ => []

/-- The calls that have been answered with a future that has no result yet. -/
def unsettled (d : Dialogue) : List Nat := d.deferred.filter (· ∉ d.settled)

end Dialogue

namespace Progress

/-- The run that has stopped. -/
def run? : Progress → Option Paused
  | .functionCall _ _ _ _ run | .osCall _ _ _ _ run | .futures _ run => some run
  | .complete _ => none

/-- The machine that has received the move of its host, if that does not end the run. -/
def resumed? (move : Move) : Progress → Option Machine
  | .functionCall _ _ _ _ run | .osCall _ _ _ _ run =>
    (run.receive move.answer (run.machine move.traced move.writer)).toOption
  | .futures pending run =>
    (run.receiveAll pending move.results (run.machine move.traced move.writer)).toOption.bind
      Except.toOption
  | .complete _ => none

end Progress

/-- Some run of the script comes to a machine between two of its instructions, or at the stop `x`,
after a dialogue. -/
inductive Script.Talks (s : Script) (inputs : List Object) (budget : Budget) :
    Dialogue → Option Exit → Machine → Prop
  | start {heap globals} (traced writer) : s.globals inputs budget = .ok (heap, globals) →
      Talks s inputs budget [] none (begin heap globals traced writer)
  | next {d m n} : Talks s inputs budget d none m → m.advance s.bytecode = .next n →
      Talks s inputs budget d none n
  | exit {d x m n} : Talks s inputs budget d none m → m.advance s.bytecode = .exit x n →
      Talks s inputs budget d (some x) n
  | move {d x p m n} (move : Move) : Talks s inputs budget d (some x) m →
      s.progressAt x m = .ok p → p.resumed? move = some n →
      Talks s inputs budget ((p.sight, move) :: d) none n

/-- The host of a run of the script is shown a progress, after a dialogue. -/
inductive Script.Shows (s : Script) (inputs : List Object) (budget : Budget) :
    Dialogue → Progress → Prop
  | start {traced steps writer step p} :
      s.start inputs budget traced steps writer = some step → step.outcome = .ok p →
      Shows s inputs budget [] p
  | move {d p q steps step} (move : Move) : Shows s inputs budget d p →
      p.after steps move = some step → step.outcome = .ok q →
      Shows s inputs budget ((p.sight, move) :: d) q

/-! ## What has been noted -/

open Machine

namespace Dialogue

/-- Calls have been numbered in order, and a machine knows the futures that calls have been answered
with; those are pending that have not got a result. -/
structure Noted (d : Dialogue) (m : Machine) : Prop where
  asked : d.asked = List.range d.asked.length
  futures : statuses m.futures = d.deferred.map fun id => (id, decide (id ∉ d.settled))
  settled : d.settled ⊆ d.deferred

/-- Where a run stands after a dialogue: it goes on, asks its host for the next call, waits for all
calls that have no result yet, or has come to its end. -/
inductive At (code : Bytecode) (d : Dialogue) (m : Machine) : Option Exit → Prop
  | goes : m.nextCall = d.asked.length → m.pendingCall = none → At code d m none
  | asks {x} : x.call? = some d.asked.length → m.pendingCall = some d.asked.length →
      m.nextCall = d.asked.length + 1 → At code d m (some x)
  | waits : d.unsettled ≠ [] → (∃ ids, m.Awaits code ids) → m.nextCall = d.asked.length →
      m.pendingCall = none → At code d m (some (.blocked d.unsettled))
  | returned (v) : At code d m (some (.returned v))

variable {code : Bytecode} {d : Dialogue} {m n : Machine} {sight : Sight} {move : Move}
  {call id : Nat} {x : Exit}

theorem deferred_sublist (d : Dialogue) : d.deferred.Sublist d.asked := by
  refine List.Sublist.reverse ?_
  induction d with
  | nil => exact .slnil
  | cons said d ih =>
    obtain ⟨sight, move⟩ := said
    cases hcall : sight.call? with
    | none => simpa [hcall] using ih
    | some call =>
      cases hlater : move.answer.isLater with
      | true => simpa [hcall, hlater] using ih
      | false => simpa [hcall, hlater] using ih.cons call

theorem asked_cons (hcall : sight.call? = some call) :
    asked ((sight, move) :: d) = d.asked ++ [call] := by
  simp [asked, hcall]

theorem settled_cons (hcall : sight.call? = some call) :
    settled ((sight, move) :: d) = d.settled := by
  cases sight with
  | futures pending => cases hcall
  | _ => rfl

theorem deferred_cons_later (hcall : sight.call? = some call) (hlater : move.answer = .later) :
    deferred ((sight, move) :: d) = d.deferred ++ [call] := by
  simp [deferred, hcall, hlater, Answer.isLater]

theorem deferred_cons_now (hlater : move.answer ≠ .later) :
    deferred ((sight, move) :: d) = d.deferred := by
  have hnot : move.answer.isLater = false := by
    cases h : move.answer with
    | later => exact absurd h hlater
    | _ => rfl
  simp [deferred, hnot]

namespace Noted

variable (h : d.Noted m)
include h

theorem keys : m.futures.map (·.1) = d.deferred := by
  rw [← statuses_keys, h.futures, List.map_map]
  exact List.map_id _

theorem lt_of_mem (hid : id ∈ d.deferred) : id < d.asked.length := by
  have := (deferred_sublist d).subset hid
  rw [h.asked] at this
  exact List.mem_range.mp this

theorem deferred_ordered : d.deferred.Pairwise (· < ·) := by
  have : d.asked.Pairwise (· < ·) := by
    rw [h.asked]
    exact List.pairwise_lt_range
  exact this.sublist (deferred_sublist d)

theorem ordered : m.futures.Pairwise (·.1 < ·.1) :=
  List.pairwise_map.mp (h.keys ▸ h.deferred_ordered)

theorem pendingFutures : m.pendingFutures = d.unsettled := by
  rw [pendingFutures_eq, pendingOf_eq, h.futures, List.filter_map, List.map_map]
  exact List.map_id _

theorem of_futures (hfutures : n.futures = m.futures) : d.Noted n :=
  ⟨h.asked, hfutures ▸ h.futures, h.settled⟩

/-- A call is answered with a value or an exception. -/
theorem now (hcall : sight.call? = some d.asked.length) (hlater : move.answer ≠ .later)
    (hfutures : n.futures = m.futures) : Noted ((sight, move) :: d) n where
  asked := by
    rw [asked_cons hcall, List.length_append, List.length_singleton, List.range_succ, ← h.asked]
  futures := by
    rw [deferred_cons_now hlater, settled_cons hcall, hfutures]
    exact h.futures
  settled := by
    rw [deferred_cons_now hlater, settled_cons hcall]
    exact h.settled

/-- A call is answered with a future. -/
theorem later (hcall : sight.call? = some d.asked.length) (hlater : move.answer = .later)
    (hfutures : n.futures = setFuture.insert d.asked.length .pending m.futures) :
    Noted ((sight, move) :: d) n where
  asked := by
    rw [asked_cons hcall, List.length_append, List.length_singleton, List.range_succ, ← h.asked]
  futures := by
    have hlast : ∀ f ∈ m.futures, f.1 < d.asked.length := fun f hf =>
      h.lt_of_mem (h.keys ▸ List.mem_map_of_mem hf)
    have hnew : d.asked.length ∉ d.settled := fun hmem =>
      Nat.lt_irrefl _ (h.lt_of_mem (h.settled hmem))
    rw [deferred_cons_later hcall hlater, settled_cons hcall, hfutures, insert_last hlast, statuses,
      List.map_append, List.map_append, ← h.futures, List.map_singleton, List.map_singleton,
      decide_eq_true hnew]
    rfl
  settled := by
    rw [deferred_cons_later hcall hlater, settled_cons hcall]
    exact List.subset_append_of_subset_left _ h.settled

/-- Futures get results. -/
theorem results {pending : List Nat} {taken : List (Nat × Future)}
    (hids : taken.map (·.1) = settledBy move.results)
    (htaken : ∀ r ∈ taken, r.1 ∈ m.pendingFutures ∧ r.2.isPending = false)
    (hfutures : n.futures = recordAll taken m.futures) :
    Noted ((.futures pending, move) :: d) n := by
  have hdeferred : deferred ((.futures pending, move) :: d) = d.deferred := by
    simp [deferred, Sight.call?]
  have hsettled : Dialogue.settled ((.futures pending, move) :: d) =
      settledBy move.results ++ d.settled := rfl
  have hmem : ∀ r ∈ taken, r.1 ∈ d.deferred := fun r hr =>
    List.mem_of_mem_filter (h.pendingFutures ▸ (htaken r hr).1)
  refine ⟨h.asked, ?_, ?_⟩
  · rw [hdeferred, hsettled, hfutures, statuses_recordAll h.ordered fun r hr =>
      ⟨h.keys ▸ hmem r hr, (htaken r hr).2⟩, h.futures, List.map_map, hids]
    refine List.map_congr_left fun id _ => ?_
    simp [Bool.and_comm]
  · rw [hdeferred, hsettled]
    refine List.append_subset.mpr ⟨fun id hid => ?_, h.settled⟩
    obtain ⟨r, hr, rfl⟩ := List.mem_map.mp (hids ▸ hid)
    exact hmem r hr

theorem exists_resolved_iff :
    (∃ f ∈ m.futures, f.1 = id ∧ f.2.isPending = false) ↔ id ∈ d.settled := by
  have hmem : (∃ f ∈ m.futures, f.1 = id ∧ f.2.isPending = false) ↔
      (id, false) ∈ statuses m.futures := by
    rw [statuses, List.mem_map]
    exact exists_congr fun f => and_congr_right fun _ => Prod.mk_inj.symm
  rw [hmem, h.futures, List.mem_map]
  constructor
  · rintro ⟨id', -, heq⟩
    obtain ⟨rfl, hsettled⟩ := Prod.mk.inj heq
    simpa using hsettled
  · intro hid
    exact ⟨id, h.settled hid, by simpa using hid⟩

end Noted

/-! ## One step -/

theorem At.advance (h : d.Noted m) (hat : d.At code m none) :
    match Machine.advance code m with
    | .next n => d.Noted n ∧ d.At code n none
    | .exit x n => d.Noted n ∧ d.At code n (some x)
    | _ => True := by
  obtain ⟨hnext, hpending⟩ : m.nextCall = d.asked.length ∧ m.pendingCall = none := by
    cases hat with
    | goes hnext hpending => exact ⟨hnext, hpending⟩
  have hcomes := advance_comes code m
  cases hadvance : Machine.advance code m with
  | failed e n => trivial
  | endless => trivial
  | next n =>
    rw [hadvance] at hcomes
    have hpasses : m.Passes n := hcomes
    exact ⟨h.of_futures hpasses.futures,
      .goes (hpasses.nextCall.trans hnext) (hpasses.pendingCall.trans hpending)⟩
  | exit x n =>
    rw [hadvance] at hcomes
    cases hcomes with
    | returned v hpasses => exact ⟨h.of_futures hpasses.futures, .returned v⟩
    | call hcall hadds hnext' hpending' =>
      rw [hnext] at hcall hnext' hpending'
      exact ⟨h.of_futures hadds.futures, .asks hcall hpending' hnext'⟩
    | blocked hne hpasses =>
      have hawaits := awaits_of_blocked hadvance
      rw [h.pendingFutures] at hne ⊢
      exact ⟨h.of_futures hpasses.futures, .waits hne hawaits (hpasses.nextCall.trans hnext)
        (hpasses.pendingCall.trans hpending)⟩

end Dialogue

/-- A call is shown with its number, and receives its answer in the run that has paused. -/
theorem Script.progressAt_call {s : Script} {x : Exit} {m : Machine} {p : Progress} {call : Nat}
    (hx : x.call? = some call) (hp : s.progressAt x m = .ok p) :
    p.sight.call? = some call ∧ p.run? = some (s.pause m) ∧ ∀ move, p.resumed? move =
      ((s.pause m).receive move.answer ((s.pause m).machine move.traced move.writer)).toOption := by
  cases displays hp with
  | complete v => cases hx
  | futures pending => cases hx
  | osCall function args call' => exact ⟨hx, rfl, fun _ => rfl⟩
  | functionCall args call' hname => exact ⟨hx, rfl, fun _ => rfl⟩

namespace Dialogue

variable {s : Script} {code : Bytecode} {d : Dialogue} {m n : Machine} {move : Move} {x : Exit}
  {p : Progress}

theorem At.resumed (h : d.Noted m) (hat : d.At code m (some x)) (hp : s.progressAt x m = .ok p)
    (hn : p.resumed? move = some n) :
    Noted ((p.sight, move) :: d) n ∧ At code ((p.sight, move) :: d) n none := by
  cases hat with
  | asks hx hpending hnext =>
    obtain ⟨hsight, -, hresumed⟩ := Script.progressAt_call hx hp
    rw [hresumed] at hn
    have hreceive := ok_of_toOption hn
    have hlength : (asked ((p.sight, move) :: d)).length = d.asked.length + 1 := by
      rw [asked_cons hsight, List.length_append, List.length_singleton]
    have hgoes : ∀ {futures}, ((s.pause m).machine move.traced move.writer).Received futures n →
        At code ((p.sight, move) :: d) n none := fun hreceived =>
      .goes (by rw [hreceived.nextCall, hlength]; exact hnext) (pendingCall_receive hreceive)
    by_cases hlater : move.answer = .later
    · rw [hlater] at hreceive
      have hreceived := receive_later (m := (s.pause m).machine move.traced move.writer) hpending
        hreceive
      exact ⟨h.later hsight hlater hreceived.futures, hgoes hreceived⟩
    · have hreceived := receive_now hlater hreceive
      exact ⟨h.now hsight hlater hreceived.futures, hgoes hreceived⟩
  | waits hne hawaits hnext hpending =>
    cases hp
    obtain ⟨r, hr, hok⟩ := Option.bind_eq_some_iff.mp hn
    obtain rfl := ok_of_toOption hok
    obtain ⟨heap, taken, rfl, hids, htaken⟩ := receiveAll_ok (ok_of_toOption hr)
    exact ⟨h.results hids htaken rfl, .goes hnext hpending⟩
  | returned v => cases hp; cases hn

end Dialogue

/-! ## Runs -/

/-- What is shown to the host after a dialogue. A call has the next number, which is noted in the
run, and can be answered with a future. A wait is one for all calls without a result, in order;
their results are taken if their values can enter the run, and when there is one for each call, the
instruction that has waited goes on. -/
structure Progress.Numbered (code : Bytecode) (d : Dialogue) (p : Progress) : Prop where
  call : ∀ {call}, p.sight.call? = some call → call = d.asked.length ∧
    ∃ run, p.run? = some run ∧ run.snapshot.pendingCall = some call
  later : ∀ {call} {move : Move}, p.sight.call? = some call → move.answer = .later →
    ∃ n, p.resumed? move = some n
  waits : ∀ {pending run}, p = .futures pending run →
    pending = d.unsettled ∧ pending ≠ [] ∧ pending.Pairwise (· < ·)
  results : ∀ {pending run} {move : Move}, p = .futures pending run →
    (∀ r ∈ move.results, r.1 ∈ pending) →
    (∃ entered, run.toFutures (run.machine move.traced move.writer) [] move.results = .ok entered) →
    ∃ n, p.resumed? move = some n ∧ (pending ⊆ settledBy move.results → n.Proceeds code)

namespace Dialogue

variable {s : Script} {d : Dialogue} {m n : Machine} {move : Move} {x : Exit} {p : Progress}

/-- When there is a result for each call that had none, none is left without. -/
theorem unsettled_cons_eq_nil {pending : List Nat} (hall : d.unsettled ⊆ settledBy move.results) :
    unsettled ((.futures pending, move) :: d) = [] := by
  refine List.filter_eq_nil_iff.mpr fun id hid hnot => ?_
  have hnot : id ∉ settledBy move.results ++ d.settled := of_decide_eq_true hnot
  rw [List.mem_append, not_or] at hnot
  have hdeferred : id ∈ d.deferred := by simpa [deferred, Sight.call?] using hid
  exact hnot.1 (hall (List.mem_filter.mpr ⟨hdeferred, decide_eq_true hnot.2⟩))

theorem At.numbered (h : d.Noted m) (hat : d.At s.bytecode m (some x))
    (hp : s.progressAt x m = .ok p) : p.Numbered s.bytecode d := by
  cases hat with
  | asks hx hpending hnext =>
    obtain ⟨hsight, hrun, hresumed⟩ := Script.progressAt_call hx hp
    refine ⟨fun {call} hcall => ?_, fun {call move} _ hlater => ?_, ?_, ?_⟩
    · obtain rfl := Option.some.inj (hsight.symm.trans hcall)
      exact ⟨rfl, _, hrun, hpending⟩
    · obtain ⟨n, hn⟩ := receive_later_ok (p := s.pause m)
        (m := (s.pause m).machine move.traced move.writer) hpending
      exact ⟨n, by rw [hresumed, hlater, hn]; rfl⟩
    · rintro pending run rfl; cases hsight
    · rintro pending run move rfl; cases hsight
  | waits hne hawaits hnext hpending =>
    cases hp
    refine ⟨nofun, nofun, ?_, ?_⟩
    · rintro pending run ⟨⟩
      exact ⟨rfl, hne, h.deferred_ordered.filter _⟩
    · rintro pending run move ⟨⟩ hresults hentered
      obtain ⟨n, hn⟩ := receiveAll_isOk (m := (s.pause m).machine move.traced move.writer)
        h.ordered (h.pendingFutures ▸ hresults) hentered
      have hresumed : (Progress.futures d.unsettled (s.pause m)).resumed? move = some n := by
        rw [Progress.resumed?, ← h.pendingFutures]
        change (Except.toOption (Paused.receiveAll _ (Machine.pendingFutures
          ((s.pause m).machine move.traced move.writer)) _ _)).bind _ = _
        rw [hn]
        rfl
      refine ⟨n, hresumed, fun hall => ?_⟩
      obtain ⟨heap, taken, hmade, hids, htaken⟩ := receiveAll_ok hn
      have hnoted : Noted ((.futures d.unsettled, move) :: d) n :=
        h.results hids htaken (by rw [hmade]; rfl)
      obtain ⟨ids, hfetch, hoperand⟩ := hawaits
      have hawaits : n.Awaits s.bytecode ids := by
        rw [hmade]
        exact ⟨hfetch, hoperand⟩
      refine hawaits.proceeds fun id _ => ?_
      rw [← Bool.not_eq_true]
      intro hid
      have hid := mem_pendingFutures hid
      rw [hnoted.pendingFutures, unsettled_cons_eq_nil hall] at hid
      cases hid
  | returned v => cases hp; exact ⟨nofun, nofun, nofun, nofun⟩

end Dialogue

namespace Script

variable {s : Script} {inputs : List Object} {budget : Budget} {d : Dialogue} {x : Option Exit}
  {m n : Machine} {p q : Progress} {steps : Nat} {step : Step Exception}

theorem Talks.noted (h : s.Talks inputs budget d x m) : d.Noted m ∧ d.At s.bytecode m x := by
  induction h with
  | start traced writer hglobals => exact ⟨⟨rfl, rfl, List.nil_subset _⟩, .goes rfl rfl⟩
  | next _ hadvance ih =>
    have h := ih.2.advance ih.1
    rw [hadvance] at h
    exact h
  | exit _ hadvance ih =>
    have h := ih.2.advance ih.1
    rw [hadvance] at h
    exact h
  | move move _ hp hn ih => exact ih.2.resumed ih.1 hp hn

/-- What is true whenever a run is looked at. -/
structure Ledger (s : Script) (inputs : List Object) (budget : Budget) (d : Dialogue)
    (x : Option Exit) (m : Machine) : Prop where
  noted : d.Noted m
  /-- A run that goes on has received its answer. -/
  answered : x = none → m.pendingCall = none
  shown : ∀ {y p}, x = some y → s.progressAt y m = .ok p → p.Numbered s.bytecode d
  /-- A future that has got its result is never pending again. -/
  resolved : ∀ {later y n}, s.Talks inputs budget (later ++ d) y n →
    ∀ f ∈ m.futures, f.2.isPending = false → ∃ g ∈ n.futures, g.1 = f.1 ∧ g.2.isPending = false

theorem Talks.ledger (h : s.Talks inputs budget d x m) : s.Ledger inputs budget d x m where
  noted := h.noted.1
  answered := by
    rintro rfl
    cases h.noted.2 with
    | goes _ hpending => exact hpending
  shown := by
    rintro y p rfl hp
    exact h.noted.2.numbered h.noted.1 hp
  resolved := by
    intro later y n hn f hf hresolved
    have hf : f.1 ∈ d.settled := h.noted.1.exists_resolved_iff.mp ⟨f, hf, rfl, hresolved⟩
    refine hn.noted.1.exists_resolved_iff.mpr ?_
    rw [Dialogue.settled, List.flatMap_append]
    exact List.mem_append_right _ hf

/-! ## All that a host is shown -/

theorem Talks.run (h : s.Talks inputs budget d none m) {y : Exit}
    (hrun : m.run s.bytecode steps = some (.exit y, n)) : s.Talks inputs budget d (some y) n := by
  induction steps generalizing m with
  | zero => cases hrun
  | succ steps ih =>
    rw [Machine.run] at hrun
    cases hadvance : m.advance s.bytecode with
    | failed e l => rw [hadvance] at hrun; cases hrun
    | endless => rw [hadvance] at hrun; cases hrun
    | exit y l => rw [hadvance] at hrun; cases hrun; exact h.exit hadvance
    | next l => rw [hadvance] at hrun; exact ih (h.next hadvance) hrun

theorem Talks.proceed (h : s.Talks inputs budget d none m)
    (hstep : s.proceed steps m = some step) (hp : step.outcome = .ok p) :
    ∃ y n, s.Talks inputs budget d (some y) n ∧ s.progressAt y n = .ok p := by
  unfold Script.proceed at hstep
  split at hstep
  · cases hstep
  · next hrun => cases hstep; exact ⟨_, _, h.run hrun, hp⟩
  · cases hstep; cases hp

theorem progressAt_run {y : Exit} {run : Paused} (hp : s.progressAt y m = .ok p)
    (hrun : p.run? = some run) : run = s.pause m := by
  cases displays hp <;> cases hrun
  all_goals rfl

theorem after_ok {move : Move} (hstep : p.after steps move = some step)
    (hq : step.outcome = .ok q) : ∃ run n, p.run? = some run ∧ p.resumed? move = some n ∧
      run.script.proceed steps n = some step := by
  have gone : ∀ {run : Paused} {received}, run.goOn steps received = some step →
      ∃ n, received = .ok n ∧ run.script.proceed steps n = some step := by
    intro run received h
    cases received with
    | ok n => exact ⟨n, rfl, h⟩
    | error e => cases h; cases hq
  cases p with
  | complete v => cases hstep
  | functionCall name args named call run =>
    obtain ⟨n, hn, hproceed⟩ := gone hstep
    exact ⟨run, n, rfl, by rw [Progress.resumed?, hn]; rfl, hproceed⟩
  | osCall function args named call run =>
    obtain ⟨n, hn, hproceed⟩ := gone hstep
    exact ⟨run, n, rfl, by rw [Progress.resumed?, hn]; rfl, hproceed⟩
  | futures pending run =>
    simp only [Progress.after, Paused.resolve] at hstep
    split at hstep
    · cases hstep; cases hq
    · next received hreceived =>
      obtain ⟨n, rfl, hproceed⟩ := gone hstep
      exact ⟨run, n, rfl, by rw [Progress.resumed?, hreceived]; rfl, hproceed⟩

theorem Talks.after {y : Exit} {move : Move} (h : s.Talks inputs budget d (some y) m)
    (hp : s.progressAt y m = .ok p) (hstep : p.after steps move = some step)
    (hq : step.outcome = .ok q) :
    ∃ z n, s.Talks inputs budget ((p.sight, move) :: d) (some z) n ∧ s.progressAt z n = .ok q := by
  obtain ⟨run, n, hrun, hn, hproceed⟩ := after_ok hstep hq
  obtain rfl := progressAt_run hp hrun
  exact (h.move move hp hn).proceed hproceed hq

theorem Shows.talks (h : s.Shows inputs budget d p) :
    ∃ y m, s.Talks inputs budget d (some y) m ∧ s.progressAt y m = .ok p := by
  induction h with
  | start hstart hp =>
    unfold Script.start at hstart
    split at hstart
    · cases hstart; cases hp
    · next hglobals => exact (Talks.start _ _ hglobals).proceed hstart hp
  | move move _ hstep hq ih =>
    obtain ⟨y, m, h, hp⟩ := ih
    exact h.after hp hstep hq

/-- Whatever a host answers, calls have been numbered in order, futures are those that it has
promised, and are pending until it has given their results. -/
theorem calls_numbered (s : Script) (inputs : List Object) (budget : Budget) :
    (∀ d p, s.Shows inputs budget d p →
      ∃ y m, s.Talks inputs budget d (some y) m ∧ s.progressAt y m = .ok p) ∧
    ∀ d x m, s.Talks inputs budget d x m → s.Ledger inputs budget d x m :=
  ⟨fun _ _ h => h.talks, fun _ _ _ h => h.ledger⟩

/-- A program whose call is answered with a future waits for it. -/
theorem calls_numbered_await :
    let body : Code := ⟨"<module>", #[⟨.loadGlobal 0, .unknown⟩, ⟨.call 0 none, .unknown⟩,
      ⟨.await, .unknown⟩, ⟨.return, .unknown⟩], .empty, [], 0⟩
    let s : Script := ⟨"main.py", "", [], ["f"], ⟨#[body], ["f"]⟩⟩
    let d : Dialogue := [(.functionCall "f" [] [] 0, ⟨.later, [], false, .collector⟩)]
    ∃ run y m, s.Shows [] .free d (.futures [0] run) ∧ s.Talks [] .free d (some y) m ∧
      s.Ledger [] .free d (some y) m ∧ (Progress.futures [0] run).Numbered s.bytecode d := by
  intro body s d
  obtain ⟨called, blocked, first, second, hfirst, hcalled, hsecond, hblocked⟩ :
      ∃ called blocked first second, s.start [] .free false 9 = some first ∧
        first.outcome = .ok (.functionCall "f" [] [] 0 called) ∧
        (Progress.functionCall "f" [] [] 0 called).after 9 ⟨.later, [], false, .collector⟩ =
          some second ∧ second.outcome = .ok (.futures [0] blocked) :=
    ⟨_, _, _, _, rfl, rfl, rfl, rfl⟩
  have hshows : s.Shows [] .free d (.futures [0] blocked) :=
    .move ⟨.later, [], false, .collector⟩ (.start hfirst hcalled) hsecond hblocked
  obtain ⟨y, m, htalks, hprogress⟩ := (calls_numbered s [] .free).1 d _ hshows
  have hledger := (calls_numbered s [] .free).2 d _ m htalks
  exact ⟨blocked, y, m, hshows, htalks, hledger, hledger.shown rfl hprogress⟩

end Script

end Resumable
