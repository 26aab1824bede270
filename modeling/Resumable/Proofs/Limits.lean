import Resumable.Proofs.Collection
import Resumable.Proofs.Lockstep.Run
import Resumable.Proofs.Turn

/-!
# Limits cannot be caught

Before an instruction the budget counts it. During the instruction the budget is asked certain
questions, the first refusal of which is what the instruction fails with. Main statement:
`limit_final`. Any of these refusals ends the run at once, with the limit itself and with a
traceback of all active frames, except that of a call that would be too deep: that is raised like
any other exception.
-/

namespace Resumable

/-- The exception that a run ends with at a limit, with a place in each of some frames. -/
def LimitError.final (e : LimitError) (code : Bytecode) (frames : List Frame) : Raised :=
  ⟨e.exceptionType, some e.message, (frames.map (·.site code)).reverse, some e⟩

/-- The exception that a refused call raises. -/
def LimitError.toRaised (e : LimitError) : Raised := ⟨e.exceptionType, some e.message, [], some e⟩

namespace Machine

variable {code : Bytecode} {m n : Machine}

/-- The machine whose next instruction has been counted, after the collection that may be due. -/
def due (m : Machine) : Machine := m.ticked.collected

/-- These are the questions that the next instruction asks its budget: under every budget it does
the same, but fails with the first refusal. -/
def Consults (code : Bytecode) (m : Machine) (qs : List Query) : Prop :=
  ∃ r, Course m (executeNext code) qs r

theorem exists_consults (code : Bytecode) (m : Machine) : ∃ qs, m.Consults code qs := by
  obtain ⟨qs, r, h⟩ := executeNext_obedient code m
  exact ⟨qs, r, h.toCourse⟩

/-- A limit is hit only where a question is refused. -/
theorem Consults.refused {qs : List Query} {e : LimitError} (h : m.Consults code qs)
    (he : executeNext code m = .error (.overrun e) n) :
    ∃ b, m.heap.budget.askAll qs = .error (e, b) := by
  obtain ⟨r, h⟩ := h
  have hm : executeNext code (Funded.under m m.heap.budget) = .error (.overrun e) n := he
  cases hb : m.heap.budget.askAll qs with
  | ok b =>
    rw [h.granted hb] at hm
    cases r with
    | ok a t => cases hm
    | error e' t => cases hm; exact absurd rfl (h.content e t)
  | error refusal =>
    obtain ⟨e', b⟩ := refusal
    obtain ⟨t, ht⟩ := h.refused hb
    rw [ht] at hm
    unfold Failure.ofLimit at hm
    split at hm
    · cases hm
    · cases hm; exact ⟨b, rfl⟩

theorem due_frames (m : Machine) : m.due.frames = m.frames := by
  unfold due collected
  split <;> rfl

theorem due_fetched_frames (m : Machine) : m.due.fetched.frames = m.fetched.frames := by
  have h := m.due_frames
  simp only [frames, List.cons.injEq] at h
  simp only [frames, fetched, h]

theorem sites_of_stays (h : m.Stays m.frame.next n) :
    n.frames.map (·.site code) = m.frames.map (·.site code) := by
  rw [frames, frames, List.map_cons, List.map_cons, Frame.site, Frame.site, h.function, h.next,
    h.callers]

/-- A machine whose instruction hits a limit is still in the frames that were active. -/
theorem sites_of_overrun {e : LimitError} (h : executeNext code m = .error (.overrun e) n) :
    n.frames.map (·.site code) = m.fetched.frames.map (·.site code) := by
  cases hi : m.fetch code with
  | none => rw [executeNext_of_none hi] at h; cases h
  | some i =>
    have hturn := executeNext_turns hi
    rw [h] at hturn
    exact sites_of_stays hturn

theorem frames_length_of_error {e : Failure} (h : executeNext code m = .error e n) :
    n.frames.length = m.frames.length := by
  cases hi : m.fetch code with
  | none => rw [executeNext_of_none hi] at h; cases h; rfl
  | some i =>
    have hturn := executeNext_turns hi
    rw [h] at hturn
    exact congrArg (·.length + 1) hturn.callers

theorem not_isCatchable_tick {b : Budget} {e : LimitError} (h : b.tick.2 = some e) :
    e.isCatchable = false := by
  have time : ∀ b, (Budget.tick.checkTime b).2 = some e → e.isCatchable = false := by
    intro b h
    unfold Budget.tick.checkTime at h
    split at h
    · simp only at h
      split at h
      · cases h; rfl
      · cases h
    · cases h
  unfold Budget.tick at h
  split at h
  · cases h
  · simp only at h
    split at h
    · split at h
      · cases h; rfl
      · exact time _ h
    · exact time _ h

theorem ofLimit_of_catchable {e : LimitError} (h : e.isCatchable = true) :
    Failure.ofLimit e = .raised e.toRaised := if_pos h

theorem ofLimit_of_not_catchable {e : LimitError} (h : e.isCatchable = false) :
    Failure.ofLimit e = .overrun e := if_neg (by rw [h]; exact Bool.false_ne_true)

/-- The run ends at once with the exception of a limit, which has a place in each of the frames; no
handler is entered. -/
structure EndsAt (code : Bytecode) (m : Machine) (e : LimitError) (frames : List Frame) : Prop where
  failed : ∃ n, advance code m = .failed (e.final code frames) n ∧
    ∀ steps, run code (steps + 1) m = some (.failed (e.final code frames), n)
  traceback : (e.final code frames).traceback.length = m.depth

/-- The exception is caught by the innermost handler, or leaves all frames. -/
def Raises (code : Bytecode) (m : Machine) (e : Raised) : Prop :=
  ∃ n : Machine, n.depth = m.depth ∧ advance code m = .ofResult code (.error (.raised e) n)

theorem endsAt_of_step {e : LimitError} {fs : List Frame} (he : e.isCatchable = false)
    (h : step code m = .error (.ofLimit e) n) (hlength : fs.length = m.depth)
    (hsites : n.frames.map (·.site code) = fs.map (·.site code)) : m.EndsAt code e fs := by
  have hadvance : advance code m = .failed (e.final code fs) n := by
    rw [advance_eq, h, ofLimit_of_not_catchable he, LimitError.final, ← hsites]
    rfl
  refine ⟨⟨n, hadvance, fun steps => by rw [run, hadvance]⟩, ?_⟩
  rw [LimitError.final, List.length_reverse, List.length_map, hlength]

theorem limit_final (code : Bytecode) (m : Machine) :
    (∀ e, m.heap.budget.tick.2 = some e → m.EndsAt code e m.frames) ∧
    (m.heap.budget.tick.2 = none →
      (∃ qs, m.due.Consults code qs) ∧
      ∀ qs, m.due.Consults code qs → ∀ e b, m.due.heap.budget.askAll qs = .error (e, b) →
        if e.isCatchable then m.Raises code e.toRaised else m.EndsAt code e m.fetched.frames) := by
  refine ⟨fun e he => ?_, fun htick => ⟨m.due.exists_consults code, ?_⟩⟩
  · have hstep : step code m = .error (.ofLimit e) m.ticked := by rw [step_eq, he]
    exact endsAt_of_step (not_isCatchable_tick he) hstep rfl rfl
  · rintro qs ⟨r, hconsults⟩ e b hb
    obtain ⟨t, ht⟩ := hconsults.refused hb
    have hnext : executeNext code m.due = .error (.ofLimit e) (Funded.under t b) := ht
    have hstep : step code m = .error (.ofLimit e) (Funded.under t b) := by
      rw [step_eq, htick]
      exact hnext
    cases he : e.isCatchable with
    | true =>
      rw [if_pos rfl]
      refine ⟨Funded.under t b, ?_, by rw [advance_eq, hstep, ofLimit_of_catchable he]⟩
      have hlength := frames_length_of_error hnext
      rwa [m.due_frames] at hlength
    | false =>
      rw [if_neg Bool.false_ne_true]
      refine endsAt_of_step he hstep rfl ?_
      rw [ofLimit_of_not_catchable he] at hnext
      rw [sites_of_overrun hnext, m.due_fetched_frames]

/-- The display of an empty list, with a handler for all exceptions behind it. -/
def guardedDisplay : Bytecode where
  functions := #[
    { name := "<module>"
      instrs := #[⟨.setupExcept 3, .unknown⟩, ⟨.buildList 0, .unknown⟩, ⟨.return, .unknown⟩,
        ⟨.return, .unknown⟩]
      pool := .empty
      locals := []
      paramCount := 0 }]
  globals := []

/-- The machine that is about to make the list, where nothing may be allocated. -/
def beforeDisplay : Machine :=
  let m := restore .start (.ofBudget (.ofLimits { Limits.none with maxAllocations := some 0 })) #[]
    .collector false
  { m with frame := { m.frame with next := 1, blocks := [⟨3, 0, 0⟩] } }

/-- The handler does not see that the list is refused. -/
theorem limit_final_display : beforeDisplay.heap.budget.tick.2 = none ∧
    ∃ qs b, beforeDisplay.due.Consults guardedDisplay qs ∧
      beforeDisplay.due.heap.budget.askAll qs = .error (.allocation 0 1, b) ∧
      beforeDisplay.EndsAt guardedDisplay (.allocation 0 1) beforeDisplay.fetched.frames := by
  obtain ⟨qs, hqs⟩ := exists_consults guardedDisplay beforeDisplay.due
  have hnext : executeNext guardedDisplay beforeDisplay.due =
      .error (.overrun (.allocation 0 1)) beforeDisplay.due.fetched := rfl
  obtain ⟨b, hb⟩ := hqs.refused hnext
  exact ⟨rfl, qs, b, hqs, hb, ((limit_final guardedDisplay beforeDisplay).2 rfl).2 qs hqs _ b hb⟩

end Machine

end Resumable
