import Resumable.Proofs.Discipline.Run
import Resumable.Proofs.Futures
import Resumable.Proofs.Unwinding
import Resumable.Proofs.Hosts

/-!
# Exceptions that are raised again

Main statement: `Script.Raises.traceback_exact`. An exception may be taken by a handler, in its own
frame or in one below, and be raised again at the end of that handler, any number of times. When it
leaves the run it is what it would be without handlers: it has one place for each frame that was
active when it was raised, and nothing else has changed.

Between the entry of a handler and its end a run may do anything, like calling functions, asking its
host, or raising and handling other exceptions. As long as it does not leave the handler, the calls
below and the exception that is being handled stay the same (`Script.Handling.inside`).
-/

namespace Resumable

/-! ## Exceptions of a run -/

/-- A run that has entered a handler goes on inside of it. -/
inductive Script.Handling (s : Script) (h : Machine) : Option Exit → Machine → Prop
  | enter : Handling s h none h
  | step {x m y n} : Handling s h x m → s.Continues x m y n → h.InHandler n → Handling s h y n

/-- The exception that a failure is, if it is one. -/
def Failure.asRaised : Failure → Option Raised
  | .raised e => some e
  | .overrun e => some e.toRaised
  | .endless | .stuck => none

/-- While the machine `m` executes an instruction at a place, or waits for the host call that this
has made, something is raised, but not raised again; `r` is the machine that looks for a handler.
A bare `raise` where no exception is being handled has nothing to raise again, so it is one of these
instructions. A limit that is noticed between two instructions has the place of the one before. -/
inductive Script.Raises (s : Script) (inputs : List Object) (budget : Budget) :
    Machine → CallSite → Failure → Machine → Prop
  | instruction {m i f r} : s.Visits inputs budget none m → m.fetch s.bytecode = some i →
      (i.op = .reraise → m.handled = []) → m.heap.budget.tick.2 = none →
      m.step s.bytecode = .error f r → Raises s inputs budget m ⟨m.frame.function, i.span⟩ f r
  | limit {m l f r} : s.Visits inputs budget none m → m.heap.budget.tick.2 = some l →
      m.step s.bytecode = .error f r → Raises s inputs budget m (m.frame.site s.bytecode) f r
  | answer {x m} (type message limit traced writer) : s.Visits inputs budget (some x) m →
      x.isCall = true →
      Raises s inputs budget m (m.frame.site s.bytecode) (.raised (.fresh type message limit))
        { (s.pause m).machine traced writer with pendingCall := none }
  | conversion {x m f r} (v traced writer) : s.Visits inputs budget (some x) m →
      x.isCall = true →
      Machine.onHeap (Heap.ofObject v) ((s.pause m).machine traced writer) = .error f r →
      (∀ l, f ≠ .overrun l) →
      Raises s inputs budget m (m.frame.site s.bytecode) (.raised (conversionException f))
        { r with pendingCall := none }
  | unattended {x m e} : s.Visits inputs budget (some x) m → s.unavailable x = some e →
      Raises s inputs budget m (m.frame.site s.bytecode) (.raised e) { m with pendingCall := none }

/-- What the machine `r` has failed with leaves the run as an exception. On its way it may be taken
by handlers in which nothing else happens to it: each goes on to an instruction that raises it
again, in the call of the handler, where this is the innermost one that is being executed. That is
so where no clause matches, behind a `finally` body, and at a bare `raise` in a clause. -/
inductive Script.Escapes (s : Script) : Machine → Failure → Raised → Prop
  | limit (r e) : Escapes s r (.overrun e) (r.limitException s.bytecode e)
  | leaves {r e e'} : r.unwind s.bytecode e = .error e' → Escapes s r (.raised e) e'
  | passes {r e h m i e₁ r₁ e'} : r.unwind s.bytecode e = .ok h → s.Handling h none m →
      m.callers.length = h.callers.length → m.handled.length = h.handled.length →
      m.fetch s.bytecode = some i → i.op = .reraise →
      m.step s.bytecode = .error (.raised e₁) r₁ → Escapes s r₁ (.raised e₁) e' →
      Escapes s r (.raised e) e'

/-! ## What steps do to handlers -/

namespace Machine

/-- What a step of a run does to handlers: it changes them once, or an exception is taken by one. -/
inductive Passage (code : Bytecode) (m n : Machine) : Prop
  | shifts : m.Shift n → (m.reraising = false → n.reraising = false) → Passage code m n
  | catches {r e} : m.Unmoved r → r.unwind code e = .ok n → Passage code m n

variable {code : Bytecode} {m n r h : Machine} {f : Failure} {e : Raised}

/-- What an instruction does to handlers and the exceptions that are being handled, where it does
not end the run. -/
def Shifts (m : Machine) : EStateM.Result Failure Machine (Option Exit) → Prop
  | .ok x n => n.reraising = m.reraising ∧ ((∀ v, x ≠ some (.returned v)) → m.Shift n)
  | .error _ n => m.Unmoved n

theorem Shifts.after {x : EStateM.Result Failure Machine (Option Exit)} (hm : m.Unmoved n)
    (hr : n.reraising = m.reraising) (h : n.Shifts x) : m.Shifts x := by
  cases x with
  | ok x k => exact ⟨h.1.trans hr, fun hx => (h.2 hx).after hm⟩
  | error e k => exact hm.trans h

theorem unmoved_due (m : Machine) : m.Unmoved m.due := by
  unfold due collected
  split <;> exact ⟨rfl, rfl, rfl, rfl⟩

theorem reraising_due (m : Machine) : m.due.reraising = m.reraising := by
  unfold due collected
  split <;> rfl

theorem fetch_due (m : Machine) (code : Bytecode) : m.due.fetch code = m.fetch code := by
  unfold due collected
  split <;> rfl

/-- A machine that has fetched an instruction stands behind it. -/
theorem site_fetched {i : Instr} (hi : m.fetch code = some i) :
    m.fetched.frame.site code = ⟨m.frame.function, i.span⟩ := by
  obtain ⟨c, hc, hi⟩ := Option.bind_eq_some_iff.mp hi
  simp only [Frame.site, fetched, hc, Option.elim_some, Nat.add_sub_cancel, Code.spanAt, hi]

theorem unmoved_fetched (m : Machine) : m.Unmoved m.fetched := ⟨rfl, rfl, rfl, rfl⟩

theorem executeNext_shifts (code : Bytecode) (m : Machine) : m.Shifts (executeNext code m) := by
  cases hi : m.fetch code with
  | none => rw [executeNext_of_none hi]; exact Unmoved.refl m
  | some i =>
    by_cases hop : i.op = .reraise
    · obtain ⟨n, hn, heq⟩ := executeNext_reraise hi hop
      rw [heq]
      cases m.handled with
      | nil => exact m.unmoved_fetched.trans hn.toUnmoved
      | cons e rest => exact { m.unmoved_fetched.trans hn.toUnmoved with }
    · have hends := executeNext_ends hi hop
      generalize executeNext code m = r at hends ⊢
      cases r with
      | ok x n => exact ⟨hends.reraising, fun hx => (hends.shift hx).after m.unmoved_fetched⟩
      | error e n => exact m.unmoved_fetched.trans hends.toUnmoved

theorem step_shifts (code : Bytecode) (m : Machine) : m.Shifts (step code m) := by
  rw [step_eq]
  cases htick : m.heap.budget.tick.2 with
  | some e => exact Unmoved.mk rfl rfl rfl rfl
  | none => exact (executeNext_shifts code m.due).after m.unmoved_due m.reraising_due

theorem advance_passage (code : Bytecode) (m : Machine) :
    match advance code m with
    | .next n => m.Passage code n
    | .exit x n => n.reraising = m.reraising ∧ ((∀ v, x ≠ .returned v) → m.Passage code n)
    | _ => True := by
  have hstep := step_shifts code m
  rw [advance_eq]
  generalize step code m = r at hstep
  unfold Advance.ofResult
  match r with
  | .ok none n => exact .shifts (hstep.2 nofun) fun hm => hstep.1.trans hm
  | .ok (some x) n =>
    refine ⟨hstep.1, fun hx => .shifts (hstep.2 fun v hv => ?_) fun hm => hstep.1.trans hm⟩
    exact hx v (Option.some.inj hv)
  | .error (.overrun e) n => trivial
  | .error .endless n => trivial
  | .error .stuck n => trivial
  | .error (.raised e) n =>
    simp only
    cases hcaught : n.unwind code e with
    | ok n' => exact .catches hstep hcaught
    | error e' => trivial

theorem Passage.after (hm : m.Unmoved r) (hr : r.reraising = false) (h : r.Passage code n) :
    m.Passage code n := by
  cases h with
  | shifts hs hn => exact .shifts (hs.after hm) fun _ => hn hr
  | catches hr hn => exact .catches (hm.trans hr) hn

theorem Passage.of_answerException (hm : m.Unmoved r) (h : r.answerException code e = .ok n) :
    m.Passage code n :=
  .catches (r := { r with pendingCall := none }) { hm with } h

theorem passage_of_receive {p : Paused} {a : Answer} (h : p.receive a m = .ok n) :
    m.Passage p.script.bytecode n := by
  have raise : ∀ {l : Machine} {e : Raised}, m.Unmoved l →
      (l.answerException p.script.bytecode e).mapError (·, l) = .ok n →
      m.Passage p.script.bytecode n := by
    intro l e hl h
    cases hraise : l.answerException p.script.bytecode e with
    | error e' => rw [hraise] at h; cases h
    | ok k =>
      rw [hraise] at h
      cases h
      exact .of_answerException hl hraise
  cases a with
  | later =>
    simp only [Paused.receive, answerLater] at h
    split at h <;> cases h
    exact .shifts (.stays ⟨rfl, rfl, rfl, rfl⟩) id
  | exception type message limit => exact raise (.refl m) h
  | value o =>
    obtain ⟨heap, hend⟩ := onHeap_end (Heap.ofObject o) m
    unfold Paused.receive at h
    simp only at h
    generalize onHeap (Heap.ofObject o) m = r at hend h
    have hl : m.Unmoved (endState r) := hend ▸ ⟨rfl, rfl, rfl, rfl⟩
    cases r with
    | ok v l =>
      obtain rfl : l = { m with heap } := hend
      cases h
      exact .shifts (.stays ⟨rfl, rfl, rfl, rfl⟩) id
    | error f l =>
      cases f with
      | overrun _ => cases h
      | raised e => exact raise hl h
      | endless => exact raise hl h
      | stuck => exact raise hl h

end Machine

variable {s : Script} {inputs : List Object} {budget : Budget} {x y : Option Exit}
  {m n r h : Machine} {f : Failure} {e e' : Raised} {site : CallSite}

theorem Script.unmoved_machine (s : Script) (m : Machine) (traced : Bool) (writer : Writer) :
    m.Unmoved ((s.pause m).machine traced writer) := ⟨rfl, rfl, rfl, rfl⟩

theorem Script.Continues.passage (h : s.Continues x m y n) : m.Passage s.bytecode n := by
  cases h with
  | next h =>
    have hpassage := Machine.advance_passage s.bytecode m
    rw [h] at hpassage
    exact hpassage
  | exit h hx =>
    have hpassage := Machine.advance_passage s.bytecode m
    rw [h] at hpassage
    exact hpassage.2 hx
  | answer a traced writer hx h =>
    exact (Machine.passage_of_receive h).after (s.unmoved_machine m traced writer) rfl
  | resolve results traced writer h =>
    obtain ⟨heap, taken, rfl, -⟩ := Machine.receiveAll_ok h
    exact .shifts (.stays ⟨rfl, rfl, rfl, rfl⟩) fun _ => rfl
  | reload codec clock traced writer _ hp =>
    obtain rfl := Paused.eq_of_reload hp
    exact .shifts (.stays ⟨rfl, rfl, rfl, rfl⟩) fun _ => rfl
  | unattended hx h => exact .of_answerException (.refl m) h

theorem Machine.Passage.not_reraising {code : Bytecode} (h : m.Passage code n)
    (hm : m.reraising = false) : n.reraising = false := by
  cases h with
  | shifts _ hn => exact hn hm
  | catches _ hn => exact (Machine.taken_of_unwind hn).reraising

/-- Between two instructions no exception is on its way. -/
theorem Script.Visits.not_reraising (h : s.Visits inputs budget x m) : m.reraising = false := by
  induction h with
  | start => rfl
  | next _ h ih => exact (Continues.next h).passage.not_reraising ih
  | @exit x m n _ h ih =>
    have hpassage := Machine.advance_passage s.bytecode m
    rw [h] at hpassage
    exact hpassage.1.trans ih
  | answer a traced writer _ hx h ih =>
    exact (Continues.answer a traced writer hx h).passage.not_reraising ih
  | resolve results traced writer _ h ih =>
    exact (Continues.resolve results traced writer h).passage.not_reraising ih
  | reload codec clock traced writer _ hx hp ih =>
    exact (Continues.reload codec clock traced writer hx hp).passage.not_reraising ih
  | unattended _ hx h ih => exact (Continues.unattended hx h).passage.not_reraising ih

theorem Script.Handling.inside (hm : s.Handling h x m) : h.Inside m := by
  induction hm with
  | enter => exact .refl h
  | step _ hstep hn ih =>
    cases hstep.passage with
    | shifts hs _ => exact ih.shift hs hn
    | catches hr hu => exact (ih.unmoved hr).unwind hu hn

theorem Script.Handling.visits (hm : s.Handling h x m) (hh : s.Visits inputs budget none h) :
    s.Visits inputs budget x m := by
  induction hm with
  | enter => exact hh
  | step _ hstep _ ih => exact ih.continues hstep

/-- In labelled code, whether a handler is the innermost one that is being executed can be read off
the instruction: exceptions that have been raised and handled inside of it leave nothing behind. -/
theorem Script.Handling.innermost_iff {labels : Nat → Shapes} (hcode : s.bytecode.Labelled labels)
    (hmain : 0 < s.bytecode.functions.size) (hh : s.Visits inputs budget none h)
    (hm : s.Handling h none m) (hcallers : m.callers.length = h.callers.length) :
    ∃ σ τ, labels h.frame.function h.frame.next = some σ ∧
      labels m.frame.function m.frame.next = some τ ∧
      (m.handled.length = h.handled.length ↔ τ.handled = σ.handled) := by
  obtain ⟨σ, hσ⟩ := (hh.fitsAt hcode hmain).frame
  obtain ⟨τ, hτ⟩ := ((hm.visits hh).fitsAt hcode hmain).frame
  refine ⟨σ, τ, hσ.label, hτ.label, ?_⟩
  have hbase := hm.inside.frames.handledBase hcallers
  have := hσ.handled
  have := hτ.handled
  omega

/-- Where an instruction raises something, but nothing again, all frames are as they were. -/
theorem Machine.still_of_raised {code : Bytecode} {i : Instr} (hi : m.fetch code = some i)
    (hnone : i.op = .reraise → m.handled = []) (h : executeNext code m = .error f r) :
    m.fetched.Still r := by
  by_cases hop : i.op = .reraise
  · obtain ⟨n, hn, heq⟩ := executeNext_reraise hi hop
    rw [heq, hnone hop] at h
    cases h
    exact hn
  · have hends := executeNext_ends hi hop
    rw [h] at hends
    exact hends

/-- What the end of a handler raises again is the exception that is being handled. -/
theorem Machine.raised_of_reraise {code : Bytecode} {i : Instr} {rest : List Raised}
    (hi : m.fetch code = some i) (hop : i.op = .reraise) (hhandled : m.handled = e :: rest)
    (h : m.step code = .error (.raised e') r) :
    e' = e ∧ r.reraising = true ∧ r.callers = m.callers := by
  rw [step_eq] at h
  cases htick : m.heap.budget.tick.2 with
  | some l =>
    simp only [htick, ofLimit_of_not_catchable (not_isCatchable_tick htick)] at h
    cases h
  | none =>
    rw [htick] at h
    change executeNext code m.due = _ at h
    have hdue := m.unmoved_due
    obtain ⟨n, hn, heq⟩ := executeNext_reraise ((m.fetch_due code).trans hi) hop
    rw [heq, hdue.handled, hhandled] at h
    cases h
    exact ⟨rfl, rfl, hn.callers.trans hdue.callers⟩

/-! ## Exceptions that leave the run -/

/-- An exception that has been raised again leaves the run with the places that it would have got
without handlers. -/
theorem Script.Escapes.through (h : s.Escapes r (.raised e) e') :
    e' = e.through s.bytecode r.unrecorded := by
  generalize hf : Failure.raised e = f at h
  induction h generalizing e with
  | limit => cases hf
  | leaves hu => cases hf; exact Machine.through_of_unwind hu
  | passes hu hhandling hcallers hhandled hi hop hstep _ ih =>
    cases hf
    have htaken := Machine.taken_of_unwind hu
    obtain ⟨e₂, rest, hh, hthrough⟩ := htaken.handled
    obtain ⟨hsame, hkept⟩ := hhandling.inside.entered hcallers hhandled
    obtain ⟨rfl, hreraising, hbelow⟩ :=
      Machine.raised_of_reraise hi hop (hkept.trans hh) hstep
    rw [ih rfl, Machine.unrecorded, if_pos hreraising, hbelow, hsame, hthrough]

/-- An exception is new where it is raised, and will get a place in each active frame, the first one
at the instruction that raises it. -/
theorem Script.Raises.raised_new (h : s.Raises inputs budget m site f r) :
    r.reraising = false ∧
      r.frames.map (·.site s.bytecode) = site :: m.callers.map (·.site s.bytecode) ∧
      ∀ e, f = .raised e → e.traceback = [] := by
  cases h with
  | @instruction _ i _ _ hm hi hnone htick hstep =>
    have hnext : Machine.executeNext s.bytecode m.due = .error f r := by
      rw [Machine.step_eq, htick] at hstep
      exact hstep
    have hstill := Machine.still_of_raised ((m.fetch_due s.bytecode).trans hi)
      (fun hop => m.unmoved_due.handled.trans (hnone hop)) hnext
    have hreraising : r.reraising = false :=
      hstill.reraising.trans (m.reraising_due.trans hm.not_reraising)
    refine ⟨hreraising, ?_, fun e he => ?_⟩
    · rw [Machine.sites_of_stays hstill.toStays, m.due_fetched_frames, ← Machine.site_fetched hi]
      rfl
    · exact (Machine.executeNext_obedient s.bytecode).traceback_eq_nil (he ▸ hnext) hreraising
  | limit hm htick hstep =>
    rw [Machine.step_eq] at hstep
    have hl := Machine.ofLimit_of_not_catchable (Machine.not_isCatchable_tick htick)
    simp only [htick, hl] at hstep
    cases hstep
    exact ⟨hm.not_reraising, rfl, nofun⟩
  | answer type message traced writer hm hx =>
    exact ⟨rfl, rfl, fun e he => by cases he; rfl⟩
  | @conversion _ _ f k v traced writer hm hx hheap hf =>
    obtain ⟨heap, hend⟩ :=
      Machine.onHeap_end (Heap.ofObject v) ((s.pause m).machine traced writer)
    rw [hheap] at hend
    obtain rfl : k = { (s.pause m).machine traced writer with heap } := hend
    refine ⟨rfl, rfl, fun e he => ?_⟩
    cases he
    cases f with
    | raised e =>
      exact (Machine.onHeap_obedient (Heap.ofObject_plain v).obedient).traceback_eq_nil hheap rfl
    | overrun l => exact (hf l rfl).elim
    | endless => rfl
    | stuck => rfl
  | @unattended x _ _ hm hx =>
    refine ⟨hm.not_reraising, rfl, fun e he => ?_⟩
    cases he
    cases x <;> cases hx <;> rfl

/-- Main statement: what leaves the run has the type, the message and the limit of what was raised,
and one place for each active frame. So it would without handlers. -/
theorem Script.Raises.traceback_exact (hraise : s.Raises inputs budget m site f r)
    (hescape : s.Escapes r f e') :
    ∃ e, f.asRaised = some e ∧ (s.exception e').type = e.type ∧
      (s.exception e').message = e.message ∧ (s.exception e').limit = e.limit ∧
      (s.exception e').traceback =
        ((site :: m.callers.map (·.site s.bytecode)).map s.traceFrame).reverse ∧
      (s.exception e').traceback.length = m.depth ∧
      (f = .raised e → r.unguarded.unwind s.bytecode e = .error e') := by
  obtain ⟨hreraising, hsites, hnew⟩ := hraise.raised_new
  have htraceback : ∀ e : Raised, e.traceback = [] →
      (s.exception (e.through s.bytecode r.frames)).traceback =
        ((site :: m.callers.map (·.site s.bytecode)).map s.traceFrame).reverse := fun e he => by
    simp only [Script.exception, Raised.through, he, hsites, List.append_nil, List.map_reverse]
  have hlength : (((site :: m.callers.map (·.site s.bytecode)).map s.traceFrame).reverse).length =
      m.depth := by
    rw [List.length_reverse, List.length_map, List.length_cons, List.length_map, Machine.depth]
  cases f with
  | raised e =>
    have he' : e' = e.through s.bytecode r.frames := by
      rw [hescape.through, Machine.unrecorded, hreraising, if_neg Bool.false_ne_true]
    have hplaces := he' ▸ htraceback e (hnew e rfl)
    refine ⟨e, rfl, ?_, ?_, ?_, hplaces, hplaces ▸ hlength, fun _ => ?_⟩
    · rw [he']; rfl
    · rw [he']; rfl
    · rw [he']; rfl
    · rw [Machine.unwind_unguarded, hescape.through]
  | overrun l =>
    cases hescape with
    | limit =>
      have he' : r.limitException s.bytecode l = l.toRaised.through s.bytecode r.frames := by
        rw [Machine.limitException, Raised.through, LimitError.toRaised, List.append_nil]
      have hplaces := he' ▸ htraceback l.toRaised rfl
      refine ⟨l.toRaised, rfl, rfl, rfl, rfl, hplaces, hplaces ▸ hlength, fun h => ?_⟩
      cases h
  | endless => cases hescape
  | stuck => cases hescape

/-- A function that raises an exception in front of a clause that does not match, and a call of it
in front of a `finally` body. -/
def Script.passing : Script :=
  let at_ (line : Nat) (op : Op) : Instr := ⟨op, ⟨⟨line, 1⟩, ⟨line, 9⟩⟩⟩
  ⟨"main.py", "", [], [],
    ⟨#[{ name := "<module>"
         instrs := #[at_ 6 (.setupExcept 3), at_ 7 (.makeFunction 1 0), at_ 7 (.call 0 none),
           at_ 7 .pop, at_ 7 .reraise]
         pool := .empty
         locals := []
         paramCount := 0 },
       { name := "f"
         instrs := #[at_ 2 (.setupExcept 3), at_ 3 (.loadExcClass .valueError), at_ 3 .raise,
           at_ 4 .dup, at_ 4 (.loadExcClass .keyError), at_ 4 .checkExcMatch,
           at_ 4 (.jumpIfFalse 7), at_ 4 .reraise]
         pool := .empty
         locals := []
         paramCount := 0 }], []⟩⟩

/-- A machine of its run. -/
def Script.passingAt (frame : Frame) (callers : List Frame) (stack : List Value)
    (handled : List Raised) : Machine :=
  { begin (.ofBudget .free) #[] false .collector with frame, callers, stack, handled }

/-- The exception has two places, though each frame has raised it again. -/
theorem Script.Raises.traceback_exact_passing :
    let inner : CallSite := ⟨1, ⟨⟨3, 1⟩, ⟨3, 9⟩⟩⟩
    let outer : CallSite := ⟨0, ⟨⟨7, 1⟩, ⟨7, 9⟩⟩⟩
    let f : Failure := .raised (.fresh .valueError none)
    ∃ m r e', Script.passing.Raises [] .free m inner f r ∧ Script.passing.Escapes r f e' ∧
      (Script.passing.exception e').type = .valueError ∧
      (Script.passing.exception e').traceback = [outer, inner].map Script.passing.traceFrame := by
  intro inner outer f
  let main (next : Nat) (blocks : List Block) : Frame := ⟨0, next, #[], 0, blocks, 0⟩
  let called (next : Nat) (blocks : List Block) : Frame := ⟨1, next, #[], 0, blocks, 0⟩
  let b : Block := ⟨3, 0, 0⟩
  let e (sites : List CallSite) : Raised := ⟨.valueError, none, sites, none⟩
  have within {h n : Machine} (hc : n.callers = h.callers) (hb : n.frame.blocks = h.frame.blocks)
      (hh : n.handled = h.handled) : h.InHandler n :=
    ⟨hc ▸ le_rfl, hh ▸ le_rfl, fun _ => hb ▸ le_rfl⟩
  have h₀ : passing.Visits [] .free none (passingAt (main 0 []) [] [] []) :=
    .start false .collector rfl
  have h₁ := h₀.next (n := passingAt (main 1 [b]) [] [] []) rfl
  have h₂ := h₁.next (n := passingAt (main 2 [b]) [] [.function 1 []] []) rfl
  have h₃ := h₂.next (n := passingAt (called 0 []) [main 3 [b]] [] []) rfl
  have h₄ := h₃.next (n := passingAt (called 1 [b]) [main 3 [b]] [] []) rfl
  have h₅ := h₄.next (n := passingAt (called 2 [b]) [main 3 [b]] [.excClass .valueError] []) rfl
  have hraise : passing.Raises [] .free _ inner f (passingAt (called 3 [b]) [main 3 [b]] [] []) :=
    .instruction h₅ rfl nofun rfl rfl
  -- no clause of the function matches
  let k (next : Nat) (stack : List Value) : Machine :=
    passingAt (called next []) [main 3 [b]] stack [e [inner]]
  let v : Value := .exception (e [inner])
  have k₀ : passing.Handling (k 3 [v]) none (k 3 [v]) := .enter
  have k₁ := k₀.step (n := k 4 [v, v]) (.next rfl) (within rfl rfl rfl)
  have k₂ := k₁.step (n := k 5 [.excClass .keyError, v, v]) (.next rfl) (within rfl rfl rfl)
  have k₃ := k₂.step (n := k 6 [.bool false, v]) (.next rfl) (within rfl rfl rfl)
  have k₄ := k₃.step (n := k 7 [v]) (.next rfl) (within rfl rfl rfl)
  -- the module has nothing to do
  let l (next : Nat) (stack : List Value) : Machine :=
    passingAt (main next []) [] stack [e [outer, inner]]
  have l₀ : passing.Handling (l 3 [.exception (e [outer, inner])]) none _ := .enter
  have l₁ := l₀.step (n := l 4 []) (.next rfl) (within rfl rfl rfl)
  have hescape : passing.Escapes (passingAt (called 3 [b]) [main 3 [b]] [] []) f
      (e [outer, inner]) :=
    .passes rfl k₄ rfl rfl rfl rfl rfl (.passes rfl l₁ rfl rfl rfl rfl rfl (.leaves rfl))
  obtain ⟨e₀, he₀, htype, -, -, htraceback, -⟩ := hraise.traceback_exact hescape
  cases he₀
  exact ⟨_, _, _, hraise, hescape, htype, htraceback⟩

end Resumable
