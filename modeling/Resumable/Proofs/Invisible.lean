import Mathlib
import Resumable.Proofs.Hosts
import Resumable.Proofs.Lockstep.Run

/-!
# Collections are invisible

Two runs of a script that differ in when they collect are paired at every instruction, since what a
collection frees is out of reach. So a host sees the same of both (`Script.play_gcInterval`), as
long as no limit on the memory in use lets it see what has been freed.
-/

namespace Resumable

open List (Forall₂)

/-- Budgets that differ in nothing but the memory in use, the interval between collections and the
clock. They do not limit the memory in use, and no time either if they have two clocks. -/
structure Budget.Even (b c : Budget) : Prop where
  maxMemory : b.limits.maxMemory = none ∧ c.limits.maxMemory = none
  maxOperations : b.limits.maxOperations = c.limits.maxOperations
  maxAllocations : b.limits.maxAllocations = c.limits.maxAllocations
  maxDuration : b.limits.maxDuration = c.limits.maxDuration
  maxRecursionDepth : b.limits.maxRecursionDepth = c.limits.maxRecursionDepth
  allocations : b.allocations = c.allocations
  operations : b.operations = c.operations
  timed : b.limits.maxDuration = none ∨ b.clock = c.clock ∧ b.readings = c.readings
  unlimited : b.unlimited = c.unlimited

namespace Budget.Even

variable {b c : Budget}

theorem withMemory (h : b.Even c) (used used' : Nat) :
    { b with memory := used }.Even { c with memory := used' } := { h with }

theorem memoryAfter (h : b.Even c) (bytes : Nat) :
    ∃ used used', b.memoryAfter bytes = .ok used ∧ c.memoryAfter bytes = .ok used' := by
  simp only [Budget.memoryAfter, h.maxMemory.1, h.maxMemory.2]
  exact ⟨_, _, rfl, rfl⟩

theorem allocate (h : b.Even c) (bytes : Nat) :
    SameEnd Eq Even (b.allocate bytes) (c.allocate bytes) := by
  have hcharge : ∀ count, SameEnd Eq Even (Budget.allocate.charge b bytes count)
      (Budget.allocate.charge c bytes count) := by
    intro count
    obtain ⟨used, used', hb, hc⟩ := h.memoryAfter bytes
    rw [Budget.allocate.charge, Budget.allocate.charge, hb, hc]
    exact .ok { h with allocations := rfl }
  unfold Budget.allocate
  simp only [h.unlimited, h.allocations, h.maxAllocations]
  split
  · exact .ok h
  · split
    · split
      · exact .error rfl
      · exact hcharge _
    · exact hcharge _

theorem checkTime (h : b.Even c) :
    (Budget.tick.checkTime b).1.Even (Budget.tick.checkTime c).1 ∧
      (Budget.tick.checkTime b).2 = (Budget.tick.checkTime c).2 := by
  rw [Budget.tick.checkTime, Budget.tick.checkTime, ← h.maxDuration]
  cases hd : b.limits.maxDuration with
  | none => exact ⟨h, rfl⟩
  | some limit =>
    obtain ⟨hclock, hreadings⟩ := h.timed.resolve_left (by rw [hd]; nofun)
    simp only [hclock, hreadings]
    exact ⟨{ h with timed := .inr ⟨rfl, rfl⟩ }, trivial⟩

theorem tick (h : b.Even c) : b.tick.1.Even c.tick.1 ∧ b.tick.2 = c.tick.2 := by
  have hcounted : Even { b with operations := b.operations + 1 }
      { c with operations := c.operations + 1 } :=
    { h with operations := by rw [h.operations] }
  unfold Budget.tick
  by_cases hu : b.unlimited = true
  · rw [if_pos hu, if_pos (h.unlimited ▸ hu)]
    exact ⟨h, rfl⟩
  rw [if_neg hu, if_neg (h.unlimited ▸ hu)]
  simp only [h.maxOperations]
  cases c.limits.maxOperations with
  | none => exact h.checkTime
  | some limit =>
    dsimp only
    by_cases hl : c.operations + 1 > limit
    · rw [if_pos (by rw [h.operations]; exact hl), if_pos hl]
      exact ⟨hcounted, by rw [h.operations]⟩
    · rw [if_neg (by rw [h.operations]; exact hl), if_neg hl]
      exact hcounted.checkTime

theorem checkDepth_eq (h : b.Even c) (depth : Nat) : b.checkDepth depth = c.checkDepth depth := by
  rw [Budget.checkDepth, Budget.checkDepth, h.maxRecursionDepth]

theorem checkResult_eq (h : b.Even c) (bytes : Nat) :
    b.checkResult bytes = c.checkResult bytes := by
  obtain ⟨used, used', hb, hc⟩ := h.memoryAfter bytes
  rw [Budget.checkResult, Budget.checkResult, hb, hc, h.unlimited]
  rfl

end Budget.Even

/-- Budgets that are even. -/
def Accounts.even : Accounts where
  budget := Budget.Even
  allocate h := h.allocate
  tick h := h.tick
  checkDepth h := h.checkDepth_eq
  checkResult h := h.checkResult_eq

/-- The world of two runs that collect at different times. -/
abbrev World.collecting : World := .plain .even fun _ => True

namespace Machine

variable {p : Pairing} {m n : Machine}

theorem Paired.evenCollections (h : m.Paired .collecting p n) :
    EvenCollections .collecting m n := by
  obtain ⟨_, _, hm, -, used, hb⟩ := collected_trims m.ticked
  obtain ⟨_, _, hn, -, used', hc⟩ := collected_trims n.ticked
  rw [EvenCollections, hm, hn, hb, hc]
  exact Budget.Even.withMemory h.ticked.1.heap.budget used used'

/-- The same stop, of machines that are paired. -/
inductive StopAlike : Stop × Machine → Stop × Machine → Prop
  | exit {p x y} {m n : Machine} : ExitAlike .collecting p x y → m.Paired .collecting p n →
      StopAlike (.exit x, m) (.exit y, n)
  | failed (e) {m n : Machine} : m.Ended .collecting n → StopAlike (.failed e, m) (.failed e, n)

theorem Paired.run (h : m.Paired .collecting p n) (code : Bytecode) (steps : Nat) :
    Option.Rel StopAlike (m.run code steps) (n.run code steps) := by
  induction steps generalizing m n p with
  | zero => exact .none
  | succ steps ih =>
    rw [Machine.run, Machine.run]
    have ha := h.advance h.evenCollections code
    generalize Machine.advance code m = x at ha ⊢
    generalize Machine.advance code n = y at ha ⊢
    cases ha with
    | next hmn => exact hmn.elim fun q hq => ih hq
    | exit hxy hmn => exact .some (.exit hxy hmn)
    | failed e hmn => exact .some (.failed e hmn)
    | endless => exact .none

end Machine

open Machine

/-! ## Steps -/

/-- Paused runs of one script that may be taken up as paired machines. -/
def PausedAlike (r t : Paused) : Prop :=
  r.script = t.script ∧ ∀ traced writer, (r.machine traced writer).Matched .collecting
    (t.machine traced writer)

/-- The same progress, of runs that are alike. -/
inductive ProgressAlike : Progress → Progress → Prop
  | functionCall (name args named call) {r t} : PausedAlike r t →
      ProgressAlike (.functionCall name args named call r) (.functionCall name args named call t)
  | osCall (function args named call) {r t} : PausedAlike r t →
      ProgressAlike (.osCall function args named call r) (.osCall function args named call t)
  | futures (pending) {r t} : PausedAlike r t →
      ProgressAlike (.futures pending r) (.futures pending t)
  | complete (value) : ProgressAlike (.complete value) (.complete value)

/-- Steps that a host cannot tell apart. -/
structure StepAlike (a b : Step Exception) : Prop where
  outcome : SameEnd Eq ProgressAlike a.outcome b.outcome
  output : a.output = b.output
  events : a.events = b.events
  writer : a.writer = b.writer

section
variable {s : Script} {p : Pairing} {m n : Machine}

theorem pausedAlike (h : m.Paired .collecting p n) : PausedAlike (s.pause m) (s.pause n) :=
  ⟨rfl, fun _ writer => ⟨p, h.pause s ⟨rfl, rfl⟩ writer⟩⟩

theorem progressAt_alike (h : m.Paired .collecting p n) {x y : Exit}
    (hxy : ExitAlike .collecting p x y) :
    SameEnd Eq ProgressAlike (s.progressAt x m) (s.progressAt y n) := by
  cases hxy with
  | returned h' =>
    rw [Script.progressAt, Script.progressAt, Heap.toObject_eq h.heap.toLinked h']
    exact .ok (.complete _)
  | externalCall call hf h' =>
    obtain ⟨hpos, hnamed⟩ := h.toObjects_eq h'
    simp only [Script.progressAt, hpos, hnamed]
    split
    · exact .ok (.functionCall _ _ _ _ (pausedAlike h))
    · exact .error rfl
  | osCall function call h' =>
    obtain ⟨hpos, hnamed⟩ := h.toObjects_eq h'
    simp only [Script.progressAt, hpos, hnamed]
    exact .ok (.osCall _ _ _ _ (pausedAlike h))
  | blocked pending => exact .ok (.futures pending (pausedAlike h))

theorem stepAlike_of_outcome (h : m.Halted .collecting p n) {x y : Except Exception Progress}
    (hxy : SameEnd Eq ProgressAlike x y) :
    StepAlike ⟨x, m.output, Script.eventsOf m, m.writer⟩
      ⟨y, n.output, Script.eventsOf n, n.writer⟩ :=
  ⟨hxy, h.output, congrArg (fun events => (events.getD []).reverse) h.events, h.writer⟩

theorem proceed_alike (h : m.Matched .collecting n) (steps : Nat) :
    Option.Rel StepAlike (s.proceed steps m) (s.proceed steps n) := by
  obtain ⟨p, h⟩ := h
  have hr := h.run s.bytecode steps
  unfold Script.proceed
  generalize m.run s.bytecode steps = x at hr ⊢
  generalize n.run s.bytecode steps = y at hr ⊢
  cases hr with
  | none => exact .none
  | some hr =>
    cases hr with
    | exit hxy hp => exact .some (stepAlike_of_outcome hp.toHalted (progressAt_alike hp hxy))
    | failed e hp => exact hp.elim fun q hq => .some (stepAlike_of_outcome hq (.error rfl))

end

theorem goOn_alike {r t : Paused} (hrt : r.script = t.script) (steps : Nat)
    {x y : Except (Raised × Machine) Machine} (h : ReceivedAlike .collecting x y) :
    Option.Rel StepAlike (r.goOn steps x) (t.goOn steps y) := by
  cases h with
  | ok h => rw [Paused.goOn, Paused.goOn, hrt]; exact proceed_alike h steps
  | @error a b h =>
    obtain ⟨e, m⟩ := a
    obtain ⟨d, n⟩ := b
    obtain ⟨rfl : e = d, q, hq⟩ := h
    rw [Paused.goOn, Paused.goOn, hrt]
    exact .some (stepAlike_of_outcome hq (.error rfl))

theorem ProgressAlike.after {x y : Progress} (h : ProgressAlike x y) (steps : Nat) (move : Move) :
    Option.Rel StepAlike (x.after steps move) (y.after steps move) := by
  have answered : ∀ {r t}, PausedAlike r t →
      Option.Rel StepAlike (r.answer move.answer move.traced steps move.writer)
        (t.answer move.answer move.traced steps move.writer) := by
    rintro r t ⟨hrt, h⟩
    obtain ⟨p, h⟩ := h move.traced move.writer
    exact goOn_alike hrt steps (h.receive hrt (fun _ => trivial) move.answer)
  cases h with
  | functionCall name args named call h => exact answered h
  | osCall function args named call h => exact answered h
  | futures pending h =>
    obtain ⟨hrt, h⟩ := h
    obtain ⟨p, h⟩ := h move.traced move.writer
    rw [Progress.after, Progress.after, Paused.resolve, Paused.resolve]
    obtain ⟨a, b, ha, hb, hab⟩ | ⟨e, d, he, hd, rfl⟩ :=
      (h.receiveAll hrt (fun _ => trivial) pending move.results).elim
    · rw [ha, hb]; exact goOn_alike hrt steps hab
    · rw [he, hd]; exact .some ⟨.error rfl, rfl, rfl, rfl⟩
  | complete value => exact .none

/-! ## What a host sees -/

theorem StepAlike.report_eq {a b : Step Exception} (h : StepAlike a b) : a.report = b.report := by
  have hsight : a.outcome.map Progress.sight = b.outcome.map Progress.sight := by
    obtain ⟨x, y, hx, hy, hxy⟩ | ⟨e, d, he, hd, rfl⟩ := h.outcome.elim
    · rw [hx, hy]; cases hxy <;> rfl
    · rw [he, hd]
  rw [Step.report, Step.report, hsight, h.output, h.events, h.writer]

theorem reports_eq (host : Host) (steps rounds : Nat) (seen : List Report)
    {a b : Option (Step Exception)} (h : Option.Rel StepAlike a b) :
    host.reports steps rounds seen a = host.reports steps rounds seen b := by
  induction rounds generalizing seen a b with
  | zero =>
    cases h with
    | none => rfl
    | some h => rw [Host.reports, Host.reports, h.report_eq]
  | succ rounds ih =>
    cases h with
    | none => rfl
    | some h =>
      rw [Host.reports, Host.reports, h.report_eq]
      obtain ⟨x, y, hx, hy, hxy⟩ | ⟨e, d, he, hd, rfl⟩ := h.outcome.elim
      · rw [hx, hy]; exact ih _ (hxy.after steps _)
      · rw [he, hd]

/-- A host sees the same of a run whenever the run collects, if no limit on the memory in use tells
them apart, and no limit on the time that their clocks show: the same requests with the same
arguments and numbers, the same output and the same value or exception in the end, with its
traceback. -/
theorem Script.play_gcInterval (s : Script) (inputs : List Object) {limits : Limits}
    (h : limits.maxMemory = none) (clock clock' : Clock)
    (hclock : limits.maxDuration = none ∨ clock = clock') (interval interval' : Option Nat)
    (host : Host) (steps rounds : Nat) :
    s.play inputs (.ofLimits { limits with gcInterval := interval } clock) host steps rounds =
      s.play inputs (.ofLimits { limits with gcInterval := interval' } clock') host steps
        rounds := by
  have hbudget : Budget.Even (.ofLimits { limits with gcInterval := interval } clock)
      (.ofLimits { limits with gcInterval := interval' } clock') :=
    ⟨⟨h, h⟩, rfl, rfl, rfl, rfl, rfl, rfl, hclock.imp_right fun h => ⟨h, rfl⟩, rfl⟩
  refine reports_eq host steps rounds [] ?_
  have hfresh : World.collecting.Fresh (host []).traced := ⟨rfl, rfl⟩
  unfold Script.start
  obtain ⟨a, b, ha, hb, hab⟩ | ⟨e, d, he, hd, rfl⟩ :=
    (begin_paired (κ := .collecting) s inputs hbudget (fun _ _ => trivial) hfresh
      (host []).writer).elim
  · rw [ha, hb]; exact proceed_alike hab steps
  · rw [he, hd]; exact .some ⟨.error rfl, rfl, rfl, rfl⟩

/-- A run of `f(x)` that collects before every instruction still shows `f` the list that `x` holds,
as the run without collections does. -/
theorem Script.play_call_of_list :
    let body : Code := ⟨"<module>", #[⟨.loadGlobal 0, .unknown⟩, ⟨.loadGlobal 1, .unknown⟩,
      ⟨.call 1 none, .unknown⟩, ⟨.return, .unknown⟩], .empty, [], 0⟩
    let s : Script := ⟨"main.py", "f(x)", ["x"], ["f"], ⟨#[body], ["f", "x"]⟩⟩
    let host : Host := fun _ => ⟨.value .none, [], false, .collector⟩
    s.play [.list [.int 1]] (.ofLimits { Limits.default with gcInterval := some 1 }) host 10 0 =
      [⟨.ok (.functionCall "f" [.list [.int 1]] [] 0), "", [], .collector⟩] :=
  (Script.play_gcInterval _ _ rfl .nominal .stopped (.inl rfl) (some 1) none _ 10 0).trans
    (by cbv)

end Resumable
