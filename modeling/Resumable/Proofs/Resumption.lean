import Resumable.Proofs.Hosts
import Resumable.Proofs.Lockstep.Run

/-!
# Pauses lose nothing

A run without a host keeps one machine alive and raises an exception at every call. A host that
refuses every call takes the machine apart at the call and puts it together again for its answer.
Both runs end alike (`Script.runAlone_iff_refused`): they go on in lockstep with the same heap, and
the one without a host has printed what the other one has printed in all its steps together. The
time that a host takes counts, so where time is limited this asks for two clocks that show the same
(`Script.runAlone_not_refused`).
-/

namespace Resumable

open Machine

/-! ## A host that refuses all calls -/

/-- The answer to a call that a host does not offer. -/
def Answer.refusal (what : String) : Answer :=
  .exception .notImplementedError (some (what ++ " not implemented with standard execution"))

/-- The host that refuses all calls. -/
def Host.refusing (traced : Bool) (writer : Writer) : Host
  | [] => ⟨.later, [], traced, writer⟩
  | report :: _ =>
    let answer := match report.outcome with
      | .ok (.functionCall name ..) => .refusal s!"External function '{name}'"
      | .ok (.osCall function ..) =>
        let name := function.name
        .refusal s!"OS function '{name}'"
      | _ => .later
    ⟨answer, [], traced, report.writer⟩

/-- What has been printed in all steps. -/
def printed : List Report → String
  | [] => ""
  | report :: seen => printed seen ++ report.output

/-- The events of all steps. -/
def recorded : List Report → List Event
  | [] => []
  | report :: seen => recorded seen ++ report.events

/-- The end of a run, if the last report tells it. -/
def Script.Ending.ofReports? : List Report → Option Ending
  | [] => none
  | report :: seen =>
    let ending := fun result =>
      ⟨result, printed (report :: seen), recorded (report :: seen), report.writer⟩
    match report.outcome with
    | .error e => some (ending (.error e))
    | .ok (.complete value) => some (ending (.ok value))
    | .ok _ => none

/-- The machines that a run without a host comes by. -/
inductive Script.Alone (s : Script) (inputs : List Object) (budget : Budget) (traced : Bool)
    (writer : Writer) : Machine → Prop
  | start {heap globals} : s.globals inputs budget = .ok (heap, globals) →
      Alone s inputs budget traced writer (begin heap globals traced writer)
  | next {m n} : Alone s inputs budget traced writer m → m.advance s.bytecode = .next n →
      Alone s inputs budget traced writer n
  | refused {x m n n' e} : Alone s inputs budget traced writer m →
      m.advance s.bytecode = .exit x n → s.unavailable x = some e →
      n.answerException s.bytecode e = .ok n' → Alone s inputs budget traced writer n'

/-! ## Budgets with two clocks -/

/-- Budgets that are the same but for their clocks. If they have two, these are not read. -/
inductive Budget.Untimed : Budget → Budget → Prop
  | same (b) : Untimed b b
  | clocks {b : Budget} (clock readings) : b.limits.maxDuration = none →
      Untimed b { b with clock, readings }

namespace Budget.Untimed

variable {b c : Budget}

theorem allocate (h : b.Untimed c) (bytes : Nat) :
    SameEnd Eq Untimed (b.allocate bytes) (c.allocate bytes) := by
  cases h with
  | same =>
    cases b.allocate bytes with
    | ok b => exact .ok (.same b)
    | error e => exact .error rfl
  | clocks clock readings hd =>
    have hcharge : ∀ count, SameEnd Eq Untimed (Budget.allocate.charge b bytes count)
        (Budget.allocate.charge { b with clock, readings } bytes count) := by
      intro count
      have hmemory : { b with clock, readings }.memoryAfter bytes = b.memoryAfter bytes := rfl
      rw [Budget.allocate.charge, Budget.allocate.charge, hmemory]
      cases b.memoryAfter bytes with
      | ok used => exact .ok (.clocks clock readings hd)
      | error e => exact .error rfl
    unfold Budget.allocate
    dsimp only
    split
    · exact .ok (.clocks clock readings hd)
    · split
      · split
        · exact .error rfl
        · exact hcharge _
      · exact hcharge _

theorem tick (h : b.Untimed c) : b.tick.1.Untimed c.tick.1 ∧ b.tick.2 = c.tick.2 := by
  cases h with
  | same => exact ⟨.same _, rfl⟩
  | clocks clock readings hd =>
    unfold Budget.tick Budget.tick.checkTime
    simp only [hd]
    split
    · exact ⟨.clocks clock readings hd, rfl⟩
    · split
      · split
        · exact ⟨.clocks clock readings hd, rfl⟩
        · exact ⟨.clocks clock readings hd, rfl⟩
      · exact ⟨.clocks clock readings hd, rfl⟩

theorem release (h : b.Untimed c) (bytes : Nat) : (b.release bytes).Untimed (c.release bytes) := by
  cases h with
  | same => exact .same _
  | clocks clock readings hd =>
    unfold Budget.release
    dsimp only
    split
    · exact .clocks clock readings hd
    · exact .clocks clock readings hd

theorem checkDepth (h : b.Untimed c) (depth : Nat) : b.checkDepth depth = c.checkDepth depth := by
  cases h <;> rfl

theorem checkResult (h : b.Untimed c) (bytes : Nat) :
    b.checkResult bytes = c.checkResult bytes := by
  cases h <;> rfl

theorem shouldCollect (h : b.Untimed c) (allocations : Nat) :
    b.shouldCollect allocations = c.shouldCollect allocations := by
  cases h <;> rfl

end Budget.Untimed

/-- Budgets that are the same but for clocks that are not read. -/
def Accounts.untimed : Accounts where
  budget := Budget.Untimed
  allocate h := h.allocate
  tick h := h.tick
  checkDepth h := h.checkDepth
  checkResult h := h.checkResult

/-! ## Both runs in lockstep -/

/-- The world of a run that keeps its machine and of one that has been taken up again after it had
printed and recorded some. No host call is without its answer in them. -/
def World.resumed (functions : Nat) (text : String) (events : List Event) (traced : Bool) :
    World where
  __ := Accounts.untimed
  external := (· < functions)
  future _ := False
  fixed := True
  collects _ _ _ h := ⟨h.shouldCollect, h.release⟩
  kept _ _ := False
  foresight := none
  writer _ := True
  written _ _ := trivial
  output a b := a = text ++ b
  print := by rintro _ b rfl rest; exact String.append_assoc
  events a b := a.isSome = traced ∧ b.isSome = traced ∧
    (a.getD []).reverse = events ++ (b.getD []).reverse
  record := by
    rintro (_ | a) (_ | b) ⟨ha, hb, hab⟩ e
    · exact ⟨ha, hb, hab⟩
    · rw [← hb] at ha; cases ha
    · rw [← hb] at ha; cases ha
    · refine ⟨ha, hb, ?_⟩
      simp only [Option.map_some, Option.getD_some, List.reverse_cons] at hab ⊢
      rw [hab, List.append_assoc]

instance (functions : Nat) (text : String) (events : List Event) (traced : Bool) :
    (World.resumed functions text events traced).Joint := ⟨fun _ _ h => h, rfl, fun _ => trivial⟩

section
variable (s : Script) (traced : Bool)

/-- The world of a run of a script that keeps its machine and of one with these reports. -/
abbrev World.after (seen : List Report) : World :=
  .resumed s.functions.length (printed seen) (recorded seen) traced

/-- The machine of a run without a host and that of a run with these reports. -/
abbrev Resumed (seen : List Report) (m n : Machine) : Prop := m.Matched (.after s traced seen) n

/-- The end of a run without a host. -/
def Script.ending (e : Except Raised Object × Machine) : Ending :=
  ⟨e.1.mapError s.exception, e.2.output, eventsOf e.2, e.2.writer⟩

/-- The report of a machine that has stopped. -/
def stopReport (outcome : Except Exception Sight) (m : Machine) : Report :=
  ⟨outcome, m.output, Script.eventsOf m, m.writer⟩

variable {s traced} {seen : List Report} {p : Pairing} {m n : Machine}

theorem Machine.Paired.evenCollections_of_fixed {κ : World} [κ.Joint] (h : m.Paired κ p n)
    (hκ : κ.fixed) : EvenCollections κ m n := by
  obtain ⟨budget, hn, hb⟩ := h.ticked.1.collected_fixed hκ
  rw [EvenCollections, hn]
  exact hb

/-- The machine that is put together again after a pause is still that of the run without one. -/
theorem resumed_machine (h : m.Paired (.after s traced seen) p n) (outcome) :
    m.Paired (.after s traced (stopReport outcome n :: seen)) p
      ((s.pause n).machine traced n.writer) := by
  obtain ⟨ha, hb, hab⟩ := h.events
  have hw : World.Within (.after s traced seen) (.after s traced (stopReport outcome n :: seen)) :=
    ⟨id, id⟩
  refine h.restored hw h.heap.budget h.heap.fixed ?_ ⟨ha, ?_, ?_⟩
  · exact h.output.trans String.append_empty.symm
  · cases traced <;> rfl
  · refine hab.trans ?_
    cases traced <;> exact (List.append_nil _).symm

/-- The run without a host ends as the reports of the other one tell. -/
theorem ofReports_failed (h : m.Halted (.after s traced seen) p n) (e : Raised) :
    Script.Ending.ofReports? (stopReport (.error (s.exception e)) n :: seen) =
      some (s.ending (.error e, m)) := by
  have houtput : m.output = printed seen ++ n.output := h.output
  simp only [Script.Ending.ofReports?, stopReport, Script.ending, Except.mapError, printed,
    recorded, Script.eventsOf, h.writer, h.events.2.2, houtput]

theorem ofReports_complete (h : m.Halted (.after s traced seen) p n) (value : Object) :
    Script.Ending.ofReports? (stopReport (.ok (.complete value)) n :: seen) =
      some (s.ending (.ok value, m)) := by
  have houtput : m.output = printed seen ++ n.output := h.output
  simp only [Script.Ending.ofReports?, stopReport, Script.ending, Except.mapError, printed,
    recorded, Script.eventsOf, h.writer, h.events.2.2, houtput]

theorem proceed_succ (s : Script) (steps : Nat) (m : Machine) :
    s.proceed (steps + 1) m = match m.advance s.bytecode with
      | .next m => s.proceed steps m
      | .exit x m => some ⟨s.progressAt x m, m.output, Script.eventsOf m, m.writer⟩
      | .failed e m => some ⟨.error (s.exception e), m.output, Script.eventsOf m, m.writer⟩
      | .endless => none := by
  unfold Script.proceed
  rw [Machine.run]
  cases m.advance s.bytecode <;> rfl

@[simp] theorem reports_none (host : Host) (steps rounds : Nat) (seen : List Report) :
    host.reports steps rounds seen none = seen := by
  cases rounds <;> rfl

theorem reports_error (host : Host) (steps rounds : Nat) (seen : List Report) (e : Exception)
    (m : Machine) :
    host.reports steps rounds seen (some ⟨.error e, m.output, Script.eventsOf m, m.writer⟩) =
      stopReport (.error e) m :: seen := by
  cases rounds <;> rfl

/-- What the next instruction of the run without a host, at `m`, is to the run with the reports
`seen`, at `n`. -/
inductive Parallel (s : Script) (traced : Bool) (host : Host) (steps : Nat) (seen : List Report)
    (m n : Machine) : Prop
  /-- Both go on. -/
  | next {m' n'} : (∀ k, s.proceedAlone (k + 1) m = s.proceedAlone k m') →
      (∀ j, s.proceed (j + 1) n = s.proceed j n') → Resumed s traced seen m' n' →
      Parallel s traced host steps seen m n
  /-- Both end. -/
  | ended {e step report} : (∀ k, s.proceedAlone (k + 1) m = some e) →
      (∀ j, s.proceed (j + 1) n = some step) →
      (∀ rounds, host.reports steps rounds seen (some step) = report :: seen) →
      Script.Ending.ofReports? (report :: seen) = some (s.ending e) →
      Parallel s traced host steps seen m n
  /-- Both call a function of the host, and go on when it is refused. -/
  | refused {step report m' n'} : (∀ k, s.proceedAlone (k + 1) m = s.proceedAlone k m') →
      (∀ j, s.proceed (j + 1) n = some step) →
      host.reports steps 0 seen (some step) = report :: seen →
      (∀ rounds, host.reports steps (rounds + 1) seen (some step) =
        host.reports steps rounds (report :: seen) (s.proceed steps n')) →
      Script.Ending.ofReports? (report :: seen) = none →
      Resumed s traced (report :: seen) m' n' → Parallel s traced host steps seen m n
  /-- Both call a function of the host, and end when it is refused. -/
  | left {e step report last} : (∀ k, s.proceedAlone (k + 1) m = some e) →
      (∀ j, s.proceed (j + 1) n = some step) →
      host.reports steps 0 seen (some step) = report :: seen →
      (∀ rounds, host.reports steps (rounds + 1) seen (some step) = last :: report :: seen) →
      Script.Ending.ofReports? (report :: seen) = none →
      Script.Ending.ofReports? (last :: report :: seen) = some (s.ending e) →
      Parallel s traced host steps seen m n
  /-- The instruction has no end. -/
  | endless : (∀ k, s.proceedAlone (k + 1) m = none) → (∀ j, s.proceed (j + 1) n = none) →
      Parallel s traced host steps seen m n

/-- What the host does not answer is an exception to a run without a host. -/
theorem proceedAlone_unavailable {k : Nat} {x : Exit} {m' : Machine} {e : Raised}
    (hm : m.advance s.bytecode = .exit x m') (hx : s.unavailable x = some e) :
    s.proceedAlone (k + 1) m =
      match m'.answerException s.bytecode e with
      | .ok m => s.proceedAlone k m
      | .error e => some (.error e, m') := by
  rw [Script.proceedAlone, hm]
  cases x with
  | returned v => cases hx
  | _ => cases ha : m'.answerException s.bytecode e <;> simp only [hx, ha]

/-- A call of the host that both runs make. -/
theorem parallel_call {host : Host} {steps : Nat} {x y : Exit} {m' n' : Machine} {e : Raised}
    {progress : Progress} (hm : m.advance s.bytecode = .exit x m')
    (hn : n.advance s.bytecode = .exit y n') (h : m'.Paired (.after s traced seen) p n')
    (hx : s.unavailable x = some e) (hy : s.progressAt y n' = .ok progress)
    (hgoes : Script.Ending.ofReports? (stopReport (.ok progress.sight) n' :: seen) = none)
    (hafter : progress.after steps (host (stopReport (.ok progress.sight) n' :: seen)) =
      (s.pause n').goOn steps ((s.pause n').receive (.exception e.type e.message)
        ((s.pause n').machine traced n'.writer)))
    (he : e = .fresh e.type e.message) : Parallel s traced host steps seen m n := by
  have hproceed : ∀ j, s.proceed (j + 1) n =
      some ⟨.ok progress, n'.output, Script.eventsOf n', n'.writer⟩ := by
    intro j
    rw [proceed_succ, hn, ← hy]
  have halone := fun k => proceedAlone_unavailable (k := k) hm hx
  have hreports : ∀ rounds, host.reports steps (rounds + 1) seen
      (some ⟨.ok progress, n'.output, Script.eventsOf n', n'.writer⟩) =
        host.reports steps rounds (stopReport (.ok progress.sight) n' :: seen)
          (progress.after steps (host (stopReport (.ok progress.sight) n' :: seen))) :=
    fun _ => rfl
  have hr := resumed_machine h (.ok progress.sight)
  rw [hafter] at hreports
  simp only [Paused.receive, ← he] at hreports
  obtain ⟨m'', n'', ha, hb, hab⟩ | ⟨e', _, ha, hb, rfl⟩ :=
    (hr.toHalted.answerException s.bytecode e).elim
  · refine .refused (fun k => by rw [halone, ha]) hproceed rfl (fun rounds => ?_) hgoes ⟨p, hab⟩
    rw [hreports]
    simp only [Script.pause] at hb ⊢
    rw [hb]
    rfl
  · refine .left (fun k => by rw [halone, ha]) hproceed rfl (fun rounds => ?_) hgoes
      (ofReports_failed hr.toHalted e')
    rw [hreports]
    simp only [Script.pause] at hb ⊢
    rw [hb]
    exact reports_error _ _ _ _ _ _

theorem progressAt_externalCall {function call : Nat} {name : String} {args : Arguments}
    (hname : s.functions[function]? = some name) :
    s.progressAt (.externalCall function args call) n =
      .ok (.functionCall name (args.positional.map n.heap.toObject)
        (args.named.map fun (name, v) => (name, n.heap.toObject v)) call (s.pause n)) := by
  simp only [Script.progressAt, hname]

/-- Every instruction is to both runs the same. -/
theorem Resumed.parallel (h : Resumed s traced seen m n) (writer : Writer) (steps : Nat) :
    Parallel s traced (.refusing traced writer) steps seen m n := by
  obtain ⟨p, h⟩ := h
  have ha := h.advance (h.evenCollections_of_fixed trivial) s.bytecode
  cases hm : m.advance s.bytecode with
  | next m' =>
    rw [hm] at ha
    cases hn : n.advance s.bytecode <;> rw [hn] at ha <;> cases ha
    next hmn =>
      exact .next (fun k => by rw [Script.proceedAlone, hm]) (fun j => by rw [proceed_succ, hn]) hmn
  | failed e m' =>
    rw [hm] at ha
    cases hn : n.advance s.bytecode <;> rw [hn] at ha <;> cases ha
    next hmn =>
      obtain ⟨q, hq⟩ := hmn
      exact .ended (fun k => by rw [Script.proceedAlone, hm]) (fun j => by rw [proceed_succ, hn])
        (fun rounds => reports_error _ _ _ _ _ _) (ofReports_failed hq e)
  | endless =>
    rw [hm] at ha
    cases hn : n.advance s.bytecode <;> rw [hn] at ha <;> cases ha
    exact .endless (fun k => by rw [Script.proceedAlone, hm]) fun j => by rw [proceed_succ, hn]
  | exit x m' =>
    rw [hm] at ha
    cases hn : n.advance s.bytecode <;> rw [hn] at ha <;> cases ha
    next n' q hxy hmn =>
      cases hxy with
      | @returned v w hvw =>
        have hstep : s.progressAt (.returned w) n' = .ok (.complete (m'.heap.toObject v)) := by
          rw [Heap.toObject_eq hmn.heap.toLinked hvw]
          rfl
        refine .ended (fun k => by rw [Script.proceedAlone, hm])
          (fun j => by rw [proceed_succ, hn]) (fun rounds => ?_) (ofReports_complete hmn.toHalted _)
        rw [hstep]
        cases rounds with
        | zero => rfl
        | succ rounds => exact reports_none _ _ _ _
      | @externalCall function call a b hf hargs =>
        have hname : s.functions[function]? = some s.functions[function] :=
          List.getElem?_eq_getElem hf
        have hx : s.unavailable (.externalCall function a call) = Script.unavailable.notImplemented
            s!"External function '{s.functions[function]}'" := by
          rw [Script.unavailable, List.getD_eq_getElem?_getD, hname]
          rfl
        exact parallel_call hm hn hmn hx (progressAt_externalCall hname) rfl rfl rfl
      | osCall function call hargs => exact parallel_call hm hn hmn rfl rfl rfl rfl rfl
      | blocked pending hknown => exact hknown.elim fun _ h => h.elim

/-- What a run without a host ends with, the reports of the other one end with. -/
theorem Resumed.ofReports_of_alone {k : Nat} {e : Except Raised Object × Machine}
    (h : Resumed s traced seen m n) (he : s.proceedAlone k m = some e) (writer : Writer)
    {steps rounds j : Nat} (hsteps : k ≤ steps) (hj : k ≤ j) (hrounds : k ≤ rounds) :
    Script.Ending.ofReports? ((Host.refusing traced writer).reports steps rounds seen
      (s.proceed j n)) = some (s.ending e) := by
  induction k generalizing m n seen rounds j with
  | zero => cases he
  | succ k ih =>
    obtain ⟨j, rfl⟩ := Nat.exists_eq_add_of_le' (Nat.le_trans (Nat.le_add_left 1 k) hj)
    obtain ⟨rounds, rfl⟩ := Nat.exists_eq_add_of_le' (Nat.le_trans (Nat.le_add_left 1 k) hrounds)
    cases h.parallel writer steps with
    | next ha hp hs =>
      rw [hp]
      exact ih hs ((ha k).symm.trans he) (by omega) (by omega) (by omega)
    | ended ha hp hreports hof =>
      obtain rfl := Option.some.inj ((ha k).symm.trans he)
      rw [hp, hreports, hof]
    | refused ha hp _ hreports _ hs =>
      rw [hp, hreports]
      exact ih hs ((ha k).symm.trans he) (by omega) (by omega) (by omega)
    | left ha hp _ hreports _ hof =>
      obtain rfl := Option.some.inj ((ha k).symm.trans he)
      rw [hp, hreports, hof]
    | endless ha _ => cases (ha k).symm.trans he

/-- What the reports of the other run end with, a run without a host ends with. -/
theorem Resumed.alone_of_ofReports (h : Resumed s traced seen m n) {writer : Writer}
    {steps rounds j : Nat} {ending : Script.Ending}
    (hending : Script.Ending.ofReports? ((Host.refusing traced writer).reports steps rounds seen
      (s.proceed j n)) = some ending) (hseen : Script.Ending.ofReports? seen = none) :
    ∃ k e, s.proceedAlone k m = some e ∧ s.ending e = ending := by
  -- A step has fewer instructions left after each of them, and the next step one round less.
  induction rounds using Nat.strong_induction_on generalizing seen m n j with
  | _ rounds outer =>
    induction j generalizing m n with
    | zero =>
      rw [Script.proceed, Machine.run, reports_none, hseen] at hending
      cases hending
    | succ j ih =>
      cases h.parallel writer steps with
      | next ha hp hs =>
        rw [hp] at hending
        obtain ⟨k, e, hk, he⟩ := ih hs hending
        exact ⟨k + 1, e, (ha k).trans hk, he⟩
      | ended ha hp hreports hof =>
        rw [hp, hreports, hof] at hending
        exact ⟨1, _, ha 0, Option.some.inj hending⟩
      | refused ha hp hlast hreports hgoes hs =>
        cases rounds with
        | zero => rw [hp, hlast, hgoes] at hending; cases hending
        | succ rounds =>
          rw [hp, hreports] at hending
          obtain ⟨k, e, hk, he⟩ := outer rounds (Nat.lt_succ_self _) hs hending hgoes
          exact ⟨k + 1, e, (ha k).trans hk, he⟩
      | left ha hp hlast hreports hgoes hof =>
        cases rounds with
        | zero => rw [hp, hlast, hgoes] at hending; cases hending
        | succ rounds =>
          rw [hp, hreports, hof] at hending
          exact ⟨1, _, ha 0, Option.some.inj hending⟩
      | endless _ hp =>
        rw [hp, reports_none, hseen] at hending
        cases hending

/-! ## Runs -/

theorem World.resumed_fresh (functions : Nat) (traced : Bool) :
    (World.resumed functions "" [] traced).Fresh traced :=
  ⟨rfl, by cases traced <;> exact ⟨rfl, rfl, rfl⟩⟩

/-- Both runs start with paired machines, or are refused alike. -/
theorem begin_resumed {b c : Budget} (hbc : b.Untimed c) (s : Script) (inputs : List Object)
    (traced : Bool) (writer : Writer) :
    SameEnd Eq (fun x y => Resumed s traced [] (Script.begin x.1 x.2 traced writer)
      (Script.begin y.1 y.2 traced writer)) (s.globals inputs b) (s.globals inputs c) :=
  begin_paired (κ := .after s traced []) s inputs hbc (fun _ h => h)
    (World.resumed_fresh _ traced) writer

theorem Script.Alone.matched {inputs : List Object} {budget : Budget} {writer : Writer}
    (h : s.Alone inputs budget traced writer m) : Resumed s traced [] m m := by
  induction h with
  | start hg =>
    have hs := begin_resumed (.same budget) s inputs traced writer
    rw [hg] at hs
    cases hs with
    | ok h => exact h
  | @next m n _ hn ih =>
    obtain ⟨p, hp⟩ := ih
    have ha := hp.advance (hp.evenCollections_of_fixed trivial) s.bytecode
    rw [hn] at ha
    cases ha with
    | next h => exact h
  | @refused x m n n' e _ hx _ hn ih =>
    obtain ⟨p, hp⟩ := ih
    have ha := hp.advance (hp.evenCollections_of_fixed trivial) s.bytecode
    rw [hx] at ha
    cases ha with
    | exit _ h =>
      have hr := h.toHalted.answerException s.bytecode e
      rw [hn] at hr
      cases hr with
      | ok h => exact ⟨_, h⟩

/-- A run without a host never waits for the result of a call. -/
theorem Script.Alone.not_blocked {inputs : List Object} {budget : Budget} {writer : Writer}
    (h : s.Alone inputs budget traced writer m) (pending : List Nat) :
    m.advance s.bytecode ≠ .exit (.blocked pending) n := by
  intro hx
  obtain ⟨p, hp⟩ := h.matched
  have ha := hp.advance (hp.evenCollections_of_fixed trivial) s.bytecode
  rw [hx] at ha
  cases ha with
  | exit hx _ =>
    cases hx with
    | blocked _ hknown => exact hknown.elim fun _ h => h

theorem Script.runAlone_eq (s : Script) (inputs : List Object) (budget : Budget) (traced : Bool)
    (steps : Nat) (writer : Writer) :
    s.runAlone inputs budget traced steps writer =
      match s.globals inputs budget with
      | .error e => some ⟨.error e, "", [], writer⟩
      | .ok (heap, globals) =>
        (s.proceedAlone steps (begin heap globals traced writer)).map s.ending := by
  unfold Script.runAlone
  cases s.globals inputs budget with
  | error e => rfl
  | ok start => exact congrArg (Option.map · _) (funext fun (result, _) => by cases result <;> rfl)

/-- A run without a host ends with the same value or exception, output, events and writer as a run
whose host refuses every call, however many instructions and steps that run is given from then on;
where it has no end, neither has the other one. The two runs have a clock each, so this is so where
time is not limited, or where both clocks show the same. In either case the run without a host never
waits for the result of a call. -/
theorem Script.runAlone_iff_refused (s : Script) (inputs : List Object) (budget : Budget)
    (traced : Bool) (writer : Writer) :
    (∀ clock, budget.limits.maxDuration = none ∨ clock = budget.clock →
      (∀ steps ending, s.runAlone inputs budget traced steps writer = some ending →
        ∀ steps' rounds, steps ≤ steps' → steps ≤ rounds →
          Ending.ofReports? (s.play inputs { budget with clock } (.refusing traced writer) steps'
            rounds) = some ending) ∧
        ∀ steps rounds ending,
          Ending.ofReports? (s.play inputs { budget with clock } (.refusing traced writer) steps
            rounds) = some ending →
          ∃ steps', s.runAlone inputs budget traced steps' writer = some ending) ∧
      ¬ ∃ m pending n, s.Alone inputs budget traced writer m ∧
        m.advance s.bytecode = .exit (.blocked pending) n := by
  refine ⟨fun clock hclock => ?_, fun ⟨m, pending, n, hm, hx⟩ => hm.not_blocked pending hx⟩
  have hbudget : budget.Untimed { budget with clock } := by
    rcases hclock with hd | rfl
    · exact .clocks clock budget.readings hd
    · exact .same budget
  have hplay : ∀ steps rounds,
      s.play inputs { budget with clock } (.refusing traced writer) steps rounds =
        (Host.refusing traced writer).reports steps rounds []
          (s.start inputs { budget with clock } traced steps writer) := fun _ _ => rfl
  simp only [hplay, Script.runAlone_eq, Script.start]
  obtain ⟨x, y, hx, hy, hs⟩ | ⟨e, _, hx, hy, rfl⟩ :=
    (begin_resumed hbudget s inputs traced writer).elim
  · simp only [hx, hy]
    refine ⟨fun steps ending h steps' rounds hsteps hrounds => ?_, fun steps rounds ending h => ?_⟩
    · obtain ⟨e, he, rfl⟩ := Option.map_eq_some_iff.mp h
      exact hs.ofReports_of_alone he writer hsteps hsteps hrounds
    · obtain ⟨k, e, hk, rfl⟩ := hs.alone_of_ofReports h rfl
      exact ⟨k, by simp only [hk, Option.map_some]⟩
  · simp only [hx, hy]
    refine ⟨fun steps ending h steps' rounds _ _ => ?_, fun steps rounds ending h => ?_⟩
    · obtain rfl := Option.some.inj h
      cases rounds <;> rfl
    · cases rounds <;> exact ⟨0, h⟩

end

/-! ## A run with two clocks -/

/-- A script that goes on when its call is refused. -/
def Script.undaunted : Except Exception Script :=
  compile "try:\n    f()\nexcept Exception:\n    pass" "main.py" [] ["f"]

/-- A clock that goes on by a nanosecond at every reading. -/
def Clock.quick : Clock := fun reading => reading

/-- A clock that does so until the host is asked, who takes a second. -/
def Clock.late : Clock := fun reading => if reading < 3 then reading else 10 ^ 9

/-- A property of the script that can be evaluated. -/
theorem Script.exists_undaunted {P : Script → Bool}
    (h : (match undaunted with | .ok s => P s | .error _ => false) = true) :
    ∃ s, undaunted = .ok s ∧ P s = true := by
  split at h
  · next s hs => exact ⟨s, hs, h⟩
  · cases h

/-- Where time is not limited, both runs end with the same value, whatever their clocks show. -/
theorem Script.runAlone_iff_refused_clocks :
    ∃ s ending, undaunted = .ok s ∧ ending.result.isOk = true ∧
      s.runAlone [] (.ofLimits Limits.default .quick) false 20 = some ending ∧
      Ending.ofReports? (s.play [] (.ofLimits Limits.default .late) (.refusing false .collector)
        20 20) = some ending := by
  obtain ⟨s, hs, h⟩ := exists_undaunted
    (P := fun s => (s.runAlone [] (.ofLimits Limits.default .quick) false 20).any (·.result.isOk))
    (by decide +kernel)
  obtain ⟨ending, hending, hok⟩ := Option.any_eq_true _ _ |>.mp h
  have hsame := (Script.runAlone_iff_refused s [] (.ofLimits Limits.default .quick) false
    .collector).1 .late (.inl rfl)
  exact ⟨s, ending, hs, hok, hending, hsame.1 20 ending hending 20 20 le_rfl le_rfl⟩

/-- Where time is limited, the run whose host takes its time ends with the limit, and the one
without a host with a value. -/
theorem Script.runAlone_not_refused :
    let limits := { Limits.default with maxDuration := some 1000 }
    ∃ s ending ending', undaunted = .ok s ∧
      s.runAlone [] (.ofLimits limits .quick) false 20 = some ending ∧
      Ending.ofReports? (s.play [] (.ofLimits limits .late) (.refusing false .collector) 20 20) =
        some ending' ∧
      ending.result.isOk = true ∧
      ∃ e, ending'.result = .error e ∧ e.limit = some (.time 1000 (10 ^ 9)) := by
  intro limits
  let limitOf (ending : Ending) : Option LimitError :=
    ((ending.result.map fun _ => none).tryCatch fun e => .ok e.limit).toOption.join
  obtain ⟨s, hs, h⟩ := exists_undaunted
    (P := fun s => (s.runAlone [] (.ofLimits limits .quick) false 20).any (·.result.isOk) &&
      (Ending.ofReports? (s.play [] (.ofLimits limits .late) (.refusing false .collector)
        20 20)).any (limitOf · == some (.time 1000 (10 ^ 9))))
    (by decide +kernel)
  obtain ⟨hquick, hlate⟩ := Bool.and_eq_true_iff.mp h
  obtain ⟨ending, hending, hok⟩ := Option.any_eq_true _ _ |>.mp hquick
  obtain ⟨ending', hending', hlimit⟩ := Option.any_eq_true _ _ |>.mp hlate
  refine ⟨s, ending, ending', hs, hending, hending', hok, ?_⟩
  have hlimit : limitOf ending' = some (.time 1000 (10 ^ 9)) := beq_iff_eq.mp hlimit
  cases hresult : ending'.result with
  | ok v =>
    simp only [limitOf, hresult] at hlimit
    cases hlimit
  | error e =>
    simp only [limitOf, hresult] at hlimit
    exact ⟨e, rfl, hlimit⟩

end Resumable
