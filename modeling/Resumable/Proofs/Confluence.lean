import Mathlib
import Resumable.Proofs.Lockstep.Answers

/-!
# The order of results does not matter

Of a host that follows a plan, each run is compared with one run that resolves every future at the
call that makes it. That run is ahead, and does all that the other one does.
-/

namespace Resumable

open Machine

/-! ## The run that waits for nothing -/

/-- What the host sees of a stop. -/
def Script.sightAt (s : Script) (x : Exit) (m : Machine) : Except Exception Sight :=
  (s.progressAt x m).map Progress.sight

/-- What comes of one instruction when calls are answered as planned and futures are resolved at
once. -/
inductive Turn where
  /-- The run goes on, after these calls. -/
  | on (calls : List Sight) (m : Machine)
  | ended (o : Observed)
  | never

/-- The turn at a call that has received its answer. -/
def Turn.ofAnswer (s : Script) (sight : Sight) : Except (Raised × Machine) Machine → Turn
  | .ok n => .on [sight] n
  | .error (e, n) => .ended ⟨[sight], n.output, .error (s.exception e)⟩

/-- The turn at a stop that the host sees. -/
def Plan.turnAt (plan : Plan) (s : Script) (sight : Sight) (n : Machine) : Turn :=
  match sight with
  | .complete v => .ended ⟨[], n.output, .ok v⟩
  | .futures _ => .never
  | .functionCall _ _ _ call | .osCall _ _ _ call => .ofAnswer s sight (plan.give s call n)

/-- The turn after an instruction. -/
def Plan.turn (plan : Plan) (s : Script) : Advance → Turn
  | .next n => .on [] n
  | .failed e n => .ended ⟨[], n.output, .error (s.exception e)⟩
  | .endless => .never
  | .exit x n =>
    match s.sightAt x n with
    | .error e => .ended ⟨[], n.output, .error e⟩
    | .ok sight => plan.turnAt s sight n

/-- What a machine has done in the end when it takes its turns. Its output is all that it has
printed. -/
inductive Plan.Ends (plan : Plan) (s : Script) : Machine → Observed → Prop
  | on {m n calls o} : plan.turn s (m.advance s.bytecode) = .on calls n → Ends plan s n o →
      Ends plan s m { o with calls := calls ++ o.calls }
  | ended {m o} : plan.turn s (m.advance s.bytecode) = .ended o → Ends plan s m o

section
variable {plan : Plan} {s : Script} {κ : World} {kept : Kept} {text : String} {p : Pairing}
  {m n : Machine}

theorem Plan.Ends.unique {o o' : Observed} (h : plan.Ends s m o) (h' : plan.Ends s m o') :
    o = o' := by
  induction h generalizing o' with
  | on hm _ ih =>
    cases h' with
    | on hm' h' =>
      cases hm.symm.trans hm'
      rw [ih h']
    | ended hm' => cases hm.symm.trans hm'
  | ended hm =>
    cases h' with
    | on hm' _ => cases hm.symm.trans hm'
    | ended hm' => cases hm.symm.trans hm'; rfl

/-- A host sees the same stop of machines that are paired. -/
theorem Script.sightAt_eq (h : m.Paired κ p n) {x y : Exit} (hxy : ExitAlike κ p x y) :
    s.sightAt x m = s.sightAt y n := by
  unfold Script.sightAt
  cases hxy with
  | returned h' => simp only [Script.progressAt, Heap.toObject_eq h.heap.toLinked h']
  | externalCall call hf h' =>
    obtain ⟨hpos, hnamed⟩ := h.toObjects_eq h'
    simp only [Script.progressAt, hpos, hnamed]
    split <;> rfl
  | osCall function call h' =>
    obtain ⟨hpos, hnamed⟩ := h.toObjects_eq h'
    simp only [Script.progressAt, hpos, hnamed]
    rfl
  | blocked pending => rfl

/-! ## Runs -/

/-- The run from `n` goes on to `n'`. -/
def Plan.Leads (plan : Plan) (s : Script) (n n' : Machine) : Prop :=
  ∀ o, plan.Ends s n' o → plan.Ends s n o

theorem Plan.Leads.next {n' : Machine} (h : n.advance s.bytecode = .next n') :
    plan.Leads s n n' := fun _ ho => .on (by rw [h]; rfl) ho

/-- Where a run that is behind has stopped, and where the run ahead of it is then. -/
inductive RunsBehind (plan : Plan) (s : Script) (κ : World) (n : Machine) : Stop × Machine → Prop
  | failed {e m' n₀ n'} : plan.Leads s n n₀ → n₀.advance s.bytecode = .failed e n' →
      m'.Ended κ n' → RunsBehind plan s κ n (.failed e, m')
  | exit {p x y m' n₀ n'} : plan.Leads s n n₀ → n₀.advance s.bytecode = .exit y n' →
      ExitAlike κ p x y → Asked m' x → m'.Paired κ p n' → RunsBehind plan s κ n (.exit x, m')
  | blocked {m' n'} : plan.Leads s n n' → m'.Matched κ n' →
      RunsBehind plan s κ n (.exit (.blocked m'.pendingFutures), m')

theorem RunsBehind.of_leads {n' : Machine} (h : plan.Leads s n n') {r : Stop × Machine}
    (hr : RunsBehind plan s κ n' r) : RunsBehind plan s κ n r := by
  cases hr with
  | failed h' hn hm => exact .failed (fun o ho => h o (h' o ho)) hn hm
  | exit h' hn hxy hx hm => exact .exit (fun o ho => h o (h' o ho)) hn hxy hx hm
  | blocked h' hm => exact .blocked (fun o ho => h o (h' o ho)) hm

theorem Machine.Matched.runsBehind (h : m.Matched (.ahead plan kept text []) n) {steps : Nat}
    {r : Stop × Machine} (hr : m.run s.bytecode steps = some r) :
    RunsBehind plan s (.ahead plan kept text []) n r := by
  induction steps generalizing m n with
  | zero => cases hr
  | succ steps ih =>
    obtain ⟨p, h⟩ := h
    rw [Machine.run] at hr
    have hstep := h.stepsBehind s.bytecode
    revert hr
    generalize m.advance s.bytecode = a at hstep
    intro hr
    cases hstep with
    | next hn hm => exact .of_leads (.next hn) (ih hm hr)
    | exit hn hxy hx hm =>
      cases hr
      exact .exit (fun _ ho => ho) hn hxy hx hm
    | blocked hm =>
      cases hr
      exact .blocked (fun _ ho => ho) hm
    | failed hn hm =>
      cases hr
      exact .failed (fun _ ho => ho) hn hm
    | endless => cases hr

/-! ## Reports -/

/-- A call is answered as planned, while the run ahead receives its result. -/
theorem Machine.Paired.answered (h : m.Paired (.ahead plan kept text []) p n)
    (hkept : kept.Distinct) (hplan : plan.Convertible) {call : Nat}
    (hcall : m.pendingCall = some call) (m₀ : Machine) :
    ∃ kept' : Kept, kept'.Distinct ∧ ReceivedAlike (.ahead plan kept' text [])
      ((s.pause m₀).receive (plan.answer call) m) (plan.give s call n) := by
  cases hlater : plan.isLater call with
  | false => exact ⟨kept, hkept, h.given s hlater⟩
  | true =>
    obtain ⟨m', n', hm', hn', kept', hkept', hmn⟩ := h.promised hkept hplan s hcall hlater
    refine ⟨kept', hkept', ?_⟩
    have hanswer : plan.answer call = .later := by rw [Plan.answer, hlater]; rfl
    rw [hanswer, hn', Paused.receive, hm']
    exact .ok hmn

theorem ofReports?_error (seen : List Report) (m : Machine) (e : Exception) :
    Observed.ofReports? (stopReport (.error e) m :: seen) =
      some ⟨called seen, printed seen ++ m.output, .error e⟩ := by
  rw [Observed.ofReports?, stopReport, called, printed]
  simp only [List.append_nil]

theorem ofReports?_complete (seen : List Report) (m : Machine) (v : Object) :
    Observed.ofReports? (stopReport (.ok (.complete v)) m :: seen) =
      some ⟨called seen, printed seen ++ m.output, .ok v⟩ := by
  rw [Observed.ofReports?, stopReport, called, printed]
  simp only [Sight.call?, Option.isSome_none, Bool.false_eq_true, if_false, List.append_nil]

/-- What the reports tell in the end, if they have ended, is what the run from `n` has done behind
the calls in `seen`. -/
def Tells (plan : Plan) (s : Script) (seen : List Report) (n : Machine) (rs : List Report) : Prop :=
  ∀ o, Observed.ofReports? rs = some o →
    ∃ o', plan.Ends s n o' ∧ o = { o' with calls := called seen ++ o'.calls }

theorem Tells.of_leads {n' : Machine} {seen rs : List Report} (h : plan.Leads s n n')
    (ht : Tells plan s seen n' rs) : Tells plan s seen n rs := fun o ho =>
  (ht o ho).imp fun _ ho' => ⟨h _ ho'.1, ho'.2⟩

theorem Tells.of_ended {seen rs : List Report} {output : String} {result : Except Exception Object}
    (hturn : plan.turn s (n.advance s.bytecode) = .ended ⟨[], output, result⟩)
    (hrs : Observed.ofReports? rs = some ⟨called seen, output, result⟩) :
    Tells plan s seen n rs := by
  intro o ho
  refine ⟨_, .ended hturn, ?_⟩
  rw [hrs] at ho
  rw [← Option.some.inj ho, List.append_nil]

/-- A stop of a run that is behind, as the host sees it. -/
def stopStep (outcome : Except Exception Progress) (m : Machine) : Step Exception :=
  ⟨outcome, m.output, Script.eventsOf m, m.writer⟩

theorem proceed_exit {steps : Nat} {x : Exit} {m' : Machine}
    (h : m.run s.bytecode steps = some (.exit x, m')) :
    s.proceed steps m = some (stopStep (s.progressAt x m') m') := by
  rw [Script.proceed, h]
  rfl

theorem proceed_failed {steps : Nat} {e : Raised} {m' : Machine}
    (h : m.run s.bytecode steps = some (.failed e, m')) :
    s.proceed steps m = some (stopStep (.error (s.exception e)) m') := by
  rw [Script.proceed, h]
  rfl

theorem resolve_eq {r : Paused} {pending : List Nat} {results : List (Nat × Answer)} {traced : Bool}
    {writer : Writer} {received : Except (Raised × Machine) Machine} (steps : Nat)
    (h : r.receiveAll pending results (r.machine traced writer) = .ok received) :
    r.resolve pending results traced steps writer = r.goOn steps received := by
  rw [Paused.resolve, h]

theorem turn_exit_ok {x : Exit} {sight : Sight} (h : s.sightAt x n = .ok sight) :
    plan.turn s (.exit x n) = plan.turnAt s sight n := by
  simp only [Plan.turn, h]

theorem turn_exit_error {x : Exit} {e : Exception} (h : s.sightAt x n = .error e) :
    plan.turn s (.exit x n) = .ended ⟨[], n.output, .error e⟩ := by
  simp only [Plan.turn, h]

section
variable {host : Host} {steps rounds : Nat} {seen : List Report}

theorem reports_failed (m : Machine) (e : Exception) :
    host.reports steps rounds seen (some (stopStep (.error e) m)) =
      stopReport (.error e) m :: seen := reports_error host steps rounds seen e m

theorem reports_completed (m : Machine) (v : Object) :
    host.reports steps rounds seen (some (stopStep (.ok (.complete v)) m)) =
      stopReport (.ok (.complete v)) m :: seen := by
  cases rounds with
  | zero => rfl
  | succ rounds => exact reports_none host steps rounds _

/-- What the host is told of a run that goes on, for the rounds that are left. -/
def TellsAll (plan : Plan) (s : Script) (host : Host) (steps rounds : Nat) : Prop :=
  ∀ {seen : List Report} {kept : Kept} {m n : Machine}, Observed.ofReports? seen = none →
    kept.Distinct → m.Matched (.ahead plan kept (printed seen) []) n →
    Tells plan s seen n (host.reports steps rounds seen (s.proceed steps m))

theorem called_call {sight : Sight} {call : Nat} (hsight : sight.call? = some call) (m : Machine) :
    called (stopReport (.ok sight) m :: seen) = called seen ++ [sight] := by
  rw [called, stopReport]
  simp only [hsight, Option.isSome_some, if_true]

theorem ofReports?_call {sight : Sight} {call : Nat} (hsight : sight.call? = some call)
    (m : Machine) : Observed.ofReports? (stopReport (.ok sight) m :: seen) = none := by
  cases sight with
  | complete v => cases hsight
  | _ => rfl

theorem turnAt_call {sight : Sight} {call : Nat} (hsight : sight.call? = some call) (n : Machine) :
    plan.turnAt s sight n = .ofAnswer s sight (plan.give s call n) := by
  cases sight with
  | complete v => cases hsight
  | futures pending => cases hsight
  | _ => cases hsight; rfl

/-- A call is reported, and answered as planned. -/
theorem Tells.of_call (hplan : plan.Convertible) (hhost : host.Follows plan)
    (hall : ∀ k < rounds, TellsAll plan s host steps k) {kept : Kept} (hkept : kept.Distinct)
    {m' n' : Machine} (h : m'.Paired (.ahead plan kept (printed seen) []) p n')
    {progress : Progress} {call : Nat} (hcall : m'.pendingCall = some call)
    (hsight : progress.sight.call? = some call)
    (hafter : ∀ move, progress.after steps move =
      (s.pause m').answer move.answer move.traced steps move.writer)
    (hturn : plan.turn s (n.advance s.bytecode) = plan.turnAt s progress.sight n') :
    Tells plan s seen n (host.reports steps rounds seen (some (stopStep (.ok progress) m'))) := by
  intro o ho
  have hopen : Observed.ofReports? (stopReport (.ok progress.sight) m' :: seen) = none :=
    ofReports?_call hsight m'
  have hcalled : called (stopReport (.ok progress.sight) m' :: seen) =
      called seen ++ [progress.sight] := called_call hsight m'
  rw [turnAt_call hsight] at hturn
  cases rounds with
  | zero => exact nomatch hopen.symm.trans ho
  | succ rounds =>
    let move := host (stopReport (.ok progress.sight) m' :: seen)
    have hreports : host.reports steps (rounds + 1) seen (some (stopStep (.ok progress) m')) =
        host.reports steps rounds (stopReport (.ok progress.sight) m' :: seen)
          (progress.after steps move) := rfl
    have hanswer : move.answer = plan.answer call := hhost.answer seen rfl hsight
    have hwriter : move.writer = .collector := hhost.writer _
    obtain ⟨kept', hkept', hreceived⟩ :=
      (h.takenUp s move.traced).answered (s := s) hkept hplan hcall m'
    rw [hreports, hafter, hanswer, hwriter, Paused.answer] at ho
    change Observed.ofReports? (host.reports steps rounds _
      ((s.pause m').goOn steps ((s.pause m').receive _ _))) = some o at ho
    obtain ⟨m'', n'', hm'', hn'', hmn⟩ | ⟨⟨e, m''⟩, ⟨_, n''⟩, hm'', hn'', rfl, q, hmn⟩ :=
      hreceived.elim
    · rw [hn''] at hturn
      rw [hm''] at ho
      obtain ⟨o', ho', rfl⟩ := hall rounds (Nat.lt_succ_self _) hopen hkept' hmn o ho
      refine ⟨_, .on hturn ho', ?_⟩
      rw [hcalled]
      simp only [List.append_assoc]
    · rw [hn''] at hturn
      rw [hm''] at ho
      change Observed.ofReports? (host.reports steps rounds _
        (some (stopStep (.error (s.exception e)) m''))) = some o at ho
      rw [reports_failed, ofReports?_error, hcalled] at ho
      refine ⟨_, .ended hturn, ?_⟩
      have houtput : printed seen ++ m'.output ++ m''.output = n''.output := hmn.output
      rw [← Option.some.inj ho, ← houtput]
      rfl

/-- A run that is blocked receives some of the results that it waits for. -/
theorem Tells.of_blocked (hplan : plan.Convertible) (hhost : host.Follows plan)
    (hall : ∀ k < rounds, TellsAll plan s host steps k) {kept : Kept} (hkept : kept.Distinct)
    {m' : Machine} (h : m'.Paired (.ahead plan kept (printed seen) []) p n) :
    Tells plan s seen n (host.reports steps rounds seen
      (some (stopStep (.ok (.futures m'.pendingFutures (s.pause m'))) m'))) := by
  cases rounds with
  | zero => exact nofun
  | succ rounds =>
    let report := stopReport (.ok (.futures m'.pendingFutures)) m'
    let move := host (report :: seen)
    have hreports : host.reports steps (rounds + 1) seen
        (some (stopStep (.ok (.futures m'.pendingFutures (s.pause m'))) m')) =
        host.reports steps rounds (report :: seen)
          ((s.pause m').resolve m'.pendingFutures move.results move.traced steps move.writer) := rfl
    have hwriter : move.writer = .collector := hhost.writer _
    have hreport : report.outcome = .ok (.futures m'.pendingFutures) := rfl
    obtain ⟨calls, hnodup, hcalls, hresults⟩ := hhost.results seen hreport
    have hpending : m'.pendingFutures =
        ((s.pause m').machine move.traced .collector).pendingFutures := rfl
    obtain ⟨m'', hm'', kept', hkept', hmn⟩ := (h.takenUp s move.traced).resolved hkept hplan
      hpending hnodup hcalls (s.pause m')
    have hresults : move.results = calls.map fun call => (call, plan.result call) := hresults
    have hcalled : called (report :: seen) = called seen := List.append_nil _
    have hmn : m''.Matched (.ahead plan kept' (printed (report :: seen)) []) n := hmn
    rw [hreports, hwriter, hresults, resolve_eq steps hm'']
    intro o ho
    obtain ⟨o', ho', rfl⟩ := hall rounds (Nat.lt_succ_self _) rfl hkept' hmn o ho
    exact ⟨o', ho', by rw [hcalled]⟩

/-- What is told of a run is what the run ahead of it has done. -/
theorem tellsAll (hplan : plan.Convertible) (hhost : host.Follows plan) (rounds : Nat) :
    TellsAll plan s host steps rounds := by
  induction rounds using Nat.strong_induction_on with
  | _ rounds ih =>
    intro seen kept m n hseen hkept h
    cases hr : m.run s.bytecode steps with
    | none =>
      have hnone : s.proceed steps m = none := by rw [Script.proceed, hr]
      rw [hnone, reports_none]
      intro o ho
      rw [hseen] at ho
      cases ho
    | some r =>
      cases h.runsBehind (s := s) hr with
      | @failed e m' n₀ n' hleads hn hm =>
        obtain ⟨q, hm⟩ := hm
        have houtput : printed seen ++ m'.output = n'.output := hm.output
        refine .of_leads hleads (.of_ended (by rw [hn]; rfl) ?_)
        rw [proceed_failed hr, reports_failed, ofReports?_error, houtput]
      | blocked hleads hm =>
        obtain ⟨q, hm⟩ := hm
        rw [proceed_exit hr]
        exact .of_leads hleads (.of_blocked hplan hhost ih hkept hm)
      | @exit q x y m' n₀ n' hleads hn hxy hx hm =>
        refine .of_leads hleads ?_
        have houtput : printed seen ++ m'.output = n'.output := hm.output
        have hsight := Script.sightAt_eq (s := s) hm hxy
        have hended : ∀ {result}, plan.turn s (.exit y n') = .ended ⟨[], n'.output, result⟩ →
            ∀ {rs}, Observed.ofReports? rs = some ⟨called seen, printed seen ++ m'.output, result⟩ →
            Tells plan s seen n₀ rs := fun hturn _ hrs => by
          refine .of_ended (hn ▸ hturn) ?_
          rw [hrs, houtput]
        rw [proceed_exit hr]
        cases hx with
        | returned v =>
          have hprogress :
              s.progressAt (.returned v) m' = .ok (.complete (m'.heap.toObject v)) := rfl
          rw [hprogress, reports_completed]
          exact hended (turn_exit_ok hsight.symm) (ofReports?_complete ..)
        | @externalCall function args call hcall =>
          cases hname : s.functions[function]? with
          | none =>
            have hprogress : s.progressAt (.externalCall function args call) m' = .error
                (.plain .runtimeError (some s!"unknown external function id {function}")) := by
              simp only [Script.progressAt, hname]
            rw [Script.sightAt, hprogress] at hsight
            rw [hprogress, reports_failed]
            exact hended (turn_exit_error hsight.symm) (ofReports?_error ..)
          | some name =>
            rw [Script.sightAt, progressAt_externalCall hname] at hsight
            rw [progressAt_externalCall hname]
            exact .of_call hplan hhost ih hkept hm hcall rfl (fun _ => rfl)
              (hn ▸ turn_exit_ok hsight.symm)
        | osCall function args hcall =>
          exact .of_call hplan hhost ih hkept hm hcall rfl (fun _ => rfl)
            (hn ▸ turn_exit_ok hsight.symm)

end

end

/-- Both runs begin with the same machine. -/
theorem begin_behind (plan : Plan) (s : Script) {inputs : List Object} {heap : Heap}
    {globals : Array Value} (h : s.globals inputs .free = .ok (heap, globals)) (traced : Bool) :
    (Script.begin heap globals traced .collector).Matched (.ahead plan (fun _ _ _ => False) "" [])
      (Script.begin heap globals false .collector) := by
  have hfresh : World.values.Fresh traced := ⟨rfl, rfl⟩
  have hs := begin_paired (κ := .values) s inputs (b := .free) (c := .free) ⟨rfl, rfl⟩
    (fun _ _ => trivial) hfresh .collector
  rw [h] at hs
  cases hs with
  | ok hm =>
    obtain ⟨p, hm⟩ := hm
    have hforeseen : (plan.foresight (fun _ _ _ => False) []).rel p [] [] :=
      ⟨.nil, fun _ => .unknown⟩
    have hevents : (World.ahead plan (fun _ _ _ => False) "" []).events
      (if traced then some [] else none) none := trivial
    have houtput : (World.ahead plan (fun _ _ _ => False) "" []).output "" "" := rfl
    have hwriter : (World.ahead plan (fun _ _ _ => False) "" []).writer .collector := rfl
    have hahead := hm.toAlike.transfer ahead_values (.foreseen rfl hforeseen) hwriter houtput
      hevents false heap heap
    refine ⟨p, ⟨hahead, ?_⟩, rfl⟩
    exact ⟨hm.heap.transfer ahead_values fun hc => hc.elim fun _ hc => hc.elim, hm.heap.budget,
      fun h => h.elim⟩

section
variable {plan : Plan} (s : Script) (inputs : List Object) (hplan : plan.Convertible)
include hplan

/-- What a host has seen in the end is what the run that waits for nothing has done. -/
theorem Plan.ends_of_play {heap : Heap} {globals : Array Value}
    (hg : s.globals inputs .free = .ok (heap, globals)) {host : Host} (hhost : host.Follows plan)
    {steps rounds : Nat} {o : Observed}
    (ho : Observed.ofReports? (s.play inputs .free host steps rounds) = some o) :
    plan.Ends s (Script.begin heap globals false .collector) o := by
  have hbegin := begin_behind plan s hg (host []).traced
  rw [Script.play, Script.start, hg, hhost.writer] at ho
  obtain ⟨o', ho', rfl⟩ := tellsAll hplan hhost rounds rfl (fun _ _ _ _ _ h => h.elim) hbegin o ho
  exact ho'

/-- Two hosts that follow one plan see the same in the end, whichever pending calls they resolve
whenever a run is blocked, and in whichever order: the same calls with the same arguments and
numbers, the same output, and the same value or exception. -/
theorem Script.play_confluent {host host' : Host} (hhost : host.Follows plan)
    (hhost' : host'.Follows plan) {steps steps' rounds rounds' : Nat} {o o' : Observed}
    (ho : Observed.ofReports? (s.play inputs .free host steps rounds) = some o)
    (ho' : Observed.ofReports? (s.play inputs .free host' steps' rounds') = some o') : o = o' := by
  cases hg : s.globals inputs .free with
  | ok start =>
    obtain ⟨heap, globals⟩ := start
    have h := plan.ends_of_play s inputs hplan hg hhost ho
    have h' := plan.ends_of_play s inputs hplan hg hhost' ho'
    exact h.unique h'
  | error e =>
    have hrefused : ∀ (host : Host) steps rounds, Observed.ofReports?
        (s.play inputs .free host steps rounds) = some ⟨[], "", .error e⟩ := by
      intro host steps rounds
      rw [Script.play, Script.start, hg]
      cases rounds <;> rfl
    rw [hrefused] at ho ho'
    exact Option.some.inj (ho.symm.trans ho')

end

/-- A run of `[await f(), await g()]`, the calls before the results, ends in the same way whether
the result of `f` or that of `g` is given first. -/
theorem Script.play_confluent_of_two :
    let body : Code := ⟨"<module>", #[⟨.loadGlobal 0, .unknown⟩, ⟨.call 0 none, .unknown⟩,
      ⟨.loadGlobal 1, .unknown⟩, ⟨.call 0 none, .unknown⟩, ⟨.rot2, .unknown⟩, ⟨.await, .unknown⟩,
      ⟨.rot2, .unknown⟩, ⟨.await, .unknown⟩, ⟨.buildList 2, .unknown⟩, ⟨.return, .unknown⟩],
      .empty, [], 0⟩
    let s : Script := ⟨"main.py", "", [], ["f", "g"], ⟨#[body], ["f", "g"]⟩⟩
    let plan : Plan :=
      ⟨fun _ => true, fun call => .ok (if call = 0 then .list [.int 1] else .int 2)⟩
    ∃ o : Observed, o.result = .ok (.list [.list [.int 1], .int 2]) ∧
      Observed.ofReports? (s.play [] .free (plan.host (·.head?.toList)) 20 9) = some o ∧
      Observed.ofReports? (s.play [] .free (plan.host (·.getLast?.toList)) 20 9) = some o := by
  intro body s plan
  have hplan : plan.Convertible := by
    intro call v _ hv
    obtain rfl := Except.ok.inj hv
    by_cases hcall : call = 0
    · rw [if_pos hcall]
      exact ⟨_, _, rfl⟩
    · rw [if_neg hcall]
      exact ⟨_, _, rfl⟩
  have hnodup : ∀ o : Option Nat, o.toList.Nodup := fun o => by cases o <;> simp
  have hfirst : (plan.host (·.head?.toList)).Follows plan :=
    plan.host_follows (fun _ => hnodup _) fun pending call hcall =>
      List.mem_of_mem_head? (Option.mem_toList.mp hcall)
  have hlast : (plan.host (·.getLast?.toList)).Follows plan :=
    plan.host_follows (fun _ => hnodup _) fun pending call hcall =>
      List.mem_of_mem_getLast? (Option.mem_toList.mp hcall)
  have ho : Observed.ofReports? (s.play [] .free (plan.host (·.head?.toList)) 20 9) =
      some ⟨[.functionCall "f" [] [] 0, .functionCall "g" [] [] 1], "",
        .ok (.list [.list [.int 1], .int 2])⟩ := by cbv
  have hend : (Observed.ofReports?
      (s.play [] .free (plan.host (·.getLast?.toList)) 20 9)).isSome = true := by cbv
  obtain ⟨o', ho'⟩ := Option.isSome_iff_exists.mp hend
  refine ⟨_, rfl, ho, ?_⟩
  rw [Script.play_confluent s [] hplan hfirst hlast ho ho']
  exact ho'

end Resumable
