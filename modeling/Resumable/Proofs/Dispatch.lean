import Mathlib.Data.List.Sort
import Resumable.Host.Sandbox
import Resumable.Proofs.Recount

/-!
# Sandboxes dispatch every request once

`d.Dealt host past l` says what a dispatcher does about the exchanges in `past`, the last one first:
which handler it calls for each of them and when, what that leaves of the state of its host, of the
files and of the calls that wait, and that the run gets what the handlers come to. Nothing in it
looks at how the dispatcher works. Main statement: `Dispatcher.run_faithful`. Whenever a dispatcher
looks at a step of its run, it has dealt in this way with the exchanges that the run has had so far,
and the calls that wait are those that the run waits for; and so it is when the run ends.
-/

namespace Resumable

namespace Dispatcher

variable {ω : Type}

/-! ## What is to be done about a request -/

section
variable (d : Dispatcher ω)

/-- What comes of a call that has no handler. The host object is asked for it, if there is one; the
call is refused if that does not answer. -/
inductive Consults (source : String) (refusal : HandlerFailure) :
    Option (ω → Option Handled × ω) → ω → HandlerResult → ω → Prop
  | absent (host) : Consults source refusal none host (.failure refusal) host
  | declines {ask host host'} : ask host = (none, host') →
      Consults source refusal (some ask) host (.failure refusal) host'
  | answers {ask host handled host'} : ask host = (some handled, host') →
      Consults source refusal (some ask) host (handled.toResult source) host'

/-- The result of a request that is answered at once, and what it leaves of the state of the host
and of the files. -/
inductive Answers : Sight → ω → Option FileSystem → HandlerResult → ω → Option FileSystem → Prop
  | function {name args named call host files handler handled host'} :
      d.functions.lookup name = some handler → handler args named host = (handled, host') →
      Answers (.functionCall name args named call) host files (handled.toResult name) host' files
  | otherFunction {name args named call host files r host'} :
      d.functions.lookup name = none → d.deferred.lookup name = none →
      Consults name ⟨.nameError, s!"function '{name}' is not defined"⟩
        (d.capabilities.map (·.function ⟨name, args, named, call⟩)) host r host' →
      Answers (.functionCall name args named call) host files r host' files
  | files {function args named call host} {files : FileSystem} :
      Answers (.osCall function args named call) host (some files)
        (files.handle ⟨function, args, named⟩).1 host
        (some ((files.handle ⟨function, args, named⟩).2.getD files))
  | operation {function args named call host handler handled host'} :
      d.operations.lookup function = some handler → handler args named host = (handled, host') →
      Answers (.osCall function args named call) host none (handled.toResult function.name) host'
        none
  | otherOperation {function name args named call host r host'} : function.name = name →
      d.operations.lookup function = none →
      Consults name ⟨.osError, s!"OS operation '{name}' is not permitted"⟩
        (d.capabilities.map (·.os ⟨function, args, named, call⟩)) host r host' →
      Answers (.osCall function args named call) host none r host' none

/-- The results of deferred calls when each of them is made once, in order, by its handler. -/
inductive Makes : List (Nat × FunctionCall) → ω → List (Nat × HandlerResult) → ω → Prop
  | nil (host) : Makes [] host [] host
  | cons {id c calls host handler handled host' results host''} :
      d.deferred.lookup c.name = some handler → handler c.args c.named host = (handled, host') →
      Makes calls host' results host'' →
      Makes ((id, c) :: calls) host ((id, handled.toResult c.name) :: results) host''

/-- What a dispatcher has at hand between two exchanges. -/
structure Ledger (ω : Type) where
  host : ω
  files : Option FileSystem
  /-- The deferred calls that have not been made yet, in order. -/
  waiting : List (Nat × FunctionCall)

/-- The dispatcher has dealt with these exchanges of a run, the last one first. A call of a function
that only has a deferred handler waits; all calls that wait are made when the run waits for them;
any other request is answered at once. The run gets what the handlers have come to, and nothing
else. -/
inductive Dealt (host : ω) : List Exchange → Ledger ω → Prop
  | start : Dealt host [] ⟨host, d.files, []⟩
  | now {past l sight r host' files'} : Dealt host past l →
      d.Answers sight l.host l.files r host' files' →
      Dealt host (.answer sight r.toAnswer :: past) { l with host := host', files := files' }
  | later {past l name args named call} : Dealt host past l →
      d.functions.lookup name = none → (d.deferred.lookup name).isSome →
      Dealt host (.answer (.functionCall name args named call) .later :: past)
        { l with waiting := l.waiting ++ [(call, ⟨name, args, named, call⟩)] }
  | wait {past l results host'} : Dealt host past l → d.Makes l.waiting l.host results host' →
      Dealt host (.results (l.waiting.map (·.1)) (results.map fun (id, r) => (id, r.toAnswer)) ::
        past) { l with host := host', waiting := [] }

end

/-- The files after the operations that the run has asked for, in the order of its calls. -/
def filesAfter (files : Option FileSystem) : List Exchange → Option FileSystem
  | [] => files
  | .answer (.osCall function args named _) _ :: past =>
    (filesAfter files past).map fun fs => (fs.handle ⟨function, args, named⟩).2.getD fs
  | _ :: past => filesAfter files past

variable {d : Dispatcher ω} {host host' : ω} {past : List Exchange} {l : Ledger ω}
  {st st' : State ω} {r : HandlerResult}

theorem Makes.ids {calls : List (Nat × FunctionCall)} {results : List (Nat × HandlerResult)}
    (h : d.Makes calls host results host') : results.map (·.1) = calls.map (·.1) := by
  induction h with
  | nil => rfl
  | cons _ _ _ ih => rw [List.map_cons, List.map_cons, ih]

/-- The calls that wait have handlers. -/
theorem Dealt.isSome_deferred (h : d.Dealt host past l) :
    ∀ w ∈ l.waiting, (d.deferred.lookup w.2.name).isSome := by
  induction h with
  | start => exact nofun
  | now _ _ ih => exact ih
  | wait _ _ _ => exact nofun
  | later _ _ hdeferred ih =>
    intro w hw
    rcases List.mem_append.mp hw with hw | hw
    · exact ih w hw
    · rw [List.mem_singleton.mp hw]
      exact hdeferred

theorem toAnswer_ne_later (r : HandlerResult) : r.toAnswer ≠ .later := by cases r <;> nofun

theorem isLater_toAnswer (r : HandlerResult) : r.toAnswer.isLater = false := by cases r <;> rfl

theorem settledBy_toAnswer (results : List (Nat × HandlerResult)) :
    settledBy (results.map fun (id, r) => (id, r.toAnswer)) = results.map (·.1) := by
  rw [settledBy, List.filter_eq_self.mpr, List.map_map]
  · rfl
  · intro a ha
    obtain ⟨⟨id, r⟩, -, rfl⟩ := List.mem_map.mp ha
    simp [isLater_toAnswer]

/-- Only calls are answered at once. -/
theorem Answers.call {sight : Sight} {files files' : Option FileSystem}
    (h : d.Answers sight host files r host' files') : ∃ call, sight.call? = some call := by
  cases h <;> exact ⟨_, rfl⟩

theorem Answers.files_eq {sight : Sight} {a : Answer} {files files' : Option FileSystem}
    (h : d.Answers sight host files r host' files') (hfiles : files = filesAfter d.files past) :
    files' = filesAfter d.files (.answer sight a :: past) := by
  cases h <;> simp [filesAfter, ← hfiles]

/-- Each call has got a result once, or waits. -/
theorem Dealt.once (h : d.Dealt host past l) :
    (past.flatMap Exchange.settled ++ l.waiting.map (·.1)).Perm
      (past.filterMap (·.sight.call?)) := by
  induction h with
  | start => exact .nil
  | @now past l sight r host' files' _ hanswers ih =>
    obtain ⟨call, hcall⟩ := hanswers.call
    have hsettled : (Exchange.answer sight r.toAnswer).settled = [call] := by
      simp [Exchange.settled, isLater_toAnswer, hcall]
    rw [List.flatMap_cons, hsettled, List.filterMap_cons,
      show (Exchange.answer sight r.toAnswer).sight.call? = some call from hcall]
    exact ih.cons call
  | @later past l name args named call _ _ _ ih =>
    rw [List.map_append, ← List.append_assoc]
    exact (List.perm_append_singleton _ _).trans (ih.cons call)
  | @wait past l results host' _ hmakes ih =>
    rw [List.flatMap_cons, Exchange.settled, settledBy_toAnswer, hmakes.ids]
    simp only [List.map_nil, List.append_nil]
    exact List.perm_append_comm.trans ih

theorem Dealt.files_eq (h : d.Dealt host past l) : l.files = filesAfter d.files past := by
  induction h with
  | start => rfl
  | later _ _ _ ih => exact ih
  | wait _ _ ih => exact ih
  | now _ hanswers ih => exact hanswers.files_eq ih

/-! ## Answers -/

theorem callHandler_eq {handler : HostHandler ω} {source : String} {args : List Object}
    {named : List (String × Object)} :
    callHandler st handler source args named =
      ((handler args named st.host).1.toResult source,
        { st with host := (handler args named st.host).2 }) := rfl

theorem consult_consults {source : String} {refusal : HandlerFailure}
    {ask : Option (ω → Option Handled × ω)} (h : consult st source refusal ask = (r, st')) :
    ∃ host, Consults source refusal ask st.host r host ∧ st' = { st with host } := by
  unfold consult at h
  split at h
  · cases h; exact ⟨st.host, .absent _, rfl⟩
  · split at h
    · next hask => cases h; exact ⟨_, .answers hask, rfl⟩
    · next hask => cases h; exact ⟨_, .declines hask, rfl⟩

theorem answerFunction_answers {c : FunctionCall} (hname : d.defers c.name = false)
    (h : d.answerFunction st c = (r, st')) :
    ∃ host, d.Answers (.functionCall c.name c.args c.named c.call) st.host st.files r host
      st.files ∧ st' = { st with host } := by
  unfold answerFunction at h
  cases hfunction : d.functions.lookup c.name with
  | some handler =>
    rw [hfunction] at h
    cases h
    exact ⟨_, .function hfunction rfl, rfl⟩
  | none =>
    rw [hfunction] at h
    have hdeferred : d.deferred.lookup c.name = none := by simpa [defers, hfunction] using hname
    obtain ⟨host, hconsults, hst⟩ := consult_consults h
    exact ⟨host, .otherFunction hfunction hdeferred hconsults, hst⟩

theorem answerOs_answers {c : OperationCall} (h : d.answerOs st c = (r, st')) :
    ∃ host files, d.Answers (.osCall c.function c.args c.named c.call) st.host st.files r host
      files ∧ st' = { st with host, files } := by
  obtain ⟨stHost, stFiles, output, waiting, events⟩ := st
  unfold answerOs at h
  cases stFiles with
  | some files =>
    simp only at h
    have hanswers :
        d.Answers (.osCall c.function c.args c.named c.call) stHost (some files) _ _ _ := .files
    split at h
    · next r' changed hr =>
      cases h
      rw [hr] at hanswers
      exact ⟨_, _, hanswers, rfl⟩
    · next r' hr =>
      cases h
      rw [hr] at hanswers
      exact ⟨_, _, hanswers, rfl⟩
  | none =>
    simp only at h
    cases hoperation : d.operations.lookup c.function with
    | some handler =>
      rw [hoperation] at h
      cases h
      exact ⟨_, _, .operation hoperation rfl, rfl⟩
    | none =>
      rw [hoperation] at h
      obtain ⟨host, hconsults, hst⟩ := consult_consults h
      exact ⟨host, none, .otherOperation rfl hoperation hconsults, hst⟩

/-- The calls that wait are made in their order, each by its handler. -/
theorem answerAllDeferred_makes {waiting : List (Nat × FunctionCall)}
    (hwaiting : st.waiting = waiting.reverse) (hnodup : (waiting.map (·.1)).Nodup)
    (hhandlers : ∀ w ∈ waiting, (d.deferred.lookup w.2.name).isSome)
    (done : List (Nat × HandlerResult)) :
    ∃ results host, d.Makes waiting st.host results host ∧
      d.answerAllDeferred st done (waiting.map (·.1)) =
        (done.reverse ++ results, { st with host, waiting := [] }) := by
  induction waiting generalizing st done with
  | nil =>
    have hst : { st with waiting := [] } = st := by rw [← show st.waiting = [] from hwaiting]
    exact ⟨[], st.host, .nil _, by simp [answerAllDeferred, hst]⟩
  | cons w waiting ih =>
    obtain ⟨id, c⟩ := w
    obtain ⟨hw, hnodup⟩ := List.nodup_cons.mp hnodup
    obtain ⟨hhandler, hhandlers⟩ := List.forall_mem_cons.mp hhandlers
    obtain ⟨handler, hhandler⟩ := Option.isSome_iff_exists.mp hhandler
    rw [List.reverse_cons] at hwaiting
    have hother : ∀ v ∈ waiting.reverse, v.1 ≠ id := fun v hv h =>
      hw (List.mem_map.mpr ⟨v, List.mem_reverse.mp hv, h⟩)
    have hlookup : st.waiting.lookup id = some c := by
      have hnone : waiting.reverse.lookup id = none := by
        rw [List.lookup_eq_none_iff]
        exact fun v hv => by simpa using (hother v hv).symm
      rw [hwaiting, List.lookup_append, hnone]
      simp
    have hfilter : st.waiting.filter (·.1 != id) = waiting.reverse := by
      rw [hwaiting, List.filter_append, List.filter_eq_self.mpr]
      · simp
      · exact fun v hv => by simpa using hother v hv
    let made := handler c.args c.named st.host
    let rest : State ω := { st with host := made.2, waiting := waiting.reverse }
    have hone : d.answerDeferred st id = (made.1.toResult c.name, rest) := by
      simp [answerDeferred, hlookup, hfilter, hhandler, callHandler_eq, made, rest]
    have hrest : rest.waiting = waiting.reverse := rfl
    obtain ⟨results, host, hmakes, hresults⟩ :=
      ih hrest hnodup hhandlers ((id, made.1.toResult c.name) :: done)
    refine ⟨(id, made.1.toResult c.name) :: results, host, .cons hhandler rfl hmakes, ?_⟩
    rw [List.map_cons, answerAllDeferred, hone]
    simp only
    rw [hresults]
    simp [rest]

theorem insertResult?_last {call : Nat} (r : HandlerResult) {done : List (Nat × HandlerResult)}
    (h : ∀ d ∈ done, d.1 < call) :
    FutureBatch.insertResult? call r done = some (done ++ [(call, r)]) := by
  induction done with
  | nil => rfl
  | cons d done ih =>
    obtain ⟨i, q⟩ := d
    obtain ⟨hi, hdone⟩ := List.forall_mem_cons.mp h
    have hne : (i == call) = false := by simpa using (Nat.ne_of_lt hi)
    rw [FutureBatch.insertResult?, hne, if_neg Bool.false_ne_true,
      if_neg (Nat.not_lt_of_lt hi), ih hdone]
    rfl

/-- One result for each pending call, in order, is what a batch takes. -/
theorem collect_eq {b : FutureBatch} {done rest : List (Nat × HandlerResult)}
    (hordered : b.pending.Pairwise (· < ·)) (hids : (done ++ rest).map (·.1) = b.pending) :
    b.collect done rest = .ok (done ++ rest) := by
  induction rest generalizing done with
  | nil =>
    rw [List.append_nil] at hids ⊢
    have hall : b.pending.find? (fun id => !done.any (·.1 == id)) = none := by
      rw [← hids, List.find?_eq_none]
      intro id hid
      obtain ⟨d, hd, rfl⟩ := List.mem_map.mp hid
      simpa using ⟨d.2, hd⟩
    rw [FutureBatch.collect, hall]
  | cons result rest ih =>
    obtain ⟨call, r⟩ := result
    have hmem : b.pending.contains call = true := by
      rw [← hids]
      simp
    have hlast : ∀ d ∈ done, d.1 < call := by
      rw [← hids, List.map_append, List.map_cons, List.pairwise_append] at hordered
      exact fun d hd => hordered.2.2 d.1 (List.mem_map_of_mem hd) call List.mem_cons_self
    rw [FutureBatch.collect, hmem, if_neg (by simp), insertResult?_last r hlast]
    simp only
    rw [ih (by simpa using hids), List.append_assoc]
    rfl

/-! ## The loop -/

/-- The state of a dispatcher that has taken note of a step. -/
def State.after {ε : Type} (st : State ω) (step : Step ε) : State ω :=
  { st with events := step.events :: st.events, output := st.output ++ step.output }

/-- What a dispatcher has at hand in a state. -/
def State.ledger (st : State ω) : Ledger ω := ⟨st.host, st.files, st.waiting.reverse⟩

/-- What a dispatcher keeps after it has dealt with some exchanges, and the machine that it goes on
with. -/
structure Serves (d : Dispatcher ω) (host : ω) (past : List Exchange) (st : State ω) (m : Machine) :
    Prop where
  dealt : d.Dealt host past st.ledger
  pending : m.pendingFutures = st.ledger.waiting.map (·.1)
  ordered : m.futures.Pairwise (·.1 < ·.1)
  fresh : ∀ f ∈ m.futures, f.1 < m.nextCall
  numbered : (past.filterMap (·.sight.call?)).reverse = List.range m.nextCall
  output : m.output = ""

/-- The dispatcher has come to a stop of its run, where it has yet to deal with what it sees. -/
structure Pauses (d : Dispatcher ω) (host : ω) (script : Script) (inputs : List Object)
    (budget : Budget) (past : List Exchange) (text : String) (x : Exit) (m : Machine) (p : Progress)
    (st : State ω) (step : Step HostError) : Prop where
  served : ∃ before, d.Serves host past st before ∧ before.Rests x m
  recounts : script.Recounts inputs budget past text (some x) m
  progressAt : script.progressAt x m = .ok p
  outcome : step.outcome = .ok p
  output : st.output ++ step.output = text

/-- Where the dispatcher comes to: a stop of its run, or an error that ends it. -/
inductive Comes (d : Dispatcher ω) (host : ω) (script : Script) (inputs : List Object)
    (budget : Budget) (st : State ω) (step : Step HostError) : Prop
  | pauses {past text x m p} : d.Pauses host script inputs budget past text x m p st step →
      Comes d host script inputs budget st step
  | fails {past e} : step.outcome = .error (.ofException e) → d.Dealt host past st.ledger →
      script.Breaks inputs budget past e → Comes d host script inputs budget st step

variable {script : Script} {inputs : List Object} {budget : Budget} {text : String}
  {m before n : Machine} {steps : Nat}

/-- The dispatcher runs the machine to its next stop. -/
theorem Serves.proceed {step : Step Exception} (h : d.Serves host past st m)
    (hrecounts : script.Recounts inputs budget past st.output none m)
    (hstep : script.proceed steps m = some step) :
    d.Comes host script inputs budget st (step.mapError .ofException) := by
  unfold Script.proceed at hstep
  split at hstep
  · cases hstep
  · next x n hrun =>
    cases hstep
    obtain ⟨hrests, printed, hprinted, hrecounts⟩ := hrecounts.run hrun
    cases hp : script.progressAt x n with
    | error e => exact .fails (rfl) h.dealt (.exit hrecounts hp)
    | ok p =>
      rw [h.output, String.empty_append] at hprinted
      exact .pauses ⟨⟨m, h, hrests⟩, hrecounts, hp, rfl,
        by rw [← hprinted]; rfl⟩
  · next e n hrun =>
    cases hstep
    exact .fails rfl h.dealt (hrecounts.run hrun)

/-- The dispatcher goes on with a machine that has received an answer, or with the error of it. -/
theorem goOn_comes {q : Paused} {received : Except (Raised × Machine) Machine}
    {step : Step Exception} (hq : q.script = script) (hdealt : d.Dealt host past st.ledger)
    (hok : ∀ n, received = .ok n → d.Serves host past st n ∧
      script.Recounts inputs budget past st.output none n)
    (herror : ∀ e n, received = .error (e, n) →
      script.Breaks inputs budget past (script.exception e))
    (hstep : q.goOn steps received = some step) :
    d.Comes host script inputs budget st (step.mapError .ofException) := by
  cases received with
  | error e =>
    cases hstep
    exact .fails rfl hdealt (hq ▸ herror e.1 e.2 rfl)
  | ok n =>
    obtain ⟨hserves, hrecounts⟩ := hok n rfl
    rw [Paused.goOn, hq] at hstep
    exact hserves.proceed hrecounts hstep

/-! ### Calls -/

variable {sight : Sight} {a : Answer}

/-- A call gets the next number. -/
theorem Serves.numbered_call (h : d.Serves host past st before)
    (hcall : sight.call? = some before.nextCall) :
    ((Exchange.answer sight a :: past).filterMap (·.sight.call?)).reverse =
      List.range (before.nextCall + 1) := by
  have hone : (Exchange.answer sight a).sight.call? = some before.nextCall := hcall
  rw [List.filterMap_cons, hone, List.reverse_cons, h.numbered, List.range_succ]

/-- A call that is answered at once. -/
theorem Serves.now (h : d.Serves host past st before) (hcall : sight.call? = some before.nextCall)
    (hdealt : d.Dealt host (.answer sight r.toAnswer :: past) st'.ledger)
    (hwaiting : st'.waiting = st.waiting) (hfutures : n.futures = before.futures)
    (hnext : n.nextCall = before.nextCall + 1) (houtput : n.output = "") :
    d.Serves host (.answer sight r.toAnswer :: past) st' n where
  dealt := hdealt
  pending := by
    rw [State.ledger, hwaiting, Machine.pendingFutures, hfutures]
    exact h.pending
  ordered := hfutures ▸ h.ordered
  fresh f hf := by
    rw [hfutures] at hf
    exact hnext ▸ (h.fresh f hf).trans (Nat.lt_succ_self _)
  numbered := hnext ▸ h.numbered_call hcall
  output := houtput

/-- A call that is deferred. -/
theorem Serves.later (h : d.Serves host past st before) {name : String} {args : List Object}
    {named : List (String × Object)}
    (hsight : sight = .functionCall name args named before.nextCall)
    (hdealt : d.Dealt host (.answer sight .later :: past) st'.ledger)
    (hwaiting : st'.waiting =
      (before.nextCall, ⟨name, args, named, before.nextCall⟩) :: st.waiting)
    (hfutures : n.futures = Machine.setFuture.insert before.nextCall .pending before.futures)
    (hnext : n.nextCall = before.nextCall + 1) (houtput : n.output = "") :
    d.Serves host (.answer sight .later :: past) st' n := by
  rw [Machine.insert_last h.fresh] at hfutures
  refine ⟨hdealt, ?_, ?_, ?_, ?_, houtput⟩
  · have hpending : before.pendingFutures = st.waiting.reverse.map (·.1) := h.pending
    rw [State.ledger, hwaiting, List.reverse_cons, List.map_append, ← hpending,
      Machine.pendingFutures, hfutures, List.filterMap_append]
    rfl
  · rw [hfutures, List.pairwise_append]
    refine ⟨h.ordered, List.pairwise_singleton _ _, fun f hf g hg => ?_⟩
    rw [List.mem_singleton.mp hg]
    exact h.fresh f hf
  · intro f hf
    rw [hfutures, List.mem_append, List.mem_singleton] at hf
    rw [hnext]
    rcases hf with hf | rfl
    · exact (h.fresh f hf).trans (Nat.lt_succ_self _)
    · exact Nat.lt_succ_self _
  · rw [hnext]
    exact h.numbered_call (by rw [hsight]; rfl)

theorem pairwise_pendingFutures (h : m.futures.Pairwise (·.1 < ·.1)) :
    m.pendingFutures.Pairwise (· < ·) := by
  refine List.Pairwise.filterMap _ (fun f g hfg i hi j hj => ?_) h
  obtain ⟨i', f⟩ := f
  obtain ⟨j', g⟩ := g
  cases f <;> cases g <;> simp_all

/-- What the handlers of the calls that wait come to when the run waits. -/
theorem Serves.makes (h : d.Serves host past st before) :
    ∃ results host', d.Makes st.ledger.waiting st.host results host' ∧
      d.answerAllDeferred st [] (before.pendingFutures.mergeSort (· ≤ ·)) =
        (results, { st with host := host', waiting := [] }) := by
  have hordered := pairwise_pendingFutures h.ordered
  have hnodup : (st.ledger.waiting.map (·.1)).Nodup := h.pending ▸ hordered.imp Nat.ne_of_lt
  have hsorted : before.pendingFutures.mergeSort (· ≤ ·) = st.ledger.waiting.map (·.1) := by
    rw [← h.pending]
    exact List.mergeSort_eq_self (· ≤ ·) (hordered.imp Nat.le_of_lt)
  rw [hsorted]
  exact answerAllDeferred_makes (List.reverse_reverse _).symm hnodup h.dealt.isSome_deferred []

/-- The results of all calls that the run waits for. -/
theorem Serves.resolved (h : d.Serves host past st before) {answers : List (Nat × Answer)}
    (hdealt : d.Dealt host (.results before.pendingFutures answers :: past) st'.ledger)
    (hwaiting : st'.waiting = []) (hids : answers.map (·.1) = before.pendingFutures)
    (hlater : ∀ a ∈ answers, a.2 ≠ .later) {q : Paused} (hfutures : m.futures = before.futures)
    (hnext : m.nextCall = before.nextCall) (houtput : m.output = "")
    (hn : q.receiveAll before.pendingFutures answers m = .ok (.ok n)) :
    d.Serves host (.results before.pendingFutures answers :: past) st' n := by
  unfold Paused.receiveAll at hn
  split at hn
  · cases hn
  · split at hn
    · cases hn
    · next futures l htaken =>
      obtain ⟨⟨heap, hl⟩, htakenIds, hresolved⟩ :=
        Machine.toFutures_ok (fun _ hf => absurd hf List.not_mem_nil) htaken
      have hall : settledBy answers = answers.map (·.1) := by
        rw [settledBy, List.filter_eq_self.mpr]
        intro a ha
        cases h : a.2 with
        | later => exact absurd h (hlater a ha)
        | _ => rfl
      rw [hall] at htakenIds
      cases hresolve : l.resolve futures with
      | error e => rw [hresolve] at hn; cases hn
      | ok k =>
        rw [hresolve] at hn
        cases hn
        have hlfutures : l.futures = before.futures := hl ▸ hfutures
        have hlnext : l.nextCall = before.nextCall := hl ▸ hnext
        have hloutput : l.output = "" := hl ▸ houtput
        have hordered : l.futures.Pairwise (·.1 < ·.1) := hlfutures ▸ h.ordered
        obtain ⟨hnordered, hnnext, hnoutput, hmem, hpending⟩ :=
          Machine.pending_setFutures futures l hordered hresolved
        rw [← Machine.resolve_eq_of_ok hresolve] at hnordered hnnext hnoutput hmem hpending
        have hnumber : n.nextCall = before.nextCall := hnnext.trans hlnext
        refine ⟨hdealt, ?_, hnordered, ?_, ?_, hnoutput.trans hloutput⟩
        · -- Each pending call is among the results, so none is left.
          have hlpending : l.pendingFutures = before.pendingFutures := by
            rw [Machine.pendingFutures_eq, hlfutures, ← Machine.pendingFutures_eq]
          rw [State.ledger, hwaiting, hpending, hlpending, List.filter_eq_nil_iff.mpr]
          · rfl
          · intro id hid
            rw [← hids] at hid
            simpa [htakenIds] using hid
        · intro f hf
          rw [hnumber]
          rcases hmem f hf with hf | hf
          · exact h.fresh f (hlfutures ▸ hf)
          · have hid : f.1 ∈ before.pendingFutures := by
              rw [← hids, ← List.nil_append (answers.map _)]
              exact htakenIds ▸ List.mem_map_of_mem hf
            exact h.fresh (f.1, .pending) (Machine.mem_of_mem_pending hid)
        · rw [hnumber]
          exact h.numbered

/-! ### Rounds -/

variable {x : Exit} {p : Progress} {step next : Step HostError} {traced : Bool}

/-- The run of a call is answered at once, with something. -/
theorem Pauses.answer_now (h : d.Pauses host script inputs budget past text x m p st step)
    (hcall : x.isCall = true) (hp : p.sight.call? = x.call?)
    {host' : ω} {files : Option FileSystem}
    (hanswers : d.Answers p.sight st.host st.files r host' files)
    (hst : st' = { st.after step with host := host', files }) {step' : Step Exception}
    (hstep : (script.pause m).answer r.toAnswer traced steps = some step') :
    d.Comes host script inputs budget st' (step'.mapError .ofException) := by
  obtain ⟨before, hserves, hrests⟩ := h.served
  have hdealt : d.Dealt host (.answer p.sight r.toAnswer :: past) st'.ledger := by
    rw [hst]
    exact hserves.dealt.now hanswers
  refine goOn_comes rfl hdealt (fun n hn => ?_)
    (fun e n hn => .answer _ _ _ h.recounts hcall h.progressAt hn) hstep
  have hreceived := Machine.receive_now (toAnswer_ne_later r) hn
  have houtput : st'.output = text := by rw [hst]; exact h.output
  refine ⟨?_, houtput ▸ h.recounts.answer _ _ _ hcall h.progressAt hn⟩
  cases hrests with
  | returned v hk => cases hcall
  | blocked hne hk => cases hcall
  | call hx hadds hnext hpending =>
    exact hserves.now (hp.trans hx) hdealt (by rw [hst]; rfl)
      (hreceived.futures.trans hadds.futures) (hreceived.nextCall.trans hnext) hreceived.output

/-- The run of a call is answered later. -/
theorem Pauses.answer_later {name : String} {args : List Object}
    {named : List (String × Object)} {call : Nat}
    (h : d.Pauses host script inputs budget past text x m p st step)
    (hp : p.sight = .functionCall name args named call) (hcall : x.call? = some call)
    (hname : d.defers name = true)
    (hst : st' = { st.after step with
      waiting := (call, ⟨name, args, named, call⟩) :: st.waiting })
    {step' : Step Exception} (hstep : (script.pause m).answer .later traced steps = some step') :
    d.Comes host script inputs budget st' (step'.mapError .ofException) := by
  obtain ⟨before, hserves, hrests⟩ := h.served
  obtain ⟨hfunction, hdeferred⟩ : d.functions.lookup name = none ∧
      (d.deferred.lookup name).isSome := by simpa [defers] using hname
  have hx : x.isCall = true := by cases x <;> first | rfl | cases hcall
  have hdealt : d.Dealt host (.answer p.sight .later :: past) st'.ledger := by
    have hledger : st'.ledger = { st.ledger with
        waiting := st.ledger.waiting ++ [(call, ⟨name, args, named, call⟩)] } := by
      rw [hst, State.ledger, List.reverse_cons]
      rfl
    rw [hp, hledger]
    exact hserves.dealt.later hfunction hdeferred
  refine goOn_comes rfl hdealt (fun n hn => ?_)
    (fun e n hn => .answer _ _ _ h.recounts hx h.progressAt hn) hstep
  have houtput : st'.output = text := by rw [hst]; exact h.output
  refine ⟨?_, houtput ▸ h.recounts.answer _ _ _ hx h.progressAt hn⟩
  cases hrests with
  | returned v hk => cases hcall
  | blocked hne hk => cases hcall
  | call hx hadds hnext hpending =>
    obtain rfl : before.nextCall = call := Option.some.inj (hx.symm.trans hcall)
    have hreceived :=
      Machine.receive_later (m := (script.pause m).machine traced .collector) hpending hn
    refine hserves.later hp hdealt (by rw [hst]) (hreceived.futures.trans ?_)
      (hreceived.nextCall.trans hnext) hreceived.output
    exact congrArg (Machine.setFuture.insert before.nextCall .pending) hadds.futures

/-- A run that waits is given the results of all handlers. -/
theorem Pauses.answer_all {pending : List Nat}
    (h : d.Pauses host script inputs budget past text (.blocked pending) m p st step)
    {results : List (Nat × HandlerResult)} {host' : ω}
    (hmakes : d.Makes st.ledger.waiting st.host results host')
    (hpending : pending = st.ledger.waiting.map (·.1))
    (hst : st' = { st.after step with host := host', waiting := [] }) {step' : Step Exception}
    (hstep : (script.pause m).resolve pending (results.map fun (id, r) => (id, r.toAnswer)) traced
      steps = some step') :
    d.Comes host script inputs budget st' (step'.mapError .ofException) := by
  obtain ⟨before, hserves, hrests⟩ := h.served
  let answers := results.map fun (id, r) => (id, r.toAnswer)
  have hids : answers.map (·.1) = pending := by
    rw [hpending, ← hmakes.ids, List.map_map]
    rfl
  have hdealt : d.Dealt host (.results pending answers :: past) st'.ledger := by
    rw [hst, hpending]
    exact hserves.dealt.wait hmakes
  unfold Paused.resolve at hstep
  split at hstep
  · next e hreceived =>
    cases hstep
    exact .fails rfl hdealt (.results _ _ _ h.recounts hreceived)
  · next received hreceived =>
    refine goOn_comes rfl hdealt (fun n hn => ?_) (fun e n hn => ?_) hstep
    · rw [hn] at hreceived
      have houtput : st'.output = text := by rw [hst]; exact h.output
      refine ⟨?_, houtput ▸ h.recounts.resolve _ _ _ hreceived⟩
      cases hrests with
      | call hx => cases hx
      | blocked hne hk =>
        refine hserves.resolved (m := (script.pause m).machine traced .collector) hdealt
          (by rw [hst]) hids (fun a ha => ?_) hk.futures hk.nextCall rfl hreceived
        obtain ⟨⟨id, r⟩, -, rfl⟩ := List.mem_map.mp ha
        exact toAnswer_ne_later r
    · rw [hn] at hreceived
      exact .resolve _ _ _ h.recounts hreceived

/-- The step that a dispatcher goes on with is that of its run. -/
theorem exists_step {answered : State ω} {o : Option (Step Exception)}
    (h : (o.map fun step => (some (step.mapError HostError.ofException), answered)) =
      some (some next, st')) :
    ∃ step, o = some step ∧ step.mapError .ofException = next ∧ answered = st' := by
  obtain ⟨step, hstep, heq⟩ := Option.map_eq_some_iff.mp h
  obtain ⟨hnext, hst⟩ := Prod.mk.inj heq
  exact ⟨step, hstep, Option.some.inj hnext, hst⟩

theorem Pauses.respond (h : d.Pauses host script inputs budget past text x m p st step)
    (hrespond : d.respond (st.after step) traced steps p = some (some next, st')) :
    d.Comes host script inputs budget st' next := by
  cases Script.displays h.progressAt with
  | complete v => cases hrespond
  | osCall function args call =>
    simp only [Dispatcher.respond] at hrespond
    generalize hanswer : d.answerOs (st.after step) _ = answer at hrespond
    obtain ⟨r, answered⟩ := answer
    simp only [Continuation.resume, Option.map_map] at hrespond
    obtain ⟨step', hstep, rfl, rfl⟩ := exists_step hrespond
    obtain ⟨host', files, hanswers, hst⟩ := answerOs_answers hanswer
    exact h.answer_now rfl rfl hanswers hst hstep
  | functionCall args call hfunction =>
    unfold Dispatcher.respond at hrespond
    simp only at hrespond
    split at hrespond
    · next hname =>
      simp only [Continuation.defer, Option.map_map] at hrespond
      obtain ⟨step', hstep, rfl, rfl⟩ := exists_step hrespond
      exact h.answer_later rfl rfl hname rfl hstep
    · next hname =>
      generalize hanswer : d.answerFunction (st.after step) _ = answer at hrespond
      obtain ⟨r, answered⟩ := answer
      simp only [Continuation.resume, Option.map_map] at hrespond
      obtain ⟨step', hstep, rfl, rfl⟩ := exists_step hrespond
      obtain ⟨host', hanswers, hst⟩ := answerFunction_answers (by simpa using hname) hanswer
      exact h.answer_now rfl rfl hanswers hst hstep
  | futures pending =>
    obtain ⟨before, hserves, hrests⟩ := h.served
    obtain rfl : pending = before.pendingFutures := by
      cases hrests with
      | blocked hne hk => rfl
      | call hx => cases hx
    have hserved : d.Serves host past (st.after step) before := { hserves with }
    obtain ⟨results, host', hmakes, hresults⟩ := hserved.makes
    have hids : results.map (·.1) = before.pendingFutures := hmakes.ids.trans hserves.pending.symm
    have hcollect : (⟨before.pendingFutures, some (script.pause m)⟩ : FutureBatch).collect []
        results = .ok results :=
      collect_eq (pairwise_pendingFutures hserves.ordered) hids
    simp only [Dispatcher.respond, hresults, FutureBatch.resolve, hcollect, Option.map_map]
      at hrespond
    obtain ⟨step', hstep, rfl, rfl⟩ := exists_step hrespond
    exact h.answer_all hmakes hserves.pending rfl hstep

/-! ### All rounds -/

section
variable (d : Dispatcher ω) (host : ω) (source : String) (supply : List (String × Object))
  (parse : Parser) (clock : Clock)

/-- What the run of a program starts with. The host has been asked for its functions. -/
def Starts (program : Program) (inputs : List Object) (budget : Budget) (host' : ω) : Prop :=
  d.compile source (supply.map (·.1)) parse host = (.ok program, host') ∧
    program.prepare supply d.limits clock = .ok (inputs, budget)

/-- The states and steps that a dispatcher looks at. -/
inductive Tops (traced : Bool) (steps : Nat) : State ω → Step HostError → Prop
  | start {program host' step} :
      d.compile source (supply.map (·.1)) parse host = (.ok program, host') →
      program.start supply d.limits traced steps clock = some step →
      Tops traced steps ⟨host', d.files, "", [], []⟩ step
  | round {st st' : State ω} {step next p} : Tops traced steps st step → step.outcome = .ok p →
      d.respond (st.after step) traced steps p = some (some next, st') → Tops traced steps st' next

/-- What a run ends with. Its value, all that it has printed and the files after all operations; or
its exception; or the error for which there is no run. The state of the host is what the exchanges
of the run have left. -/
inductive Ends (run : DispatchedRun ω) : Prop
  | completed {program inputs budget host' past l v m result} :
      d.Starts host source supply parse clock program inputs budget host' →
      program.script.Recounts inputs budget past result.output (some (.returned v)) m →
      program.script.progressAt (.returned v) m = .ok (.complete result.value) →
      d.Dealt host' past l → run.host = l.host → result.files = filesAfter d.files past →
      run.result = .ok result → Ends run
  | failed {program inputs budget host' past l e} :
      d.Starts host source supply parse clock program inputs budget host' →
      program.script.Breaks inputs budget past e → d.Dealt host' past l → run.host = l.host →
      run.result = .error (.ofException e) → Ends run
  | rejected {e} : d.compile source (supply.map (·.1)) parse host = (.error e, run.host) →
      run.result = .error e → Ends run
  | unprepared {program e} :
      d.compile source (supply.map (·.1)) parse host = (.ok program, run.host) →
      program.prepare supply d.limits clock = .error e → run.result = .error e → Ends run

end

/-- Where a dispatcher stands when it looks at a step of its run. -/
structure Stands (d : Dispatcher ω) (host : ω) (past : List Exchange) (text : String) (p : Progress)
    (m : Machine) (st : State ω) (step : Step HostError) : Prop where
  dealt : d.Dealt host past st.ledger
  /-- The calls that wait are those that the run may wait for. -/
  keys : st.ledger.waiting.map (·.1) = m.pendingFutures
  ascending : m.pendingFutures.Pairwise (· < ·)
  /-- Each call before this one has got one result, or waits. -/
  once : (past.flatMap Exchange.settled ++ m.pendingFutures).Perm
    (past.filterMap (·.sight.call?))
  /-- Calls are numbered in order. -/
  numbered : (p.sight.call?.toList ++ past.filterMap (·.sight.call?)).reverse =
    List.range m.nextCall
  /-- A run that waits gets a result from the handler of each call that waits, in order. -/
  answered : ∀ pending r, p = .futures pending r → pending = m.pendingFutures ∧
    ∃ results host', d.Makes st.ledger.waiting st.host results host' ∧
      d.answerAllDeferred (st.after step) [] (pending.mergeSort (· ≤ ·)) =
        (results, { st.after step with host := host', waiting := [] })
  /-- All that has been printed, in order. -/
  output : st.output ++ step.output = text
  files : st.files = filesAfter d.files past

variable {source : String} {supply : List (String × Object)} {parse : Parser} {clock : Clock}

theorem call?_sight (h : script.progressAt x m = .ok p) : p.sight.call? = x.call? := by
  cases Script.displays h <;> rfl

theorem Pauses.stands (h : d.Pauses host script inputs budget past text x m p st step) :
    d.Stands host past text p m st step := by
  obtain ⟨before, hserves, hrests⟩ := h.served
  have hpending : m.pendingFutures = before.pendingFutures := by
    have hfutures : m.futures = before.futures := by
      cases hrests with
      | returned v hk => exact hk.futures
      | blocked hne hk => exact hk.futures
      | call hx hadds hnext hpending => exact hadds.futures
    rw [Machine.pendingFutures, Machine.pendingFutures, hfutures]
  have hcall := call?_sight h.progressAt
  exact {
    dealt := hserves.dealt
    keys := (hpending.trans hserves.pending).symm
    ascending := hpending ▸ pairwise_pendingFutures hserves.ordered
    once := by
      rw [hpending, hserves.pending]
      exact hserves.dealt.once
    numbered := by
      rw [hcall, List.reverse_append, hserves.numbered]
      cases hrests with
      | returned v hk => rw [hk.nextCall]; exact List.append_nil _
      | blocked hne hk => rw [hk.nextCall]; exact List.append_nil _
      | call hx hadds hnext hnumber => rw [hx, hnext, List.range_succ]; rfl
    answered := by
      rintro pending r rfl
      cases Script.displays h.progressAt
      cases hrests with
      | call hx => cases hx
      | blocked hne hk =>
        have hserved : d.Serves host past (st.after step) before := { hserves with }
        exact ⟨hpending.symm, hserved.makes⟩
    output := h.output
    files := hserves.dealt.files_eq }

theorem Tops.comes (h : d.Tops host source supply parse clock traced steps st step) :
    (∃ program e, d.compile source (supply.map (·.1)) parse host = (.ok program, st.host) ∧
        program.prepare supply d.limits clock = .error e ∧ step.outcome = .error e) ∨
      ∃ program inputs budget host',
        d.Starts host source supply parse clock program inputs budget host' ∧
          d.Comes host' program.script inputs budget st step := by
  induction h with
  | @start program host' step hcompile hstart =>
    unfold Program.start at hstart
    split at hstart
    · next e hprepare =>
      cases hstart
      exact .inl ⟨program, e, hcompile, hprepare, rfl⟩
    · next inputs budget hprepare =>
      refine .inr ⟨program, inputs, budget, host', ⟨hcompile, hprepare⟩, ?_⟩
      obtain ⟨step', hstep, rfl⟩ := Option.map_eq_some_iff.mp hstart
      unfold Script.start at hstep
      split at hstep
      · next e hglobals =>
        cases hstep
        exact .fails rfl .start (.start hglobals)
      · next heap globals hglobals =>
        have hserves : d.Serves host' [] ⟨host', d.files, "", [], []⟩
            (Script.begin heap globals traced .collector) :=
          ⟨.start, rfl, .nil, nofun, rfl, rfl⟩
        exact hserves.proceed (.start traced .collector hglobals) hstep
  | round _ hp hrespond ih =>
    rcases ih with ⟨_, e, -, -, he⟩ | ⟨program, inputs, budget, host', hstarts, hcomes⟩
    · rw [hp] at he
      cases he
    · refine .inr ⟨program, inputs, budget, host', hstarts, ?_⟩
      cases hcomes with
      | fails he =>
        rw [hp] at he
        cases he
      | pauses hpauses =>
        obtain rfl := Except.ok.inj (hp.symm.trans hpauses.outcome)
        exact hpauses.respond hrespond

/-- The last step that the dispatcher has looked at, and what it returns then. -/
def Returns (st : State ω) (step : Step HostError) (run : DispatchedRun ω) : Prop :=
  run.host = st.host ∧
    match step.outcome with
    | .error e => run.result = .error e
    | .ok (.complete v) => run.result = .ok ⟨v, st.output ++ step.output, st.files⟩
    | .ok _ => False

theorem Tops.returns {rounds : Nat} {run : DispatchedRun ω}
    (h : d.Tops host source supply parse clock traced steps st step)
    (hrun : d.goOn traced steps rounds st step = some run) :
    ∃ st step, d.Tops host source supply parse clock traced steps st step ∧
      Returns st step run := by
  induction rounds generalizing st step with
  | zero => cases hrun
  | succ rounds ih =>
    rw [goOn] at hrun
    cases hstep : step.outcome with
    | error e =>
      rw [hstep] at hrun
      cases hrun
      exact ⟨st, step, h, rfl, by rw [hstep]; rfl⟩
    | ok p =>
      rw [hstep] at hrun
      simp only at hrun
      split at hrun
      · cases hrun
        exact ⟨st, step, h, rfl, by rw [hstep]; rfl⟩
      · split at hrun
        · next hrespond => exact ih (h.round hstep hrespond) hrun
        · cases hrun

end Dispatcher

end Resumable
