import Resumable.Proofs.Lockstep.Copy
import Resumable.Proofs.Resumption

/-!
# A run that is ahead

A run whose futures are resolved when they are made is ahead of one that waits for their results. It
keeps the values that the other one has not received yet, in cells that nothing else refers to. When
the other one receives a result, its copy is paired with the one that has been kept.
-/

namespace Resumable

/-! ## Hosts that follow a plan

A plan says of each host call, by its number alone, whether it is answered at once or with a future,
and what comes of it. A host that follows it is free in how it resolves futures: whenever the run is
blocked it gives the results of any pending calls, in any order. -/

/-- What comes of the calls of a run. -/
structure Plan where
  /-- Whether a call is answered with a future. -/
  isLater : Nat → Bool
  /-- The value of a call, or the type and the message of its exception and the limit that it
  reports. -/
  outcome : Nat → Except (ExceptionType × Option String × Option LimitError) Object

namespace Plan

/-- The result of a call. -/
def result (plan : Plan) (call : Nat) : Answer :=
  match plan.outcome call with
  | .ok v => .value v
  | .error (type, message, limit) => .exception type message limit

/-- What a call is answered with. -/
def answer (plan : Plan) (call : Nat) : Answer :=
  if plan.isLater call then .later else plan.result call

/-- The values that futures are resolved with can enter a run. -/
def Convertible (plan : Plan) : Prop :=
  ∀ call v, plan.isLater call → plan.outcome call = .ok v → v.Convertible

end Plan

/-- The number of the call that a host is asked to answer. -/
def Sight.call? : Sight → Option Nat
  | .functionCall _ _ _ call | .osCall _ _ _ call => some call
  | .futures _ | .complete _ => none

/-- A host that answers calls as planned, and resolves some of the pending ones whenever the run is
blocked, each once. It takes all that is printed. -/
structure Host.Follows (host : Host) (plan : Plan) : Prop where
  answer : ∀ {report sight call} (seen : List Report), report.outcome = .ok sight →
    sight.call? = some call → (host (report :: seen)).answer = plan.answer call
  results : ∀ {report pending} (seen : List Report), report.outcome = .ok (.futures pending) →
    ∃ ids : List Nat, ids.Nodup ∧ ids ⊆ pending ∧
      (host (report :: seen)).results = ids.map fun id => (id, plan.result id)
  writer : ∀ seen, (host seen).writer = .collector

/-- What a host sees last. -/
def lastSight : List Report → Option Sight
  | [] => none
  | report :: _ => report.outcome.toOption

/-- The host that follows a plan and gives the results of the pending calls that it chooses. -/
def Plan.host (plan : Plan) (choose : List Nat → List Nat) : Host := fun reports =>
  match lastSight reports with
  | some (.futures pending) =>
    ⟨.later, (choose pending).map fun call => (call, plan.result call), false, .collector⟩
  | some sight => ⟨(sight.call?.map plan.answer).getD .later, [], false, .collector⟩
  | none => ⟨.later, [], false, .collector⟩

theorem Plan.host_follows (plan : Plan) {choose : List Nat → List Nat}
    (hnodup : ∀ pending, (choose pending).Nodup) (hsub : ∀ pending, choose pending ⊆ pending) :
    (plan.host choose).Follows plan where
  answer {report sight call} seen hreport hcall := by
    have hlast : lastSight (report :: seen) = some sight := by rw [lastSight, hreport]; rfl
    unfold Plan.host
    rw [hlast]
    cases sight with
    | futures pending => cases hcall
    | complete value => cases hcall
    | _ => cases hcall; rfl
  results {report pending} seen hreport := by
    have hlast : lastSight (report :: seen) = some (.futures pending) := by
      rw [lastSight, hreport]
      rfl
    refine ⟨choose pending, hnodup pending, hsub pending, ?_⟩
    unfold Plan.host
    rw [hlast]
  writer seen := by
    unfold Plan.host
    split <;> rfl

/-- What a run has done in the end, whatever the steps that it took. -/
structure Observed where
  /-- The calls of the host's functions and of the operating system, with their arguments and
  numbers. -/
  calls : List Sight
  output : String
  result : Except Exception Object

/-- The calls that reports tell of. -/
def called : List Report → List Sight
  | [] => []
  | report :: seen =>
    called seen ++ match report.outcome with
      | .ok sight => if sight.call?.isSome then [sight] else []
      | .error _ => []

/-- What a run has done, if its last report tells that it has ended. -/
def Observed.ofReports? : List Report → Option Observed
  | [] => none
  | report :: seen =>
    let observed := fun result =>
      some ⟨called (report :: seen), printed (report :: seen), result⟩
    match report.outcome with
    | .error e => observed (.error e)
    | .ok (.complete value) => observed (.ok value)
    | .ok _ => none

/-! ## What is kept -/

open List (Forall₂)

/-- The cells that are kept for each call. -/
abbrev Kept := Nat → Nat → Cell → Prop

/-- No cell is kept for two calls. -/
def Kept.Distinct (kept : Kept) : Prop := ∀ ⦃i j y c d⦄, kept i y c → kept j y d → i = j

/-- The cells that are kept when a call has been resolved. -/
def Kept.without (kept : Kept) (call : Nat) : Kept := fun i y c => i ≠ call ∧ kept i y c

theorem Kept.Distinct.without {kept : Kept} (hk : kept.Distinct) (call : Nat) :
    (kept.without call).Distinct := fun _ _ _ _ _ h h' => hk h.2 h'.2

/-- What is known of a future in a run and in the one that is ahead of it. -/
inductive Foreseen (plan : Plan) (cells : Nat → Cell → Prop) (p : Pairing) (call : Nat) :
    Option Future → Option Future → Prop
  | unknown : Foreseen plan cells p call none none
  | resolved {v w} : v.Alike .values p w →
      Foreseen plan cells p call (some (.resolved v)) (some (.resolved w))
  | failed (e) : Foreseen plan cells p call (some (.failed e)) (some (.failed e))
  | value {o q w} : plan.isLater call → plan.outcome call = .ok o → o.Copied q cells w →
      Foreseen plan cells p call (some .pending) (some (.resolved w))
  | exception {type message limit} : plan.isLater call →
      plan.outcome call = .error (type, message, limit) →
      Foreseen plan cells p call (some .pending) (some (.failed (.fresh type message limit)))

section
variable {plan : Plan} {cells cells' : Nat → Cell → Prop} {p q : Pairing} {call : Nat}
  {f g : Option Future}

theorem Foreseen.mono (h : Foreseen plan cells p call f g) (hpq : p ≤ q)
    (hcells : ∀ {y c}, cells y c → cells' y c) : Foreseen plan cells' q call f g := by
  cases h with
  | unknown => exact .unknown
  | resolved h => exact .resolved (h.mono hpq)
  | failed e => exact .failed e
  | value hlater ho h => exact .value hlater ho (h.mono fun _ => hcells)
  | exception hlater ho => exact .exception hlater ho

end

/-- The future of a call, where some results have been received but not been recorded yet. -/
def futureOf (done fs : List (Nat × Future)) (call : Nat) : Option Future :=
  (done.lookup call).or (fs.lookup call)

/-- What is known of all futures, the first list being in order. -/
def Plan.foresight (plan : Plan) (kept : Kept) (done : List (Nat × Future)) : Foresight where
  rel p fs gs := fs.Pairwise (·.1 < ·.1) ∧
    ∀ call, Foreseen plan (kept call) p call (futureOf done fs call) (gs.lookup call)
  mono hpq h := ⟨h.1, fun call => (h.2 call).mono hpq id⟩

/-- The world of a run that has printed a text before and received some results, and of the one that
is ahead of it. -/
def World.ahead (plan : Plan) (kept : Kept) (text : String) (done : List (Nat × Future)) :
    World where
  __ := Accounts.free
  external _ := True
  future _ := True
  fixed := False
  collects h := h.elim
  kept y c := ∃ call, kept call y c
  foresight := some (plan.foresight kept done)
  writer w := w = .collector
  written := by rintro _ rfl c; rfl
  output a b := text ++ a = b
  print := by rintro a _ rfl c; exact String.append_assoc.symm
  events _ _ := True
  record _ _ := trivial

namespace Machine

variable {plan : Plan} {kept kept' : Kept} {text : String} {done : List (Nat × Future)}
  {p q : Pairing} {m n : Machine}

/-- A run is behind another one. -/
abbrev Behind (plan : Plan) (kept : Kept) (text : String) (done : List (Nat × Future))
    (p : Pairing) (m n : Machine) : Prop := m.Paired (.ahead plan kept text done) p n

theorem ahead_values : World.values.Within (.ahead plan kept text done) :=
  .of_values (fun _ => trivial) fun _ => trivial

theorem ahead_within {kept' : Kept} {text' : String} {done' : List (Nat × Future)} :
    (World.ahead plan kept text done).Within (.ahead plan kept' text' done') :=
  ⟨fun _ => trivial, fun _ => trivial⟩

theorem Alike.foreseen (h : m.Alike (.ahead plan kept text done) p n) :
    (plan.foresight kept done).rel p m.futures n.futures := by
  cases h.futures with
  | each hκ _ => cases hκ
  | foreseen hκ h => exact Option.some.inj hκ ▸ h

/-! ## Futures -/

section
variable {fs : List (Nat × Future)} {call i : Nat} {f : Future}

theorem lookup_insert :
    (setFuture.insert call f fs).lookup i = if i = call then some f else fs.lookup i := by
  induction fs with
  | nil => rw [setFuture.insert, List.lookup_cons_if]
  | cons g fs ih =>
    obtain ⟨j, g⟩ := g
    rw [setFuture.insert]
    by_cases hj : j = call
    · subst hj
      simp only [beq_self_eq_true, if_true, List.lookup_cons_if]
      split <;> rfl
    · rw [if_neg (by simpa using hj)]
      by_cases hlt : j > call
      · rw [if_pos hlt, List.lookup_cons_if]
      · rw [if_neg hlt, List.lookup_cons_if, List.lookup_cons_if, ih]
        by_cases hi : i = j
        · rw [if_pos hi, if_pos hi, if_neg (hi ▸ hj)]
        · rw [if_neg hi, if_neg hi]

theorem mem_insert {x : Nat × Future} (hx : x ∈ setFuture.insert call f fs) :
    x = (call, f) ∨ x ∈ fs := by
  induction fs with
  | nil => simpa [setFuture.insert] using hx
  | cons g fs ih =>
    obtain ⟨j, g⟩ := g
    rw [setFuture.insert] at hx
    split at hx
    · rcases List.mem_cons.mp hx with rfl | hx
      · exact .inl rfl
      · exact .inr (List.mem_cons_of_mem _ hx)
    · split at hx
      · exact List.mem_cons.mp hx
      · rcases List.mem_cons.mp hx with rfl | hx
        · exact .inr List.mem_cons_self
        · exact (ih hx).imp_right (List.mem_cons_of_mem _)

theorem ordered_insert (h : fs.Pairwise (·.1 < ·.1)) :
    (setFuture.insert call f fs).Pairwise (·.1 < ·.1) := by
  induction fs with
  | nil => simp [setFuture.insert]
  | cons g fs ih =>
    obtain ⟨j, g⟩ := g
    obtain ⟨hfirst, hrest⟩ := List.pairwise_cons.mp h
    rw [setFuture.insert]
    split
    · next hj =>
      obtain rfl := beq_iff_eq.mp hj
      exact .cons hfirst hrest
    · next hj =>
      split
      · next hlt =>
        refine .cons (fun x hx => ?_) h
        rcases List.mem_cons.mp hx with rfl | hx
        · exact hlt
        · exact hlt.trans (hfirst x hx)
      · next hge =>
        refine .cons (fun x hx => ?_) (ih hrest)
        have hne : j ≠ call := by simpa using hj
        rcases mem_insert hx with rfl | hx
        · exact lt_of_le_of_ne (Nat.le_of_not_lt hge) hne
        · exact hfirst x hx

end

theorem setFuture_future? (m : Machine) (call i : Nat) (f : Future) :
    (m.setFuture call f).future? i = if i = call then some f else m.future? i := lookup_insert

theorem mem_of_mem_pending {call : Nat} (h : call ∈ m.pendingFutures) :
    (call, .pending) ∈ m.futures := by
  obtain ⟨⟨i, f⟩, hf, hi⟩ := List.mem_filterMap.mp h
  cases f with
  | pending => exact Option.some.inj hi ▸ hf
  | _ => cases hi

/-- In a list in order, a future that is listed as pending is known to be pending. -/
theorem pending_of_mem (h : m.futures.Pairwise (·.1 < ·.1)) {call : Nat}
    (hcall : call ∈ m.pendingFutures) : m.future? call = some .pending := by
  have hkeys : (m.futures.map (·.1)).Nodup := (List.pairwise_map.mpr h).imp ne_of_lt
  exact (List.lookup_eq_some_iff_mem hkeys).mpr (mem_of_mem_pending hcall)

/-! ## What an instruction asks of the host -/

/-- A call that the machine notes as pending, or the end of the program. -/
inductive Asked (n : Machine) : Exit → Prop
  | returned (v) : Asked n (.returned v)
  | externalCall (function args) {call} : n.pendingCall = some call →
      Asked n (.externalCall function args call)
  | osCall (function args) {call} : n.pendingCall = some call →
      Asked n (.osCall function args call)

/-- An action that never stops the run to wait for a future. -/
structure Asks (act : Exec (Option Exit)) : Prop where
  asked : ∀ {m n x}, act m = .ok (some x) n → Asked n x

namespace Asks

theorem bind {α : Type} {a : Exec α} {f : α → Exec (Option Exit)} (h : ∀ r, Asks (f r)) :
    Asks (a >>= f) := by
  refine ⟨fun {m n x} hx => ?_⟩
  change EStateM.bind a f m = _ at hx
  unfold EStateM.bind at hx
  split at hx
  · exact (h _).asked hx
  · cases hx

/-- An exit of the first action is that of both. -/
theorem orElse {a : Exec (Option Exit)} {f : Option Exit → Exec (Option Exit)} (ha : Asks a)
    (hsome : ∀ x, f (some x) = pure (some x)) (hnone : Asks (f none)) : Asks (a >>= f) := by
  refine ⟨fun {m n x} hx => ?_⟩
  change EStateM.bind a f m = _ at hx
  unfold EStateM.bind at hx
  split at hx
  · next y n' hy =>
    cases y with
    | none => exact hnone.asked hx
    | some y =>
      rw [hsome] at hx
      obtain ⟨hyx, rfl⟩ := EStateM.Result.ok.inj hx
      exact Option.some.inj hyx ▸ ha.asked hy
  · cases hx

theorem none : Asks (pure none) := ⟨nofun⟩

theorem fail (e : Failure) : Asks (throw e) := ⟨nofun⟩

theorem ask (kind : PauseKind) {x : Nat → Exit}
    (hx : ∀ {n : Machine} {call}, n.pendingCall = some call → Asked n (x call)) :
    Asks do
      let call ← beginCall
      trace fun _ => .pause kind (some call)
      return some (x call) := by
  refine ⟨fun {m n y} hy => ?_⟩
  obtain ⟨hexit, rfl⟩ := EStateM.Result.ok.inj hy
  refine Option.some.inj hexit ▸ hx ?_
  exact congrArg (·.pendingCall) (record_eq _ _)

theorem settle (r : Reply) : Asks (settle r) := by
  cases r with
  | value v => exact bind fun _ => none
  | output chunks => exact bind fun _ => bind fun _ => none
  | request function args => exact ask .os fun h => .osCall function args h

theorem callValue (code : Bytecode) (v : Value) (args : Arguments) :
    Asks (callValue code v args) := by
  cases v with
  | function function defaults => exact bind fun _ => none
  | external function => exact ask .function fun h => .externalCall function args h
  | builtin function => exact bind fun r => settle r
  | excClass type => exact bind fun _ => bind fun _ => none
  | _ => exact bind fun _ => fail _

theorem getAttribute (v : Value) (name : String) : Asks (getAttribute v name) := by
  refine bind fun m => ?_
  split
  · exact settle _
  · exact fail _

theorem callOwnMethod (v : Value) (name : String) (args : Arguments) :
    Asks (callOwnMethod v name args) := by
  refine bind fun m => ?_
  split
  · exact bind fun _ => bind fun _ => none
  · exact bind fun _ => fail _

theorem callMethod (code : Bytecode) (v : Value) (name : String) (args : Arguments) :
    Asks (callMethod code v name args) := by
  unfold Machine.callMethod
  split
  iterate 3
    exact orElse (getAttribute _ name) (fun _ => rfl) (bind fun _ => callValue code _ args)
  · split
    · exact settle _
    · exact callOwnMethod _ name args
  · exact callOwnMethod v name args

theorem leave : Asks leave := by
  refine bind fun v => bind fun _ => bind fun m => ?_
  split
  · refine ⟨fun {m n x} hx => ?_⟩
    obtain ⟨hexit, rfl⟩ := EStateM.Result.ok.inj hx
    exact Option.some.inj hexit ▸ .returned v
  · exact bind fun _ => bind fun _ => bind fun _ => none

theorem execute (code : Bytecode) {op : Op} (hop : op ≠ .await) : Asks (execute code op) := by
  cases op with
  | getAttr name => exact bind fun v => bind fun m => getAttribute v _
  | call count keywords => exact bind fun _ => bind fun _ => bind fun v => callValue code v _
  | callVar keywords => exact bind fun _ => bind fun _ => bind fun v => callValue code v _
  | callMethod name count keywords =>
    exact bind fun _ => bind fun _ => bind fun v => bind fun m => callMethod code v _ _
  | callMethodVar name keywords =>
    exact bind fun _ => bind fun _ => bind fun v => bind fun m => callMethod code v _ _
  | «return» => exact leave
  | await => exact (hop rfl).elim
  | _ => exact bind fun _ => none

end Asks

/-! ## Instructions -/

theorem step_of_free {m : Machine} (hm : m.heap.budget = .free) (code : Bytecode) :
    step code m = executeNext code m := by
  have htick : m.heap.budget.tick = (.free, none) := by rw [hm]; rfl
  have hticked : m.ticked = m := by
    rw [ticked, htick, ← hm]
  have hcollected : m.collected = m := by
    rw [collected, Heap.shouldCollect, hm]
    rfl
  rw [step_eq, htick, hticked, hcollected]

/-- The machine at an instruction that waits. -/
def steppedBack (m : Machine) : Machine :=
  { m with frame := { m.frame with next := m.frame.next - 1 } }.record fun _ => .pause .futures none

/-- The result of an awaited value takes its place. -/
def takeResult (m : Machine) (v : Value) : Exec (Option Exit) := do
  let _ ← pop
  push (← awaitedValue m v)
  return none

theorem await_eq (m : Machine) :
    await m = match awaitedFutures (m.stack.head?.getD .none) with
      | none =>
        let kind := m.heap.typeName (m.stack.head?.getD .none)
        .error (.typeError s!"object {kind} can't be used in 'await' expression") m
      | some ids =>
        if ids.any m.isPending then .ok (some (.blocked m.pendingFutures)) m.steppedBack
        else takeResult m (m.stack.head?.getD .none) m := by
  have hread : ∀ f : Value → Machine → Exec (Option Exit),
      (do let v ← peek; let n ← get; f v n) m = f (m.stack.head?.getD .none) m m := fun _ => rfl
  rw [await, hread]
  cases awaitedFutures (m.stack.head?.getD .none) with
  | none => rfl
  | some ids =>
    dsimp only
    split <;> rfl

/-- One instruction of a run that is behind: the one that is ahead takes it as well, unless it waits
for a future. -/
inductive StepsBehind (κ : World) (code : Bytecode) (n : Machine) : Advance → Prop
  | next {m' n'} : advance code n = .next n' → Matched κ m' n' →
      StepsBehind κ code n (.next m')
  | exit {p x y m' n'} : advance code n = .exit y n' → ExitAlike κ p x y → Asked m' x →
      Machine.Paired κ p m' n' → StepsBehind κ code n (.exit x m')
  | blocked {m'} : Matched κ m' n → StepsBehind κ code n (.exit (.blocked m'.pendingFutures) m')
  | failed {e m' n'} : advance code n = .failed e n' → Ended κ m' n' →
      StepsBehind κ code n (.failed e m')
  | endless : StepsBehind κ code n .endless

theorem StepsBehind.of_outcome {κ : World} {code : Bytecode}
    (h : Outcome (Machine.Paired κ) (Halted κ) p (EndAlike κ) (step code m) (step code n))
    (hasked : ∀ {x m'}, step code m = .ok (some x) m' → Asked m' x) :
    StepsBehind κ code n (advance code m) := by
  have hn := advance_eq code n
  rw [advance_eq code m]
  revert hn h hasked
  generalize step code m = x
  generalize step code n = y
  intro h hasked hn
  cases h with
  | ok hq hp hr =>
    cases hr with
    | none => exact .next hn ⟨_, hp⟩
    | some hxy => exact .exit hn hxy (hasked rfl) hp
  | error e hq hp =>
    cases e with
    | raised e =>
      obtain ⟨m', n', hm', hn', hmn⟩ | ⟨e, d, he, hd, rfl⟩ := (hp.unwind code e).elim
      · simp only [Advance.ofResult, hm', hn'] at hn ⊢
        exact .next hn ⟨_, hmn⟩
      · simp only [Advance.ofResult, he, hd] at hn ⊢
        exact .failed hn ⟨_, hp⟩
    | overrun e =>
      rw [Advance.ofResult, ← hp.limitException_eq] at hn
      exact .failed hn ⟨_, hp⟩
    | endless => exact .endless
    | stuck => exact .endless

/-- The run that is ahead knows everything that the other one has received. -/
theorem Alike.known_of_not_pending (h : m.Alike (.ahead plan kept text []) p n) {call : Nat}
    (hcall : m.isPending call = false) : KnownAlike (.ahead plan kept text []) p m n call := by
  have hf := h.foreseen.2 call
  change Foreseen plan (kept call) p call (m.future? call) (n.future? call) at hf
  unfold isPending at hcall
  unfold KnownAlike
  revert hf hcall
  generalize m.future? call = f
  generalize n.future? call = g
  intro hcall hf
  cases hf with
  | unknown => exact .none
  | resolved h => exact .some (.resolved (h.transfer ahead_values))
  | failed e => exact .some (.failed e)
  | value _ _ => cases hcall
  | exception _ _ => cases hcall

/-- The run that is ahead waits for nothing. -/
theorem Alike.not_pending (h : m.Alike (.ahead plan kept text []) p n) (call : Nat) :
    n.isPending call = false := by
  have hf := h.foreseen.2 call
  unfold isPending Machine.future?
  generalize n.futures.lookup call = g at hf ⊢
  generalize futureOf [] m.futures call = f at hf
  cases hf <;> rfl

theorem steppedBack_entered (m : Machine) (i : Instr) :
    ∃ events, (m.entered i).steppedBack = { m with events } := by
  rw [steppedBack, entered, record_eq, record_eq]
  exact ⟨_, rfl⟩

/-- Of two machines at an instruction that awaits, the one that is behind may be blocked. -/
theorem Paired.stepsBehind_await {m₀ n₀ : Machine} {i : Instr} {code : Bytecode}
    (h₀ : m₀.Paired (.ahead plan kept text []) p n₀)
    (hm : Machine.step code m₀ = await (m₀.entered i))
    (hn : Machine.step code n₀ = await (n₀.entered i)) :
    StepsBehind (.ahead plan kept text []) code n₀ (Machine.advance code m₀) := by
  have h := h₀.entered i
  have htop : ((m₀.entered i).stack.head?.getD .none).Alike (.ahead plan kept text []) p
      ((n₀.entered i).stack.head?.getD .none) := (Arguments.head?_alike h.stack).getD .none
  rw [await_eq, awaitedFutures_eq htop, Heap.typeName_eq h.heap.toLinked htop] at hm
  rw [await_eq] at hn
  cases hids : awaitedFutures ((n₀.entered i).stack.head?.getD .none) with
  | none =>
    rw [hids] at hm hn
    refine .of_outcome (p := p) ?_ fun hx => ?_
    · rw [hm, hn]
      exact .error _ le_rfl h.toHalted
    · rw [hm] at hx
      cases hx
  | some ids =>
    rw [hids] at hm hn
    dsimp only at hm hn
    have hpending : ids.any (n₀.entered i).isPending = false :=
      List.any_eq_false.mpr fun id _ => by rw [h.toAlike.not_pending]; exact Bool.false_ne_true
    rw [if_neg (hpending ▸ Bool.false_ne_true)] at hn
    by_cases hblocked : ids.any (m₀.entered i).isPending = true
    · rw [if_pos hblocked] at hm
      obtain ⟨events, hback⟩ := steppedBack_entered m₀ i
      have hfutures :
          (m₀.entered i).pendingFutures = (m₀.entered i).steppedBack.pendingFutures := by
        rw [hback, pendingFutures, pendingFutures, Machine.entered, record_eq]
      rw [advance_eq, hm, hfutures]
      refine .blocked ⟨p, ?_⟩
      rw [hback]
      exact { h₀ with events := trivial }
    · rw [if_neg hblocked] at hm
      refine .of_outcome (p := p) ?_ fun hx => ?_
      · rw [hm, hn]
        refine takeResult_agrees htop (fun ids' hids' id hid => ?_) _ _ h
        rw [awaitedFutures_eq htop, hids] at hids'
        obtain rfl := Option.some.inj hids'
        refine h.toAlike.known_of_not_pending ?_
        rw [Bool.not_eq_true, List.any_eq_false] at hblocked
        exact Bool.eq_false_iff.mpr (hblocked id hid)
      · exact Asks.bind (fun _ => .bind fun _ => .bind fun _ => .none) |>.asked (hm.symm.trans hx)

/-- Machines one of which is behind advance in step. -/
theorem Paired.stepsBehind (h : m.Paired (.ahead plan kept text []) p n) (code : Bytecode) :
    StepsBehind (.ahead plan kept text []) code n (Machine.advance code m) := by
  have hm := step_of_free h.heap.budget.1 code
  have hn := step_of_free h.heap.budget.2 code
  rw [executeNext_eq] at hm hn
  rw [h.fetch_eq] at hm
  cases hfetch : n.fetch code with
  | none =>
    rw [hfetch] at hm hn
    refine .of_outcome (p := p) ?_ fun hx => ?_
    · rw [hm, hn]
      exact .error _ le_rfl h.toHalted
    · rw [hm] at hx
      cases hx
  | some i =>
    rw [hfetch] at hm hn
    dsimp only at hm hn
    by_cases hop : i.op = .await
    · rw [hop] at hm hn
      exact h.stepsBehind_await hm hn
    · refine .of_outcome (p := p) ?_ fun hx => ?_
      · rw [hm, hn]
        exact execute_agrees_of_ne_await code hop _ _ (h.entered i)
      · exact (Asks.execute code hop).asked (hm.symm.trans hx)

end Machine

end Resumable
