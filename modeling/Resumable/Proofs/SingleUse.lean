import Resumable.Host.Sharing

/-!
# A paused run is used once

However the sections of operations on the clones of a handle follow each other, one call at most
takes the run (`Shared.UsedOnce`). A call that ends before that has asked a question or is at
fault, and leaves the handle as it is; a call that begins after that comes too late, whatever it
is. Main statement: `handles_used_once`, for both handles. `Shared.Holds` is what all turns keep.
-/

namespace Resumable

/-- An operation that may take the run, and what the run comes to then. -/
inductive Use.Claims : Use → (Paused → UseResult) → Prop
  | claim (outcome) : Claims (.claim outcome) outcome
  | claimIf (outcome) : Claims (.claimIf (.ok outcome)) outcome

namespace Shared

variable {ο : Type}

/-- How far a call may have come: the run was `run`, `slot` is what is left of it, and `took` says
whether it was this call that took it. -/
inductive Stands (run : Paused) (slot : Option Paused) (took : Prop) : Use → Access → Prop
  | begun (u) : ¬ took → Stands run slot took u u.sections
  | checked (outcome) : ¬ took →
      Stands run slot took (.claimIf (.ok outcome)) (.takes (Use.claimed outcome))
  | toldNo : ¬ took → Stands run slot took .look (.ends (.told false))
  | faulty (fault) : ¬ took →
      Stands run slot took (.claimIf (.error fault)) (.ends (.refused (.validation fault)))
  | late (u) : ¬ took → slot = none → Stands run slot took u (.ends u.late)
  | taken {u outcome} : took → u.Claims outcome → Stands run slot took u (.ends (outcome run))

/-- Whether the run is still there, and who has taken it. -/
inductive Kept (run : Paused) (s : Shared ο) : Prop
  | there : s.run = some run → s.takers = [] → Kept run s
  | taken {i} : s.run = none → s.takers = [i] → i < s.calls.length → Kept run s

/-- What is true of a shared handle at any time. -/
structure Holds (use : ο → Use) (run : Paused) (s : Shared ο) : Prop where
  kept : Kept run s
  calls : ∀ {i op access}, s.calls[i]? = some (op, access) →
    Stands run s.run (i ∈ s.takers) (use op) access

/-- All calls from the `n`-th one on have begun when the run had been taken. -/
structure Late (use : ο → Use) (n : Nat) (s : Shared ο) : Prop where
  run : s.run = none
  length : n ≤ s.calls.length
  calls : ∀ {i op access}, n ≤ i → s.calls[i]? = some (op, access) →
    access = (use op).sections ∨ access = .ends (use op).late

variable {use : ο → Use} {run : Paused} {slot : Option Paused} {took : Prop} {u : Use}
  {access rest : Access} {s : Shared ο} {op op' : ο} {i j n : Nat}

/-! ## One section -/

theorem Stands.gone {took' : Prop} (h : Stands run slot took u access) (htook : took' ↔ took) :
    Stands run none took' u access := by
  obtain rfl := propext htook
  cases h with
  | begun u hnot => exact .begun u hnot
  | checked outcome hnot => exact .checked outcome hnot
  | toldNo hnot => exact .toldNo hnot
  | faulty fault hnot => exact .faulty fault hnot
  | late u hnot _ => exact .late u hnot rfl
  | taken htook hu => exact .taken htook hu

/-- The first section of an operation that comes too late is its last one. -/
theorem enter_sections_none (u : Use) : u.sections.enter none = (.ends u.late, none) := by
  cases u <;> rfl

/-- A section of a call on a handle without its run. -/
theorem Stands.enter_none (h : Stands run none took u access) :
    (access.enter none).2 = none ∧ Stands run none took u (access.enter none).1 := by
  cases h with
  | begun u hnot =>
    rw [enter_sections_none]
    exact ⟨rfl, .late u hnot rfl⟩
  | checked outcome hnot => exact ⟨rfl, .late (.claimIf (.ok outcome)) hnot rfl⟩
  | toldNo hnot => exact ⟨rfl, .toldNo hnot⟩
  | faulty fault hnot => exact ⟨rfl, .faulty fault hnot⟩
  | late u hnot _ => exact ⟨rfl, .late u hnot rfl⟩
  | taken htook hu => exact ⟨rfl, .taken htook hu⟩

/-- A section of a call on a handle with its run: the run is left there or taken. -/
theorem Stands.enter_some (h : Stands run (some run) took u access) (hnot : ¬ took) :
    ((access.enter (some run)).2 = some run ∧
        Stands run (some run) took u (access.enter (some run)).1) ∨
      ((access.enter (some run)).2 = none ∧
        Stands run none True u (access.enter (some run)).1) := by
  cases h with
  | begun u _ =>
    cases u with
    | look => exact .inl ⟨rfl, .toldNo hnot⟩
    | claim outcome => exact .inr ⟨rfl, .taken trivial (.claim outcome)⟩
    | claimIf checked =>
      cases checked with
      | error fault => exact .inl ⟨rfl, .faulty fault hnot⟩
      | ok outcome => exact .inl ⟨rfl, .checked outcome hnot⟩
  | checked outcome _ => exact .inr ⟨rfl, .taken trivial (.claimIf outcome)⟩
  | toldNo _ => exact .inl ⟨rfl, .toldNo hnot⟩
  | faulty fault _ => exact .inl ⟨rfl, .faulty fault hnot⟩
  | late u _ hslot => cases hslot
  | taken htook _ => exact absurd htook hnot

/-! ## One turn -/

theorem enter_eq (h : s.calls[i]? = some (op, access)) :
    s.enter i = {
      run := (access.enter s.run).2
      calls := s.calls.set i (op, (access.enter s.run).1)
      takers := if s.run.isSome && (access.enter s.run).2.isNone then s.takers ++ [i]
        else s.takers } := by
  unfold enter
  rw [h]

/-- A call among those after a new one has begun. -/
theorem getElem?_begins {calls : List (ο × Access)} {call : ο × Access}
    (h : (calls ++ [call])[i]? = some (op, access)) :
    calls[i]? = some (op, access) ∨ i = calls.length ∧ call = (op, access) := by
  rcases Nat.lt_or_ge i calls.length with hlt | hge
  · rw [List.getElem?_append_left hlt] at h
    exact .inl h
  · rw [List.getElem?_append_right hge, List.getElem?_singleton] at h
    split at h
    · next hi => exact .inr ⟨by omega, Option.some.inj h⟩
    · cases h

/-- A call among those after one has had a section. -/
theorem getElem?_enters {calls : List (ο × Access)} {call : ο × Access}
    (h : (calls.set i call)[j]? = some (op, access)) :
    j ≠ i ∧ calls[j]? = some (op, access) ∨ j = i ∧ call = (op, access) := by
  by_cases hji : j = i
  · subst hji
    have hlt : j < calls.length := by
      simpa using (List.getElem?_eq_some_iff.mp h).1
    rw [List.getElem?_set_self hlt] at h
    exact .inr ⟨rfl, Option.some.inj h⟩
  · rw [List.getElem?_set_ne (Ne.symm hji)] at h
    exact .inl ⟨hji, h⟩

theorem Kept.lt (h : Kept run s) (hi : i ∈ s.takers) : i < s.calls.length := by
  cases h with
  | there _ htakers => simp [htakers] at hi
  | taken _ htakers hlt =>
    rw [htakers, List.mem_singleton] at hi
    exact hi ▸ hlt

theorem holds_fresh (use : ο → Use) (run : Paused) : Holds use run (fresh run) :=
  ⟨.there rfl rfl, by simp [fresh]⟩

theorem Holds.begins (h : Holds use run s) (op : ο) :
    Holds use run (s.after use (.begins op)) := by
  have hlength : (s.after use (.begins op)).calls.length = s.calls.length + 1 := by simp [after]
  refine ⟨?_, fun {i} op' access hi => ?_⟩
  · cases h.kept with
    | there hrun htakers => exact .there hrun htakers
    | taken hrun htakers hlt => exact .taken hrun htakers (by omega)
  · rcases getElem?_begins hi with hi | ⟨rfl, hcall⟩
    · exact h.calls hi
    · cases hcall
      exact .begun _ fun hmem => absurd (h.kept.lt hmem) (by omega)

theorem Holds.enters (h : Holds use run s) (i : Nat) : Holds use run (s.enter i) := by
  cases hcall : s.calls[i]? with
  | none =>
    unfold enter
    rw [hcall]
    exact h
  | some call =>
    obtain ⟨op, access⟩ := call
    have hlt : i < s.calls.length := (List.getElem?_eq_some_iff.mp hcall).1
    have hstands := h.calls hcall
    cases h.kept with
    | taken hrun htakers htaker =>
      rw [hrun] at hstands
      obtain ⟨hnone, hrest⟩ := hstands.enter_none
      have henter : s.enter i =
          ⟨none, s.calls.set i (op, (access.enter none).1), s.takers⟩ := by
        rw [enter_eq hcall, hrun, hnone]
        rfl
      rw [henter]
      refine ⟨.taken rfl htakers (by simpa using htaker), fun {j} op' access' hj => ?_⟩
      rcases getElem?_enters hj with ⟨-, hj⟩ | ⟨rfl, heq⟩
      · exact (h.calls hj).gone .rfl
      · cases heq
        exact hrest
    | there hrun htakers =>
      rw [hrun] at hstands
      rcases hstands.enter_some (by simp [htakers]) with ⟨hsome, hrest⟩ | ⟨hnone, hrest⟩
      · have henter : s.enter i =
            ⟨some run, s.calls.set i (op, (access.enter (some run)).1), s.takers⟩ := by
          rw [enter_eq hcall, hrun, hsome]
          rfl
        rw [henter]
        refine ⟨.there rfl htakers, fun {j} op' access' hj => ?_⟩
        rcases getElem?_enters hj with ⟨-, hj⟩ | ⟨rfl, heq⟩
        · exact hrun ▸ h.calls hj
        · cases heq
          exact hrest
      · have henter : s.enter i =
            ⟨none, s.calls.set i (op, (access.enter (some run)).1), [i]⟩ := by
          rw [enter_eq hcall, hrun, hnone, htakers]
          rfl
        rw [henter]
        refine ⟨.taken rfl rfl (by simpa using hlt), fun {j} op' access' hj => ?_⟩
        rcases getElem?_enters hj with ⟨hji, hj⟩ | ⟨rfl, heq⟩
        · exact (h.calls hj).gone (by simp [hji, htakers])
        · cases heq
          exact hrest.gone (by simp)

theorem Late.begins (h : Late use n s) (op : ο) : Late use n (s.after use (.begins op)) := by
  have hlength : (s.after use (.begins op)).calls.length = s.calls.length + 1 := by simp [after]
  have hle := h.length
  refine ⟨h.run, by omega, fun {i} op' access hn hi => ?_⟩
  rcases getElem?_begins hi with hi | ⟨-, hcall⟩
  · exact h.calls hn hi
  · cases hcall
    exact .inl rfl

/-- A call that comes too late ends at once. -/
theorem Late.getElem?_enter (h : Late use n s) (hn : n ≤ i)
    (hi : s.calls[i]? = some (op, access)) :
    (s.enter i).calls[i]? = some (op, .ends (use op).late) := by
  have hlt : i < s.calls.length := (List.getElem?_eq_some_iff.mp hi).1
  rw [enter_eq hi, h.run]
  change (s.calls.set i _)[i]? = _
  rw [List.getElem?_set_self hlt]
  rcases h.calls hn hi with rfl | rfl
  · rw [enter_sections_none]
  · rfl

theorem Late.enters (h : Late use n s) (i : Nat) : Late use n (s.enter i) := by
  cases hcall : s.calls[i]? with
  | none =>
    unfold enter
    rw [hcall]
    exact h
  | some call =>
    obtain ⟨op, access⟩ := call
    have hrun : (access.enter none).2 = none := by cases access <;> rfl
    refine ⟨by rw [enter_eq hcall, h.run]; exact hrun, ?_, fun {j} op' access' hn hj => ?_⟩
    · rw [enter_eq hcall]
      simpa using h.length
    · by_cases hji : j = i
      · subst hji
        rw [h.getElem?_enter hn hcall] at hj
        cases hj
        exact .inr rfl
      · rw [enter_eq hcall] at hj
        rcases getElem?_enters hj with ⟨-, hj⟩ | ⟨hji', -⟩
        · exact h.calls hn hj
        · exact absurd hji' hji

/-! ## All turns -/

/-- What every turn keeps is kept by all turns. -/
theorem afterAll_induction {P : Shared ο → Prop}
    (hbegins : ∀ s op, P s → P (s.after use (.begins op)))
    (henters : ∀ s i, P s → P (s.enter i)) (h : P s) (turns : List (Turn ο)) :
    P (s.afterAll use turns) := by
  induction turns generalizing s with
  | nil => exact h
  | cons turn turns ih =>
    cases turn with
    | begins op => exact ih (hbegins s op h)
    | enters i => exact ih (henters s i h)

theorem holds_afterAll (use : ο → Use) (run : Paused) (turns : List (Turn ο)) :
    Holds use run ((fresh run).afterAll use turns) :=
  afterAll_induction (fun _ op h => h.begins op) (fun _ i h => h.enters i) (holds_fresh use run)
    turns

theorem late_afterAll (h : s.run = none) (turns : List (Turn ο)) :
    Late use s.calls.length (s.afterAll use turns) := by
  refine afterAll_induction (fun _ op h => h.begins op) (fun _ i h => h.enters i)
    ⟨h, Nat.le_refl _, fun {i} op access hi hcall => ?_⟩ turns
  rw [List.getElem?_eq_none hi] at hcall
  cases hcall

/-- The run of a handle that is shared is used once, in whatever order the calls of operations come
to their sections. Some operations only ask whether the run is still there; some are at fault. -/
structure UsedOnce (use : ο → Use) (run : Paused) (asks : ο → Prop)
    (faulty : ο → RequestFault → Prop) (gives : ο → UseResult → Prop) : Prop where
  once : ∀ turns, ((fresh run).afterAll use turns).takers.length ≤ 1
  /-- As long as the run has not been taken, it is there as it was, and a call that has ended has
  asked or was at fault. -/
  before : ∀ turns, let s := (fresh run).afterAll use turns
    s.takers = [] → s.run = some run ∧ ∀ op result, (op, .ends result) ∈ s.calls →
      (asks op ∧ result = .told false) ∨
        ∃ fault, faulty op fault ∧ result = .refused (.validation fault)
  /-- The call that has taken the run has got what it gets where it is the only one. -/
  taker : ∀ turns, let s := (fresh run).afterAll use turns
    ∀ i ∈ s.takers, ∃ op result, s.calls[i]? = some (op, .ends result) ∧ gives op result
  /-- A call that begins after that ends with its first section, and has come too late. -/
  after : ∀ turns later, let s := (fresh run).afterAll use turns
    let t := s.afterAll use later
    s.takers ≠ [] → ∀ i op access, s.calls.length ≤ i → t.calls[i]? = some (op, access) →
      ∃ result, (asks op ∧ result = .told true ∨ ¬ asks op ∧ result = .refused .consumed) ∧
        (access = (use op).sections ∨ access = .ends result) ∧
        (t.enter i).calls[i]? = some (op, .ends result)

theorem Kept.run_eq_none (h : Kept run s) (htakers : s.takers ≠ []) : s.run = none := by
  cases h with
  | there _ hnone => exact absurd hnone htakers
  | taken hrun _ _ => exact hrun

theorem Kept.run_eq_some (h : Kept run s) (htakers : s.takers = []) : s.run = some run := by
  cases h with
  | there hrun _ => exact hrun
  | taken _ hone _ => rw [hone] at htakers; cases htakers

theorem usedOnce {asks : ο → Prop} {faulty : ο → RequestFault → Prop}
    {gives : ο → UseResult → Prop} (hasks : ∀ op, asks op ↔ use op = .look)
    (hfaulty : ∀ op fault, use op = .claimIf (.error fault) → faulty op fault)
    (hgives : ∀ op outcome, (use op).Claims outcome → gives op (outcome run)) :
    UsedOnce use run asks faulty gives where
  once turns := by
    cases (holds_afterAll use run turns).kept with
    | there _ htakers => simp [htakers]
    | taken _ htakers _ => simp [htakers]
  before turns := by
    intro s htakers
    have hs : Holds use run s := holds_afterAll use run turns
    have hrun := hs.kept.run_eq_some htakers
    refine ⟨hrun, fun op result hcall => ?_⟩
    obtain ⟨i, hi⟩ := List.getElem?_of_mem hcall
    have hstands := hs.calls hi
    rw [hrun] at hstands
    generalize hu : use op = u at hstands
    generalize haccess : Access.ends result = access at hstands
    cases hstands with
    | begun u _ => cases u <;> cases haccess
    | checked outcome _ => cases haccess
    | toldNo _ => cases haccess; exact .inl ⟨(hasks op).mpr hu, rfl⟩
    | faulty fault _ => cases haccess; exact .inr ⟨fault, hfaulty op fault hu, rfl⟩
    | late u _ hslot => cases hslot
    | taken htook _ => rw [htakers] at htook; cases htook
  taker turns := by
    intro s i hi
    have hs : Holds use run s := holds_afterAll use run turns
    obtain ⟨⟨op, access⟩, hcall⟩ : ∃ call, s.calls[i]? = some call :=
      ⟨_, List.getElem?_eq_getElem (hs.kept.lt hi)⟩
    have hstands := hs.calls hcall
    generalize hu : use op = u at hstands
    cases hstands with
    | taken _ hclaims => exact ⟨op, _, hcall, hgives op _ (hu ▸ hclaims)⟩
    | begun _ hnot | checked _ hnot | toldNo hnot | faulty _ hnot | late _ hnot _ =>
      exact absurd hi hnot
  after turns later := by
    intro s t htakers i op access hi hcall
    have hs : Holds use run s := holds_afterAll use run turns
    have ht : Late use s.calls.length t := late_afterAll (hs.kept.run_eq_none htakers) later
    refine ⟨(use op).late, ?_, ht.calls hi hcall, ht.getElem?_enter hi hcall⟩
    rw [hasks op]
    cases use op with
    | look => exact .inl ⟨rfl, rfl⟩
    | claim outcome => exact .inr ⟨nofun, rfl⟩
    | claimIf checked => exact .inr ⟨nofun, rfl⟩

end Shared

/-! ## Continuations -/

namespace Continuation

/-- Operations that are at fault: the answer to a call of the operating system is put off. -/
def Faulty (c : Continuation) (op : Operation) (fault : RequestFault) : Prop :=
  ∃ traced steps function, op = .defer traced steps ∧ c.request = .os function ∧
    fault = .undeferrable function

/-- What an operation gives whose handle nobody else uses, where it takes the run. -/
def Gives (c : Continuation) (codec : Codec Continuation) (clock : Clock) :
    Operation → UseResult → Prop
  | .resume r traced steps, result => ∃ step, result = .continued step ∧
    c.resume r traced steps = step.map (·, c.consume)
  | .defer traced steps, result => ∃ step, result = .continued step ∧
    c.defer traced steps = step.map (·, c.consume)
  | .dump, result => result.handle? = some ((c.dump codec clock).1.map .continuation) ∧
    (c.dump codec clock).2 = c.consume
  | .isConsumed, _ => False

variable {c : Continuation} {codec : Codec Continuation} {clock : Clock} {run : Paused}

theorem gives_of_claims (hrun : c.run = some run) {op : Operation} {outcome : Paused → UseResult}
    (h : (c.use codec clock op).Claims outcome) : c.Gives codec clock op (outcome run) := by
  obtain ⟨request, args, named, call, slot⟩ := c
  obtain rfl : slot = some run := hrun
  cases op with
  | resume r traced steps => cases h; exact ⟨_, rfl, resume_alone _ codec clock r traced steps⟩
  | defer traced steps =>
    cases request with
    | os function => cases h
    | function name => cases h; exact ⟨_, rfl, defer_alone _ codec clock traced steps⟩
  | dump => cases h; exact dump_alone ⟨request, args, named, call, some run⟩ codec clock
  | isConsumed => cases h

theorem use_eq_look (op : Operation) : op = .isConsumed ↔ c.use codec clock op = .look := by
  obtain ⟨request, args, named, call, slot⟩ := c
  cases op with
  | defer traced steps => cases request <;> simp [use]
  | _ => simp [use]

theorem faulty_of_use {op : Operation} {fault : RequestFault}
    (h : c.use codec clock op = .claimIf (.error fault)) : c.Faulty op fault := by
  obtain ⟨request, args, named, call, slot⟩ := c
  cases op with
  | defer traced steps =>
    cases request with
    | os function => cases h; exact ⟨traced, steps, function, rfl, rfl, rfl⟩
    | function name => cases h
  | _ => cases h

end Continuation

/-! ## Batches -/

namespace FutureBatch

/-- What may be wrong with results for these calls, if those are pending. -/
inductive Mismatch (pending calls : List Nat) : RequestFault → Prop
  | unknown {call} : call ∈ calls → call ∉ pending →
      Mismatch pending calls (.unknownCall call pending)
  | repeated {call} : 2 ≤ calls.count call → Mismatch pending calls (.repeatedCall call)
  | missing {call} : call ∈ pending → call ∉ calls → Mismatch pending calls (.missingCall call)

/-- Operations that are at fault: the results do not match the pending calls. -/
def Faulty (b : FutureBatch) (op : Operation) (fault : RequestFault) : Prop :=
  ∃ results traced steps, op = .resolve results traced steps ∧
    Mismatch b.pending (results.map (·.1)) fault

/-- What an operation gives whose handle nobody else uses, where it takes the run. -/
def Gives (b : FutureBatch) (codec : Codec FutureBatch) (clock : Clock) :
    Operation → UseResult → Prop
  | .resolve results traced steps, result => ∃ step, result = .continued step ∧
    b.resolve results traced steps = step.map (·, b.consume)
  | .dump, result => result.handle? = some ((b.dump codec clock).1.map .batch) ∧
    (b.dump codec clock).2 = b.consume
  | .isConsumed, _ => False

variable {b : FutureBatch} {codec : Codec FutureBatch} {clock : Clock} {run : Paused}

theorem mem_of_insertResult? {call : Nat} {r : HandlerResult}
    {sorted sorted' : List (Nat × HandlerResult)} (h : insertResult? call r sorted = some sorted')
    (i : Nat) : i ∈ sorted'.map (·.1) ↔ i = call ∨ i ∈ sorted.map (·.1) := by
  induction sorted generalizing sorted' with
  | nil => cases h; simp
  | cons s sorted ih =>
    obtain ⟨j, q⟩ := s
    rw [insertResult?] at h
    split at h
    · cases h
    · split at h
      · cases h
        simp
      · obtain ⟨rest, hrest, rfl⟩ := Option.map_eq_some_iff.mp h
        have := ih hrest
        simp only [List.map_cons, List.mem_cons, this]
        exact or_left_comm

theorem mem_of_insertResult?_eq_none {call : Nat} {r : HandlerResult}
    {sorted : List (Nat × HandlerResult)} (h : insertResult? call r sorted = none) :
    call ∈ sorted.map (·.1) := by
  induction sorted with
  | nil => cases h
  | cons s sorted ih =>
    obtain ⟨j, q⟩ := s
    rw [insertResult?] at h
    split at h
    · next hj => simp [beq_iff_eq.mp hj]
    · split at h
      · cases h
      · exact List.mem_cons_of_mem _ (ih (Option.map_eq_none_iff.mp h))

/-- The results that have been looked at are those of the calls in `done`. -/
theorem mismatch_of_collect {sorted rest : List (Nat × HandlerResult)} {done : List Nat}
    {fault : RequestFault} (hsorted : ∀ i, i ∈ sorted.map (·.1) ↔ i ∈ done)
    (h : b.collect sorted rest = .error fault) :
    Mismatch b.pending (done ++ rest.map (·.1)) fault := by
  induction rest generalizing sorted done with
  | nil =>
    rw [collect] at h
    split at h
    · next call hcall =>
      cases h
      have hnot : ∀ i r, (i, r) ∈ sorted → ¬ i = call := by simpa using List.find?_some hcall
      refine .missing (List.mem_of_find?_eq_some hcall) fun hmem => ?_
      rw [List.map_nil, List.append_nil, ← hsorted] at hmem
      obtain ⟨s, hs, rfl⟩ := List.mem_map.mp hmem
      exact hnot _ _ hs rfl
    · cases h
  | cons result rest ih =>
    obtain ⟨call, r⟩ := result
    rw [collect] at h
    split at h
    · next hunknown =>
      cases h
      exact .unknown (by simp) (by simpa using hunknown)
    · split at h
      · next hinsert =>
        cases h
        have hdone := (hsorted call).mp (mem_of_insertResult?_eq_none hinsert)
        refine .repeated ?_
        have := List.count_pos_iff.mpr hdone
        simp
        omega
      · next sorted' hinsert =>
        have hsorted' : ∀ i, i ∈ sorted'.map (·.1) ↔ i ∈ done ++ [call] := fun i => by
          rw [mem_of_insertResult? hinsert, hsorted]
          simp [or_comm]
        simpa using ih hsorted' h

theorem gives_of_claims (hrun : b.run = some run) {op : Operation} {outcome : Paused → UseResult}
    (h : (b.use codec clock op).Claims outcome) : b.Gives codec clock op (outcome run) := by
  obtain ⟨pending, slot⟩ := b
  obtain rfl : slot = some run := hrun
  cases op with
  | resolve results traced steps =>
    have halone := resolve_alone ⟨pending, some run⟩ codec clock results traced steps
    simp only [use] at h halone
    cases hcollect : collect ⟨pending, some run⟩ [] results with
    | error fault => rw [hcollect] at h; cases h
    | ok sorted =>
      rw [hcollect] at h halone
      cases h
      exact ⟨_, rfl, halone⟩
  | dump => cases h; exact dump_alone ⟨pending, some run⟩ codec clock
  | isConsumed => cases h

theorem use_eq_look (op : Operation) : op = .isConsumed ↔ b.use codec clock op = .look := by
  cases op <;> simp [use]

theorem faulty_of_use {op : Operation} {fault : RequestFault}
    (h : b.use codec clock op = .claimIf (.error fault)) : b.Faulty op fault := by
  cases op with
  | resolve results traced steps =>
    change Use.claimIf ((b.collect [] results).map (b.resolved traced steps)) = _ at h
    cases hcollect : b.collect [] results with
    | ok sorted => rw [hcollect] at h; cases h
    | error fault' =>
      rw [hcollect] at h
      cases h
      have hnone : ∀ i, i ∈ ([] : List (Nat × HandlerResult)).map (·.1) ↔ i ∈ ([] : List Nat) :=
        fun i => by simp
      exact ⟨results, traced, steps, rfl, mismatch_of_collect hnone hcollect⟩
  | _ => cases h

end FutureBatch

/-- Whatever operations are called on the clones of a handle, however their sections follow each
other, and however dumps are written, the paused run is used once. Before it is taken, a call fails
for a fault of its own only, and leaves the handle as it is; a call that begins after that is told
that the run is gone. -/
theorem handles_used_once (clock : Clock) :
    (∀ codec (c : Continuation) (run : Paused), c.run = some run →
      Shared.UsedOnce (c.use codec clock) run (· = .isConsumed) c.Faulty (c.Gives codec clock)) ∧
    ∀ codec (b : FutureBatch) (run : Paused), b.run = some run →
      Shared.UsedOnce (b.use codec clock) run (· = .isConsumed) b.Faulty (b.Gives codec clock) :=
  ⟨fun _ _ _ hrun => Shared.usedOnce Continuation.use_eq_look
      (fun _ _ => Continuation.faulty_of_use) fun _ _ => Continuation.gives_of_claims hrun,
    fun _ _ _ hrun => Shared.usedOnce FutureBatch.use_eq_look
      (fun _ _ => FutureBatch.faulty_of_use) fun _ _ => FutureBatch.gives_of_claims hrun⟩

/-- A clone dumps the run between the two sections of a `defer`, which a `resume` follows; results
for no call are refused and leave a batch as it is. -/
theorem handles_used_once_of_two :
    (let c : Continuation := ⟨.function "f", [], [], 0, some default⟩
    let use := c.use (.direct _) .nominal
    let s := (Shared.fresh default).afterAll use
      [.begins (.defer false 0), .enters 0, .begins .dump, .enters 1, .enters 0]
    let t := s.afterAll use [.begins (.resume (.success .none) false 0)]
    s.takers = [1] ∧ (∃ op result, s.calls[1]? = some (op, .ends result) ∧
        c.Gives (.direct _) .nominal op result) ∧
      ∃ result, (t.enter 2).calls[2]? = some (.resume (.success .none) false 0, .ends result)) ∧
    let b : FutureBatch := ⟨[0], some default⟩
    let s := (Shared.fresh default).afterAll (b.use (.direct _) .nominal)
      [.begins (.resolve [] false 0), .enters 0]
    s.takers = [] ∧ s.run = some default := by
  refine ⟨⟨rfl, ?_, ?_⟩, rfl, ?_⟩
  · exact ((handles_used_once .nominal).1 (.direct _) ⟨.function "f", [], [], 0, some default⟩
        default rfl).taker
      [.begins (.defer false 0), .enters 0, .begins .dump, .enters 1, .enters 0] 1 (by decide)
  · obtain ⟨result, -, -, h⟩ :=
      ((handles_used_once .nominal).1 (.direct _) ⟨.function "f", [], [], 0, some default⟩
        default rfl).after
        [.begins (.defer false 0), .enters 0, .begins .dump, .enters 1, .enters 0]
        [.begins (.resume (.success .none) false 0)] (by decide) 2 _ _ (by decide) rfl
    exact ⟨result, h⟩
  · exact (((handles_used_once .nominal).2 (.direct _) ⟨[0], some default⟩ default rfl).before
      [.begins (.resolve [] false 0), .enters 0] rfl).1

end Resumable
