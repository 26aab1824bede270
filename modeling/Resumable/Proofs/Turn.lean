import Resumable.Machine.Run
import Resumable.Proofs.Obedience.Machine

/-!
# What an instruction does to calls and handlers

Main statements: `executeNext_turns` and `executeNext_ends`. An instruction goes on in its frame,
enters a function or leaves one; or it stops for the host, with a request that gets the next number,
or because a future is pending. One that fails leaves all frames as they were. No instruction
touches a future, takes back what has been printed, or moves a limit.

The registered handlers and the exceptions that are being handled are changed by single instructions
(`Shift`). One that fails leaves them as they were, and raises no exception again but `reraise`.
-/

namespace Resumable

/-- The number of the call that a stop asks the host for. -/
def Exit.call? : Exit → Option Nat
  | .externalCall _ _ call | .osCall _ _ call => some call
  | .returned _ | .blocked _ => none

namespace Machine

/-- The futures and limits are as they were, and what has been printed is still there. -/
structure Keeps (m n : Machine) : Prop where
  futures : n.futures = m.futures
  limits : n.heap.budget.limits = m.heap.budget.limits
  output : ∃ printed, n.output = m.output ++ printed

/-- The machine is still in the same call, which goes on at an instruction. -/
structure Stays (m : Machine) (next : Nat) (n : Machine) : Prop extends Keeps m n where
  function : n.frame.function = m.frame.function
  next : n.frame.next = next
  callers : n.callers = m.callers
  nextCall : n.nextCall = m.nextCall
  pendingCall : n.pendingCall = m.pendingCall

/-- What may come of an instruction that does not fail. -/
inductive Turn (m : Machine) : Option Exit → Machine → Prop
  | goes (next) {n} : m.Stays next n → Turn m none n
  | enters {n caller} : m.heap.budget.checkDepth m.depth = .ok () →
      n.callers = caller :: m.callers → m.Keeps n → n.nextCall = m.nextCall →
      n.pendingCall = m.pendingCall → Turn m none n
  | leaves {n} : m.callers = n.frame :: n.callers → m.Keeps n → n.nextCall = m.nextCall →
      n.pendingCall = m.pendingCall → Turn m none n
  | returns (v) {n} : m.Stays m.frame.next n → Turn m (some (.returned v)) n
  | asks {x n} : x.call? = some m.nextCall → n.callers = m.callers → m.Keeps n →
      n.nextCall = m.nextCall + 1 → n.pendingCall = some m.nextCall → Turn m (some x) n
  | waits (next) {n} : m.pendingFutures ≠ [] → m.Stays next n →
      Turn m (some (.blocked m.pendingFutures)) n

/-- The calls below, the handlers and the exceptions that are being handled are as they were. -/
structure Unmoved (m n : Machine) : Prop where
  callers : n.callers = m.callers
  blocks : n.frame.blocks = m.frame.blocks
  handledBase : n.frame.handledBase = m.frame.handledBase
  handled : n.handled = m.handled

/-- The machine goes on at its next instruction as it was, up to operands, variables, the heap and
what has been printed. -/
structure Still (m n : Machine) : Prop extends Stays m m.frame.next n, Unmoved m n where
  reraising : n.reraising = m.reraising

/-- What may come of the handlers and of the exceptions that are being handled. -/
inductive Shift (m n : Machine) : Prop
  | stays : m.Unmoved n → Shift m n
  | enters {f} : n.callers = f :: m.callers → f.blocks = m.frame.blocks →
      f.handledBase = m.frame.handledBase → n.frame.blocks = [] →
      n.frame.handledBase = m.handled.length → n.handled = m.handled → Shift m n
  | leaves : m.callers = n.frame :: n.callers →
      n.handled = lastOf m.frame.handledBase m.handled → Shift m n
  /-- A handler is registered. -/
  | protects {b} : n.callers = m.callers → n.frame.blocks = b :: m.frame.blocks →
      b.handled = m.handled.length → n.frame.handledBase = m.frame.handledBase →
      n.handled = m.handled → Shift m n
  /-- The innermost handler is taken back. -/
  | unprotects : n.callers = m.callers → n.frame.blocks = m.frame.blocks.tail →
      n.frame.handledBase = m.frame.handledBase → n.handled = m.handled → Shift m n
  /-- The innermost exception has been handled. -/
  | settles : n.callers = m.callers → n.frame.blocks = m.frame.blocks →
      n.frame.handledBase = m.frame.handledBase → n.handled = m.handled.tail → Shift m n

/-- What may come of an instruction that does not fail, to calls and to handlers. -/
structure Ends (m : Machine) (x : Option Exit) (n : Machine) : Prop where
  turn : m.Turn x n
  reraising : n.reraising = m.reraising
  shift : (∀ v, x ≠ some (.returned v)) → m.Shift n

variable {α β : Type} {code : Bytecode} {l m n : Machine} {i j : Nat}

theorem Keeps.refl (m : Machine) : m.Keeps m := ⟨rfl, rfl, "", by simp⟩

theorem Keeps.trans (h : l.Keeps m) (h' : m.Keeps n) : l.Keeps n where
  futures := h'.futures.trans h.futures
  limits := h'.limits.trans h.limits
  output := by
    obtain ⟨s, hs⟩ := h.output
    obtain ⟨t, ht⟩ := h'.output
    exact ⟨s ++ t, by rw [ht, hs, String.append_assoc]⟩

theorem Stays.refl (m : Machine) : m.Stays m.frame.next m :=
  ⟨.refl m, rfl, rfl, rfl, rfl, rfl⟩

theorem Stays.trans (h : l.Stays i m) (h' : m.Stays j n) : l.Stays j n where
  toKeeps := h.toKeeps.trans h'.toKeeps
  function := h'.function.trans h.function
  next := h'.next
  callers := h'.callers.trans h.callers
  nextCall := h'.nextCall.trans h.nextCall
  pendingCall := h'.pendingCall.trans h.pendingCall

theorem Stays.checkDepth (h : l.Stays i m) :
    m.heap.budget.checkDepth m.depth = l.heap.budget.checkDepth l.depth := by
  rw [Budget.checkDepth, Budget.checkDepth, h.limits, depth, depth, h.callers]

theorem Stays.pendingFutures (h : l.Stays i m) : m.pendingFutures = l.pendingFutures := by
  rw [Machine.pendingFutures, Machine.pendingFutures, h.futures]

theorem Turn.after {x : Option Exit} (h : l.Stays l.frame.next m) (ht : m.Turn x n) :
    l.Turn x n := by
  have hk := h.toKeeps
  cases ht with
  | goes next hs => exact .goes next (h.trans hs)
  | enters hd hc hk' hn hp =>
    exact .enters (h.checkDepth ▸ hd) (h.callers ▸ hc) (hk.trans hk') (hn.trans h.nextCall)
      (hp.trans h.pendingCall)
  | leaves hc hk' hn hp =>
    exact .leaves (h.callers ▸ hc) (hk.trans hk') (hn.trans h.nextCall) (hp.trans h.pendingCall)
  | returns v hs => exact .returns v (h.next ▸ h.trans hs)
  | asks hx hc hk' hn hp =>
    rw [h.nextCall] at hx hn hp
    exact .asks hx (hc.trans h.callers) (hk.trans hk') hn hp
  | waits next hne hs =>
    rw [h.pendingFutures] at hne ⊢
    exact .waits next hne (h.trans hs)

theorem Unmoved.refl (m : Machine) : m.Unmoved m := ⟨rfl, rfl, rfl, rfl⟩

theorem Unmoved.trans (h : l.Unmoved m) (h' : m.Unmoved n) : l.Unmoved n :=
  ⟨h'.callers.trans h.callers, h'.blocks.trans h.blocks, h'.handledBase.trans h.handledBase,
    h'.handled.trans h.handled⟩

theorem Still.refl (m : Machine) : m.Still m :=
  { Stays.refl m, Unmoved.refl m with reraising := rfl }

theorem Still.trans (h : l.Still m) (h' : m.Still n) : l.Still n :=
  have hstays : l.Stays l.frame.next n := by
    have := h.toStays.trans h'.toStays
    rwa [h.next] at this
  { hstays, h.toUnmoved.trans h'.toUnmoved with
    reraising := h'.reraising.trans h.reraising }

theorem Shift.after (h : l.Unmoved m) (hs : m.Shift n) : l.Shift n := by
  cases hs with
  | stays hs => exact .stays (h.trans hs)
  | enters hc hb hbase hnone hstart hh =>
    exact .enters (h.callers ▸ hc) (hb.trans h.blocks) (hbase.trans h.handledBase) hnone
      (h.handled ▸ hstart) (hh.trans h.handled)
  | leaves hc hh => exact .leaves (h.callers ▸ hc) (by rw [hh, h.handledBase, h.handled])
  | protects hc hb hn hbase hh =>
    exact .protects (hc.trans h.callers) (h.blocks ▸ hb) (h.handled ▸ hn)
      (hbase.trans h.handledBase) (hh.trans h.handled)
  | unprotects hc hb hbase hh =>
    exact .unprotects (hc.trans h.callers) (h.blocks ▸ hb) (hbase.trans h.handledBase)
      (hh.trans h.handled)
  | settles hc hb hbase hh =>
    exact .settles (hc.trans h.callers) (hb.trans h.blocks) (hbase.trans h.handledBase)
      (h.handled ▸ hh)

theorem Ends.after {x : Option Exit} (h : l.Still m) (he : m.Ends x n) : l.Ends x n where
  turn := he.turn.after h.toStays
  reraising := he.reraising.trans h.reraising
  shift hx := (he.shift hx).after h.toUnmoved

theorem Still.ends (h : m.Still n) : m.Ends none n where
  turn := .goes _ h.toStays
  reraising := h.reraising
  shift _ := .stays h.toUnmoved

theorem still_record (m : Machine) (e : Machine → Event) : m.Still (m.record e) := by
  rw [record_eq]
  exact { Still.refl m with }

/-! ## Actions -/

/-- From a machine, an action ends in a certain way; where it fails, all frames are as they were. -/
def TurnsAt (m : Machine) (x : Exec α) (Q : Machine → α → Machine → Prop) : Prop :=
  match x m with
  | .ok a n => Q m a n
  | .error _ n => m.Still n

/-- From every machine, an action ends in a certain way. -/
def Turns (x : Exec α) (Q : Machine → α → Machine → Prop) : Prop :=
  ∀ m : Machine, m.TurnsAt x Q

/-- An action that only changes operands, variables and the heap, and prints. -/
abbrev Calm (x : Exec α) : Prop := Turns x fun m _ n => m.Still n

/-- The postcondition does not mind what a calm action has done before. -/
def Late (Q : Machine → α → Machine → Prop) : Prop :=
  ∀ l m n a, l.Still m → Q m a n → Q l a n

theorem late_calm : Late fun m (_ : α) n => m.Still n := fun _ _ _ _ h h' => h.trans h'

theorem late_ends : Late Ends := fun _ _ _ _ h he => he.after h

namespace Turns

variable {Q : Machine → β → Machine → Prop} {x : Exec α} {f : α → Exec β}

theorem ret {b : β} (h : ∀ m, Q m b m) : Turns (pure b) Q := h

theorem fail (e : Failure) : Turns (throw e : Exec β) Q := fun m => .refl m

theorem imp {R : Machine → α → Machine → Prop} {P : Machine → α → Machine → Prop}
    (h : Turns x P) (hPR : ∀ m a n, P m a n → R m a n) : Turns x R := by
  intro m
  have h := h m
  unfold TurnsAt at h ⊢
  generalize x m = r at h ⊢
  cases r with
  | ok a n => exact hPR m a n h
  | error e n => exact h

/-- Two actions, of which the first one has come to something. -/
theorem chainAt {P : Machine → α → Machine → Prop} (h : l.TurnsAt x P)
    (hf : ∀ a m, P l a m → match f a m with
      | .ok b n => Q l b n
      | .error _ n => l.Still n) : l.TurnsAt (x >>= f) Q := by
  change match EStateM.bind x f l with | .ok b n => Q l b n | .error _ n => l.Still n
  unfold TurnsAt at h
  unfold EStateM.bind
  generalize x l = r at h ⊢
  cases r with
  | error e n => exact h
  | ok a n => exact hf a n h

theorem chain {P : Machine → α → Machine → Prop} (h : Turns x P)
    (hf : ∀ l a m, P l a m → match f a m with
      | .ok b n => Q l b n
      | .error _ n => l.Still n) : Turns (x >>= f) Q :=
  fun l => chainAt (h l) (hf l)

theorem bindAt (h : l.TurnsAt x fun m _ n => m.Still n) (hQ : Late Q)
    (hf : ∀ a, Turns (f a) Q) : l.TurnsAt (x >>= f) Q := by
  refine chainAt h fun a m hs => ?_
  have hf := hf a m
  unfold TurnsAt at hf
  generalize f a m = r at hf ⊢
  cases r with
  | error e n => exact hs.trans hf
  | ok b n => exact hQ _ _ _ _ hs hf

theorem bind (h : Calm x) (hQ : Late Q) (hf : ∀ a, Turns (f a) Q) : Turns (x >>= f) Q :=
  fun l => bindAt (h l) hQ hf

theorem readAt {f : Machine → Exec β} (h : ∀ m : Machine, m.TurnsAt (f m) Q) :
    Turns (get >>= f) Q := h

theorem read {f : Machine → Exec β} (h : ∀ m, Turns (f m) Q) : Turns (get >>= f) Q :=
  fun m => h m m

theorem change {g : Machine → β × Machine} (h : ∀ m, Q m (g m).1 (g m).2) :
    Turns (modifyGet g) Q := h

end Turns

namespace Calm

variable {x : Exec α} {f : α → Exec β}

theorem ret (a : α) : Calm (pure a) := fun m => .refl m

theorem bind (h : Calm x) (hf : ∀ a, Calm (f a)) : Calm (x >>= f) := Turns.bind h late_calm hf

theorem mapM {τ : Type} {g : τ → Exec β} (h : ∀ a, Calm (g a)) (xs : List τ) :
    Calm (xs.mapM g) := by
  induction xs with
  | nil => exact .ret []
  | cons a xs ih =>
    rw [List.mapM_cons]
    exact (h a).bind fun _ => ih.bind fun _ => .ret _

end Calm

/-- A calm action, and then a plain instruction goes on. -/
theorem Calm.turn {x : Exec α} (h : Calm x) :
    Turns (x >>= fun _ => pure none : Exec (Option Exit)) Ends :=
  Turns.bind h late_ends fun _ => .ret fun m => (Still.refl m).ends

theorem onHeap_calmAt {act : Heap.Action α} {m : Machine} (h : ObedientAt m.heap act) :
    m.TurnsAt (onHeap act) fun m _ n => m.Still n := by
  obtain ⟨qs, r, hr⟩ := h
  obtain ⟨k, hk⟩ := hr.budget_end m.heap.budget
  have hlimits : (endState (act m.heap)).budget.limits = m.heap.budget.limits := by
    rw [show endState (act m.heap) = _ from hk]
    exact Budget.limits_afterAsking _ _
  have still : ∀ heap, heap.budget.limits = m.heap.budget.limits → m.Still { m with heap } :=
    fun heap hheap => { Still.refl m with limits := hheap }
  unfold TurnsAt onHeap
  simp only
  generalize act m.heap = r at hlimits ⊢
  cases r with
  | ok a heap => exact still heap hlimits
  | error e heap => exact still heap hlimits

theorem onHeap_calm {act : Heap.Action α} (h : Obedient act) : Calm (onHeap act) := fun m =>
  onHeap_calmAt (h m.heap)

theorem push_calm (v : Value) : Calm (push v) := fun m => { Still.refl m with }

theorem pop_calm : Calm pop := Turns.change fun m => by
  cases m.stack with
  | nil => exact .refl m
  | cons v rest => exact { Still.refl m with }

theorem popMany_calm (n : Nat) : Calm (popMany n) := fun m => { Still.refl m with }

theorem peek_calm : Calm peek := .read fun _ => Calm.ret _

theorem popNamed_calm (keywords : Option Nat) : Calm (popNamed code keywords) :=
  .read fun _ => (popMany_calm _).bind fun _ => .ret _

theorem write_calm (c : Chunk) : Calm (write c) := by
  refine Calm.bind (Turns.change fun m => { Still.refl m with }) fun refusal => ?_
  split
  · exact .fail _
  · exact fun m => { Still.refl m with output := ⟨c.toString, rfl⟩ }

theorem writeAll_calm (chunks : List Chunk) : Calm (writeAll chunks) := by
  induction chunks with
  | nil => exact .ret ()
  | cons c chunks ih => exact (write_calm c).bind fun _ => ih

/-- A calm action in front. -/
theorem Calm.andThen {x : Exec α} {f : α → Exec (Option Exit)} (h : Calm x)
    (hf : ∀ a, Turns (f a) Ends) : Turns (x >>= f) Ends := Turns.bind h late_ends hf

/-! ## Calls -/

theorem checkDepth_eq (depth : Nat) (m : Machine) :
    onHeap (do Heap.withinLimit ((← get).budget.checkDepth depth)) m =
      match m.heap.budget.checkDepth depth with
      | .ok () => .ok () m
      | .error e => .error (.ofLimit e) m := by
  have hact : (do Heap.withinLimit ((← get).budget.checkDepth depth) : Heap.Action Unit) m.heap =
      Heap.withinLimit (m.heap.budget.checkDepth depth) m.heap := rfl
  simp only [onHeap, hact]
  cases m.heap.budget.checkDepth depth <;> rfl

theorem enter_ends (function : Nat) (defaults : List Value) (args : Arguments) :
    Turns (do enter code function defaults args; return none : Exec (Option Exit)) Ends := by
  unfold enter
  split
  · exact .fail _
  · next c _ =>
    split
    · exact .fail _
    · next locals _ =>
      have push : ∀ m : Machine, m.heap.budget.checkDepth m.depth = .ok () →
          Ends m none (({ m with
            frame := .start function locals m.stack.length m.handled.length
            callers := m.frame :: m.callers } : Machine).record fun m => .call c.name m.depth) := by
        intro m hd
        rw [record_eq]
        exact ⟨.enters hd rfl { Keeps.refl m with } rfl rfl, rfl,
            fun _ => .enters rfl rfl rfl rfl rfl rfl⟩
      intro m
      unfold TurnsAt
      have hcheck := checkDepth_eq m.depth m
      have hget : (get : Exec Machine) m = .ok m m := rfl
      simp only [bind, EStateM.bind, hget] at hcheck ⊢
      rw [hcheck]
      cases hd : m.heap.budget.checkDepth m.depth with
      | error e => exact .refl m
      | ok _ => exact push m hd

/-- A reply is a request, or leaves all calls as they are. -/
def Replied (m : Machine) (x : Option Exit) (n : Machine) : Prop :=
  match x with
  | none => m.Still n
  | some x => m.Ends (some x) n

theorem Replied.ends {x : Option Exit} (h : m.Replied x n) : m.Ends x n := by
  cases x with
  | none => exact Still.ends h
  | some x => exact h

theorem late_replied : Late Replied := fun _ _ _ x h hr => by
  cases x with
  | none => exact h.trans hr
  | some x => exact Ends.after h hr

/-- A request to the host. -/
theorem request_replies {x : Nat → Exit} (hx : ∀ call, (x call).call? = some call)
    (kind : PauseKind) :
    Turns (do
      let call ← beginCall
      trace fun _ => .pause kind (some call)
      return some (x call) : Exec (Option Exit)) Replied := by
  intro m
  change Ends m (some (x m.nextCall)) (record _ _)
  rw [record_eq]
  exact ⟨.asks (hx _) rfl { Keeps.refl m with } rfl rfl, rfl, fun _ => .stays ⟨rfl, rfl, rfl, rfl⟩⟩

theorem settle_replies (r : Reply) : Turns (settle r) Replied := by
  cases r with
  | value v => exact Turns.bind (push_calm v) late_replied fun _ => .ret Still.refl
  | output chunks =>
    exact Turns.bind (writeAll_calm chunks) late_replied fun _ =>
      Turns.bind (push_calm .none) late_replied fun _ => .ret Still.refl
  | request function args => exact request_replies (fun _ => rfl) .os

theorem settle_ends (r : Reply) : Turns (settle r) Ends :=
  (settle_replies r).imp fun _ _ _ => Replied.ends

theorem callValue_ends (v : Value) (args : Arguments) : Turns (callValue code v args) Ends := by
  unfold callValue
  split
  · exact enter_ends _ _ _
  · exact (request_replies (fun _ => rfl) .function).imp fun _ _ _ => Replied.ends
  · exact (onHeap_calm (BuiltinCall.call_plain _ _).obedient).andThen fun r => settle_ends r
  · exact (onHeap_calm (makeException_obedient _ _)).andThen fun v => (push_calm v).turn
  · exact .read fun _ => .fail _

theorem callOwnMethod_ends (v : Value) (name : String) (args : Arguments) :
    Turns (callOwnMethod v name args) Ends := by
  refine .readAt fun m => ?_
  split
  · next act hact =>
    exact Turns.bindAt (onHeap_calmAt (pureMethod_obedient m.heap v name args act hact)) late_ends
      fun v => (push_calm v).turn
  · exact Turns.read (fun _ => .fail _) m

theorem getAttribute_replies (v : Value) (name : String) :
    Turns (getAttribute v name) Replied := by
  refine .read fun m => ?_
  split
  · exact settle_replies _
  · exact .fail _

/-- After a reply that leaves all calls as they are, an action goes on. -/
theorem Turns.replied {x : Exec (Option Exit)} {y : Exec (Option Exit)} (h : Turns x Replied)
    (hy : Turns y Ends) :
    Turns (do
      match ← x with
      | some exit => return some exit
      | none => y) Ends := by
  refine h.chain fun l exit m hs => ?_
  cases exit with
  | none =>
    have hy := hy m
    unfold TurnsAt at hy
    simp only
    generalize y m = r at hy ⊢
    cases r with
    | error e n => exact Still.trans hs hy
    | ok b n => exact Ends.after hs hy
  | some exit => exact hs

theorem callMethod_ends (v : Value) (name : String) (args : Arguments) :
    Turns (callMethod code v name args) Ends := by
  have throughAttribute :=
    (getAttribute_replies v name).replied
      (pop_calm.andThen fun v => @callValue_ends code v args)
  unfold callMethod
  split
  · exact throughAttribute
  · exact throughAttribute
  · exact throughAttribute
  · split
    · exact settle_ends _
    · exact callOwnMethod_ends _ _ _
  · exact callOwnMethod_ends _ _ _

/-! ## Instructions -/

theorem awaitedValue_calm (m : Machine) (v : Value) : Calm (awaitedValue m v) := by
  unfold awaitedValue
  split
  · split
    · exact onHeap_calm (Heap.allocList_plain _).obedient
    · exact .fail _
  · split
    · exact .ret _
    · exact .fail _

theorem mem_pendingFutures {id : Nat} (h : m.isPending id = true) : id ∈ m.pendingFutures := by
  unfold isPending at h
  split at h
  · next hf => exact List.mem_filterMap.mpr ⟨_, List.mem_of_lookup hf, rfl⟩
  · cases h

theorem await_ends : Turns await Ends := by
  refine peek_calm.andThen fun v => .readAt fun m => ?_
  split
  · exact Turns.fail _ m
  · split
    · next hpending =>
      obtain ⟨id, -, hid⟩ := List.any_eq_true.mp hpending
      have hne : m.pendingFutures ≠ [] := List.ne_nil_of_mem (mem_pendingFutures hid)
      change Ends m (some (.blocked m.pendingFutures)) (record _ _)
      rw [record_eq]
      exact ⟨.waits _ hne { Stays.refl m with next := rfl }, rfl,
        fun _ => .stays ⟨rfl, rfl, rfl, rfl⟩⟩
    · refine (?_ : Turns _ _) m
      exact pop_calm.andThen fun _ => (awaitedValue_calm m v).andThen fun v => (push_calm v).turn

theorem leave_ends : Turns leave Ends := by
  refine pop_calm.andThen fun v => Turns.chain
    (P := fun m _ n => n = { m with
      stack := lastOf m.frame.base m.stack
      handled := lastOf m.frame.handledBase m.handled })
    (fun m => rfl) fun m _ n hn => ?_
  subst hn
  rw [get_bind]
  dsimp only
  cases hc : m.callers with
  | nil =>
    exact ⟨.returns v { Stays.refl m with callers := hc.symm }, rfl, fun hx => (hx v rfl).elim⟩
  | cons caller callers =>
    change Ends m none (record _ _)
    rw [record_eq]
    exact ⟨.leaves hc { Keeps.refl m with } rfl rfl, rfl, fun _ => .leaves hc rfl⟩

theorem sliceBound_calm (v : Value) : Calm (sliceBound v) := by
  unfold sliceBound
  split
  · exact .ret _
  · split
    · exact .ret _
    · exact .fail _

theorem spread_calm (v : Value) : Calm (spread v) := by
  unfold spread
  split
  · exact .ret _
  · refine .read fun m => ?_
    simp only
    split
    · exact Calm.ret _
    · exact .fail _

theorem popPacked_calm : Calm popPacked := by
  refine pop_calm.bind fun v => ?_
  split
  · exact .ret _
  · exact .ret _

theorem raiseValue_calm (v : Value) : Calm (raiseValue v) := by
  unfold raiseValue
  split <;> exact .fail _

theorem loadLocal_calm (slot : Nat) : Calm (loadLocal code slot) := by
  refine .read fun m => ?_
  split
  · exact .fail _
  · exact .fail _
  · exact push_calm _

theorem loadGlobal_calm (slot : Nat) : Calm (loadGlobal code slot) := by
  refine .read fun m => ?_
  split
  · exact .fail _
  · exact .fail _
  · exact push_calm _

/-- The instruction that a jump leads to comes next. -/
theorem jump_ends (target : Nat) :
    Turns (do jump target; return none : Exec (Option Exit)) Ends := fun m =>
  ⟨.goes target { Stays.refl m with next := rfl }, rfl, fun _ => .stays ⟨rfl, rfl, rfl, rfl⟩⟩

theorem popAndJumpIf_ends (wanted : Bool) (target : Nat) :
    Turns (do popAndJumpIf wanted target; return none : Exec (Option Exit)) Ends := by
  simp only [popAndJumpIf, bind_assoc]
  refine pop_calm.andThen fun v => .read fun m => ?_
  split
  · exact jump_ends target
  · exact (Calm.ret ()).turn

theorem jumpIfOrPop_ends (wanted : Bool) (target : Nat) :
    Turns (do jumpIfOrPop wanted target; return none : Exec (Option Exit)) Ends := by
  simp only [jumpIfOrPop, bind_assoc]
  refine peek_calm.andThen fun v => .read fun m => ?_
  split
  · exact jump_ends target
  · exact pop_calm.turn

theorem nextItem_calm : Calm nextItem := by
  refine peek_calm.bind fun v => ?_
  split
  · exact onHeap_calm (Heap.next_obedient _)
  · exact Calm.ret _

theorem executePlain_ends {op : Op} (hop : op ≠ .reraise) :
    Turns (do executePlain code op; return none : Exec (Option Exit)) Ends := by
  have unary : ∀ {act : Value → Heap.Action Value}, (∀ v, Obedient (act v)) →
      Calm (do push (← onHeap (act (← pop)))) := fun hact =>
    pop_calm.bind fun v => (onHeap_calm (hact v)).bind fun v => push_calm v
  have binary : ∀ {act : Value → Value → Heap.Action Value}, (∀ v w, Obedient (act v w)) →
      Calm (do
        let w ← pop
        let v ← pop
        push (← onHeap (act v w))) := fun hact =>
    pop_calm.bind fun w => pop_calm.bind fun v =>
      (onHeap_calm (hact v w)).bind fun v => push_calm v
  have rearranged : ∀ (f : Machine → Machine), (∀ m : Machine, m.Still (f m)) →
      Calm (modify f) := fun f hf => hf
  have calm : Calm (executePlain code op) → _ := Calm.turn
  cases op with
  | jump target => exact jump_ends target
  | jumpIfFalse target => exact popAndJumpIf_ends false target
  | jumpIfTrue target => exact popAndJumpIf_ends true target
  | jumpIfFalseOrPop target => exact jumpIfOrPop_ends false target
  | jumpIfTrueOrPop target => exact jumpIfOrPop_ends true target
  | forIter target =>
    simp only [executePlain, bind_assoc]
    refine nextItem_calm.andThen fun item => ?_
    cases item with
    | none => exact pop_calm.andThen fun _ => jump_ends target
    | some item => exact (push_calm item).turn
  | loadConst index => exact calm (.read fun _ => push_calm _)
  | loadLocal slot => exact calm (loadLocal_calm slot)
  | storeLocal slot => exact calm (pop_calm.bind fun v m => { Still.refl m with })
  | loadGlobal slot => exact calm (loadGlobal_calm slot)
  | storeGlobal slot => exact calm (pop_calm.bind fun v m => { Still.refl m with })
  | loadBuiltin function => exact calm (push_calm _)
  | loadExcClass type => exact calm (push_calm _)
  | pop => exact calm (pop_calm.bind fun _ => Calm.ret _)
  | dup => exact calm (peek_calm.bind fun v => push_calm v)
  | dup2 => exact calm fun m => { Still.refl m with }
  | rot2 =>
    refine calm (rearranged _ fun m => ?_)
    split
    · exact { Still.refl m with }
    · exact .refl m
  | rot3 =>
    refine calm (rearranged _ fun m => ?_)
    split
    · exact { Still.refl m with }
    · exact .refl m
  | binary op => exact calm (binary fun v w => (Heap.binary_plain op v w).obedient)
  | inplace op => exact calm (binary fun v w => Heap.inplace_obedient op v w)
  | compare op =>
    exact calm (pop_calm.bind fun w => pop_calm.bind fun v =>
      (onHeap_calm (Heap.comparison_plain op v w).obedient).bind fun _ => push_calm _)
  | not => exact calm (pop_calm.bind fun _ => .read fun _ => push_calm _)
  | neg => exact calm (unary fun v => (Heap.negate_plain v).obedient)
  | pos => exact calm (unary fun v => (Heap.positive_plain v).obedient)
  | buildList count =>
    exact calm ((popMany_calm _).bind fun _ =>
      (onHeap_calm (Heap.allocList_plain _).obedient).bind fun v => push_calm v)
  | buildTuple count => exact calm ((popMany_calm _).bind fun _ => push_calm _)
  | buildDict count =>
    refine calm ((popMany_calm _).bind fun items => (onHeap_calm ?_).bind fun v => push_calm v)
    exact (dictOf_obedient _ _).bind fun d => Heap.alloc_obedient _
  | buildString count =>
    exact calm ((popMany_calm _).bind fun parts => .read fun m =>
      (onHeap_calm (Heap.checkResult_obedient _)).bind fun _ => push_calm _)
  | formatValue conversion spec =>
    exact calm (pop_calm.bind fun v => .read fun m => .read fun _ =>
      (onHeap_calm (Heap.format_plain _ _).obedient).bind fun _ => push_calm _)
  | buildSlice =>
    refine calm ((popMany_calm _).bind fun bounds =>
      (Calm.mapM sliceBound_calm bounds).bind fun bounds => ?_)
    split
    · exact push_calm _
    · exact push_calm _
  | toTuple => exact calm (pop_calm.bind fun v => (spread_calm v).bind fun v => push_calm v)
  | unpackSequence count =>
    exact calm (pop_calm.bind fun v => (onHeap_calm (Index.unpack_plain v count).obedient).bind
      fun items m => { Still.refl m with })
  | subscript => exact calm (binary fun v w => (Index.get_plain v w).obedient)
  | storeSubscript =>
    exact calm (pop_calm.bind fun i => pop_calm.bind fun o => pop_calm.bind fun v =>
      onHeap_calm (Index.set_obedient o i v))
  | getIter => exact calm (unary fun v => (Heap.iterate_plain v).obedient)
  | makeFunction function defaults => exact calm ((popMany_calm _).bind fun _ => push_calm _)
  | importModule module => exact calm (push_calm _)
  | setupExcept target =>
    exact fun m => ⟨.goes _ { Stays.refl m with }, rfl, fun _ => .protects rfl rfl rfl rfl rfl⟩
  | popBlock =>
    exact fun m => ⟨.goes _ { Stays.refl m with }, rfl, fun _ => .unprotects rfl rfl rfl rfl⟩
  | popExcept =>
    intro m
    change Ends m none (record _ _)
    rw [record_eq]
    exact ⟨.goes _ { Stays.refl m with }, rfl, fun _ => .settles rfl rfl rfl rfl⟩
  | raise => exact calm (pop_calm.bind fun v => raiseValue_calm v)
  | reraise => exact (hop rfl).elim
  | checkExcMatch =>
    refine calm (pop_calm.bind fun cls => pop_calm.bind fun exc => ?_)
    split
    · exact push_calm _
    · exact .fail _
  | _ => exact calm (Calm.ret _)

theorem execute_ends {op : Op} (hop : op ≠ .reraise) : Turns (execute code op) Ends := by
  cases op with
  | getAttr name =>
    exact pop_calm.andThen fun _ => .read fun _ =>
      (getAttribute_replies _ _).imp fun _ _ _ => Replied.ends
  | call count keywords =>
    exact (popNamed_calm _).andThen fun _ => (popMany_calm _).andThen fun _ =>
      pop_calm.andThen fun _ => callValue_ends _ _
  | callVar keywords =>
    exact (popNamed_calm _).andThen fun _ => popPacked_calm.andThen fun _ =>
      pop_calm.andThen fun _ => callValue_ends _ _
  | callMethod name count keywords =>
    exact (popNamed_calm _).andThen fun _ => (popMany_calm _).andThen fun _ =>
      pop_calm.andThen fun _ => .read fun _ => callMethod_ends _ _ _
  | callMethodVar name keywords =>
    exact (popNamed_calm _).andThen fun _ => popPacked_calm.andThen fun _ =>
      pop_calm.andThen fun _ => .read fun _ => callMethod_ends _ _ _
  | «return» => exact leave_ends
  | await => exact await_ends
  | _ => exact executePlain_ends hop

/-- The machine that has fetched its next instruction. -/
def fetched (m : Machine) : Machine := { m with frame := { m.frame with next := m.frame.next + 1 } }

theorem executeNext_of_none (h : m.fetch code = none) :
    executeNext code m =
      .error (.exception .runtimeError "instruction pointer out of range") m := by
  rw [executeNext_eq, h]

theorem still_entered (m : Machine) (i : Instr) : m.fetched.Still (m.entered i) := still_record _ _

theorem executeNext_ends {i : Instr} (h : m.fetch code = some i) (hop : i.op ≠ .reraise) :
    match executeNext code m with
    | .ok x n => m.fetched.Ends x n
    | .error _ n => m.fetched.Still n := by
  rw [executeNext_eq, h]
  have hentered := m.still_entered i
  have hends : (m.entered i).TurnsAt (execute code i.op) Ends := execute_ends hop (m.entered i)
  unfold TurnsAt at hends
  dsimp only
  generalize execute code i.op (m.entered i) = r at hends ⊢
  cases r with
  | ok x n => exact hends.after hentered
  | error e n => exact hentered.trans hends

/-- What raises an exception again leaves all else as it was. -/
theorem executeNext_reraise {i : Instr} (h : m.fetch code = some i) (hop : i.op = .reraise) :
    ∃ n, m.fetched.Still n ∧ executeNext code m =
      match m.handled with
      | e :: _ => .error (.raised e) { n with reraising := true }
      | [] => .error (.exception .runtimeError "No active exception to reraise") n := by
  have hentered := m.still_entered i
  have hhandled : (m.entered i).handled = m.handled := hentered.handled
  refine ⟨m.entered i, hentered, ?_⟩
  rw [executeNext_eq, h, ← hhandled]
  dsimp only
  rw [hop]
  change (reraise >>= fun _ => pure none : Exec (Option Exit)) (m.entered i) = _
  cases hh : (m.entered i).handled with
  | nil => rw [reraise, bind_assoc, get_bind, hh]; rfl
  | cons e rest => rw [reraise, bind_assoc, get_bind, hh]; rfl

theorem executeNext_turns {i : Instr} (h : m.fetch code = some i) :
    match executeNext code m with
    | .ok x n => m.fetched.Turn x n
    | .error _ n => m.fetched.Stays (m.frame.next + 1) n := by
  by_cases hop : i.op = .reraise
  · obtain ⟨n, hn, heq⟩ := executeNext_reraise h hop
    rw [heq]
    cases m.handled with
    | nil => exact hn.toStays
    | cons e rest => exact { hn.toStays with }
  · have hends := executeNext_ends h hop
    generalize executeNext code m = r at hends ⊢
    cases r with
    | ok x n => exact hends.turn
    | error e n => exact hends.toStays

/-! ## Exceptions -/

/-- An exception that has found a handler has dropped operands and left frames, and nothing more. -/
structure Caught (m n : Machine) : Prop where
  heap : n.heap = m.heap
  futures : n.futures = m.futures
  callers : n.callers.length ≤ m.callers.length
  nextCall : n.nextCall = m.nextCall
  pendingCall : n.pendingCall = m.pendingCall
  output : n.output = m.output

theorem catchAt_caught (m : Machine) (b : Block) (blocks : List Block) (e : Raised) :
    m.Caught (m.catchAt b blocks e) := by
  simp only [catchAt, record]
  split <;> exact ⟨rfl, rfl, le_rfl, rfl, rfl, rfl⟩

theorem caught_of_unwindFrom {recorded : Bool} {e : Raised} {f : Frame} {below : List Frame}
    (hbelow : below.length ≤ m.callers.length)
    (h : unwindFrom code m recorded e f below = .ok n) : m.Caught n := by
  induction below generalizing m recorded e f with
  | nil =>
    rw [unwindFrom] at h
    split at h
    · cases h
      have hc := catchAt_caught { m with frame := f, callers := [] }
      exact { hc _ _ _ with callers := (hc _ _ _).callers.trans hbelow }
    · cases h
  | cons caller below ih =>
    rw [unwindFrom] at h
    split at h
    · cases h
      have hc := catchAt_caught { m with frame := f, callers := caller :: below }
      exact { hc _ _ _ with callers := (hc _ _ _).callers.trans hbelow }
    · dsimp only at h
      let left := { m with
        stack := lastOf f.base m.stack, handled := lastOf f.handledBase m.handled }
      have hc : left.Caught n := ih (Nat.le_of_succ_le hbelow) h
      exact { hc with }

theorem caught_of_unwind {e : Raised} (h : m.unwind code e = .ok n) : m.Caught n :=
  { caught_of_unwindFrom le_rfl h with }

end Machine

end Resumable
