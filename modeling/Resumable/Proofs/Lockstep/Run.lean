import Resumable.Proofs.Lockstep.Collection
import Resumable.Proofs.Lockstep.Step
import Resumable.Script.Run

/-!
# Runs in lockstep

One instruction takes paired machines to paired machines, or ends both in the same way
(`Paired.advance`), if the collections that are due before it leave budgets that refuse the same
things. So do the answers of the host (`Paired.receive`, `Paired.receiveAll`), and the machines at
the start of a run are paired with themselves (`begin_paired`).
-/

namespace Resumable

open List (Forall₂)

variable {κ : World} {p : Pairing}

namespace Machine

variable {m n : Machine}

/-- Two machines are paired in some way. -/
def Matched (κ : World) (m n : Machine) : Prop := ∃ p, m.Paired κ p n

/-- Two machines have ended in the same way. -/
def Ended (κ : World) (m n : Machine) : Prop := ∃ p, m.Halted κ p n

/-! ## Unwinding -/

theorem Paired.catchAt (h : m.Paired κ p n) (b : Block) (blocks : List Block) (e : Raised) :
    (m.catchAt b blocks e).Paired κ p (n.catchAt b blocks e) := by
  have hm : Paired κ p
      { m with
        frame := { m.frame with next := b.handler, blocks }
        stack := .exception e :: lastOf b.operands m.stack
        handled := e :: lastOf b.handled m.handled }
      { n with
        frame := { n.frame with next := b.handler, blocks }
        stack := .exception e :: lastOf b.operands n.stack
        handled := e :: lastOf b.handled n.handled } :=
    { h with
      frame := { h.frame with next := rfl, blocks := rfl }
      stack := .cons (.exception e) (lastOf_alike h.stack _)
      handled := by rw [h.handled] }
  unfold Machine.catchAt
  refine hm.record ?_
  rw [h.handled]

theorem addSite_eq {f g : Frame} (h : f.Alike κ p g) (code : Bytecode) (e : Raised) :
    addSite code f e = addSite code g e := by
  rw [addSite, addSite, Frame.site, Frame.site, h.function, h.next]

theorem Paired.unwindFrom (h : m.Paired κ p n) (code : Bytecode) (recorded : Bool) (e : Raised)
    {f g : Frame} (hfg : f.Alike κ p g) {fs gs : List Frame}
    (hs : Forall₂ (Frame.Alike κ p) fs gs) :
    SameEnd Eq (Paired κ p) (unwindFrom code m recorded e f fs)
      (unwindFrom code n recorded e g gs) := by
  -- The frame of the machine is not the one that is looked at: that is `f`, and `fs` are below it.
  induction hs generalizing m n recorded e f g with
  | nil =>
    have hm :
        Paired κ p { m with frame := f, callers := [] } { n with frame := g, callers := [] } :=
      { h with frame := hfg, callers := .nil }
    rw [Machine.unwindFrom, Machine.unwindFrom, addSite_eq hfg, hfg.blocks]
    split
    · exact .ok (hm.catchAt _ _ _)
    · exact .error rfl
  | @cons caller caller' fs gs hcaller hs ih =>
    have hm : Paired κ p { m with frame := f, callers := caller :: fs }
        { n with frame := g, callers := caller' :: gs } :=
      { h with frame := hfg, callers := .cons hcaller hs }
    have hleft : Paired κ p
        { m with stack := lastOf f.base m.stack, handled := lastOf f.handledBase m.handled }
        { n with stack := lastOf g.base n.stack, handled := lastOf g.handledBase n.handled } :=
      { h with
        stack := by rw [hfg.base]; exact lastOf_alike h.stack _
        handled := by rw [hfg.handledBase, h.handled] }
    rw [Machine.unwindFrom, Machine.unwindFrom, addSite_eq hfg, hfg.blocks]
    split
    · exact .ok (hm.catchAt _ _ _)
    · exact ih hleft false _ hcaller

theorem Halted.unwind (h : m.Halted κ p n) (code : Bytecode) (e : Raised) :
    SameEnd Eq (Paired κ p) (m.unwind code e) (n.unwind code e) := by
  rw [Machine.unwind, Machine.unwind, h.reraising]
  have hm : Paired κ p { m with reraising := false } { n with reraising := false } :=
    { h with reraising := rfl, calm := rfl }
  exact hm.unwindFrom code _ e h.frame h.callers

theorem Halted.limitException_eq (h : m.Halted κ p n) (code : Bytecode) (e : LimitError) :
    m.limitException code e = n.limitException code e := by
  have hsites : m.frames.map (·.site code) = n.frames.map (·.site code) := by
    refine List.Forall₂.map_congr (R := Frame.Alike κ p) (.cons h.frame h.callers) fun f g hfg => ?_
    rw [Frame.site, Frame.site, hfg.function, hfg.next]
  rw [limitException, limitException, hsites]

/-! ## Instructions -/

/-- The machine after its budget has counted an instruction. -/
def ticked (m : Machine) : Machine :=
  { m with heap := { m.heap with budget := m.heap.budget.tick.1 } }

theorem step_eq (code : Bytecode) (m : Machine) :
    step code m = match m.heap.budget.tick.2 with
      | some e => .error (.ofLimit e) m.ticked
      | none => executeNext code m.ticked.collected := by
  simp only [step, tick, collectIfDue, ticked, bind, EStateM.bind, modifyGet,
    MonadStateOf.modifyGet]
  unfold EStateM.modifyGet
  dsimp only
  cases m.heap.budget.tick.2 <;> rfl

/-- Machines stay paired when they get other budgets that refuse the same things. -/
theorem Paired.fund (h : m.Paired κ p n) {b c : Budget} (hbc : κ.budget b c) :
    Paired κ p { m with heap := { m.heap with budget := b } }
      { n with heap := { n.heap with budget := c } } := by
  refine { h with heap := ⟨h.heap.of_cells (fun _ => rfl) (fun _ => rfl) ?_ ?_, hbc, ?_⟩ }
  · exact ⟨h.heap.left.nodup, h.heap.left.mem_free⟩
  · exact ⟨h.heap.right.nodup, h.heap.right.mem_free⟩
  · intro hκ
    obtain ⟨⟨budget, heq⟩, hid⟩ := h.heap.fixed hκ
    exact ⟨⟨c, by simp only [heq]⟩, hid⟩

theorem Paired.ticked (h : m.Paired κ p n) :
    m.ticked.Paired κ p n.ticked ∧ m.heap.budget.tick.2 = n.heap.budget.tick.2 :=
  (κ.tick h.heap.budget).imp_left h.fund

/-- The same comes of one instruction. -/
inductive AdvanceAlike (κ : World) : Advance → Advance → Prop
  | next {m n : Machine} : m.Matched κ n → AdvanceAlike κ (.next m) (.next n)
  | exit {p x y} {m n : Machine} : ExitAlike κ p x y → m.Paired κ p n →
      AdvanceAlike κ (.exit x m) (.exit y n)
  | failed (e) {m n : Machine} : m.Ended κ n → AdvanceAlike κ (.failed e m) (.failed e n)
  | endless : AdvanceAlike κ .endless .endless

/-- The collections that are due before an instruction leave budgets that refuse the same things. -/
def EvenCollections (κ : World) (m n : Machine) : Prop :=
  κ.budget m.ticked.collected.heap.budget n.ticked.collected.heap.budget

theorem Paired.step [κ.Joint] (h : m.Paired κ p n) (hc : EvenCollections κ m n) (code : Bytecode) :
    ∃ q, Outcome (Paired κ) (Halted κ) q (EndAlike κ) (step code m) (step code n) := by
  obtain ⟨ht, ho⟩ := h.ticked
  rw [step_eq, step_eq, ho]
  cases n.heap.budget.tick.2 with
  | some e => exact ⟨p, .error _ le_rfl ht.toHalted⟩
  | none =>
    obtain ⟨q, hq⟩ := ht.collected hc
    exact ⟨q, executeNext_agrees code _ _ hq⟩

/-- What comes of an instruction that has ended in some way. -/
def Advance.ofResult (code : Bytecode) : EStateM.Result Failure Machine (Option Exit) → Advance
  | .ok none m => .next m
  | .ok (some x) m => .exit x m
  | .error (.raised e) m =>
    match m.unwind code e with
    | .ok m => .next m
    | .error e => .failed e m
  | .error (.overrun e) m => .failed (m.limitException code e) m
  | .error .endless _ | .error .stuck _ => .endless

theorem advance_eq (code : Bytecode) (m : Machine) :
    Machine.advance code m = .ofResult code (Machine.step code m) := by
  rw [Machine.advance]
  unfold Advance.ofResult
  rcases Machine.step code m with ⟨_ | _, _⟩ | ⟨_ | _ | _ | _, _⟩ <;> rfl

/-- Paired machines advance alike. -/
theorem Paired.advance [κ.Joint] (h : m.Paired κ p n) (hc : EvenCollections κ m n)
    (code : Bytecode) : AdvanceAlike κ (advance code m) (advance code n) := by
  obtain ⟨q, hs⟩ := h.step hc code
  unfold Machine.advance
  generalize Machine.step code m = x at hs ⊢
  generalize Machine.step code n = y at hs ⊢
  cases hs with
  | ok hq hp hr =>
    cases hr with
    | none => exact .next ⟨_, hp⟩
    | some hxy => exact .exit hxy hp
  | error e hq hp =>
    cases e with
    | raised e =>
      obtain ⟨m', n', hm, hn, hmn⟩ | ⟨e, d, he, hd, rfl⟩ := (hp.unwind code e).elim
      · simp only [hm, hn]; exact .next ⟨_, hmn⟩
      · simp only [he, hd]; exact .failed e ⟨_, hp⟩
    | overrun e => simp only [hp.limitException_eq]; exact .failed _ ⟨_, hp⟩
    | endless => exact .endless
    | stuck => exact .endless

/-! ## Answers -/

theorem Paired.answer (h : m.Paired κ p n) {v w : Value} (hvw : v.Alike κ p w) :
    (m.answer v).Paired κ p (n.answer w) :=
  { h with pendingCall := rfl, stack := .cons hvw h.stack }

theorem Halted.answerException (h : m.Halted κ p n) (code : Bytecode) (e : Raised) :
    SameEnd Eq (Paired κ p) (m.answerException code e) (n.answerException code e) :=
  Halted.unwind (m := { m with pendingCall := .none }) (n := { n with pendingCall := .none })
    { h with pendingCall := rfl } code e

theorem setFuture_insert_alike {fs gs : List (Nat × Future)} (h : Forall₂ (FutureAlike κ p) fs gs)
    {id : Nat} (hid : κ.future id) {f g : Future} (hfg : f.Alike κ p g) :
    Forall₂ (FutureAlike κ p) (setFuture.insert id f fs) (setFuture.insert id g gs) := by
  induction h with
  | nil => exact .cons ⟨rfl, hfg, hid⟩ .nil
  | @cons a b fs gs hab hs ih =>
    obtain ⟨i, f'⟩ := a
    obtain ⟨j, g'⟩ := b
    obtain ⟨rfl : i = j, hab, hi⟩ := hab
    rw [setFuture.insert, setFuture.insert]
    split
    · exact .cons ⟨rfl, hfg, hid⟩ hs
    · split
      · exact .cons ⟨rfl, hfg, hid⟩ (.cons ⟨rfl, hab, hi⟩ hs)
      · exact .cons ⟨rfl, hab, hi⟩ ih

theorem Paired.setFuture [κ.Joint] (h : m.Paired κ p n) {id : Nat} (hid : κ.future id)
    {f g : Future} (hfg : f.Alike κ p g) : (m.setFuture id f).Paired κ p (n.setFuture id g) :=
  { h with futures := .of_all (setFuture_insert_alike h.futures.all hid hfg) }

theorem Paired.answerLater [κ.Joint] (h : m.Paired κ p n) (hκ : ∀ id, κ.future id) :
    SameEnd Eq (Paired κ p) m.answerLater n.answerLater := by
  rw [Machine.answerLater, Machine.answerLater, h.pendingCall]
  cases n.pendingCall with
  | none => exact .error rfl
  | some call => exact .ok ((h.setFuture (hκ call) .pending).answer (.future call))

/-- The first result that nothing waits for. -/
theorem Paired.unknown_alike [κ.Joint] (h : m.Paired κ p n) {fs gs : List (Nat × Future)}
    (hs : Forall₂ (FutureAlike κ p) fs gs) :
    Option.Rel (FutureAlike κ p) (fs.find? fun (id, _) => !m.isPending id)
      (gs.find? fun (id, _) => !n.isPending id) := by
  rw [h.toAlike.isPending_eq]
  induction hs with
  | nil => exact .none
  | @cons a b _ _ hab _ ih =>
    obtain ⟨i, f⟩ := a
    obtain ⟨j, g⟩ := b
    obtain ⟨rfl : i = j, -, -⟩ := id hab
    rw [List.find?_cons, List.find?_cons]
    simp only
    split
    · exact .some hab
    · exact ih

theorem Paired.resolve [κ.Joint] (h : m.Paired κ p n) {fs gs : List (Nat × Future)}
    (hs : Forall₂ (FutureAlike κ p) fs gs) :
    SameEnd Eq (Paired κ p) (m.resolve fs) (n.resolve gs) := by
  have hfind := h.unknown_alike hs
  unfold Machine.resolve
  obtain ⟨ha, hb⟩ | ⟨a, b, ha, hb, hab⟩ := hfind.elim <;> rw [ha, hb]
  · refine .ok ?_
    clear hfind ha hb
    induction hs generalizing m n with
    | nil => exact h
    | @cons a b _ _ hab _ ih =>
      obtain ⟨i, f⟩ := a
      obtain ⟨j, g⟩ := b
      obtain ⟨rfl : i = j, hab, hi⟩ := hab
      exact ih (h.setFuture hi hab)
  · obtain ⟨i, f⟩ := a
    obtain ⟨j, g⟩ := b
    obtain ⟨rfl : i = j, -, -⟩ := hab
    simp only [h.toAlike.pendingFutures_eq]
    exact .error rfl

end Machine

open Machine

/-! ## Scripts -/

/-- What a machine has received: it goes on, or an exception has left it. -/
abbrev ReceivedAlike (κ : World) :
    Except (Raised × Machine) Machine → Except (Raised × Machine) Machine → Prop :=
  SameEnd (fun a b => a.1 = b.1 ∧ a.2.Ended κ b.2) (Matched κ)

theorem SameEnd.withMachine {m n : Machine} (h : m.Halted κ p n) {x y : Except Raised Machine}
    (hxy : SameEnd Eq (Machine.Paired κ p) x y) :
    ReceivedAlike κ (x.mapError (·, m)) (y.mapError (·, n)) := by
  cases hxy with
  | ok h => exact .ok ⟨p, h⟩
  | error he => exact .error ⟨he, p, h⟩

/-- An answer that is given at once takes paired machines to paired machines. -/
theorem Machine.Paired.receive_now {m n : Machine} (h : m.Paired κ p n) {r s : Paused}
    (hrs : r.script = s.script) {a : Answer} (ha : a ≠ .later) :
    ReceivedAlike κ (r.receive a m) (s.receive a n) := by
  have raise : ∀ {q} {m n : Machine}, m.Halted κ q n → ∀ e,
      ReceivedAlike κ ((m.answerException r.script.bytecode e).mapError (·, m))
        ((n.answerException s.script.bytecode e).mapError (·, n)) := by
    intro q m n h e
    rw [hrs]
    exact (h.answerException _ e).withMachine h
  cases a with
  | later => exact (ha rfl).elim
  | exception type message limit => exact raise h.toHalted _
  | value v =>
    have hv := onHeap_agrees (Heap.ofObject_agrees p v) m n h
    unfold Paused.receive
    simp only
    generalize onHeap (Heap.ofObject v) m = x at hv ⊢
    generalize onHeap (Heap.ofObject v) n = y at hv ⊢
    cases hv with
    | ok hq hp hr => exact .ok ⟨_, hp.answer hr⟩
    | error e hq hp =>
      cases e with
      | overrun e => exact .error ⟨rfl, _, hp⟩
      | raised e => exact raise hp _
      | endless => exact raise hp _
      | stuck => exact raise hp _

/-- An answer takes paired machines to paired machines. -/
theorem Machine.Paired.receive [κ.Joint] {m n : Machine} (h : m.Paired κ p n) {r s : Paused}
    (hrs : r.script = s.script) (hκ : ∀ id, κ.future id) (a : Answer) :
    ReceivedAlike κ (r.receive a m) (s.receive a n) := by
  cases a with
  | later => exact (h.answerLater hκ).withMachine h.toHalted
  | exception type message limit => exact h.receive_now hrs nofun
  | value v => exact h.receive_now hrs nofun

theorem Machine.Paired.toFutures {m n : Machine} (h : m.Paired κ p n) {r s : Paused}
    (hrs : r.script = s.script) (hκ : ∀ id, κ.future id) {fs gs : List (Nat × Future)}
    (hs : Forall₂ (FutureAlike κ p) fs gs) (results : List (Nat × Answer)) :
    SameEnd Eq (fun a b => ∃ q, Forall₂ (FutureAlike κ q) a.1 b.1 ∧ a.2.Paired κ q b.2)
      (r.toFutures m fs results) (s.toFutures n gs results) := by
  induction results generalizing m n p fs gs with
  | nil => exact .ok ⟨p, List.rel_reverse hs, h⟩
  | cons x results ih =>
    obtain ⟨id, a⟩ := x
    cases a with
    | later => exact ih h hs
    | exception type message limit => exact ih h (.cons ⟨rfl, .failed _, hκ id⟩ hs)
    | value v =>
      rw [Paused.toFutures, Paused.toFutures]
      have hv := onHeap_agrees (Heap.ofObject_agrees p v) m n h
      generalize onHeap (Heap.ofObject v) m = x at hv ⊢
      generalize onHeap (Heap.ofObject v) n = y at hv ⊢
      cases hv with
      | ok hq hp hr =>
        exact ih hp (.cons ⟨rfl, .resolved hr, hκ id⟩ (hs.imp fun _ _ h => h.mono hq))
      | error e hq hp => simp only [hrs]; exact .error rfl

/-- Results of calls take paired machines to paired machines, or are refused alike. -/
theorem Machine.Paired.receiveAll [κ.Joint] {m n : Machine} (h : m.Paired κ p n) {r s : Paused}
    (hrs : r.script = s.script) (hκ : ∀ id, κ.future id) (pending : List Nat)
    (results : List (Nat × Answer)) :
    SameEnd Eq (ReceivedAlike κ) (r.receiveAll pending results m)
      (s.receiveAll pending results n) := by
  unfold Paused.receiveAll
  split
  · exact .error rfl
  · obtain ⟨a, b, ha, hb, q, hf, hq⟩ | ⟨e, d, he, hd, rfl⟩ :=
      (h.toFutures hrs hκ .nil results).elim
    · rw [ha, hb]
      exact .ok ((hq.resolve hf).withMachine hq.toHalted)
    · rw [he, hd]
      exact .error rfl

/-- The host sees the same arguments of a call. -/
theorem Machine.Paired.toObjects_eq {m n : Machine} (h : m.Paired κ p n) {a b : Arguments}
    (hab : a.Alike κ p b) :
    a.positional.map m.heap.toObject = b.positional.map n.heap.toObject ∧
      (a.named.map fun (name, v) => (name, m.heap.toObject v)) =
        b.named.map fun (name, v) => (name, n.heap.toObject v) := by
  constructor
  · exact List.Forall₂.map_congr hab.positional fun _ _ hvw => Heap.toObject_eq h.heap.toLinked hvw
  · refine List.Forall₂.map_congr hab.named fun (i, v) (j, w) hvw => ?_
    simp only [Prod.mk.injEq]
    exact ⟨hvw.1, Heap.toObject_eq h.heap.toLinked hvw.2⟩

/-- What runs have in common that have printed and recorded nothing. -/
def World.Fresh (κ : World) (traced : Bool) : Prop :=
  κ.output "" "" ∧
    κ.events (if traced then some [] else none) (if traced then some [] else none)

/-- A paused run goes on as it was. -/
theorem Machine.Paired.pause [κ.Joint] {m n : Machine} (h : m.Paired κ p n) (s : Script)
    {traced : Bool} (hκ : κ.Fresh traced) (writer : Writer) :
    ((s.pause m).machine traced writer).Paired κ p ((s.pause n).machine traced writer) :=
  { h with
    reraising := rfl
    writer := rfl
    writes := World.Joint.writer writer
    output := hκ.1
    events := hκ.2
    calm := rfl }

/-- Runs start with paired machines, or are refused alike. -/
theorem begin_paired [κ.Joint] (s : Script) (inputs : List Object) {b c : Budget}
    (hbc : κ.budget b c) (hκ : ∀ i < s.functions.length, κ.external i) {traced : Bool}
    (hfresh : κ.Fresh traced) (writer : Writer) :
    SameEnd Eq (fun x y => (Script.begin x.1 x.2 traced writer).Matched κ
      (Script.begin y.1 y.2 traced writer)) (s.globals inputs b) (s.globals inputs c) := by
  unfold Script.globals
  split
  · exact .error rfl
  · have hempty : (Heap.ofBudget b).Paired κ .empty (.ofBudget c) :=
      ⟨⟨fun h => h.elim, fun hc => (World.Joint.kept _ _ hc).elim, Heap.exact_ofBudget b,
        Heap.exact_ofBudget c⟩, hbc,
        fun _ => ⟨⟨c, rfl⟩, fun _ _ h => h.elim⟩⟩
    have hv := Heap.ofObjects_agrees (κ := κ) .nil inputs _ _ hempty
    generalize Heap.ofObjects [] inputs (.ofBudget b) = x at hv ⊢
    generalize Heap.ofObjects [] inputs (.ofBudget c) = y at hv ⊢
    cases hv with
    | error e hq hp => exact .error rfl
    | @ok q h k vs ws hq hp hr =>
      refine .ok ⟨q, ⟨?_, hp⟩, rfl⟩
      have hexternal : AllAlike κ q ((List.range s.functions.length).map .external)
          ((List.range s.functions.length).map .external) :=
        List.forall₂_same.mpr fun v hv => by
          obtain ⟨i, hi, rfl⟩ := List.mem_map.mp hv
          exact .external (hκ i (List.mem_range.mp hi))
      exact {
        stack := .nil
        frame := ⟨rfl, rfl, .nil, rfl, rfl, rfl⟩
        callers := .nil
        handled := rfl
        futures := .of_all .nil
        nextCall := rfl
        pendingCall := rfl
        reraising := rfl
        globals := (hexternal.append hr).append
          (by rw [List.Forall₂.length_eq hr]; exact List.Forall₂.replicate .undefined _)
        writer := rfl
        writes := World.Joint.writer writer
        output := hfresh.1
        events := hfresh.2 }

/-! ## From one world to another

Machines that are paired in one world are paired in another one that knows the same names, if their
budgets, their output and their events are related there as well. So a run that is taken up again
can be compared from then on in a world of its own (`Machine.Paired.restored`). -/

section

open List (Forall₂)

/-- A world knows the functions and host calls that another one knows. -/
structure World.Within (κ κ' : World) : Prop where
  external : ∀ {i}, κ.external i → κ'.external i
  future : ∀ {id}, κ.future id → κ'.future id

variable {κ κ' : World} (hκ : κ.Within κ') {p : Pairing}
include hκ

theorem Value.Alike.transfer {v w : Value} (h : v.Alike κ p w) : v.Alike κ' p w := by
  induction h using Value.Alike.rec (motive_2 := fun vs ws _ => AllAlike κ' p vs ws) with
  | ref h => exact .ref h
  | tuple _ ih => exact .tuple ih
  | namedTuple type fields _ ih => exact .namedTuple type fields ih
  | function code _ ih => exact .function code ih
  | gather _ ih => exact .gather ih
  | external h => exact .external (hκ.external h)
  | nil => exact .nil
  | cons _ _ ih ihs => exact .cons ih ihs
  | _ => constructor

theorem AllAlike.transfer {vs ws : List Value} (h : AllAlike κ p vs ws) : AllAlike κ' p vs ws :=
  h.imp fun _ _ h => h.transfer hκ

theorem Cell.Alike.transfer {c d : Cell} (h : c.Alike κ p d) : c.Alike κ' p d := by
  cases h with
  | list h => exact .list (AllAlike.transfer hκ h)
  | dict h =>
    refine .dict (List.Forall₂.imp (fun e f hef => ?_) h)
    exact ⟨hef.key, hef.name.transfer hκ, hef.value.transfer hκ⟩
  | iter h =>
    cases h with
    | list position h => exact .iter (.list position h)
    | items position h => exact .iter (.items position (AllAlike.transfer hκ h))
    | range next stop step => exact .iter (.range next stop step)

theorem Heap.Linked.transfer {h k : Heap} (hl : h.Linked κ p k)
    (hkept : ∀ {y c}, κ'.kept y c → k.cell? y = some c ∧ ∀ x, ¬ p.rel x y) : h.Linked κ' p k where
  cells hxy := by
    obtain ⟨c, d, hc, hd, hcd⟩ := hl.cells hxy
    exact ⟨c, d, hc, hd, hcd.transfer hκ⟩
  kept := hkept
  left := hl.left
  right := hl.right

theorem Frame.Alike.transfer {f g : Frame} (h : f.Alike κ p g) : f.Alike κ' p g :=
  { h with locals := AllAlike.transfer hκ h.locals }

theorem Future.Alike.transfer {f g : Future} (h : f.Alike κ p g) : f.Alike κ' p g := by
  cases h with
  | pending => exact .pending
  | resolved h => exact .resolved (h.transfer hκ)
  | failed e => exact .failed e

theorem FutureAlike.transfer {a b : Nat × Future} (h : FutureAlike κ p a b) :
    FutureAlike κ' p a b := ⟨h.id, h.future.transfer hκ, hκ.future h.known⟩

/-- Machines that are alike are so in another world, with other futures and other news for their
hosts. -/
theorem Machine.Alike.transfer {m n : Machine} (h : m.Alike κ p n) {fs gs : List (Nat × Future)}
    (hfutures : FuturesAlike κ' p fs gs) {writer : Writer} (hwriter : κ'.writer writer)
    {a b : String} (houtput : κ'.output a b) {as bs : Option (List Event)}
    (hevents : κ'.events as bs) (reraising : Bool) (h₁ h₂ : Heap) :
    Alike κ' p
      { m with
        futures := fs, reraising, heap := h₁, writer, output := a, events := as }
      { n with
        futures := gs, reraising, heap := h₂, writer, output := b, events := bs } :=
  { h with
    stack := AllAlike.transfer hκ h.stack
    frame := h.frame.transfer hκ
    callers := h.callers.imp fun _ _ h => h.transfer hκ
    futures := hfutures
    reraising := rfl
    globals := AllAlike.transfer hκ h.globals
    writer := rfl
    writes := hwriter
    output := houtput
    events := hevents }

/-- A machine that goes on is paired with one that has been restored from what was kept of its
partner: nothing is lost but what has been printed and recorded. -/
theorem Machine.Paired.restored [κ.Joint] [κ'.Joint] {m n : Machine} (h : m.Paired κ p n)
    {traced : Bool} (hbudget : κ'.budget m.heap.budget n.heap.budget)
    (hfixed : κ'.fixed → (∃ budget, n.heap = { m.heap with budget }) ∧ ∀ x y, p.rel x y → x = y)
    (houtput : κ'.output m.output "")
    (hevents : κ'.events m.events (if traced then some [] else none)) :
    m.Paired κ' p (.restore n.snapshot n.heap n.globals n.writer traced) := by
  have hfutures : FuturesAlike κ' p m.futures n.futures :=
    .of_all (h.futures.all.imp fun _ _ h => h.transfer hκ)
  have hm := h.toAlike.transfer hκ hfutures (World.Joint.writer n.writer) houtput hevents false
    m.heap n.heap
  exact {
    hm with
    reraising := h.calm
    writer := h.writer
    writes := World.Joint.writer m.writer
    heap := ⟨h.heap.transfer hκ fun hc => (World.Joint.kept _ _ hc).elim, hbudget, hfixed⟩
    calm := h.calm }

end

end Resumable
