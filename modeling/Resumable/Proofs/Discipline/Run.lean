import Resumable.Proofs.Discipline.Step

/-!
# Runs and the stacks

In a run of labelled code every machine has the shape that the labels say: the frame that executes
that of its next instruction, and every frame below it that of the instruction that it goes on at,
where it finds the value of its call (`Machine.Fits`). One instruction keeps that, and so does an
exception on its way to its handler, because no instruction takes operands that a handler keeps
(`Machine.Unwindable`).
-/

namespace Resumable

/-- The stacks above the base of a frame are as the label of its next instruction says, but for
`missing` operands that the frame is to be given before. -/
structure Frame.Fits (S : Shapes) (missing operands handled : Nat) (f : Frame) (σ : Shape) :
    Prop where
  label : S f.next = some (σ.up missing)
  blocks : f.blocks = σ.blocks.map (·.above f.base f.handledBase)
  operands : operands = f.base + σ.operands
  handled : handled = f.handledBase + σ.handled
  guarded : Guarded S 0 σ

/-- Every frame has the shape in which it goes on when it is given the value of its call. -/
def CallersFit (labels : Nat → Shapes) : Nat → Nat → List Frame → Prop
  | operands, handled, [] => operands = 0 ∧ handled = 0
  | operands, handled, f :: below =>
    (∃ σ, f.Fits (labels f.function) 1 operands handled σ) ∧
      CallersFit labels f.base f.handledBase below

theorem Frame.Fits.keeps {S : Shapes} {missing operands handled : Nat} {f : Frame} {σ : Shape}
    (h : f.Fits S missing operands handled σ) :
    f.blocks = σ.blocks.map (·.above f.base f.handledBase) ∧
      f.base + σ.operands ≤ operands ∧ f.handledBase + σ.handled ≤ handled ∧ Guarded S 0 σ :=
  ⟨h.blocks, Nat.le_of_eq h.operands.symm, Nat.le_of_eq h.handled.symm, h.guarded⟩

namespace Machine

/-- All frames have the shapes that the labels say. -/
structure Fits (labels : Nat → Shapes) (missing : Nat) (m : Machine) : Prop where
  frame : ∃ σ, m.frame.Fits (labels m.frame.function) missing m.stack.length m.handled.length σ
  callers : CallersFit labels m.frame.base m.frame.handledBase m.callers

/-- Where a run comes by, all frames have the shapes that the labels say; at a call of the host, the
operand is missing that the host gives, and at the end of the program nothing is left. -/
def FitsAt (labels : Nat → Shapes) : Option Exit → Machine → Prop
  | none, m => m.Fits labels 0
  | some (.externalCall ..), m | some (.osCall ..), m => m.Fits labels 1
  | some (.blocked _), m => m.Fits labels 0
  | some (.returned _), m => m.stack = [] ∧ m.handled = [] ∧ m.callers = []

/-- What a handler keeps is on the stacks; if a frame has none, then what was there when its call
began, and so on in the frames below. -/
def Restores (operands handled : Nat) : List Frame → Prop
  | [] => True
  | f :: below => match f.blocks with
    | b :: _ => b.operands ≤ operands ∧ b.handled ≤ handled
    | [] => f.base ≤ operands ∧ f.handledBase ≤ handled ∧ Restores f.base f.handledBase below

/-- An exception in a frame can be unwound. -/
structure Unwindable (labels : Nat → Shapes) (operands handled : Nat) (f : Frame)
    (below : List Frame) : Prop where
  frame : ∃ σ, f.blocks = σ.blocks.map (·.above f.base f.handledBase) ∧
    f.base + σ.operands ≤ operands ∧ f.handledBase + σ.handled ≤ handled ∧
    Guarded (labels f.function) 0 σ
  callers : CallersFit labels f.base f.handledBase below

/-- The operands below the base of the current frame. -/
def below (m : Machine) : List Value := lastOf m.frame.base m.stack

variable {code : Bytecode} {labels : Nat → Shapes} {m n : Machine} {f : Frame}
  {callers below : List Frame} {kept : List Value} {pc operands handled missing : Nat} {σ : Shape}

/-! ## Unwinding -/

theorem Fits.unwindable (h : m.Fits labels missing) :
    Unwindable labels m.stack.length m.handled.length m.frame m.callers :=
  ⟨h.frame.imp fun _ hσ => hσ.keeps, h.callers⟩

theorem CallersFit.unwindable {g : Frame}
    (h : CallersFit labels operands handled (g :: below)) :
    Unwindable labels operands handled g below :=
  ⟨h.1.imp fun _ hσ => hσ.keeps, h.2⟩

theorem restores_cons (h : ∃ σ : Shape, f.blocks = σ.blocks.map (·.above f.base f.handledBase) ∧
      f.base + σ.operands ≤ operands ∧ f.handledBase + σ.handled ≤ handled ∧
      Guarded (labels f.function) 0 σ)
    (hbelow : Restores f.base f.handledBase below) : Restores operands handled (f :: below) := by
  obtain ⟨σ, hb, ho, hh, hg⟩ := h
  unfold Restores
  rw [hb]
  cases hbs : σ.blocks with
  | nil => exact ⟨by omega, by omega, hbelow⟩
  | cons b rest =>
    obtain ⟨hbo, hbh, -⟩ := hg b rest hbs
    exact ⟨by simp only [Block.above]; omega, by simp only [Block.above]; omega⟩

theorem CallersFit.restores (h : CallersFit labels operands handled callers) :
    Restores operands handled callers := by
  induction callers generalizing operands handled with
  | nil => trivial
  | cons f below ih => exact restores_cons (h.1.imp fun _ hσ => hσ.keeps) (ih h.2)

theorem Unwindable.restores (h : Unwindable labels operands handled f below) :
    Restores operands handled (f :: below) := restores_cons h.frame (CallersFit.restores h.callers)

theorem label_guarded (hcode : code.Labelled labels) {i q : Nat} (hq : labels i q = some σ) :
    Guarded (labels i) 0 σ := by
  cases hc : code.functions[i]? with
  | none => rw [hcode.inside i hc] at hq; cases hq
  | some c =>
    obtain ⟨_, -, hk⟩ := (hcode.keeps i c hc).keeps q σ hq
    exact hk.guarded.mono (Nat.zero_le _)

theorem Fits.of_eq (h : m.Fits labels missing) (hf : n.frame = m.frame)
    (hc : n.callers = m.callers) (hs : n.stack.length = m.stack.length)
    (hh : n.handled.length = m.handled.length) : n.Fits labels missing := by
  obtain ⟨hframe, hcallers⟩ := h
  constructor
  · rw [hf, hs, hh]; exact hframe
  · rw [hf, hc]; exact hcallers

theorem Fits.record (h : m.Fits labels missing) (e : Machine → Event) :
    (m.record e).Fits labels missing := by
  unfold Machine.record
  split
  · exact h
  · exact h.of_eq rfl rfl rfl rfl

/-- A handler is entered in the shape that it has when it is registered. -/
theorem catchAt_fits (hcode : code.Labelled labels) {e : Raised} {b : Block} {rest : List Block}
    (hb : σ.blocks = b :: rest) (ho : m.frame.base + σ.operands ≤ m.stack.length)
    (hh : m.frame.handledBase + σ.handled ≤ m.handled.length)
    (hg : Guarded (labels m.frame.function) 0 σ)
    (hc : CallersFit labels m.frame.base m.frame.handledBase m.callers) :
    (m.catchAt (b.above m.frame.base m.frame.handledBase)
      (rest.map (·.above m.frame.base m.frame.handledBase)) e).Fits labels 0 := by
  obtain ⟨hbo, hbh, hlabel⟩ := hg b rest hb
  unfold catchAt
  refine Fits.record ?_ _
  refine ⟨⟨b.caught rest, hlabel, rfl, ?_, ?_, label_guarded hcode hlabel⟩, hc⟩
  · have hlen : (lastOf (m.frame.base + b.operands) m.stack).length =
        m.frame.base + b.operands := lastOf_length (by omega)
    exact congrArg (· + 1) hlen
  · have hlen : (lastOf (m.frame.handledBase + b.handled) m.handled).length =
        m.frame.handledBase + b.handled := lastOf_length (by omega)
    exact congrArg (· + 1) hlen

theorem unwindFrom_fits (hcode : code.Labelled labels) {recorded : Bool} {e : Raised}
    (h : Unwindable labels m.stack.length m.handled.length f below)
    (hn : unwindFrom code m recorded e f below = .ok n) : n.Fits labels 0 := by
  induction below generalizing m recorded e f with
  | nil =>
    obtain ⟨⟨σ, hb, ho, hh, hg⟩, hc⟩ := h
    unfold unwindFrom at hn
    cases hbs : σ.blocks with
    | nil => rw [hb, hbs] at hn; cases hn
    | cons b rest =>
      rw [hb, hbs] at hn
      cases hn
      exact catchAt_fits (m := { m with frame := f, callers := [] }) hcode hbs ho hh hg hc
  | cons g below ih =>
    obtain ⟨⟨σ, hb, ho, hh, hg⟩, hc⟩ := h
    unfold unwindFrom at hn
    cases hbs : σ.blocks with
    | nil =>
      rw [hb, hbs] at hn
      refine ih (m := { m with
        stack := lastOf f.base m.stack, handled := lastOf f.handledBase m.handled }) ?_ hn
      have hs : (lastOf f.base m.stack).length = f.base := lastOf_length (by omega)
      have hd : (lastOf f.handledBase m.handled).length = f.handledBase := lastOf_length (by omega)
      simp only [hs, hd]
      exact CallersFit.unwindable hc
    | cons b rest =>
      rw [hb, hbs] at hn
      cases hn
      exact catchAt_fits (m := { m with frame := f, callers := g :: below }) hcode hbs ho hh hg hc

theorem unwind_fits (hcode : code.Labelled labels) {e : Raised}
    (h : Unwindable labels m.stack.length m.handled.length m.frame m.callers)
    (hn : m.unwind code e = .ok n) : n.Fits labels 0 :=
  unwindFrom_fits (m := { m with reraising := false }) hcode h hn

/-! ## Instructions -/

theorem Fits.stands (h : m.Fits labels 0) : ∃ σ, labels m.frame.function m.frame.next = some σ ∧
    Guarded (labels m.frame.function) 0 σ ∧
    Stands m.frame m.callers m.below m.frame.next σ m := by
  obtain ⟨σ, hσ⟩ := h.frame
  have hbase : m.frame.base ≤ m.stack.length := hσ.operands ▸ Nat.le_add_right _ _
  refine ⟨σ, hσ.label, hσ.guarded, ⟨_, by rw [← hσ.blocks]⟩, rfl, lastOf_length hbase, ?_,
    hσ.handled⟩
  refine ⟨m.stack.take σ.operands, ?_, by rw [List.length_take, hσ.operands]; omega⟩
  rw [Machine.below, lastOf, hσ.operands, Nat.add_sub_cancel_left, List.take_append_drop]

theorem Stands.fits {k : Nat} (h : Stands f callers kept pc σ m)
    (hS : labels f.function pc = some (σ.up k)) (hg : Guarded (labels f.function) 0 σ)
    (hc : CallersFit labels f.base f.handledBase callers) : m.Fits labels k := by
  obtain ⟨locals, hf⟩ := h.frame
  constructor
  · rw [hf]; exact ⟨σ, hS, rfl, h.length, h.handled, hg⟩
  · rw [hf, h.callers]; exact hc

theorem Stands.suffix (h : Stands f callers kept pc σ m) : kept <:+ m.stack :=
  h.operands.imp fun _ hown => hown.1.symm

theorem Landed.fitsAt (hcode : code.Labelled labels) {x : Option Exit}
    (h : Landed code (labels f.function) f callers kept x m)
    (hc : CallersFit labels f.base f.handledBase callers) :
    m.FitsAt labels x ∧ kept <:+ m.stack := by
  cases h with
  | goes hS h => exact ⟨h.fits (k := 0) hS (label_guarded hcode hS) hc, h.suffix⟩
  | @enters q σ m hS hg h =>
    obtain ⟨i, hi, locals, hf⟩ := h.frame
    obtain ⟨locals', hcs⟩ := h.callers
    obtain ⟨own, hs, hn⟩ := h.operands
    have hlength : m.stack.length = f.base + σ.operands := by
      rw [hs, List.length_append, hn, h.base, Nat.add_comm]
    have hentry := (hcode.keeps i _ (Array.getElem?_eq_getElem hi)).entry
    refine ⟨?_, own, hs.symm⟩
    constructor
    · rw [hf]
      exact ⟨.empty, hentry, rfl, hlength, h.handled, label_guarded hcode hentry⟩
    · rw [hf, hcs]
      exact ⟨⟨σ, hS, rfl, rfl, rfl, hg⟩, hc⟩
  | @returns g below v m hcs hf hm ho hbase hh =>
    subst hcs
    obtain ⟨⟨σ, hσ⟩, hbelow⟩ := hc
    refine ⟨?_, [v], ho.symm⟩
    constructor
    · rw [hf]
      exact ⟨σ.up 1, hσ.label, hσ.blocks, by rw [ho, List.length_cons, hbase, hσ.operands]; rfl,
        by rw [hh, hσ.handled]; rfl, hσ.guarded.above 1⟩
    · rw [hf, hm]; exact hbelow
  | @asks x q m σ hx hS hg h =>
    refine ⟨?_, h.suffix⟩
    have h := h.fits (k := 1) hS hg hc
    cases x with
    | returned | blocked => cases hx
    | externalCall | osCall => exact h
  | waits hS h => exact ⟨h.fits (k := 0) hS (label_guarded hcode hS) hc, h.suffix⟩
  | @ends v m hcs hm ho hb hh =>
    subst hcs
    obtain ⟨hbase, hhandled⟩ := hc
    exact ⟨⟨ho.trans (List.eq_nil_of_length_eq_zero (hb.trans hbase)),
      List.eq_nil_of_length_eq_zero (hh.trans hhandled), hm⟩, [], ho.symm⟩

theorem Failed.unwindable (h : Failed (labels f.function) f callers kept m)
    (hc : CallersFit labels f.base f.handledBase callers) :
    Unwindable labels m.stack.length m.handled.length m.frame m.callers ∧ kept <:+ m.stack := by
  obtain ⟨_, σ, hg, h⟩ := h
  refine ⟨?_, h.suffix⟩
  obtain ⟨locals, hf⟩ := h.frame
  constructor
  · rw [hf]; exact ⟨σ, rfl, Nat.le_of_eq h.length.symm, Nat.le_of_eq h.handled.symm, hg⟩
  · rw [hf, h.callers]; exact hc

/-- The next instruction is there, and fits the label of the machine. -/
theorem Fits.next (hcode : code.Labelled labels) (h : m.Fits labels 0) :
    ∃ i σ, m.fetch code = some i ∧ labels m.frame.function m.frame.next = some σ ∧
      i.op.Fits (framePool code m.frame) (labels m.frame.function) m.frame.next σ ∧
      Guarded (labels m.frame.function) (i.op.pops (framePool code m.frame)) σ ∧
      Stands m.frame m.callers m.below m.frame.next σ m := by
  obtain ⟨σ, hlabel, -, hstands⟩ := h.stands
  cases hc : code.functions[m.frame.function]? with
  | none => rw [hcode.inside _ hc] at hlabel; cases hlabel
  | some c =>
    obtain ⟨i, hi, hkeeps⟩ := (hcode.keeps _ c hc).keeps _ σ hlabel
    have hpool : framePool code m.frame = c.pool := by rw [framePool, hc]; rfl
    refine ⟨i, σ, ?_, hlabel, ?_, ?_, hstands⟩
    · rw [fetch, hc]; exact hi
    · rw [hpool]; exact hkeeps.fits
    · rw [hpool]; exact hkeeps.guarded

/-- An instruction keeps the shapes, and the operands below the base of its frame. -/
theorem executeNext_leads (hcode : code.Labelled labels) :
    Leads (fun m => m.Fits labels 0 ∧ m.below = kept) (executeNext code)
      (fun x n => n.FitsAt labels x ∧ kept <:+ n.stack)
      fun n => Unwindable labels n.stack.length n.handled.length n.frame n.callers ∧
        kept <:+ n.stack := by
  rintro m ⟨hm, rfl⟩
  obtain ⟨i, σ, hfetch, hlabel, hfits, hguarded, hstands⟩ := hm.next hcode
  have hexecute : Leads (Stands m.frame m.callers m.below (m.frame.next + 1) σ) (execute code i.op)
      (fun x n => n.FitsAt labels x ∧ m.below <:+ n.stack)
      fun n => Unwindable labels n.stack.length n.handled.length n.frame n.callers ∧
        m.below <:+ n.stack :=
    (execute_leads hfits hlabel hguarded).mono (fun x n h => h.fitsAt hcode hm.callers)
      fun n h => h.unwindable hm.callers
  refine Leads.read (P := (· = m)) (fun n hn => ?_) m rfl
  subst hn
  rw [hfetch]
  refine .bind (Q := fun _ => Stands n.frame n.callers n.below (n.frame.next + 1) σ)
    (.update fun k hk => ?_) fun _ => ?_
  · subst hk
    exact hstands.goTo rfl
  · exact (trace_leads _ fun k events h => h.events events).bind fun _ => hexecute

theorem step_leads (hcode : code.Labelled labels) :
    Leads (fun m => m.Fits labels 0 ∧ m.below = kept) (step code)
      (fun x n => n.FitsAt labels x ∧ kept <:+ n.stack)
      fun n => Unwindable labels n.stack.length n.handled.length n.frame n.callers ∧
        kept <:+ n.stack := by
  have hheap : ∀ (m : Machine) heap, m.Fits labels 0 ∧ m.below = kept →
      Fits labels 0 { m with heap } ∧ below { m with heap } = kept :=
    fun m heap h => ⟨h.1.of_eq rfl rfl rfl rfl, h.2⟩
  refine .bind (Q := fun _ m => m.Fits labels 0 ∧ m.below = kept) ?_ fun _ =>
    .bind (Q := fun _ m => m.Fits labels 0 ∧ m.below = kept) (.update fun m h => ?_) fun _ =>
      executeNext_leads hcode
  · refine .bind (Q := fun _ m => m.Fits labels 0 ∧ m.below = kept)
      (.change fun m h => hheap m _ h) fun overrun => ?_
    split
    · refine .fail fun m h => ⟨h.1.unwindable, ?_⟩
      exact h.2 ▸ List.drop_suffix _ _
    · exact .ret fun m h => h
  · unfold collected
    split
    · exact hheap m _ h
    · exact h

theorem advance_fits (hcode : code.Labelled labels) (hm : m.Fits labels 0)
    (h : m.advance code = .next n) : n.Fits labels 0 := by
  have hstep := step_leads hcode m ⟨hm, rfl⟩
  unfold advance at h
  cases hr : step code m with
  | ok x k =>
    rw [hr] at h hstep
    cases x with
    | none => cases h; exact hstep.1
    | some x => cases h
  | error e k =>
    rw [hr] at h hstep
    cases e with
    | raised e =>
      cases hn : k.unwind code e with
      | ok n => simp only [hn] at h; cases h; exact unwind_fits hcode hstep.1 hn
      | error e => simp only [hn] at h; cases h
    | overrun e => cases h
    | endless => cases h
    | stuck => cases h

theorem advance_fitsAt (hcode : code.Labelled labels) (hm : m.Fits labels 0) {x : Exit}
    (h : m.advance code = .exit x n) : n.FitsAt labels (some x) := by
  have hstep := step_leads hcode m ⟨hm, rfl⟩
  unfold advance at h
  cases hr : step code m with
  | ok x k =>
    rw [hr] at h hstep
    cases x with
    | none => cases h
    | some x => cases h; exact hstep.1
  | error e k =>
    rw [hr] at h
    cases e with
    | raised e => cases hn : k.unwind code e <;> simp only [hn] at h <;> cases h
    | overrun e => cases h
    | endless => cases h
    | stuck => cases h

/-! ## Answers of the host -/

theorem onHeap_fits {α : Type} (act : Heap.Action α) :
    Leads (Fits labels missing) (onHeap act) (fun _ => Fits labels missing)
      (Fits labels missing) := by
  intro m hm
  unfold onHeap
  simp only
  cases act m.heap with
  | ok a heap => exact hm.of_eq rfl rfl rfl rfl
  | error e heap => exact hm.of_eq rfl rfl rfl rfl

theorem Fits.answer (h : m.Fits labels 1) (v : Value) : (m.answer v).Fits labels 0 := by
  obtain ⟨⟨σ, hσ⟩, hc⟩ := h
  refine ⟨⟨σ.up 1, hσ.label, hσ.blocks, ?_, hσ.handled, hσ.guarded.above 1⟩, hc⟩
  exact congrArg (· + 1) hσ.operands

theorem Fits.answerException (hcode : code.Labelled labels) (h : m.Fits labels missing) {e : Raised}
    (hn : m.answerException code e = .ok n) : n.Fits labels 0 :=
  unwind_fits hcode (m := { m with pendingCall := none }) h.unwindable hn

theorem Fits.answerLater (h : m.Fits labels 1) (hn : m.answerLater = .ok n) : n.Fits labels 0 := by
  unfold Machine.answerLater at hn
  split at hn
  · cases hn
    exact (h.of_eq (n := m.setFuture _ .pending) rfl rfl rfl rfl).answer _
  · cases hn

theorem Fits.resolve (h : m.Fits labels missing) {results : List (Nat × Future)}
    (hn : m.resolve results = .ok n) : n.Fits labels missing := by
  unfold Machine.resolve at hn
  split at hn
  · cases hn
  · next hpending =>
    cases hn
    clear hpending
    induction results generalizing m with
    | nil => exact h
    | cons r results ih => exact ih (h.of_eq rfl rfl rfl rfl)

theorem Fits.pause (h : m.Fits labels missing) (s : Script) (traced : Bool) (writer : Writer) :
    ((s.pause m).machine traced writer).Fits labels missing := h.of_eq rfl rfl rfl rfl

end Machine

open Machine

variable {labels : Nat → Shapes} {missing : Nat} {m n : Machine}

theorem except_mapError_eq {ε δ α : Type} {f : ε → δ} {x : Except ε α} {a : α}
    (h : x.mapError f = .ok a) : x = .ok a := by
  cases x with
  | ok b => cases h; rfl
  | error e => cases h

theorem Paused.receive_fits (p : Paused) (hcode : p.script.bytecode.Labelled labels)
    (h : m.Fits labels 1) {a : Answer} (hn : p.receive a m = .ok n) : n.Fits labels 0 := by
  unfold Paused.receive at hn
  cases a with
  | later => exact h.answerLater (except_mapError_eq hn)
  | exception type message limit => exact h.answerException hcode (except_mapError_eq hn)
  | value v =>
    have hv := onHeap_fits (Heap.ofObject v) m h
    simp only at hn
    cases hr : onHeap (Heap.ofObject v) m with
    | ok v k => rw [hr] at hn hv; cases hn; exact Fits.answer hv v
    | error e k =>
      rw [hr] at hn hv
      cases e with
      | overrun e => cases hn
      | raised e => exact Fits.answerException hcode hv (except_mapError_eq hn)
      | endless => exact Fits.answerException hcode hv (except_mapError_eq hn)
      | stuck => exact Fits.answerException hcode hv (except_mapError_eq hn)

theorem Paused.toFutures_fits (p : Paused) (h : m.Fits labels missing)
    {results : List (Nat × Answer)} {done futures : List (Nat × Future)}
    (hn : p.toFutures m done results = .ok (futures, n)) : n.Fits labels missing := by
  induction results generalizing m done with
  | nil => cases hn; exact h
  | cons r results ih =>
    obtain ⟨id, a⟩ := r
    cases a with
    | later => exact ih h hn
    | exception type message limit => exact ih h hn
    | value v =>
      have hv := onHeap_fits (Heap.ofObject v) m h
      rw [Paused.toFutures] at hn
      cases hr : onHeap (Heap.ofObject v) m with
      | ok v k => rw [hr] at hn hv; exact ih hv hn
      | error e k => rw [hr] at hn; cases hn

theorem Paused.receiveAll_fits (p : Paused) (h : m.Fits labels missing) {pending : List Nat}
    {results : List (Nat × Answer)} (hn : p.receiveAll pending results m = .ok (.ok n)) :
    n.Fits labels missing := by
  unfold Paused.receiveAll at hn
  split at hn
  · cases hn
  · cases hk : p.toFutures m [] results with
    | error e => rw [hk] at hn; cases hn
    | ok x =>
      rw [hk] at hn
      exact (p.toFutures_fits h hk).resolve (except_mapError_eq (Except.ok.inj hn))

/-- All machines that a run of labelled code comes by have the shapes that the labels say. -/
theorem Script.Visits.fitsAt {s : Script} (hcode : s.bytecode.Labelled labels)
    (hmain : 0 < s.bytecode.functions.size) {inputs : List Object} {budget : Budget}
    {x : Option Exit} (h : s.Visits inputs budget x m) : m.FitsAt labels x := by
  induction h with
  | start traced writer hglobals =>
    have hentry := (hcode.keeps 0 _ (Array.getElem?_eq_getElem hmain)).entry
    exact ⟨⟨.empty, hentry, rfl, rfl, rfl, label_guarded hcode hentry⟩, rfl, rfl⟩
  | next _ hadvance ih => exact advance_fits hcode ih hadvance
  | exit _ hadvance ih => exact advance_fitsAt hcode ih hadvance
  | @answer x m n a traced writer _ hx hn ih =>
    have hm : m.Fits labels 1 := by
      cases x with
      | returned | blocked => cases hx
      | externalCall | osCall => exact ih
    exact (s.pause m).receive_fits hcode (hm.pause s traced writer) hn
  | @resolve pending m n results traced writer _ hn ih =>
    exact (s.pause m).receiveAll_fits (Fits.pause ih s traced writer) hn
  | @reload x m _ codec clock traced writer _ _ hr ih =>
    obtain rfl := Paused.eq_of_reload hr
    cases x with
    | returned => exact ih
    | externalCall | osCall | blocked => exact Fits.of_eq ih rfl rfl rfl rfl
  | @unattended x m n e _ hx hn ih =>
    have hm : m.Fits labels 1 := by
      cases x with
      | returned | blocked => cases hx
      | externalCall | osCall => exact ih
    exact hm.answerException hcode hn

end Resumable
