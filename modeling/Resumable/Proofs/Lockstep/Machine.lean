import Resumable.Machine.Basic
import Resumable.Proofs.Lockstep.Builtin

/-!
# Machines in lockstep

`Machine.Paired κ p m n`: the machines execute the same instruction on operands, variables and heaps
that are alike under `p`, and all that does not depend on slots is the same, or as the world says.
A failure may leave them `Halted`: with an exception on its way that has been raised again.
-/

namespace Resumable

open List (Forall₂)

variable {κ : World} {p q : Pairing}

/-- Frames at the same place, with locals that are alike. -/
structure Frame.Alike (κ : World) (p : Pairing) (f g : Frame) : Prop where
  function : f.function = g.function
  next : f.next = g.next
  locals : ItemsAlike κ p f.locals g.locals
  base : f.base = g.base
  blocks : f.blocks = g.blocks
  handledBase : f.handledBase = g.handledBase

/-- The same knowledge of a future. -/
inductive Future.Alike (κ : World) (p : Pairing) : Future → Future → Prop
  | pending : Alike κ p .pending .pending
  | resolved {v w} : v.Alike κ p w → Alike κ p (.resolved v) (.resolved w)
  | failed (e) : Alike κ p (.failed e) (.failed e)

/-- The same knowledge of one future, by its number. -/
structure FutureAlike (κ : World) (p : Pairing) (a b : Nat × Future) : Prop where
  id : a.1 = b.1
  future : a.2.Alike κ p b.2
  known : κ.future a.1

/-- The same knowledge of every future, or knowledge that is related as the world says. -/
inductive FuturesAlike (κ : World) (p : Pairing) (fs gs : List (Nat × Future)) : Prop
  | each : κ.foresight = none → Forall₂ (FutureAlike κ p) fs gs → FuturesAlike κ p fs gs
  | foreseen {foresight} : κ.foresight = some foresight → foresight.rel p fs gs →
      FuturesAlike κ p fs gs

theorem Frame.Alike.mono {f g : Frame} (h : f.Alike κ p g) (hpq : p ≤ q) : f.Alike κ q g :=
  { h with locals := h.locals.mono hpq }

theorem Future.Alike.mono {f g : Future} (h : f.Alike κ p g) (hpq : p ≤ q) : f.Alike κ q g := by
  cases h with
  | pending => exact .pending
  | resolved h => exact .resolved (h.mono hpq)
  | failed e => exact .failed e

theorem FutureAlike.mono {a b : Nat × Future} (h : FutureAlike κ p a b) (hpq : p ≤ q) :
    FutureAlike κ q a b := { h with future := h.future.mono hpq }

namespace FuturesAlike

variable {fs gs : List (Nat × Future)}

theorem mono (h : FuturesAlike κ p fs gs) (hpq : p ≤ q) : FuturesAlike κ q fs gs := by
  cases h with
  | each hκ h => exact .each hκ (h.imp fun _ _ h => h.mono hpq)
  | @foreseen foresight hκ h => exact .foreseen hκ (foresight.mono hpq h)

variable [κ.Joint]

theorem of_all (h : Forall₂ (FutureAlike κ p) fs gs) : FuturesAlike κ p fs gs :=
  .each World.Joint.foresight h

theorem all (h : FuturesAlike κ p fs gs) : Forall₂ (FutureAlike κ p) fs gs := by
  cases h with
  | each _ h => exact h
  | foreseen hκ _ => exact nomatch hκ.symm.trans World.Joint.foresight

end FuturesAlike

namespace Machine

/-- Machines that differ in nothing but their slots. -/
structure Alike (κ : World) (p : Pairing) (m n : Machine) : Prop where
  stack : AllAlike κ p m.stack n.stack
  frame : m.frame.Alike κ p n.frame
  callers : Forall₂ (Frame.Alike κ p) m.callers n.callers
  handled : m.handled = n.handled
  futures : FuturesAlike κ p m.futures n.futures
  nextCall : m.nextCall = n.nextCall
  pendingCall : m.pendingCall = n.pendingCall
  reraising : m.reraising = n.reraising
  globals : ItemsAlike κ p m.globals n.globals
  writer : m.writer = n.writer
  writes : κ.writer m.writer
  output : κ.output m.output n.output
  events : κ.events m.events n.events

/-- Machines that are alike, on paired heaps. -/
structure Halted (κ : World) (p : Pairing) (m n : Machine) : Prop extends Alike κ p m n where
  heap : m.heap.Paired κ p n.heap

/-- Machines that are alike, on paired heaps, and ready to go on. -/
structure Paired (κ : World) (p : Pairing) (m n : Machine) : Prop extends Halted κ p m n where
  calm : m.reraising = false

instance {κ : World} : Weaker (Paired κ) (Halted κ) := ⟨Paired.toHalted⟩

theorem Alike.mono {m n : Machine} (h : m.Alike κ p n) (hpq : p ≤ q) : m.Alike κ q n :=
  { h with
    stack := h.stack.mono hpq
    frame := h.frame.mono hpq
    callers := h.callers.imp fun _ _ h => h.mono hpq
    futures := h.futures.mono hpq
    globals := h.globals.mono hpq }

/-- The steps of machines end alike. -/
abbrev Agrees (κ : World) {α β : Type} (p : Pairing) (R : Pairing → α → β → Prop) (a : Exec α)
    (b : Exec β) : Prop := Agree (Paired κ) (Halted κ) p R a b

variable {α β : Type} {R : Pairing → α → β → Prop}

theorem onHeap_agrees {a : Heap.Action α} {b : Heap.Action β} (h : Heap.Agrees κ p R a b) :
    Agrees κ p R (onHeap a) (onHeap b) := by
  intro m n hp
  have h := h _ _ hp.heap
  unfold onHeap
  revert h
  simp only
  generalize a m.heap = x
  generalize b n.heap = y
  intro h
  cases h with
  | ok hq hh hr => exact .ok hq ⟨⟨{ hp.toAlike.mono hq with }, hh⟩, hp.calm⟩ hr
  | error e hq hh => exact .error e hq ⟨{ hp.toAlike.mono hq with }, hh⟩

/-- Changes that keep machines paired. -/
theorem modify_agrees {f g : Machine → Machine}
    (h : ∀ m n, m.Paired κ p n → (f m).Paired κ p (g n)) :
    Agrees κ p Same (modify f) (modify g) :=
  .change fun m n hp => ⟨p, le_rfl, h m n hp, rfl⟩

theorem Paired.depth_eq {m n : Machine} (h : m.Paired κ p n) : m.depth = n.depth := by
  rw [depth, depth, h.callers.length_eq]

theorem Paired.record {m n : Machine} (h : m.Paired κ p n) {e d : Machine → Event}
    (hed : e m = d n) : (m.record e).Paired κ p (n.record d) := by
  rw [record_eq, record_eq, hed]
  exact { h with events := κ.record h.events (d n) }

theorem trace_agrees {e d : Machine → Event} (hed : ∀ m n, m.Paired κ p n → e m = d n) :
    Agrees κ p Same (trace e) (trace d) :=
  modify_agrees fun m n h => h.record (hed m n h)

theorem modifyFrame_agrees {f g : Frame → Frame}
    (hfg : ∀ x y, x.Alike κ p y → (f x).Alike κ p (g y)) :
    Agrees κ p Same (modifyFrame f) (modifyFrame g) :=
  modify_agrees fun _ _ h => { h with frame := hfg _ _ h.frame }

theorem push_agrees {v w : Value} (hvw : v.Alike κ p w) : Agrees κ p Same (push v) (push w) :=
  modify_agrees fun _ _ h => { h with stack := .cons hvw h.stack }

theorem pop_agrees : Agrees κ p (Value.Alike κ) pop pop := by
  refine .change fun m n h => ⟨p, le_rfl, ?_⟩
  have hs := h.stack
  revert hs
  generalize hm : m.stack = vs
  generalize hn : n.stack = ws
  intro hs
  cases hs with
  | nil => exact ⟨h, .none⟩
  | cons hvw hs => exact ⟨{ h with stack := hs }, hvw⟩

theorem popMany_agrees (n : Nat) : Agrees κ p (AllAlike κ) (popMany n) (popMany n) :=
  .change fun _ _ h => ⟨p, le_rfl, { h with stack := List.forall₂_drop n h.stack },
    List.rel_reverse (List.forall₂_take n h.stack)⟩

theorem peek_agrees : Agrees κ p (Value.Alike κ) peek peek :=
  .read fun _ _ h => .ret ((Arguments.head?_alike h.stack).getD .none)

theorem jump_agrees (target : Nat) : Agrees κ p Same (jump target) (jump target) :=
  modifyFrame_agrees fun _ _ h => { h with next := rfl }

theorem Paired.pool_eq {m n : Machine} (h : m.Paired κ p n) (code : Bytecode) :
    m.pool code = n.pool code := by
  rw [Machine.pool, Machine.pool, h.frame.function]

theorem popNamed_agrees (code : Bytecode) (keywords : Option Nat) :
    Agrees κ p (fun q => Forall₂ (NamedAlike κ q)) (popNamed code keywords)
      (popNamed code keywords) := by
  refine .read fun m n h => ?_
  rw [h.pool_eq]
  generalize (n.pool code).keywordNames keywords = names
  refine (popMany_agrees names.length).bind fun q _ vs ws hvs => .ret ?_
  induction hvs generalizing names with
  | nil => rw [List.zip_nil_right]; exact .nil
  | cons hvw _ ih =>
    cases names with
    | nil => exact .nil
    | cons name names => exact .cons ⟨rfl, hvw⟩ (ih names)

theorem beginCall_agrees : Agrees κ p Same beginCall beginCall :=
  .change fun _ _ h => ⟨p, le_rfl,
    { h with nextCall := by rw [h.nextCall], pendingCall := by rw [h.nextCall] }, h.nextCall⟩

theorem write_agrees (c : Chunk) : Agrees κ p Same (write c) (write c) := by
  refine .bind (R := Same) (.change fun m n h => ⟨p, le_rfl, ?_, ?_⟩) fun q _ refusal _ hr => ?_
  · exact { h with writer := by rw [h.writer], writes := κ.written h.writes c }
  · rw [h.writer]
  · subst hr
    cases refusal with
    | some e => exact .fail _
    | none => exact modify_agrees fun _ _ h => { h with output := κ.print h.output _ }

theorem writeAll_agrees (chunks : List Chunk) :
    Agrees κ p Same (writeAll chunks) (writeAll chunks) := by
  induction chunks generalizing p with
  | nil => exact .ret rfl
  | cons c rest ih => exact (write_agrees c).bind fun _ _ _ _ _ => ih

end Machine

end Resumable
