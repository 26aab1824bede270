import Mathlib.Data.List.Infix
import Resumable.Proofs.Simulation.Phase

/-!
# What it means that a run follows an evaluation

`Meets n c base good r p`: from the phase `p` on, the run does what the result `r` of an evaluation
says. Where the evaluation gives a value, the run comes to a phase that is `good` for it; where it
raises an exception, the run comes to where the machine looks for a handler, with `base` still on
its stack of operands; where it stops, so does the run. An evaluation that has used up its fuel has
a run that goes on for `n` instructions.

All code is code of one function: `Ctx` has what stays the same while its instructions are executed.
-/

namespace Resumable

open Machine Semantics

/-- The machine that shares its state with an evaluation. -/
def Semantics.State.machine (σ : State) (stack : List Value) (frame : Frame) (callers : List Frame)
    (handled : List Raised) (events : Option (List Event)) : Machine :=
  { stack, frame, callers, handled, futures := σ.futures, nextCall := σ.nextCall,
    pendingCall := none, reraising := false, heap := σ.heap, globals := σ.globals,
    writer := σ.writer, output := σ.output, events }

/-- A machine shows the same as a state. -/
structure Semantics.State.Shows (σ : State) (m : Machine) : Prop where
  futures : m.futures = σ.futures
  nextCall : m.nextCall = σ.nextCall
  heap : m.heap = σ.heap
  globals : m.globals = σ.globals
  writer : m.writer = σ.writer
  output : m.output = σ.output

theorem Semantics.State.shows_machine (σ : State) (stack : List Value) (frame : Frame)
    (callers : List Frame) (handled : List Raised) (events : Option (List Event)) :
    σ.Shows (σ.machine stack frame callers handled events) := ⟨rfl, rfl, rfl, rfl, rfl, rfl⟩

/-- What stays the same in the frames while the instructions of a function are executed. -/
structure Ctx where
  function : Nat
  base : Nat
  handledBase : Nat
  blocks : List Resumable.Block
  callers : List Frame
  handled : List Raised

namespace Ctx

variable (c : Ctx)

/-- The frame at an instruction. -/
def frame (pc : Nat) (locals : Array Value) : Frame :=
  ⟨c.function, pc, locals, c.base, c.blocks, c.handledBase⟩

/-- The machine at an instruction. -/
def machine (pc : Nat) (stack : List Value) (σ : State) (events : Option (List Event)) : Machine :=
  σ.machine stack (c.frame pc σ.locals) c.callers c.handled events

@[simp] theorem machine_heap (pc : Nat) (stack : List Value) (σ : State)
    (events : Option (List Event)) : (c.machine pc stack σ events).heap = σ.heap := rfl

/-- The phase at an instruction. -/
def phase (pc : Nat) (stack : List Value) (σ : State) (events : Option (List Event)) : Phase :=
  .running (c.machine pc stack σ events) σ.moves

/-- What an evaluation sees of the frames. -/
def scope : Scope := ⟨c.function, c.callers.map (·.locals), c.handled⟩

/-- The context while an exception is handled. -/
def handling (e : Raised) : Ctx := { c with handled := e :: c.handled }

/-- The context inside a block. -/
def guarded (b : Resumable.Block) : Ctx := { c with blocks := b :: c.blocks }

/-- The context of a function that is called on top of so many operands. -/
def callee (function operands : Nat) (caller : Frame) : Ctx :=
  ⟨function, operands, c.handled.length, [], caller :: c.callers, c.handled⟩

/-- The context that a function was called in. -/
def caller (f : Frame) (below : List Frame) : Ctx :=
  ⟨f.function, f.base, f.handledBase, f.blocks, below, c.handled⟩

/-- The run stands at the instruction, and has the operands, that belong to a value. -/
def At {α : Type} (pc : α → Nat) (stack : α → List Value) (a : α) (σ : State) (p : Phase) : Prop :=
  ∃ events, p = c.phase (pc a) (stack a) σ events

/-- The same for a value that has a property. -/
def Gives {α : Type} (P : α → Prop) (pc : α → Nat) (stack : α → List Value) (a : α) (σ : State)
    (p : Phase) : Prop :=
  P a ∧ c.At pc stack a σ p

end Ctx

/-- The phase after an instruction that has come to a result. -/
def Phase.ofResult (s : Script) (moves : List HostMove)
    (r : EStateM.Result Failure Machine (Option Exit)) : Phase :=
  .ofAdvance s moves (.ofResult s.bytecode r)

/-- The phase after the search for a handler, of an exception that was raised in a machine. -/
def Phase.ofUnwind (moves : List HostMove) (m : Machine) : Except Raised Machine → Phase
  | .ok m => .running m moves
  | .error e => .ended (.failed e) m

/-- An exception has left the instruction at hand, with `base` still on the stack. -/
def Raises (s : Script) (c : Ctx) (base : List Value) (e : Raised) (σ : State) (p : Phase) : Prop :=
  ∃ m above frame callers newer events, σ.Shows m ∧
    p = .ofUnwind σ.moves m
      (unwindFrom s.bytecode (σ.machine (above ++ base) frame callers (newer ++ c.handled) events)
        true e (c.frame 0 σ.locals) c.callers)

/-- The instruction at hand has returned a value, with `base` still on the stack. -/
def Returns (s : Script) (c : Ctx) (base : List Value) (v : Value) (σ : State) (p : Phase) : Prop :=
  ∃ pc blocks above newer events, p = .ofResult s σ.moves
    (leave (σ.machine (v :: (above ++ base)) { c.frame pc σ.locals with blocks } c.callers
      (newer ++ c.handled) events))

section
variable {α β : Type}

/-- A phase is what the result of an evaluation says. -/
def Met (s : Script) (n : Nat) (c : Ctx) (base : List Value) (good : α → State → Phase → Prop) :
    EStateM.Result Halt State α → Phase → Prop
  | .ok a σ, p => good a σ p
  | .error (.raised e) σ, p => Raises s c base e σ p
  | .error (.stopped stop) σ, p => ∃ m, p = .ended stop m ∧ σ.Shows m
  | .error (.aborted l) σ, p => ∃ e m, p = .ended (.failed e) m ∧ e.limit = some l ∧ σ.Shows m
  | .error .endless _, p => p = .endless
  | .error .tired _, p => Phase.Lasts s n p

/-- From a phase on, the run does what the result of an evaluation says. -/
def Meets (s : Script) (n : Nat) (c : Ctx) (base : List Value) (good : α → State → Phase → Prop)
    (r : EStateM.Result Halt State α) (p : Phase) : Prop :=
  ∃ q, Phase.Leads s p q ∧ Met s n c base good r q

/-- From an instruction on, which finds the operands `start`, the run does what an evaluation
does. -/
def Sim (s : Script) (n : Nat) (c : Ctx) (base : List Value) (pc : Nat) (start : List Value)
    (act : Sem α) (good : α → State → Phase → Prop) : Prop :=
  ∀ σ events, Meets s n c base good (act σ) (c.phase pc start σ events)

variable {s : Script} {n k : Nat} {c : Ctx} {base low : List Value} {pc : Nat}
  {good : α → State → Phase → Prop} {p : Phase} {r : EStateM.Result Halt State α}

theorem Raises.lower {e : Raised} {σ : State} (h : Raises s c base e σ p) (hlow : low <:+ base) :
    Raises s c low e σ p := by
  obtain ⟨m, above, frame, callers, newer, events, hm, rfl⟩ := h
  obtain ⟨between, rfl⟩ := hlow
  exact ⟨m, above ++ between, frame, callers, newer, events, hm, by rw [List.append_assoc]⟩

theorem Returns.lower {v : Value} {σ : State} (h : Returns s c base v σ p) (hlow : low <:+ base) :
    Returns s c low v σ p := by
  obtain ⟨pc, blocks, above, newer, events, rfl⟩ := h
  obtain ⟨between, rfl⟩ := hlow
  exact ⟨pc, blocks, above ++ between, newer, events, by rw [List.append_assoc]⟩

namespace Meets

theorem of_leads {p' : Phase} (hp : Phase.Leads s p p') (h : Meets s n c base good r p') :
    Meets s n c base good r p := by
  obtain ⟨q, hq, h⟩ := h
  exact ⟨q, hp.trans hq, h⟩

theorem of_next (h : Meets s n c base good r (p.next s)) : Meets s n c base good r p :=
  h.of_leads (Phase.Leads.of_next (.refl s _))

theorem here (h : Met s n c base good r p) : Meets s n c base good r p := ⟨p, .refl s p, h⟩

theorem ok {a : α} {σ : State} (h : good a σ p) : Meets s n c base good (.ok a σ) p := here h

/-- The same run follows an evaluation to what is good for another purpose. -/
theorem imp {good' : α → State → Phase → Prop} (h : Meets s n c base good r p)
    (hgood : ∀ a σ p, good a σ p → good' a σ p) : Meets s n c base good' r p := by
  obtain ⟨q, hq, h⟩ := h
  refine ⟨q, hq, ?_⟩
  cases r with
  | ok a σ => exact hgood a σ q h
  | error e σ => cases e <;> exact h

theorem lower (h : Meets s n c base good r p) (hlow : low <:+ base) :
    Meets s n c low good r p := by
  obtain ⟨q, hq, h⟩ := h
  refine ⟨q, hq, ?_⟩
  cases r with
  | ok a σ => exact h
  | error e σ =>
    cases e with
    | raised e => exact Raises.lower h hlow
    | _ => exact h

/-- One evaluation after the other. -/
theorem bind {good' : β → State → Phase → Prop} {act : Sem α} {f : α → Sem β} {σ : State}
    (h : Meets s n c base good (act σ) p)
    (hf : ∀ a σ q, good a σ q → Meets s n c base good' (f a σ) q) :
    Meets s n c base good' ((act >>= f) σ) p := by
  change Meets s n c base good' (EStateM.bind act f σ) p
  obtain ⟨q, hq, h⟩ := h
  unfold EStateM.bind
  cases hr : act σ with
  | ok a τ =>
    rw [hr] at h
    exact (hf a τ q h).of_leads hq
  | error e τ =>
    rw [hr] at h
    exact ⟨q, hq, by cases e <;> exact h⟩

/-- What is good may say which phase it comes after. -/
theorem track (h : Meets s n c base good r p) :
    Meets s n c base (fun a σ q => good a σ q ∧ Phase.Leads s p q) r p := by
  obtain ⟨q, hq, h⟩ := h
  refine ⟨q, hq, ?_⟩
  cases r with
  | ok a σ => exact ⟨h, hq⟩
  | error e σ => cases e <;> exact h

/-- A run that goes on for some instructions goes on for fewer ones. -/
theorem less (h : Meets s n c base good r p) (hk : k ≤ n) : Meets s k c base good r p := by
  obtain ⟨q, hq, h⟩ := h
  refine ⟨q, hq, ?_⟩
  cases r with
  | ok a σ => exact h
  | error e σ =>
    cases e with
    | tired => exact Phase.Lasts.mono h hk
    | _ => exact h

theorem tired {σ : State} (h : Phase.Lasts s n p) : Meets s n c base good (.error .tired σ) p :=
  here h

/-- An instruction in front counts. -/
theorem succ {q : Phase} (hp : Phase.Passes s p q) (h : Meets s n c base good r q) :
    Meets s (n + 1) c base good r p := by
  obtain ⟨q', hq, h⟩ := h
  have hq' := hp.trans hq
  cases r with
  | ok a σ => exact of_next ⟨q', hq', h⟩
  | error e σ =>
    cases e with
    | tired => exact tired (Phase.Lasts.succ hq' h)
    | _ => exact of_next ⟨q', hq', h⟩

theorem map {good' : β → State → Phase → Prop} {act : Sem α} {f : α → β} {σ : State}
    (h : Meets s n c base good (act σ) p) (hf : ∀ a σ q, good a σ q → good' (f a) σ q) :
    Meets s n c base good' ((f <$> act) σ) p := by
  rw [map_eq_pure_bind]
  exact h.bind fun a σ q hq => .ok (hf a σ q hq)

/-- Taking turns: each one ends the loop, or comes back to where turns start. -/
theorem loop {turn : Sem (Option α)} {I : State → Phase → Prop}
    (hstart : ∀ σ p, I σ p → Phase.Lasts s 0 p)
    (hturn : ∀ σ p, I σ p → Meets s n c base
      (fun o τ q => o.elim (I τ q ∧ Phase.Passes s p q) fun a => good a τ q) (turn σ) p)
    (hk : k ≤ n) {σ : State} (hI : I σ p) : Meets s k c base good (Semantics.loop turn k σ) p := by
  induction k generalizing σ p with
  | zero => exact tired (hstart σ p hI)
  | succ k ih =>
    obtain ⟨q, hq, h⟩ := (hturn σ p hI).less hk
    change Meets s (k + 1) c base good (EStateM.bind turn _ σ) p
    unfold EStateM.bind
    cases hr : turn σ with
    | ok o τ =>
      rw [hr] at h
      cases o with
      | some a => exact ⟨q, hq, h⟩
      | none => exact succ h.2 (ih (Nat.le_of_succ_le hk) h.1)
    | error e τ =>
      rw [hr] at h
      exact ⟨q, hq, by cases e <;> exact h⟩

end Meets

namespace Sim

variable {start : List Value} {q : α → Nat} {stack : α → List Value} {act : Sem α} {f : α → Sem β}
  {good' : β → State → Phase → Prop}

theorem ret {a : α} (hpc : q a = pc) (h : stack a = start) :
    Sim s n c base pc start (pure a) (c.At q stack) :=
  fun _ events => .ok ⟨events, by rw [h, hpc]⟩

/-- One piece of code after the other. -/
theorem bind (h : Sim s n c base pc start act (c.At q stack))
    (hf : ∀ a, Sim s n c base (q a) (stack a) (f a) good') :
    Sim s n c base pc start (act >>= f) good' := fun σ events =>
  (h σ events).bind fun a τ p hp => by
    obtain ⟨events', rfl⟩ := hp
    exact hf a τ events'

theorem bind_gives {P : α → Prop} (h : Sim s n c base pc start act (c.Gives P q stack))
    (hf : ∀ a, P a → Sim s n c base (q a) (stack a) (f a) good') :
    Sim s n c base pc start (act >>= f) good' := fun σ events =>
  (h σ events).bind fun a τ p ⟨ha, hp⟩ => by
    obtain ⟨events', rfl⟩ := hp
    exact hf a ha τ events'

theorem imp {good' : α → State → Phase → Prop} (h : Sim s n c base pc start act good)
    (hgood : ∀ a σ p, good a σ p → good' a σ p) : Sim s n c base pc start act good' :=
  fun σ events => (h σ events).imp hgood

theorem lower (h : Sim s n c base pc start act good) (hlow : low <:+ base) :
    Sim s n c low pc start act good := fun σ events => (h σ events).lower hlow

/-- No values. -/
theorem noValues (kept : List Value) : Sim s n c base pc kept (pure [])
    (c.Gives (·.length = 0) (fun _ => pc) fun values => values.reverse ++ kept) :=
  fun _ events => .ok ⟨rfl, events, rfl⟩

/-- Some values in front of others. -/
theorem more (vs : List Value) {k l r t : Nat} {rest : Sem (List Value)}
    (h : Sim s n c (vs.reverse ++ base) pc (vs.reverse ++ base) rest
      (c.Gives (·.length = k) (fun _ => r) fun values => values.reverse ++ (vs.reverse ++ base)))
    (hl : l = vs.length + k) (ht : t = r) :
    Sim s n c base pc (vs.reverse ++ base) (rest >>= fun values => pure (vs ++ values))
      (c.Gives (·.length = l) (fun _ => t) fun values => values.reverse ++ base) :=
  (h.lower (List.suffix_append _ base)).bind_gives fun values hk σ events => by
    have hlength : (vs ++ values).length = l := by rw [List.length_append, hk, hl]
    have hreverse : (vs ++ values).reverse ++ base = values.reverse ++ (vs.reverse ++ base) := by
      rw [List.reverse_append, List.append_assoc]
    refine .ok ⟨hlength, events, ?_⟩
    beta_reduce
    rw [hreverse, ht]

/-- Where the code starts may be said in another way. -/
theorem starts {pc' : Nat} (h : Sim s n c base pc start act good) (hpc : pc = pc') :
    Sim s n c base pc' start act good := hpc ▸ h

/-- Where the code ends may be said in another way. -/
theorem ends {q' : α → Nat} {stack' : α → List Value}
    (h : Sim s n c base pc start act (c.At q stack)) (hq : ∀ a, q a = q' a)
    (hstack : ∀ a, stack a = stack' a) : Sim s n c base pc start act (c.At q' stack') :=
  h.imp fun a σ p ⟨events, hp⟩ => ⟨events, by rw [hp, hq, hstack]⟩

end Sim

end

end Resumable
