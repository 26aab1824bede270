import Mathlib.Logic.Function.Iterate
import Resumable.Proofs.Lockstep.Run
import Resumable.Proofs.Semantics.State

/-!
# Runs with a host

A run goes from phase to phase: one instruction is executed, and where the machine stops for the
host, the next move of the host is taken. `Leads` says that a phase comes after another one, `Lasts`
that a run goes on for some instructions.
-/

namespace Resumable

open Machine Semantics

/-- Where a run stands between two instructions. -/
inductive Phase where
  /-- The run goes on; the host will make these moves. -/
  | running (m : Machine) (moves : List HostMove)
  /-- The run has ended, or waits for a host that does nothing more. -/
  | ended (stop : Stop) (m : Machine)
  | endless

namespace Phase

/-- What comes of a stop for the host. -/
def stopped (s : Script) (x : Exit) (m : Machine) (moves : List HostMove) : Phase :=
  match x, moves with
  | .externalCall .., .answer a :: moves | .osCall .., .answer a :: moves =>
    match (s.pause m).receive a m with
    | .ok m => .running m moves
    | .error (e, m) => .ended (.failed e) m
  | .blocked pending, .results results :: moves =>
    match (s.pause m).receiveAll pending results m with
    | .ok (.ok m) => .running m moves
    | .ok (.error (e, m)) => .ended (.failed e) m
    | .error _ => .ended (.exit x) m
  | x, _ => .ended (.exit x) m

/-- The phase after an instruction. -/
def ofAdvance (s : Script) (moves : List HostMove) : Advance → Phase
  | .next m => .running m moves
  | .exit x m => .stopped s x m moves
  | .failed e m => .ended (.failed e) m
  | .endless => .endless

/-- The phase after the next instruction; where the run is over, nothing happens any more. -/
def next (s : Script) : Phase → Phase
  | .running m moves => .ofAdvance s moves (m.advance s.bytecode)
  | p => p

/-- The phase after some instructions. -/
def after (s : Script) (k : Nat) (p : Phase) : Phase := (next s)^[k] p

/-- A phase comes after another one. -/
def Leads (s : Script) (p q : Phase) : Prop := ∃ k, p.after s k = q

/-- The run goes on for at least some instructions. -/
def Lasts (s : Script) (n : Nat) (p : Phase) : Prop := ∃ m moves, p.after s n = .running m moves

variable {s : Script} {p q r : Phase} {n k : Nat}

theorem after_succ (s : Script) (k : Nat) (p : Phase) :
    p.after s (k + 1) = (p.next s).after s k := Function.iterate_succ_apply (next s) k p

theorem after_add (s : Script) (n k : Nat) (p : Phase) :
    p.after s (n + k) = (p.after s k).after s n := Function.iterate_add_apply (next s) n k p

@[simp] theorem after_ended (s : Script) (k : Nat) (stop : Stop) (m : Machine) :
    (ended stop m).after s k = ended stop m := Function.iterate_fixed rfl k

@[simp] theorem after_endless (s : Script) (k : Nat) : endless.after s k = endless :=
  Function.iterate_fixed rfl k

theorem Leads.refl (s : Script) (p : Phase) : Leads s p p := ⟨0, rfl⟩

theorem Leads.trans (hpq : Leads s p q) (hqr : Leads s q r) : Leads s p r := by
  obtain ⟨k, rfl⟩ := hpq
  obtain ⟨n, rfl⟩ := hqr
  exact ⟨n + k, after_add s n k p⟩

theorem Leads.of_next (h : Leads s (p.next s) q) : Leads s p q := by
  obtain ⟨k, rfl⟩ := h
  exact ⟨k + 1, after_succ s k p⟩

theorem Lasts.zero (s : Script) (m : Machine) (moves : List HostMove) :
    Lasts s 0 (running m moves) := ⟨m, moves, rfl⟩

/-- A run that goes on for some instructions goes on for fewer ones. -/
theorem Lasts.mono (h : Lasts s n p) (hk : k ≤ n) : Lasts s k p := by
  obtain ⟨m, moves, h⟩ := h
  obtain ⟨j, rfl⟩ := Nat.exists_eq_add_of_le hk
  rw [Nat.add_comm, after_add] at h
  generalize hq : p.after s k = q at h
  cases q with
  | running m moves => exact ⟨m, moves, hq⟩
  | ended stop m => rw [after_ended] at h; cases h
  | endless => rw [after_endless] at h; cases h

theorem Lasts.of_leads (hpq : Leads s p q) (h : Lasts s n q) : Lasts s n p := by
  obtain ⟨k, rfl⟩ := hpq
  obtain ⟨m, moves, h⟩ := h
  rw [← after_add] at h
  exact Lasts.mono ⟨m, moves, h⟩ (Nat.le_add_right n k)

/-- A phase comes after another one, with at least one instruction between them. -/
def Passes (s : Script) (p q : Phase) : Prop := Leads s (p.next s) q

theorem Leads.next (h : Leads s p q) : Leads s (p.next s) (q.next s) := by
  obtain ⟨k, rfl⟩ := h
  refine ⟨k, ?_⟩
  rw [← after_succ, Nat.add_comm, after_add]
  rfl

theorem Passes.of_leads (hpq : Leads s p q) (hqr : Passes s q r) : Passes s p r :=
  hpq.next.trans hqr

theorem Passes.trans (hpq : Passes s p q) (hqr : Leads s q r) : Passes s p r := Leads.trans hpq hqr

theorem Lasts.succ (hpq : Passes s p q) (h : Lasts s n q) : Lasts s (n + 1) p := by
  obtain ⟨m, moves, h⟩ := Lasts.of_leads hpq h
  exact ⟨m, moves, (after_succ s n p).trans h⟩

/-- A run that is over at some time does not go on after that. -/
theorem not_lasts_of_ended {stop : Stop} {m : Machine} (h : p.after s k = ended stop m) :
    ¬ Lasts s k p := by
  rintro ⟨m', moves, h'⟩
  rw [h] at h'
  cases h'

/-- A run that is over does not come to an instruction without an end. -/
theorem not_endless_of_ended {stop : Stop} {m : Machine} (h : p.after s k = ended stop m) :
    ¬ Leads s p endless := by
  rintro ⟨n, hn⟩
  have hk : p.after s (n + k) = ended stop m := by rw [after_add, h, after_ended]
  rw [Nat.add_comm, after_add, hn, after_endless] at hk
  cases hk

/-- A run ends in one way only. -/
theorem ended_unique {stop stop' : Stop} {m m' : Machine} (h : Leads s p (ended stop m))
    (h' : Leads s p (ended stop' m')) : stop = stop' ∧ m = m' := by
  obtain ⟨k, h⟩ := h
  obtain ⟨n, h'⟩ := h'
  have hk : p.after s (n + k) = ended stop m := by rw [after_add, h, after_ended]
  have hn : p.after s (k + n) = ended stop' m' := by rw [after_add, h', after_ended]
  rw [Nat.add_comm, hn] at hk
  cases hk
  exact ⟨rfl, rfl⟩

/-- Where the host does nothing, runs are those of the machine. -/
theorem leads_ended_iff {m m' : Machine} {stop : Stop} :
    Leads s (running m []) (ended stop m') ↔ ∃ steps, m.run s.bytecode steps = some (stop, m') := by
  have hstopped : ∀ x m, stopped s x m [] = ended (.exit x) m := by
    intro x m
    cases x <;> rfl
  constructor
  · rintro ⟨k, hk⟩
    refine ⟨k, ?_⟩
    induction k generalizing m with
    | zero => cases hk
    | succ k ih =>
      rw [after_succ, next] at hk
      rw [Machine.run]
      cases ha : m.advance s.bytecode with
      | next n => rw [ha] at hk; exact ih hk
      | exit x n =>
        rw [ha, ofAdvance, hstopped, after_ended] at hk
        cases hk
        rfl
      | failed e n =>
        rw [ha, ofAdvance, after_ended] at hk
        cases hk
        rfl
      | endless =>
        rw [ha, ofAdvance, after_endless] at hk
        cases hk
  · rintro ⟨steps, hrun⟩
    induction steps generalizing m with
    | zero => cases hrun
    | succ k ih =>
      refine .of_next ?_
      rw [Machine.run] at hrun
      rw [next]
      cases ha : m.advance s.bytecode with
      | next n => rw [ha] at hrun; exact ih hrun
      | exit x n =>
        rw [ha] at hrun
        cases hrun
        rw [ofAdvance, hstopped]
        exact .refl s _
      | failed e n =>
        rw [ha] at hrun
        cases hrun
        exact .refl s _
      | endless => rw [ha] at hrun; cases hrun

end Phase

end Resumable
