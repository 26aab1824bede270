import Resumable.Operation.Arguments
import Resumable.Proofs.Lockstep.Heap

/-!
# Arguments in lockstep

Arguments that are alike are taken apart into values that are alike, or refused with one message.
-/

namespace Resumable

open List (Forall₂)

variable {κ : World} {p q : Pairing}

/-- Named arguments with one name, whose values are alike. -/
def NamedAlike (κ : World) (p : Pairing) (a b : String × Value) : Prop :=
  a.1 = b.1 ∧ a.2.Alike κ p b.2

/-- Arguments that are alike one by one. -/
structure Arguments.Alike (κ : World) (p : Pairing) (a b : Arguments) : Prop where
  positional : AllAlike κ p a.positional b.positional
  named : Forall₂ (NamedAlike κ p) a.named b.named

/-- Two values that are alike, and perhaps further ones. -/
abbrev PairAlike (κ : World) (p : Pairing) (a b : Value × Option Value) : Prop :=
  a.1.Alike κ p b.1 ∧ MaybeAlike κ p a.2 b.2

theorem NamedAlike.mono {a b : String × Value} (h : NamedAlike κ p a b) (hpq : p ≤ q) :
    NamedAlike κ q a b := ⟨h.1, h.2.mono hpq⟩

namespace Heap

theorem notAnInteger_agrees {α β : Type} {R : Pairing → α → β → Prop} {v w : Value}
    (hvw : v.Alike κ p w) :
    Agrees κ p R (do throw ((← get).notAnInteger v)) (do throw ((← get).notAnInteger w)) := by
  refine .read fun h k hp => ?_
  rw [notAnInteger, notAnInteger, typeName_eq hp.toLinked hvw]
  exact .fail _

/-- A failure that names the type of a value. -/
theorem failWithType {α β : Type} {R : Pairing → α → β → Prop} {v w : Value}
    (hvw : v.Alike κ p w) (f : String → Failure) :
    Agrees κ p R (do throw (f ((← get).typeName v))) (do throw (f ((← get).typeName w))) := by
  refine .read fun h k hp => ?_
  rw [typeName_eq hp.toLinked hvw]
  exact .fail _

end Heap

namespace Arguments

open Heap (Agrees)

variable {a b : Arguments}

theorem Alike.mono (h : a.Alike κ p b) (hpq : p ≤ q) : a.Alike κ q b :=
  ⟨h.positional.mono hpq, h.named.imp fun _ _ h => h.mono hpq⟩

theorem Alike.take (h : a.Alike κ p b) (name : String) :
    ∃ v a' w b', a.take name = (v, a') ∧ b.take name = (w, b') ∧ MaybeAlike κ p v w ∧
      a'.Alike κ p b' := by
  have hfind : a.named.findIdx? (·.1 == name) = b.named.findIdx? (·.1 == name) := by
    have := h.named
    generalize a.named = xs at this ⊢
    generalize b.named = ys at this ⊢
    induction this with
    | nil => rfl
    | cons h _ ih => rw [List.findIdx?_cons, List.findIdx?_cons, h.1, ih]
  refine ⟨_, _, _, _, rfl, rfl, ?_⟩
  rw [hfind]
  cases b.named.findIdx? (·.1 == name) with
  | none => exact ⟨.none, h⟩
  | some i =>
    refine ⟨?_, h.positional, h.named.eraseIdx i⟩
    simp only
    obtain ⟨hx, hy⟩ | ⟨x, y, hx, hy, hxy⟩ := (h.named.getElem? i).elim <;> rw [hx, hy]
    · exact .none
    · exact .some hxy.2

theorem noNamed_agrees (h : a.Alike κ p b) (function : String) :
    Agrees κ p Same (a.noNamed function) (b.noNamed function) := by
  unfold noNamed
  obtain ⟨hpos, hnamed⟩ := h
  revert hnamed
  generalize a.named = xs
  generalize b.named = ys
  intro hnamed
  cases hnamed with
  | nil => exact .ret rfl
  | cons hxy _ => simp only [hxy.1]; exact .fail _

theorem nothing_agrees (h : a.Alike κ p b) (function : String) :
    Agrees κ p Same (a.nothing function) (b.nothing function) := by
  refine (noNamed_agrees h function).bind fun q hq _ _ _ => ?_
  rw [h.positional.length_eq]
  exact .fork Iff.rfl (fun _ => .fail _) fun _ => .ret rfl

theorem one_agrees (h : a.Alike κ p b) (function : String) :
    Agrees κ p (Value.Alike κ) (a.one function) (b.one function) := by
  refine (noNamed_agrees h function).bind fun q hq _ _ _ => ?_
  obtain ⟨hpos, -⟩ := h.mono hq
  revert hpos
  generalize a.positional = xs
  generalize b.positional = ys
  intro hpos
  rcases hpos with _ | ⟨hx, _ | ⟨hy, hs⟩⟩
  · exact .fail _
  · exact .ret hx
  · simp only [List.length_cons, hs.length_eq]; exact .fail _

theorem two_agrees (h : a.Alike κ p b) (function : String) :
    Agrees κ p (fun q x y => x.1.Alike κ q y.1 ∧ x.2.Alike κ q y.2) (a.two function)
      (b.two function) := by
  refine (noNamed_agrees h function).bind fun q hq _ _ _ => ?_
  obtain ⟨hpos, -⟩ := h.mono hq
  revert hpos
  generalize a.positional = xs
  generalize b.positional = ys
  intro hpos
  rcases hpos with _ | ⟨hx, _ | ⟨hy, _ | ⟨hz, hs⟩⟩⟩
  · exact .fail _
  · exact .fail _
  · exact .ret ⟨hx, hy⟩
  · simp only [List.length_cons, hs.length_eq]; exact .fail _

theorem between_agrees (h : a.Alike κ p b) (function : String) (least : Nat) (most : Option Nat) :
    Agrees κ p (AllAlike κ) (a.between function least most) (b.between function least most) := by
  unfold between
  rw [h.positional.length_eq]
  refine (noNamed_agrees h function).bind fun q hq _ _ _ => ?_
  have hpos := (h.mono hq).positional
  refine .fork Iff.rfl (fun _ => .fail _) fun _ => ?_
  cases most with
  | none => exact .ret hpos
  | some most => exact .fork Iff.rfl (fun _ => .fail _) fun _ => .ret hpos

theorem head?_alike {vs ws : List Value} (h : AllAlike κ p vs ws) :
    MaybeAlike κ p vs.head? ws.head? := by
  cases h with
  | nil => exact .none
  | cons h _ => exact .some h

theorem atMostOne_agrees (h : a.Alike κ p b) (function : String) :
    Agrees κ p (MaybeAlike κ) (a.atMostOne function) (b.atMostOne function) :=
  (between_agrees h function 0 (some 1)).bind fun _ _ _ _ hvs => .ret (head?_alike hvs)

theorem oneOrTwo_agrees (h : a.Alike κ p b) (function : String) :
    Agrees κ p (PairAlike κ) (a.oneOrTwo function) (b.oneOrTwo function) := by
  refine (between_agrees h function 1 (some 2)).bind fun q _ _ _ hvs => ?_
  cases hvs with
  | nil => exact .fail _
  | cons hv hvs => exact .ret ⟨hv, head?_alike hvs⟩

end Arguments

end Resumable
