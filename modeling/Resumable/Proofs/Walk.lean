import Mathlib.Data.Finset.Card
import Mathlib.Data.Finset.Prod
import Resumable.Heap.Comparison

/-!
# Walks through pairs of slots

A comparison of two heap entries walks from pair to pair, and a bound on its length is all that ends
it. Main statements: `cellsEqual_stable` and `compareCells_stable`, walks that are allowed to be
longer than `Heap.walkBound` give the same answers. What a longer walk adds is counted by the pairs
that have an answer, and there are only so many pairs.
-/

namespace Resumable

/-! ## Answers that longer walks keep -/

/-- `g` gives the answers of `f`, and perhaps more. -/
def Refines {β : Type} (bottom : β) (f g : Nat → Nat → β) : Prop :=
  ∀ x y, f x y ≠ bottom → g x y = f x y

/-- One step of a walk: with more answers for the pairs behind it, it has more answers, and it needs
none for pairs out of bounds. -/
structure WalkStep {β : Type} (bottom : β) (size : Nat)
    (F : (Nat → Nat → β) → Nat → Nat → β) : Prop where
  mono : ∀ {f g}, Refines bottom f g → Refines bottom (F f) (F g)
  outside : ∀ f x y, ¬ (x < size ∧ y < size) → F f x y ≠ bottom

open Classical in
/-- The pairs in bounds that have an answer. -/
noncomputable def answered {β : Type} (bottom : β) (size : Nat) (f : Nat → Nat → β) :
    Finset (Nat × Nat) :=
  (Finset.range size ×ˢ Finset.range size).filter fun a => f a.1 a.2 ≠ bottom

theorem mem_answered {β : Type} {bottom : β} {size : Nat} {f : Nat → Nat → β} {x y : Nat} :
    (x, y) ∈ answered bottom size f ↔ (x < size ∧ y < size) ∧ f x y ≠ bottom := by
  simp [answered]

theorem card_answered_le {β : Type} (bottom : β) (size : Nat) (f : Nat → Nat → β) :
    (answered bottom size f).card ≤ size * size := by
  classical
  unfold answered
  exact (Finset.card_filter_le _ _).trans (by simp)

section
variable {β : Type} {bottom : β} {size : Nat} {F : (Nat → Nat → β) → Nat → Nat → β}
  (hF : WalkStep bottom size F) {T : Nat → Nat → Nat → β} (hT : T 0 = fun _ _ => bottom)
  (hnext : ∀ n, T (n + 1) = F (T n))
include hF hT hnext

theorem refines_next (n : Nat) : Refines bottom (T n) (T (n + 1)) := by
  induction n with
  | zero => exact fun x y h => (h (by rw [hT])).elim
  | succ n ih =>
    rw [hnext (n + 1)]
    nth_rewrite 1 [hnext n]
    exact hF.mono ih

/-- A change answers a pair in bounds that had no answer. -/
theorem answered_ssubset {n : Nat} (hne : T (n + 2) ≠ T (n + 1)) :
    answered bottom size (T (n + 1)) ⊂ answered bottom size (T (n + 2)) := by
  have hle := refines_next hF hT hnext (n + 1)
  obtain ⟨x, hx⟩ := Function.ne_iff.mp hne
  obtain ⟨y, hxy⟩ := Function.ne_iff.mp hx
  have hold : T (n + 1) x y = bottom := by
    by_contra h
    exact hxy (hle x y h)
  have hin : x < size ∧ y < size := by
    by_contra h
    exact hF.outside (T n) x y h (by rw [← hnext, hold])
  refine (Finset.ssubset_iff_of_subset fun a ha => ?_).mpr ⟨(x, y), ?_, ?_⟩
  · obtain ⟨h, h'⟩ := mem_answered.mp ha
    exact mem_answered.mpr ⟨h, by rw [hle _ _ h']; exact h'⟩
  · exact mem_answered.mpr ⟨hin, fun h => hxy (h.trans hold.symm)⟩
  · exact fun h => (mem_answered.mp h).2 hold

/-- Another step either changes nothing or has answered one more pair. -/
theorem stable_or_answered (n : Nat) :
    T (n + 2) = T (n + 1) ∨ n < (answered bottom size (T (n + 2))).card := by
  induction n with
  | zero =>
    by_cases h : T 2 = T 1
    · exact .inl h
    · exact .inr (Nat.zero_lt_of_lt (Finset.card_lt_card (answered_ssubset hF hT hnext h)))
  | succ n ih =>
    rcases ih with h | h
    · exact .inl ((hnext (n + 2)).trans ((congrArg F h).trans (hnext (n + 1)).symm))
    · by_cases h' : T (n + 3) = T (n + 2)
      · exact .inl h'
      · exact .inr (Nat.lt_of_le_of_lt h (Finset.card_lt_card (answered_ssubset hF hT hnext h')))

theorem walk_stable {n : Nat} (hn : size * size + 1 ≤ n) : T n = T (size * size + 1) := by
  have hfix : T (size * size + 2) = T (size * size + 1) := by
    refine (stable_or_answered hF hT hnext (size * size)).resolve_right (Nat.not_lt.mpr ?_)
    exact card_answered_le _ _ _
  induction n, hn using Nat.le_induction with
  | base => rfl
  | succ n _ ih => rw [hnext, ih, ← hnext, hfix]

end

/-! ## Equality -/

theorem allAnswer_eq {α : Type} {f g : α → Option Bool} {as : List α}
    (hfg : ∀ a, f a ≠ none → g a = f a) (h : allAnswer f as ≠ none) :
    allAnswer g as = allAnswer f as := by
  induction as with
  | nil => rfl
  | cons a as ih =>
    rw [allAnswer] at h
    rw [allAnswer, allAnswer]
    cases ha : f a with
    | none => simp [ha] at h
    | some b =>
      rw [hfg a (by simp [ha]), ha]
      cases b with
      | false => rfl
      | true => exact ih (by simpa only [ha] using h)

namespace Value

mutual

theorem equalBy_refines {f g : Nat → Nat → Option Bool} (hfg : Refines Option.none f g)
    (a b : Value) (h : equalBy f a b ≠ Option.none) : equalBy g a b = equalBy f a b := by
  cases a <;> cases b <;> first | rfl | skip
  case ref.ref x y =>
    simp only [equalBy] at h ⊢
    by_cases hxy : (x == y) = true
    · rw [if_pos hxy, if_pos hxy]
    · rw [if_neg hxy] at h
      rw [if_neg hxy, if_neg hxy, hfg x y h]
  all_goals
    simp only [equalBy] at h ⊢
    split at h
    · next hl => rw [if_pos hl, if_pos hl, allEqualBy_refines hfg _ _ h]
    · next hl => rw [if_neg hl, if_neg hl]

theorem allEqualBy_refines {f g : Nat → Nat → Option Bool} (hfg : Refines Option.none f g)
    (as bs : List Value) (h : allEqualBy f as bs ≠ Option.none) :
    allEqualBy g as bs = allEqualBy f as bs := by
  cases as with
  | nil => simp only [allEqualBy]
  | cons a as =>
    cases bs with
    | nil => simp only [allEqualBy]
    | cons b bs =>
      rw [allEqualBy] at h
      rw [allEqualBy, allEqualBy]
      cases hab : equalBy f a b with
      | none => simp [hab] at h
      | some answer =>
        rw [equalBy_refines hfg a b (by simp [hab]), hab]
        cases answer with
        | false => rfl
        | true => exact allEqualBy_refines hfg as bs (by simpa only [hab] using h)

end

end Value

theorem Heap.cell?_eq_none_of_outside {h : Heap} {x y : Nat}
    (hxy : ¬ (x < h.slots.size ∧ y < h.slots.size)) : h.cell? x = none ∨ h.cell? y = none := by
  have hnone : ∀ z, h.slots.size ≤ z → h.cell? z = none := fun z hz => by
    rw [cell?, Array.getElem?_eq_none hz]
  rcases Nat.lt_or_ge x h.slots.size with hx | hx
  · exact .inr (hnone y (Nat.le_of_not_lt fun hy => hxy ⟨hx, hy⟩))
  · exact .inl (hnone x hx)

theorem Heap.cellsEqualBy_walkStep (h : Heap) : WalkStep none h.slots.size h.cellsEqualBy where
  mono {f g} hfg x y hxy := by
    unfold cellsEqualBy at hxy ⊢
    split at hxy
    · split at hxy
      · next hs =>
        rw [if_pos hs, if_pos hs]
        exact allAnswer_eq (fun a => Value.equalBy_refines hfg a.1 a.2) hxy
      · next hs => rw [if_neg hs, if_neg hs]
    · split at hxy
      · next hs =>
        rw [if_pos hs, if_pos hs]
        refine allAnswer_eq (fun e he => ?_) hxy
        cases hv : Dict.get? _ e.key with
        | none => rfl
        | some v =>
          rw [hv] at he
          exact Value.equalBy_refines hfg e.value v he
      · next hs => rw [if_neg hs, if_neg hs]
    · rfl
  outside f x y hxy := by
    unfold cellsEqualBy
    rcases cell?_eq_none_of_outside hxy with hx | hy
    · simp [hx]
    · rw [hy]; split <;> simp_all

/-- A longer walk through equal cells gives the same answer. -/
theorem Heap.cellsEqual_stable (h : Heap) {n : Nat} (hn : h.walkBound ≤ n) :
    h.cellsEqual n = h.cellsEqual h.walkBound := by
  have hstable := fun n => walk_stable (n := n) h.cellsEqualBy_walkStep (T := h.cellsEqual) rfl
    fun _ => rfl
  unfold walkBound at hn ⊢
  exact (hstable n (by omega)).trans (hstable _ (by omega)).symm

/-! ## Order -/

namespace Value

mutual

theorem compareBy_refines {equal : Value → Value → Option Bool}
    {f g : Nat → Nat → Except Unordered Ordering} (hfg : Refines (.error .endless) f g)
    (a b : Value) (h : compareBy equal f a b ≠ .error .endless) :
    compareBy equal g a b = compareBy equal f a b := by
  cases a <;> cases b <;> first | rfl | skip
  case tuple.tuple as bs =>
    simp only [compareBy] at h ⊢
    exact compareAllBy_refines hfg as bs h
  case ref.ref x y =>
    simp only [compareBy] at h ⊢
    exact hfg x y h

theorem compareAllBy_refines {equal : Value → Value → Option Bool}
    {f g : Nat → Nat → Except Unordered Ordering} (hfg : Refines (.error .endless) f g)
    (as bs : List Value) (h : compareAllBy equal f as bs ≠ .error .endless) :
    compareAllBy equal g as bs = compareAllBy equal f as bs := by
  cases as with
  | nil => cases bs <;> simp only [compareAllBy]
  | cons a as =>
    cases bs with
    | nil => simp only [compareAllBy]
    | cons b bs =>
      rw [compareAllBy] at h
      rw [compareAllBy, compareAllBy]
      cases hab : equal a b with
      | none => rfl
      | some answer =>
        cases answer with
        | true => exact compareAllBy_refines hfg as bs (by simpa only [hab] using h)
        | false => exact compareBy_refines hfg a b (by simpa only [hab] using h)

end

end Value

theorem Heap.compareCellsBy_walkStep (h : Heap) :
    WalkStep (.error .endless) h.slots.size h.compareCellsBy where
  mono {f g} hfg x y hxy := by
    unfold compareCellsBy at hxy ⊢
    split at hxy
    · exact Value.compareAllBy_refines hfg _ _ hxy
    · rfl
  outside f x y hxy := by
    unfold compareCellsBy
    rcases cell?_eq_none_of_outside hxy with hx | hy
    · simp [hx]
    · rw [hy]; split <;> simp_all

/-- A longer walk through ordered cells gives the same answer. -/
theorem Heap.compareCells_stable (h : Heap) {n : Nat} (hn : h.walkBound ≤ n) :
    h.compareCells n = h.compareCells h.walkBound := by
  have hstable := fun n => walk_stable (n := n) h.compareCellsBy_walkStep (T := h.compareCells) rfl
    fun _ => rfl
  unfold walkBound at hn ⊢
  exact (hstable n (by omega)).trans (hstable _ (by omega)).symm

end Resumable
