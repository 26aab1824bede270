import Resumable.Heap.Collection
import Resumable.Proofs.Lockstep.Heap
import Resumable.Proofs.Reach

/-!
# Collections keep what can be reached

Marking ends with a set of slots that holds the slots that the roots refer to and is closed under
references (`mark_closed`); a sweep leaves the slots in such a set as they are (`cell?_collect`).
`Trims h vs kept k` is what the rest of the development uses of this: `k` comes of `h` by freeing
slots, but no slot that can be reached from `vs`.
-/

namespace Resumable.Heap

/-- The slots that the cell in a slot refers to. -/
def children (h : Heap) (x : Nat) : List Nat := (h.cell? x).elim [] Cell.refs

/-! ## Marking -/

theorem unmarked_set {marks : Array Bool} {x y : Nat} :
    unmarked (marks.setIfInBounds x true) y = (unmarked marks y && x != y) := by
  unfold unmarked
  rw [Array.getElem?_setIfInBounds]
  by_cases hxy : x = y
  · subst hxy
    rw [if_pos rfl]
    split <;> simp
  · simp [hxy]

theorem unmarked_mark {h : Heap} {marks : Array Bool} {work : List Nat} {x : Nat}
    (hx : unmarked marks x = false) : unmarked (h.mark marks work) x = false := by
  induction marks, work using mark.induct h with
  | case1 marks => rwa [mark]
  | case2 marks id rest hid children ih =>
    rw [mark, if_pos hid]
    exact ih (by rw [unmarked_set, hx, Bool.false_and])
  | case3 marks id rest hid ih =>
    rw [mark, if_neg hid]
    exact ih hx

theorem unmarked_mark_work {h : Heap} {marks : Array Bool} {work : List Nat} {x : Nat}
    (hx : x ∈ work) : unmarked (h.mark marks work) x = false := by
  induction marks, work using mark.induct h with
  | case1 marks => cases hx
  | case2 marks id rest hid children ih =>
    rw [mark, if_pos hid]
    rcases List.mem_cons.mp hx with rfl | hx
    · exact unmarked_mark (by simp [unmarked_set])
    · exact ih (List.mem_append_right _ hx)
  | case3 marks id rest hid ih =>
    rw [mark, if_neg hid]
    rcases List.mem_cons.mp hx with rfl | hx
    · exact unmarked_mark (Bool.not_eq_true _ ▸ hid)
    · exact ih hx

/-- What a marked slot refers to is marked in the end, if it is marked or still to be looked at in
the beginning. -/
theorem mark_closed {h : Heap} {marks : Array Bool} {work : List Nat}
    (hc : ∀ x, unmarked marks x = false → ∀ y ∈ h.children x, unmarked marks y = false ∨ y ∈ work) :
    ∀ x, unmarked (h.mark marks work) x = false →
      ∀ y ∈ h.children x, unmarked (h.mark marks work) y = false := by
  induction marks, work using mark.induct h with
  | case1 marks =>
    rw [mark]
    exact fun x hx y hy => (hc x hx y hy).resolve_right nofun
  | case2 marks id rest hid children ih =>
    rw [mark, if_pos hid]
    refine ih fun x hx y hy => ?_
    simp only [unmarked_set, Bool.and_eq_false_iff, bne_eq_false_iff_eq] at hx ⊢
    rcases hx with hx | rfl
    · rcases hc x hx y hy with h | h
      · exact .inl (.inl h)
      · rcases List.mem_cons.mp h with rfl | h
        · exact .inl (.inr rfl)
        · exact .inr (List.mem_append_right _ h)
    · exact .inr (List.mem_append_left _ hy)
  | case3 marks id rest hid ih =>
    rw [mark, if_neg hid]
    refine ih fun x hx y hy => ?_
    rcases hc x hx y hy with h | h
    · exact .inl h
    · rcases List.mem_cons.mp h with rfl | h
      · exact .inl (Bool.not_eq_true _ ▸ hid)
      · exact .inr h

/-- A slot that a collection keeps. -/
def Kept (h : Heap) (vs : List Value) (x : Nat) : Prop := unmarked (h.reachable vs) x = false

theorem kept_of_mentions {h : Heap} {vs : List Value} {v : Value} {x : Nat} (hv : v ∈ vs)
    (hx : v.Mentions x) : h.Kept vs x :=
  unmarked_mark_work ((Value.mem_allRefs vs).mpr (.inl ⟨v, hv, hx⟩))

theorem Kept.through {h : Heap} {vs : List Value} {x y : Nat} {c : Cell} (hx : h.Kept vs x)
    (hc : h.cell? x = some c) (hy : c.Mentions y) : h.Kept vs y := by
  refine mark_closed (fun z hz w hw => ?_) x hx y ?_
  · -- Nothing is marked in the beginning, so `z` is behind the last slot.
    have hz : h.slots.size ≤ z := by
      by_contra hlt
      simp [unmarked, Nat.lt_of_not_le hlt] at hz
    rw [children, cell?, Array.getElem?_eq_none hz] at hw
    exact absurd hw List.not_mem_nil
  · rw [children, hc]
    exact Cell.mem_refs hy

/-! ## Sweeping -/

theorem cell?_freeSlot (h : Heap) (x y : Nat) :
    (h.freeSlot x).cell? y = if y = x then none else h.cell? y := by
  unfold freeSlot
  split
  · next s hs =>
    have hlt : x < h.slots.size := (Array.getElem?_eq_some_iff.mp hs).1
    by_cases hxy : y = x
    · simp [cell?, hxy, hlt]
    · simp [cell?, hxy, Ne.symm hxy]
  · next hs =>
    by_cases hxy : y = x
    · rw [if_pos hxy, hxy, cell?]
      rcases hx : h.slots[x]? with _ | _ | s
      · rfl
      · rfl
      · exact absurd hx (hs s)
    · rw [if_neg hxy]

theorem Exact.freeSlot {h : Heap} (hh : h.Exact) (x : Nat) : (h.freeSlot x).Exact := by
  unfold Heap.freeSlot
  split
  · next s hs =>
    have hlt : x < h.slots.size := (Array.getElem?_eq_some_iff.mp hs).1
    have hx : x ∉ h.free := fun hx => by simp [(hh.mem_free x).mp hx] at hs
    refine ⟨List.nodup_cons.mpr ⟨hx, hh.nodup⟩, fun y => ?_⟩
    rw [List.mem_cons, hh.mem_free, Array.getElem?_setIfInBounds]
    by_cases hxy : x = y
    · subst hxy; simp [hlt]
    · simp [hxy, Ne.symm hxy]
  · exact hh

theorem freeSlot_budget (h : Heap) (x : Nat) :
    ∃ n, (h.freeSlot x).budget = { h.budget with memory := n } := by
  unfold freeSlot
  split
  · unfold Budget.release
    simp only
    split
    · exact ⟨_, rfl⟩
    · exact ⟨_, rfl⟩
  · exact ⟨_, rfl⟩

theorem memory_freeSlot_le (h : Heap) (x : Nat) :
    (h.freeSlot x).budget.memory ≤ h.budget.memory := by
  unfold freeSlot
  split
  · unfold Budget.release
    simp only
    split
    · exact Nat.le_refl _
    · exact Nat.sub_le _ _
  · exact Nat.le_refl _

theorem cell?_sweep (xs : List Nat) (h : Heap) (y : Nat) :
    (xs.foldl freeSlot h).cell? y = if y ∈ xs then none else h.cell? y := by
  induction xs generalizing h with
  | nil => rfl
  | cons x xs ih =>
    rw [List.foldl_cons, ih, cell?_freeSlot]
    grind

theorem Exact.sweep {h : Heap} (hh : h.Exact) (xs : List Nat) :
    (xs.foldl Heap.freeSlot h).Exact := by
  induction xs generalizing h with
  | nil => exact hh
  | cons x xs ih => exact ih (hh.freeSlot x)

theorem sweep_budget (xs : List Nat) (h : Heap) :
    ∃ n, (xs.foldl freeSlot h).budget = { h.budget with memory := n } := by
  induction xs generalizing h with
  | nil => exact ⟨_, rfl⟩
  | cons x xs ih =>
    obtain ⟨n, hn⟩ := ih (h.freeSlot x)
    obtain ⟨k, hk⟩ := freeSlot_budget h x
    exact ⟨n, by rw [List.foldl_cons, hn, hk]⟩

theorem memory_sweep_le (xs : List Nat) (h : Heap) :
    (xs.foldl freeSlot h).budget.memory ≤ h.budget.memory := by
  induction xs generalizing h with
  | nil => exact Nat.le_refl _
  | cons x xs ih => exact Nat.le_trans (ih _) (memory_freeSlot_le h x)

/-! ## Collections -/

theorem cell?_collect {h : Heap} {vs : List Value} {x : Nat} (hx : h.Kept vs x) :
    (h.collect vs).cell? x = h.cell? x := by
  have hmem : x ∉ (List.range h.slots.size).filter (unmarked (h.reachable vs)) := by
    rw [List.mem_filter]
    exact fun hx' => absurd hx'.2 (by rw [hx]; exact Bool.false_ne_true)
  exact (cell?_sweep _ _ x).trans (if_neg hmem)

theorem Exact.collect {h : Heap} (hh : h.Exact) (vs : List Value) : (h.collect vs).Exact :=
  Exact.sweep (h := { h with recent := 0 }) ⟨hh.nodup, hh.mem_free⟩ _

theorem collect_budget (h : Heap) (vs : List Value) :
    ∃ n, (h.collect vs).budget = { h.budget with memory := n } := sweep_budget _ _

/-- What is freed is given back. -/
theorem memory_collect_le (h : Heap) (vs : List Value) :
    (h.collect vs).budget.memory ≤ h.budget.memory := memory_sweep_le _ _

/-- The heap `k` comes of `h` by freeing slots, none of those in `kept`, which holds all that can be
reached from the values in `vs`. -/
structure Trims (h : Heap) (vs : List Value) (kept : Nat → Prop) (k : Heap) : Prop where
  root : ∀ {v x}, v ∈ vs → v.Mentions x → kept x
  through : ∀ {x y c}, kept x → h.cell? x = some c → c.Mentions y → kept y
  cells : ∀ {x}, kept x → k.cell? x = h.cell? x
  exact : h.Exact → k.Exact

theorem Trims.refl (h : Heap) (vs : List Value) : h.Trims vs (fun _ => True) h :=
  ⟨fun _ _ => trivial, fun _ _ _ => trivial, fun _ => rfl, id⟩

theorem trims_collect (h : Heap) (vs : List Value) : h.Trims vs (h.Kept vs) (h.collect vs) :=
  ⟨kept_of_mentions, Kept.through, cell?_collect, (·.collect vs)⟩

end Resumable.Heap
