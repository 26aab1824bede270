import Resumable.Heap.Basic

/-!
# Garbage collection

A collection marks every slot that can be reached from the roots and frees the others. Freed slots
go on the free list in ascending order.
-/

namespace Resumable.Heap

/-- Whether a slot has not been marked. -/
def unmarked (marks : Array Bool) (id : Nat) : Bool := marks[id]? == some false

theorem countP_set_lt {marks : Array Bool} {id : Nat} (h : unmarked marks id = true) :
    (marks.setIfInBounds id true).countP (!·) < marks.countP (!·) := by
  unfold unmarked at h
  simp only [beq_iff_eq, Array.getElem?_eq_some_iff] at h
  obtain ⟨bound, isFalse⟩ := h
  rw [Array.setIfInBounds, dif_pos bound, Array.countP_set]
  simp only [isFalse, Bool.not_false, Bool.not_true, ↓reduceIte]
  have : 0 < marks.countP (!·) := by
    rw [Array.countP_pos_iff]
    exact ⟨marks[id], Array.getElem_mem bound, by simp [isFalse]⟩
  simp only [Bool.false_eq_true, ↓reduceIte]
  omega

/-- Marks the slots in `work` and all that can be reached from them through unmarked ones. -/
def mark (h : Heap) (marks : Array Bool) (work : List Nat) : Array Bool :=
  match work with
  | [] => marks
  | id :: rest =>
    if unmarked marks id then
      let children := (h.cell? id).elim [] Cell.refs
      mark h (marks.setIfInBounds id true) (children ++ rest)
    else mark h marks rest
termination_by (marks.countP (!·), work.length)
decreasing_by
  · exact Prod.Lex.left _ _ (countP_set_lt ‹_›)
  · exact Prod.Lex.right _ (by simp)

/-- The marks of all slots that can be reached from the roots. -/
def reachable (h : Heap) (roots : List Value) : Array Bool :=
  mark h (Array.replicate h.slots.size false) (Value.allRefs [] roots)

/-- Frees a slot if it is in use. -/
def freeSlot (h : Heap) (id : Nat) : Heap :=
  match h.slots[id]? with
  | some (some slot) =>
    { h with
      slots := h.slots.setIfInBounds id none
      free := id :: h.free
      budget := h.budget.release slot.charged }
  | _ => h

/-- Frees every slot that cannot be reached from the roots. -/
def collect (h : Heap) (roots : List Value) : Heap :=
  let marks := h.reachable roots
  let unreachable := (List.range h.slots.size).filter (unmarked marks)
  unreachable.foldl freeSlot { h with recent := 0 }

/-- Whether it is time for a collection. -/
def shouldCollect (h : Heap) : Bool := h.budget.shouldCollect h.recent

end Resumable.Heap
