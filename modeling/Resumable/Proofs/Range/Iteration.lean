import Resumable.Proofs.Range.Views

/-!
# Iteration over a range

An iterator over a range adds the step to its place, with a wrapping addition, each time it has
given an item. It gives the members of the range and no more if and only if no step from a member
leads over the end of the 64-bit integers, `Counts` (`gives_iff`): the step that does leads to the
other end of them, where the iterator goes on.
-/

namespace Resumable.Range

open Number (Fits fits_toInt toInt_ne_zero toInt_add_of_fits)
open Index (distance progression)

variable {start stop step : Int64} {p : Int}

/-- An iterator gives so many values, one after the other, and then no more. -/
inductive Gives (id : Nat) : Heap → List Value → Prop
  | done {h : Heap} (hend : Heap.next id h = .ok none h) : Gives id h []
  | item {h k : Heap} {v : Value} {vs : List Value} (hnext : Heap.next id h = .ok (some v) k)
    (hrest : Gives id k vs) : Gives id h (v :: vs)

/-- No step from a member leads over the end of the 64-bit integers. -/
def Counts (start stop step : Int64) : Prop := ∀ p ∈ members start stop step, Fits (p + step.toInt)

instance (start stop step : Int64) : Decidable (Counts start stop step) :=
  inferInstanceAs (Decidable (∀ p ∈ members start stop step, Fits (p + step.toInt)))

theorem ended_iff : (if step > 0 then start ≥ stop else start ≤ stop) ↔
    distance step.toInt start.toInt stop.toInt ≤ 0 := by
  simp only [gt_iff_lt, ge_iff_le, Int64.lt_iff_toInt_lt, Int64.le_iff_toInt_le, Int64.toInt_zero,
    distance]
  by_cases hpos : 0 < step.toInt
  · rw [if_pos hpos, if_pos hpos]
    omega
  · rw [if_neg hpos, if_neg hpos]
    omega

section

variable {id : Nat} {h : Heap} (hcell : h.cell? id = some (.iter (.range start stop step)))
include hcell

theorem next_of_done (hend : distance step.toInt start.toInt stop.toInt ≤ 0) :
    Heap.next id h = .ok none h := by
  have hadvance : h.advance (.range start stop step) = none := if_pos (ended_iff.mpr hend)
  rw [Heap.next, get_bind, hcell]
  simp only [hadvance]
  rfl

theorem next_of_item (hmore : 0 < distance step.toInt start.toInt stop.toInt) :
    ∃ k, Heap.next id h = .ok (some (.int start)) k ∧
      k.cell? id = some (.iter (.range (start + step) stop step)) := by
  have hadvance : h.advance (.range start stop step) =
      some (.int start, .range (start + step) stop step) :=
    if_neg fun hend => Int.not_le.mpr hmore (ended_iff.mp hend)
  obtain ⟨k, hmodify, hk⟩ :=
    Heap.exists_modifyCell hcell fun _ => .iter (.range (start + step) stop step)
  refine ⟨k, ?_, hk⟩
  rw [Heap.next, get_bind, hcell]
  simp only [hadvance]
  rw [bind_ok hmodify]
  rfl

end

theorem members_of_done (hstep : step ≠ 0) (h : members start stop step = []) :
    distance step.toInt start.toInt stop.toInt ≤ 0 := by
  by_contra hmore
  rw [members, Index.progression_cons (toInt_ne_zero hstep)
    (Int.not_le.mp hmore)] at h
  cases h

/-- The first member of a range, and the others. -/
theorem members_of_item {ms : List Int} (hstep : step ≠ 0)
    (h : members start stop step = p :: ms) :
    0 < distance step.toInt start.toInt stop.toInt ∧ p = start.toInt ∧
      progression (start.toInt + step.toInt) stop.toInt step.toInt = ms := by
  have hne := toInt_ne_zero hstep
  have hmore : 0 < distance step.toInt start.toInt stop.toInt := by
    by_contra hend
    rw [members, Index.progression_nil hne (Int.not_lt.mp hend)] at h
    cases h
  rw [members, Index.progression_cons hne hmore] at h
  obtain ⟨rfl, hrest⟩ := List.cons.inj h
  exact ⟨hmore, rfl, hrest⟩

theorem members_add (hfits : Fits (start.toInt + step.toInt)) : members (start + step) stop step =
    progression (start.toInt + step.toInt) stop.toInt step.toInt := by
  rw [members, toInt_add_of_fits hfits]

theorem gives_of_counts {id : Nat} (hstep : step ≠ 0) {h : Heap}
    (hcell : h.cell? id = some (.iter (.range start stop step)))
    (hcounts : Counts start stop step) :
    Gives id h ((members start stop step).map ofInteger) := by
  unfold Counts at hcounts
  generalize hms : members start stop step = ms at hcounts
  induction ms generalizing start h with
  | nil => exact .done (next_of_done hcell (members_of_done hstep hms))
  | cons p ms ih =>
    obtain ⟨hmore, rfl, hrest⟩ := members_of_item hstep hms
    obtain ⟨hfits, hcounts⟩ := List.forall_mem_cons.mp hcounts
    obtain ⟨k, hnext, hcell⟩ := next_of_item hcell hmore
    rw [List.map_cons, ofInteger, Int64.ofInt_toInt]
    exact .item hnext (ih hcell ((members_add hfits).trans hrest) hcounts)

/-- A step over the end of the 64-bit integers leads behind the last member, but to where the range
has not ended. -/
theorem astray (hmore : 0 < distance step.toInt start.toInt stop.toInt)
    (hfits : ¬ Fits (start.toInt + step.toInt)) :
    distance step.toInt (start.toInt + step.toInt) stop.toInt ≤ 0 ∧
      0 < distance step.toInt (start + step).toInt stop.toInt := by
  have hsum : (start + step).toInt = Int.bmod (start.toInt + step.toInt) 18446744073709551616 :=
    Int64.toInt_add start step
  simp only [Int.bmod_def] at hsum
  have := fits_toInt start
  have := fits_toInt step
  have := fits_toInt stop
  unfold Fits at *
  unfold distance at *
  split at hmore <;> split at hsum <;> omega

theorem counts_of_gives {id : Nat} (hstep : step ≠ 0) {h : Heap}
    (hcell : h.cell? id = some (.iter (.range start stop step)))
    (hgives : Gives id h ((members start stop step).map ofInteger)) : Counts start stop step := by
  unfold Counts
  generalize hms : members start stop step = ms at hgives ⊢
  induction ms generalizing start h with
  | nil => exact nofun
  | cons p ms ih =>
    obtain ⟨hmore, rfl, hrest⟩ := members_of_item hstep hms
    obtain ⟨k, hnext, hcell⟩ := next_of_item hcell hmore
    rw [List.map_cons, ofInteger, Int64.ofInt_toInt] at hgives
    cases hgives with
    | item hnext' hgives =>
      obtain ⟨⟩ := hnext.symm.trans hnext'
      by_cases hfits : Fits (start.toInt + step.toInt)
      · exact List.forall_mem_cons.mpr
          ⟨hfits, ih hcell ((members_add hfits).trans hrest) hgives⟩
      · -- There is no other member, but another item.
        obtain ⟨hlast, hmore⟩ := astray hmore hfits
        obtain ⟨l, hnext, -⟩ := next_of_item hcell hmore
        rw [Index.progression_nil (toInt_ne_zero hstep) hlast] at hrest
        subst hrest
        cases hgives with
        | done hend => cases hnext.symm.trans hend

/-- An iterator over a range gives its members, and no more, if no step from a member leads over the
end of the 64-bit integers; otherwise it does not. -/
theorem gives_iff {id : Nat} (hstep : step ≠ 0) {h : Heap}
    (hcell : h.cell? id = some (.iter (.range start stop step))) :
    Gives id h ((members start stop step).map ofInteger) ↔ Counts start stop step :=
  ⟨counts_of_gives hstep hcell, gives_of_counts hstep hcell⟩

/-- `range(2 ** 63 - 2, 2 ** 63 - 1, 2)` has one member, and an iterator over it goes on. -/
example : ¬ Counts (Int64.maxValue - 1) Int64.maxValue 2 := by decide +kernel

/-- A loop over a range begins with an iterator that has not given anything, unless a limit is
hit. -/
theorem iterate_range {h : Heap} (hh : h.Exact) (start stop step : Int64) :
    (∃ id k, Heap.iterate (.range start stop step) h = .ok (.ref id) k ∧
      k.cell? id = some (.iter (.range start stop step))) ∨
    ∃ e, Heap.iterate (.range start stop step) h = .error (.ofLimit e) h := by
  have halloc := Heap.alloc_eq (.iter (.range start stop step)) h
  change Heap.iterate (.range start stop step) h = _ at halloc
  rw [halloc]
  split
  · next budget _ =>
    have hh' : ({ h with budget, recent := h.recent + 1 } : Heap).Exact := ⟨hh.nodup, hh.mem_free⟩
    refine .inl ⟨_, _, rfl, ?_⟩
    rw [Heap.cell?_place hh', Heap.place_fst, if_pos rfl]
  · next e _ => exact .inr ⟨e, rfl⟩

end Resumable.Range
