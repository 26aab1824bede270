import Mathlib.Tactic.Linarith
import Resumable.Operation.Builtins
import Resumable.Proofs.Fits
import Resumable.Proofs.Lockstep.Heap
import Resumable.Proofs.Slicing

/-!
# The views of a range

`members start stop step` lists the integers of a range. The length of a range, its truth, its
items, its indices and the membership in it are computed from the three bounds, each in its own way
and with wrapping subtractions. They agree about the members if the distance of the bounds has 64
bits, `Spans` (`views_agree`).
-/

namespace Resumable.Range

open Number (Fits fits_toInt bmod_of_fits toInt_ne_zero toInt_add_of_fits toInt_sub_of_fits
  toInt_neg_of_fits)
open Index (distance stepCount progression)

variable {start stop step i : Int64} {p : Int}

/-- The integers of a range. -/
def members (start stop step : Int64) : List Int :=
  progression start.toInt stop.toInt step.toInt

/-- The distance between the bounds of a range has 64 bits. -/
def Spans (start stop step : Int64) : Prop := distance step.toInt start.toInt stop.toInt < 2 ^ 63

/-! ## Length -/

theorem stepCount_eq {d size : Int} (hsize : 0 < size) (hd : 0 < d) :
    (stepCount d size : Int) = (d - 1) / size + 1 := by
  have hone : (d + size - 1) / size = (d - 1) / size + 1 := by
    rw [show d + size - 1 = d - 1 + 1 * size by omega, Int.add_mul_ediv_right _ _ (by omega)]
  have hleast := Int.ediv_nonneg (a := d - 1) (by omega) hsize.le
  rw [stepCount, hone]
  omega

theorem toInt_div {d size : Int64} (hd : 0 ≤ d.toInt) (hsize : 0 < size.toInt) :
    (d / size).toInt = d.toInt / size.toInt := by
  have hleast := Int.ediv_nonneg hd hsize.le
  have hmost := Int.ediv_le_self size.toInt hd
  have hlt := d.toInt_lt
  rw [Int64.toInt_div, Int.tdiv_eq_ediv_of_nonneg hd, bmod_of_fits ⟨by omega, by omega⟩]

/-- The negative of the least integer is itself, and as a divisor it gives what its magnitude would
give. -/
theorem toInt_div_neg {d size : Int64} (hd : 0 ≤ d.toInt) (hsize : size.toInt < 0) :
    (d / -size).toInt = d.toInt / -size.toInt := by
  by_cases hleast : size = Int64.minValue
  · subst hleast
    have hlt := d.toInt_lt
    rw [show -Int64.minValue = Int64.minValue from rfl, Int64.toInt_div,
      show Int64.minValue.toInt = -2 ^ 63 from rfl, Int.tdiv_neg, Int.tdiv_eq_ediv_of_nonneg hd,
      Int.neg_neg, Int.ediv_eq_zero_of_lt hd hlt]
    rfl
  · have hne : size.toInt ≠ -2 ^ 63 := fun h => hleast (Int64.toInt_inj.mp h)
    have hmost := size.le_toInt
    have hneg : (-size).toInt = -size.toInt := toInt_neg_of_fits ⟨by omega, by omega⟩
    rw [← hneg]
    exact toInt_div hd (by omega)

/-- One less than the distance between two bounds. -/
theorem toInt_sub_sub_one {a b : Int64} (hlt : b.toInt < a.toInt)
    (hspan : a.toInt - b.toInt < 2 ^ 63) : (a - b - 1).toInt = a.toInt - b.toInt - 1 := by
  have hsub : (a - b).toInt = a.toInt - b.toInt := toInt_sub_of_fits ⟨by omega, hspan⟩
  rw [toInt_sub_of_fits, hsub, Int64.toInt_one]
  rw [hsub, Int64.toInt_one]
  exact ⟨by omega, by omega⟩

theorem toInt_add_one_of_div {q : Int64} {d size : Int} (hq : q.toInt = (d - 1) / size)
    (hsize : 0 < size) (hd : 0 < d) (hspan : d < 2 ^ 63) : (q + 1).toInt = stepCount d size := by
  have hleast := Int.ediv_nonneg (a := d - 1) (by omega) hsize.le
  have hmost := Int.ediv_le_self size (a := d - 1) (by omega)
  rw [stepCount_eq hsize hd, toInt_add_of_fits, hq, Int64.toInt_one]
  rw [hq, Int64.toInt_one]
  exact ⟨by omega, by omega⟩

theorem length_members (start stop step : Int64) : (members start stop step).length =
    stepCount (distance step.toInt start.toInt stop.toInt) |step.toInt| := by
  rw [members, progression, List.length_map, List.length_range]

theorem toInt_rangeLength (hstep : step ≠ 0) (hspan : Spans start stop step) :
    (rangeLength start stop step).toInt = (members start stop step).length := by
  have hne := toInt_ne_zero hstep
  rw [length_members]
  unfold Spans distance at *
  unfold rangeLength
  simp only [Bool.and_eq_true, decide_eq_true_eq, gt_iff_lt, Int64.lt_iff_toInt_lt,
    Int64.toInt_zero]
  split
  · next h =>
    rw [if_pos h.1, abs_of_pos h.1] at *
    have hfar := toInt_sub_sub_one h.2 hspan
    refine toInt_add_one_of_div ?_ h.1 (by omega) hspan
    rw [toInt_div (by omega) h.1, hfar]
  split
  · next h =>
    rw [if_neg (by omega), abs_of_neg h.1] at *
    have hfar := toInt_sub_sub_one h.2 hspan
    refine toInt_add_one_of_div ?_ (by omega) (by omega) hspan
    rw [toInt_div_neg (by omega) h.1, hfar]
  · rw [Index.stepCount_eq_zero (abs_pos.mpr hne) (by split <;> omega)]
    rfl

/-! ## Items -/

theorem mem_members (hstep : step ≠ 0) : p ∈ members start stop step ↔
    ∃ k : Nat, p = start.toInt + k * step.toInt ∧ 0 < distance step.toInt p stop.toInt :=
  Index.mem_progression (toInt_ne_zero hstep)

/-- Whether an integer is between the bounds of a range; the first one belongs to it. -/
def Between (p start stop step : Int) : Prop :=
  if 0 < step then start ≤ p ∧ p < stop else p ≤ start ∧ stop < p

theorem between_of_mem (hstep : step ≠ 0) (hp : p ∈ members start stop step) :
    Between p start.toInt stop.toInt step.toInt := by
  obtain ⟨k, rfl, hbefore⟩ := (mem_members hstep).mp hp
  unfold distance at hbefore
  unfold Between
  split at hbefore
  · next hpos =>
    have := Int.mul_nonneg (Int.natCast_nonneg k) hpos.le
    rw [if_pos hpos]
    omega
  · next hneg =>
    have := Int.mul_nonpos_of_nonneg_of_nonpos (Int.natCast_nonneg k) (Int.not_lt.mp hneg)
    rw [if_neg hneg]
    omega

theorem fits_of_mem (hstep : step ≠ 0) (hp : p ∈ members start stop step) : Fits p := by
  have hbetween := between_of_mem hstep hp
  have hstart := fits_toInt start
  have hstop := fits_toInt stop
  unfold Fits Between at *
  split at hbetween <;> omega

/-- An integer as a value. -/
def ofInteger (p : Int) : Value := .int (Int64.ofInt p)

theorem ofInt_member (k : Nat) :
    Int64.ofInt (start.toInt + k * step.toInt) = start + Int64.ofNat k * step := by
  rw [Int64.ofInt_add, Int64.ofInt_mul, Int64.ofInt_toInt, Int64.ofInt_toInt, Int64.ofInt_eq_ofNat]

theorem integers_eq (hstep : step ≠ 0) (hspan : Spans start stop step) :
    ((List.range (rangeLength start stop step).toInt.toNat).map fun i =>
      start + Int64.ofNat i * step) = (members start stop step).map Int64.ofInt := by
  rw [toInt_rangeLength hstep hspan, Int.toNat_natCast, length_members, members, progression,
    List.map_map]
  refine List.map_congr_left fun k _ => ?_
  rw [Function.comp, ofInt_member]

theorem rangeItems_eq (hstep : step ≠ 0) (hspan : Spans start stop step) :
    rangeItems start stop step = (members start stop step).map ofInteger := by
  have hmap := congrArg (List.map Value.int) (integers_eq hstep hspan)
  rw [List.map_map, List.map_map] at hmap
  exact hmap

/-! ## Indices -/

/-- The item at an index; a negative one counts from the end. -/
def pick? {α : Type} (items : List α) (i : Int) : Option α :=
  if i < 0 then items.reverse[(-i - 1).toNat]? else items[i.toNat]?

theorem pick?_eq {α : Type} (items : List α) (i : Int64) :
    pick? items i.toInt = (Index.position? items.length i).bind (items[·]?) := by
  unfold pick? Index.position?
  simp only [Int64.lt_iff_toInt_lt, Int64.toInt_zero]
  split
  · next hneg =>
    by_cases hin : 0 ≤ i.toInt + items.length
    · rw [if_pos ⟨hin, by omega⟩, List.getElem?_reverse (by omega), Option.bind_some]
      congr 1
      omega
    · rw [if_neg (fun h => hin h.1), List.getElem?_eq_none (by rw [List.length_reverse]; omega)]
      rfl
  · next hpos =>
    by_cases hin : i.toInt < items.length
    · rw [if_pos ⟨by omega, hin⟩]
      rfl
    · rw [if_neg (fun h => hin h.2), List.getElem?_eq_none (by omega)]
      rfl

theorem lt_of_position? {length k : Nat} (h : Index.position? length i = some k) : k < length := by
  simp only [Index.position?, Option.ite_none_right_eq_some, Option.some.injEq] at h
  omega

theorem getElem?_members {k : Nat} (hk : k < (members start stop step).length) :
    (members start stop step)[k]? = some (start.toInt + k * step.toInt) := by
  rw [length_members] at hk
  rw [members, progression, List.getElem?_map, List.getElem?_range hk, Option.map_some]

theorem get_index {v : Value} (hv : v.int? = some i) (hstep : step ≠ 0)
    (hspan : Spans start stop step) (h : Heap) :
    Index.get (.range start stop step) v h =
      match pick? (members start stop step) i.toInt with
      | some p => .ok (ofInteger p) h
      | none => .error (.exception .indexError "range object index out of range") h := by
  have hget : Index.get (.range start stop step) v = do
      let k ← Index.position "range object" (rangeLength start stop step).toInt.toNat v
      return .int (start + Int64.ofNat k * step) := by
    cases v <;> first | rfl | cases hv
  have hmessage : toString "range object" ++ toString " index out of range" =
      "range object index out of range" := rfl
  rw [hget, pick?_eq, Index.position, hv, toInt_rangeLength hstep hspan, Int.toNat_natCast,
    hmessage]
  cases hk : Index.position? (members start stop step).length i with
  | none =>
    simp only [hk]
    rfl
  | some k =>
    simp only [hk, Option.bind_some, getElem?_members (lt_of_position? hk), ofInteger, ofInt_member]
    rfl

/-! ## Membership -/

theorem mem_members_iff (hstep : step ≠ 0) : p ∈ members start stop step ↔
    Between p start.toInt stop.toInt step.toInt ∧ step.toInt ∣ p - start.toInt := by
  have hne := toInt_ne_zero hstep
  constructor
  · intro hp
    obtain ⟨k, hk, -⟩ := (mem_members hstep).mp hp
    exact ⟨between_of_mem hstep hp, k, by rw [hk, Int.mul_comm]; omega⟩
  · rintro ⟨hbetween, c, hc⟩
    have hnonneg : 0 ≤ c := by
      unfold Between at hbetween
      by_contra hneg
      split at hbetween
      · next hpos =>
        have := Int.mul_neg_of_pos_of_neg hpos (Int.not_le.mp hneg)
        omega
      · next hpos =>
        have := Int.mul_pos_of_neg_of_neg (a := step.toInt) (by omega) (Int.not_le.mp hneg)
        omega
    refine (mem_members hstep).mpr ⟨c.toNat, ?_, ?_⟩
    · rw [Int.toNat_of_nonneg hnonneg, Int.mul_comm]
      omega
    · unfold Between at hbetween
      unfold distance
      split at hbetween
      · next hpos =>
        rw [if_pos hpos]
        omega
      · next hpos =>
        rw [if_neg hpos]
        omega

theorem inRange_eq (hstep : step ≠ 0) (hspan : Spans start stop step) :
    Heap.inRange i start stop step = some (decide (i.toInt ∈ members start stop step)) := by
  have hbounds : (if step > 0 then i ≥ start && i < stop else i ≤ start && i > stop) = true ↔
      Between i.toInt start.toInt stop.toInt step.toInt := by
    simp only [Between, gt_iff_lt, ge_iff_le, Int64.lt_iff_toInt_lt, Int64.le_iff_toInt_le,
      Int64.toInt_zero]
    split <;> simp
  unfold Heap.inRange
  by_cases hin : Between i.toInt start.toInt stop.toInt step.toInt
  · have hdistance : -2 ^ 63 < i.toInt - start.toInt ∧ i.toInt - start.toInt < 2 ^ 63 := by
      unfold Between at hin
      unfold Spans distance at hspan
      split at hin
      · next hpos =>
        rw [if_pos hpos] at hspan
        omega
      · next hpos =>
        rw [if_neg hpos] at hspan
        omega
    have hsub : (i - start).toInt = i.toInt - start.toInt :=
      toInt_sub_of_fits ⟨hdistance.1.le, hdistance.2⟩
    have hleast : ¬ (i - start == Int64.minValue && step == -1) = true := by
      rw [Bool.and_eq_true, beq_iff_eq, ← Int64.toInt_inj, hsub]
      exact fun h => hdistance.1.ne' h.1
    rw [if_pos (hbounds.mpr hin), if_neg hleast]
    congr 1
    rw [Bool.eq_iff_iff, beq_iff_eq, decide_eq_true_iff, mem_members_iff hstep, ← Int64.toInt_inj,
      Int64.toInt_mod, hsub, Int64.toInt_zero, Int.dvd_iff_tmod_eq_zero]
    exact (and_iff_right hin).symm
  · rw [if_neg (fun h => hin (hbounds.mp h)),
      decide_eq_false fun hp => hin (between_of_mem hstep hp)]

theorem holds_range {v : Value} (hv : v.int? = some i) (hstep : step ≠ 0)
    (hspan : Spans start stop step) (h : Heap) :
    Heap.holds (.range start stop step) v h =
      .ok (decide (i.toInt ∈ members start stop step)) h := by
  rw [Heap.holds, hv]
  simp only [inRange_eq hstep hspan]
  rfl

/-! ## The views that look at all members at once -/

/-- What the views of a range say, if they agree about its members. -/
structure Agree (start stop step : Int64) (ms : List Int) : Prop where
  length : ∀ h, BuiltinCall.len (.range start stop step) h = .ok (ofInteger ms.length) h
  truth : ∀ h : Heap, h.isTruthy (.range start stop step) = decide (0 < ms.length)
  items : ∀ h, Heap.items (.range start stop step) h = .ok (ms.map ofInteger).toArray h
  index : ∀ h v i, v.int? = some i → Index.get (.range start stop step) v h =
    match pick? ms i.toInt with
    | some p => .ok (ofInteger p) h
    | none => .error (.exception .indexError "range object index out of range") h
  membership : ∀ h v i, v.int? = some i →
    Heap.holds (.range start stop step) v h = .ok (decide (i.toInt ∈ ms)) h

/-- The views of a range agree about its members if the distance of its bounds has 64 bits. -/
theorem views_agree (hstep : step ≠ 0) (hspan : Spans start stop step) :
    Agree start stop step (members start stop step) where
  length h := by
    rw [ofInteger, ← toInt_rangeLength hstep hspan, Int64.ofInt_toInt]
    rfl
  truth h := by
    rw [Heap.isTruthy, decide_eq_decide, gt_iff_lt, Int64.lt_iff_toInt_lt,
      toInt_rangeLength hstep hspan, Int64.toInt_zero, Int.natCast_pos]
  items h := by
    rw [← rangeItems_eq hstep hspan]
    rfl
  index h v i hv := get_index hv hstep hspan h
  membership h v i hv := holds_range hv hstep hspan h

/-- The ranges that programs make have a step other than zero. -/
theorem step_ne_zero_of_call {args : Arguments} {h k : Heap} {v : Value}
    (hcall : BuiltinCall.range args h = .ok v k) :
    ∃ start stop step, v = .range start stop step ∧ step ≠ 0 := by
  obtain ⟨vs, l, -, hcall⟩ := ok_of_bind hcall
  obtain ⟨bounds, l, -, hcall⟩ := ok_of_bind hcall
  simp only at hcall
  split at hcall
  all_goals
    split at hcall
    · obtain ⟨_, _, hthrow, -⟩ := ok_of_bind hcall
      cases hthrow
    · next hstep =>
      cases hcall
      exact ⟨_, _, _, rfl, fun h => hstep (beq_iff_eq.mpr h)⟩

end Resumable.Range
