import Mathlib.Order.Basic
import Mathlib.Tactic.Ring
import Mathlib.Tactic.Linarith
import Resumable.Operation.Index

/-!
# What slices take

A slice of `length` items goes from its first position on in steps, as long as it is before its
bound: `indices` and `progression` say so in the integers. `slicePositions_eq`: the positions that a
slice takes are those, in that order, with one exception. A step that leads over the end of the
64-bit integers wraps to a position before all items, which is still wanted, and there is no item.
That takes a step of at least `2 ^ 63 - length` (`slice_total`).
-/

namespace Resumable.Index

open Heap (Action)

/-! ## Progressions -/

/-- How far a position is before a bound, in the direction of a step. -/
def distance (step p bound : Int) : Int := if 0 < step then bound - p else p - bound

/-- The number of steps of a size that are shorter than a distance. -/
def stepCount (distance size : Int) : Nat := ((distance + size - 1) / size).toNat

/-- The integers from `first` on in steps of `step` that are before `bound`. -/
def progression (first bound step : Int) : List Int :=
  (List.range (stepCount (distance step first bound) |step|)).map fun k : Nat => first + k * step

variable {size step first bound p : Int}

theorem lt_stepCount (hsize : 0 < size) {d : Int} {k : Nat} :
    k < stepCount d size ↔ k * size < d := by
  rw [stepCount, Int.lt_toNat, ← Int.add_one_le_iff, Int.le_ediv_iff_mul_le hsize, Int.add_mul]
  omega

theorem stepCount_eq_zero (hsize : 0 < size) {d : Int} (hd : d ≤ 0) : stepCount d size = 0 := by
  by_contra hne
  have hlt := (lt_stepCount hsize).mp (Nat.pos_of_ne_zero hne)
  simp only [Nat.cast_zero, Int.zero_mul] at hlt
  omega

theorem stepCount_succ (hsize : 0 < size) {d : Int} (hd : 0 < d) :
    stepCount d size = stepCount (d - size) size + 1 := by
  refine eq_of_forall_lt_iff fun k => ?_
  cases k with
  | zero =>
    rw [lt_stepCount hsize]
    simp only [Nat.cast_zero, Int.zero_mul, hd, Nat.succ_pos]
  | succ k =>
    rw [Nat.add_lt_add_iff_right, lt_stepCount hsize, lt_stepCount hsize, Nat.cast_succ,
      Int.add_mul]
    omega

/-- After a step the distance is shorter by the size of the step. -/
theorem distance_add (step p bound : Int) :
    distance step (p + step) bound = distance step p bound - |step| := by
  unfold distance
  split
  · next hpos => rw [abs_of_pos hpos]; omega
  · next hpos => rw [abs_of_nonpos (by omega)]; omega

theorem progression_nil (hstep : step ≠ 0) (h : distance step first bound ≤ 0) :
    progression first bound step = [] := by
  rw [progression, stepCount_eq_zero (abs_pos.mpr hstep) h]
  rfl

theorem progression_cons (hstep : step ≠ 0) (h : 0 < distance step first bound) :
    progression first bound step = first :: progression (first + step) bound step := by
  rw [progression, progression, stepCount_succ (abs_pos.mpr hstep) h, distance_add,
    List.range_succ_eq_map, List.map_cons, List.map_map]
  congr 1
  · simp
  · refine List.map_congr_left fun k _ => ?_
    simp only [Function.comp, Nat.succ_eq_add_one, Nat.cast_add, Nat.cast_one]
    ring

theorem mem_progression (hstep : step ≠ 0) : p ∈ progression first bound step ↔
    ∃ k : Nat, p = first + k * step ∧ 0 < distance step p bound := by
  simp only [progression, List.mem_map, List.mem_range, lt_stepCount (abs_pos.mpr hstep)]
  have hdistance (k : Nat) : distance step (first + k * step) bound =
      distance step first bound - k * |step| := by
    unfold distance
    split
    · next hpos => rw [abs_of_pos hpos]; ring
    · next hpos => rw [abs_of_nonpos (by omega)]; ring
  constructor
  · rintro ⟨k, hk, rfl⟩
    exact ⟨k, rfl, by rw [hdistance]; omega⟩
  · rintro ⟨k, rfl, hk⟩
    rw [hdistance] at hk
    exact ⟨k, by omega, rfl⟩

/-! ## Walks -/

/-- From a position, all that is before a bound in the direction of a step is among `length`
items. -/
def Starts (length : Nat) (step p bound : Int) : Prop :=
  if 0 < step then 0 ≤ p ∧ bound ≤ length else p < length ∧ -1 ≤ bound

theorem Starts.inRange {length : Nat} (h : Starts length step p bound)
    (hp : 0 < distance step p bound) : 0 ≤ p ∧ p < length := by
  unfold Starts at h
  unfold distance at hp
  split at h <;> omega

theorem Starts.add {length : Nat} {k : Nat} (h : Starts length step p bound) :
    Starts length step (p + k * step) bound := by
  unfold Starts at h ⊢
  split
  · next hpos =>
    rw [if_pos hpos] at h
    exact ⟨Int.add_nonneg h.1 (Int.mul_nonneg (Int.natCast_nonneg k) hpos.le), h.2⟩
  · next hpos =>
    rw [if_neg hpos] at h
    have := Int.mul_nonpos_of_nonneg_of_nonpos (Int.natCast_nonneg k) (Int.not_lt.mp hpos)
    exact ⟨by omega, h.2⟩

theorem Starts.of_mem {length : Nat} (hstep : step ≠ 0) (h : Starts length step first bound)
    (hp : p ∈ progression first bound step) : 0 ≤ p ∧ p < length := by
  obtain ⟨k, rfl, hp⟩ := (mem_progression hstep).mp hp
  exact h.add.inRange hp

/-- A sum of 64-bit integers of which the first one is no less than zero. -/
theorem toInt_add_of_nonneg {i : Int64} (hi : 0 ≤ i.toInt) (step : Int64) :
    (i + step).toInt = if 2 ^ 63 ≤ i.toInt + step.toInt then i.toInt + step.toInt - 2 ^ 64
      else i.toInt + step.toInt := by
  have hsum : (i + step).toInt = Int.bmod (i.toInt + step.toInt) 18446744073709551616 :=
    Int64.toInt_add i step
  have hsize := i.toInt_lt
  have hleast := step.le_toInt
  have hmost := step.toInt_lt
  simp only [Int.bmod_def] at hsum
  split <;> omega

/-- A walk takes the positions of a progression, unless one of its steps leads over the end of the
64-bit integers. -/
theorem walk_eq {length : Nat} {wanted : Int64 → Bool} {step : Int64} (hstep : step ≠ 0)
    (hlength : (length : Int) < 2 ^ 63)
    (hwanted : ∀ i, wanted i = true ↔ 0 < distance step.toInt i.toInt bound)
    (done : List Nat) (i : Int64) (hi : Starts length step.toInt i.toInt bound) :
    walk length wanted step hstep done i =
      if ∃ p ∈ progression i.toInt bound step.toInt, 2 ^ 63 ≤ p + step.toInt then .error .astray
      else .ok (done.reverse ++ (progression i.toInt bound step.toInt).map Int.toNat) := by
  have hne : step.toInt ≠ 0 := fun h => hstep (Int64.toInt_inj.mp h)
  induction done, i using walk.induct length wanted step hstep with
  | case1 done i hi' hin ih =>
    have hdistance := (hwanted i).mp hi'
    have hsum := toInt_add_of_nonneg hin.1 step
    rw [walk, if_pos hi', if_pos hin, progression_cons hne hdistance]
    by_cases hover : 2 ^ 63 ≤ i.toInt + step.toInt
    · -- The step is positive, and the position behind it is negative.
      rw [if_pos hover] at hsum
      have hmost := i.toInt_lt
      have hfar := step.toInt_lt
      have hbefore : wanted (i + step) = true := by
        rw [hwanted]
        unfold distance at hdistance ⊢
        split <;> omega
      have hout : ¬ InRange length (i + step) := fun h => by
        have := h.1
        omega
      rw [walk, if_pos hbefore, if_neg hout, if_pos ⟨i.toInt, List.mem_cons_self, hover⟩]
    · rw [if_neg hover] at hsum
      have hnext : Starts length step.toInt (i + step).toInt bound := by
        have := hi.add (k := 1)
        rwa [Nat.cast_one, Int.one_mul, ← hsum] at this
      rw [ih hnext, hsum]
      simp only [List.mem_cons, exists_eq_or_imp, hover, false_or, List.reverse_cons,
        List.append_assoc, List.cons_append, List.nil_append, List.map_cons]
  | case2 done i hi' hout => exact absurd (hi.inRange ((hwanted i).mp hi')) hout
  | case3 done i hi' =>
    have hdistance : distance step.toInt i.toInt bound ≤ 0 :=
      Int.not_lt.mp fun h => hi' ((hwanted i).mpr h)
    rw [walk, if_neg hi', progression_nil hne hdistance]
    simp

/-! ## Slices -/

/-- A bound of a slice between `low` and `high`; a negative one counts from the end. -/
def sliceBound (length : Nat) (low high b : Int) : Int :=
  if b < 0 then max (b + length) low else min b high

/-- The first position of a slice of so many items, and the one that it stops before. -/
def indices (length : Nat) (start stop : Option Int64) (step : Int) : Int × Int :=
  if 0 < step then
    (start.elim 0 fun b => sliceBound length 0 length b.toInt,
      stop.elim length fun b => sliceBound length 0 length b.toInt)
  else
    (start.elim (length - 1) fun b => sliceBound length (-1) (length - 1) b.toInt,
      stop.elim (-1) fun b => sliceBound length (-1) (length - 1) b.toInt)

/-- The positions of a slice of so many items. -/
def positions (length : Nat) (start stop : Option Int64) (step : Int) : List Int :=
  let (first, bound) := indices length start stop step
  progression first bound step

theorem toInt_max (a b : Int64) : (max a b).toInt = max a.toInt b.toInt := by
  change (if a ≤ b then b else a).toInt = _
  rw [max_def]
  simp only [Int64.le_iff_toInt_le]
  split <;> rfl

theorem toInt_min (a b : Int64) : (min a b).toInt = min a.toInt b.toInt := by
  change (if a ≤ b then a else b).toInt = _
  rw [min_def]
  simp only [Int64.le_iff_toInt_le]
  split <;> rfl

theorem toInt_clamp {length : Nat} {count low high : Int64} (hcount : count.toInt = length)
    (hlow : low.toInt ≤ high.toInt) (hlow' : low.toInt ≤ 0) (hhigh : length ≤ high.toInt + 1)
    (b : Int64) :
    (clamp count low high b).toInt = sliceBound length low.toInt high.toInt b.toInt := by
  have hb : (if b < 0 then b + count else b).toInt =
      if b.toInt < 0 then b.toInt + length else b.toInt := by
    have hneg : b < 0 ↔ b.toInt < 0 := Int64.lt_iff_toInt_lt
    split
    · next h =>
      have hlt := hneg.mp h
      have hsum := toInt_add_of_nonneg (i := count) (by omega) b
      have hmost := count.toInt_lt
      rw [if_pos hlt, Int64.add_comm, hsum, if_neg (by omega), hcount, Int.add_comm]
    · next h => rw [if_neg (fun hlt => h (hneg.mpr hlt))]
  rw [clamp, toInt_max, toInt_min, hb]
  unfold sliceBound
  split <;> omega

theorem toInt_elim_clamp {length : Nat} {count : Int64} (hcount : count.toInt = length)
    (low high : Int64) (hlow : low.toInt ≤ high.toInt) (hlow' : low.toInt ≤ 0)
    (hhigh : length ≤ high.toInt + 1) (default : Int64) (b : Option Int64) :
    (b.elim default (clamp count low high)).toInt =
      b.elim default.toInt fun b => sliceBound length low.toInt high.toInt b.toInt := by
  cases b with
  | none => rfl
  | some b => exact toInt_clamp hcount hlow hlow' hhigh b

variable {length : Nat} (start stop step : Option Int64)

/-- A slice begins where all that is before its bound is an item. -/
theorem starts_indices (length : Nat) (step : Int) :
    Starts length step (indices length start stop step).1 (indices length start stop step).2 := by
  unfold Starts indices
  split
  · constructor
    · cases start with
      | none => exact Int.le_refl 0
      | some b => simp only [Option.elim, sliceBound]; split <;> omega
    · cases stop with
      | none => exact Int.le_refl _
      | some b => simp only [Option.elim, sliceBound]; split <;> omega
  · constructor
    · cases start with
      | none => simp only [Option.elim]; omega
      | some b => simp only [Option.elim, sliceBound]; split <;> omega
    · cases stop with
      | none => exact Int.le_refl _
      | some b => simp only [Option.elim, sliceBound]; split <;> omega

/-- All positions of a slice are those of items. -/
theorem inRange_of_mem_positions {stride : Int} (hstride : stride ≠ 0)
    (hp : p ∈ positions length start stop stride) : 0 ≤ p ∧ p < length :=
  (starts_indices start stop length stride).of_mem hstride hp

theorem slicePositions_eq (hlength : (length : Int) < 2 ^ 63) (hstep : step.getD 1 ≠ 0) :
    slicePositions length start stop step =
      if ∃ p ∈ positions length start stop (step.getD 1).toInt, 2 ^ 63 ≤ p + (step.getD 1).toInt
      then .error .astray
      else .ok ((positions length start stop (step.getD 1).toInt).map Int.toNat) := by
  have hcount : (Int64.ofNat length).toInt = length := Int64.toInt_ofNat_of_lt (by omega)
  have hpos : step.getD 1 > 0 ↔ 0 < (step.getD 1).toInt := Int64.lt_iff_toInt_lt
  have hstarts := starts_indices start stop length (step.getD 1).toInt
  unfold slicePositions positions
  simp only [dif_neg hstep]
  generalize step.getD 1 = stride at hstep hpos hstarts ⊢
  split
  · next h =>
    have hstride := hpos.mp h
    have clamped := toInt_elim_clamp hcount 0 (Int64.ofNat length)
      (by rw [hcount]; exact Int.natCast_nonneg _) (Int.le_refl 0) (by omega)
    have hfirst := clamped 0 start
    have hbound := clamped (Int64.ofNat length) stop
    generalize start.elim 0 (clamp _ _ _) = first at hfirst ⊢
    generalize stop.elim (Int64.ofNat length) (clamp _ _ _) = bound at hbound ⊢
    have hindices : indices length start stop stride.toInt = (first.toInt, bound.toInt) := by
      rw [hfirst, hbound, hcount, indices, if_pos hstride]
      rfl
    rw [hindices] at hstarts ⊢
    refine walk_eq hstep hlength (fun i => ?_) [] first hstarts
    rw [decide_eq_true_iff, Int64.lt_iff_toInt_lt, distance, if_pos hstride]
    omega
  · next h =>
    have hstride : ¬ 0 < stride.toInt := fun hlt => h (hpos.mpr hlt)
    have hlast : (Int64.ofNat length - 1).toInt = length - 1 := by
      have hsum := toInt_add_of_nonneg (i := Int64.ofNat length) (by omega) (-1)
      rw [Int64.sub_eq_add_neg, hsum, hcount, show (-1 : Int64).toInt = -1 from rfl,
        if_neg (by omega)]
      rfl
    have clamped := toInt_elim_clamp hcount (-1) (Int64.ofNat length - 1)
      (by rw [hlast]; exact (by omega : (-1 : Int) ≤ length - 1)) (by decide) (by omega)
    have hfirst := clamped (Int64.ofNat length - 1) start
    have hbound := clamped (-1) stop
    generalize start.elim (Int64.ofNat length - 1) (clamp _ _ _) = first at hfirst ⊢
    generalize stop.elim (-1) (clamp _ _ _) = bound at hbound ⊢
    have hindices : indices length start stop stride.toInt = (first.toInt, bound.toInt) := by
      rw [hfirst, hbound, hlast, indices, if_neg hstride]
      rfl
    rw [hindices] at hstarts ⊢
    refine walk_eq hstep hlength (fun i => ?_) [] first hstarts
    rw [decide_eq_true_iff, gt_iff_lt, Int64.lt_iff_toInt_lt, distance, if_neg hstride]
    omega

variable {α : Type} (items : Array α)

theorem getD_ne_zero (hstep : step ≠ some 0) : step.getD 1 ≠ 0 := by
  cases step with
  | none => decide
  | some stride => exact fun h => hstep (congrArg some h)

/-- A slice fails if its step is zero, and is stuck if a step from one of its positions leads over
the end of the 64-bit integers. Otherwise it has the items at its positions. -/
theorem slice_eq (hsize : (items.size : Int) < 2 ^ 63) (h : Heap) :
    let stride := (step.getD 1).toInt
    let taken := positions items.size start stop stride
    slice items start stop step h =
      if step = some 0 then .error (.valueError "slice step cannot be zero") h
      else if ∃ p ∈ taken, 2 ^ 63 ≤ p + stride then .error .stuck h
      else .ok (taken.filterMap fun p => items[p.toNat]?) h := by
  intro stride taken
  by_cases hstep : step = some 0
  · rw [if_pos hstep, hstep]
    rfl
  · rw [if_neg hstep, slice, slicePositions_eq start stop step hsize (getD_ne_zero step hstep)]
    split
    · rfl
    · change EStateM.Result.ok ((taken.map Int.toNat).filterMap fun p => items[p]?) h = _
      rw [List.filterMap_map]
      rfl

/-- There is an item at each position of a slice. -/
theorem map_filterMap_positions (hstep : step ≠ some 0) :
    let taken := positions items.size start stop (step.getD 1).toInt
    (taken.filterMap fun p => items[p.toNat]?).map some = taken.map fun p => items[p.toNat]? := by
  intro taken
  have hstride : (step.getD 1).toInt ≠ 0 := fun h =>
    getD_ne_zero step hstep (Int64.toInt_inj.mp h)
  have hin : ∀ p ∈ taken, 0 ≤ p ∧ p < items.size := fun p hp =>
    inRange_of_mem_positions start stop hstride hp
  generalize taken = ps at hin
  induction ps with
  | nil => rfl
  | cons p ps ih =>
    obtain ⟨hp, hps⟩ := List.forall_mem_cons.mp hin
    have hsome : items[p.toNat]? = some items[p.toNat] := Array.getElem?_eq_getElem (by omega)
    simp only [List.filterMap_cons, hsome, List.map_cons, ih hps]

/-- A step that leads from no item over the end of the 64-bit integers. -/
theorem slice_total (hsize : (items.size : Int) < 2 ^ 63) (hstep : step ≠ some 0)
    (hfar : (step.getD 1).toInt + items.size ≤ 2 ^ 63) (h : Heap) :
    ∃ taken, slice items start stop step h = .ok taken h ∧ taken.map some =
      (positions items.size start stop (step.getD 1).toInt).map fun p => items[p.toNat]? := by
  refine ⟨_, ?_, map_filterMap_positions start stop step items hstep⟩
  have hstride : (step.getD 1).toInt ≠ 0 := fun h =>
    getD_ne_zero step hstep (Int64.toInt_inj.mp h)
  rw [slice_eq start stop step items hsize, if_neg hstep]
  refine if_neg fun hover => ?_
  obtain ⟨p, hp, hover⟩ := hover
  have := inRange_of_mem_positions start stop hstride hp
  omega

/-- The position behind the second of these items is out of reach of the largest step. -/
example (h : Heap) : slice #[0, 1, 2] (some 1) none (some Int64.maxValue) h = .error .stuck h := by
  rw [slice_eq _ _ _ _ (by decide), if_neg (by decide)]
  exact if_pos ⟨1, by decide, by decide⟩

end Resumable.Index
