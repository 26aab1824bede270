import Mathlib.Tactic.Ring
import Resumable.Proofs.Range.Views

/-!
# Slices of a range

A slice of a range is a range again. It is made from the first and the second of the integers that
the slice takes and from their number, so that its last bound is one step behind them. Its members
are the integers that the slice takes if that bound has 64 bits, or there are fewer than two of them
(`get_slice`); otherwise it is empty.
-/

namespace Resumable.Range

open Number (Fits fits_toInt toInt_ne_zero toInt_ofInt_of_fits)
open Index (distance stepCount progression)

variable {start stop step : Int64} {p : Int}

/-- The integers that a slice takes of a list. -/
def sliced (ms : List Int) (first bound stride : Option Int64) : List Int :=
  (Index.positions ms.length first bound (stride.getD 1).toInt).filterMap fun p => ms[p.toNat]?

/-- Integers from one on, in steps. -/
def walk (p d : Int) (n : Nat) : List Int := (List.range n).map fun k : Nat => p + k * d

theorem walk_succ (p d : Int) (n : Nat) : walk p d (n + 1) = p :: walk (p + d) d n := by
  rw [walk, walk, List.range_succ_eq_map, List.map_cons, List.map_map]
  congr 1
  · simp
  · refine List.map_congr_left fun k _ => ?_
    simp only [Function.comp, Nat.succ_eq_add_one, Nat.cast_add, Nat.cast_one]
    ring

theorem length_walk (p d : Int) (n : Nat) : (walk p d n).length = n := by
  rw [walk, List.length_map, List.length_range]

theorem stepCount_mul {size : Int} (hsize : 0 < size) (n : Nat) :
    stepCount (n * size) size = n := by
  refine eq_of_forall_lt_iff fun k => ?_
  rw [Index.lt_stepCount hsize, Int.mul_lt_mul_right hsize, Nat.cast_lt]

/-- A walk is what is before the place that it would go on with. -/
theorem progression_walk {d : Int} (hd : d ≠ 0) (p : Int) (n : Nat) :
    progression p (p + n * d) d = walk p d n := by
  have hdistance : distance d p (p + n * d) = n * |d| := by
    unfold distance
    split
    · next hpos =>
      rw [abs_of_pos hpos]
      omega
    · next hpos =>
      rw [abs_of_nonpos (by omega), Int.mul_neg]
      omega
  rw [progression, hdistance, stepCount_mul (abs_pos.mpr hd)]
  rfl

theorem members_eq_walk (start stop step : Int64) : members start stop step =
    walk start.toInt step.toInt (members start stop step).length := by
  rw [length_members]
  rfl

theorem getElem?_walk (p d : Int) {k n : Nat} (hk : k < n) :
    (walk p d n)[k]? = some (p + k * d) := by
  rw [walk, List.getElem?_map, List.getElem?_range hk, Option.map_some]

theorem filterMap_walk (p d : Int) {q e : Int} {m n : Nat}
    (h : ∀ i ∈ walk q e n, 0 ≤ i ∧ i < m) :
    (walk q e n).filterMap (fun i => (walk p d m)[i.toNat]?) = walk (p + q * d) (e * d) n := by
  have hat : ∀ i ∈ walk q e n, (walk p d m)[i.toNat]? = some (p + i * d) := fun i hi => by
    obtain ⟨hleast, hmost⟩ := h i hi
    rw [getElem?_walk p d (by omega), Int.toNat_of_nonneg hleast]
  rw [List.filterMap_congr hat, List.filterMap_eq_map', walk, walk, List.map_map]
  refine List.map_congr_left fun k _ => ?_
  simp only [Function.comp]
  ring

theorem positions_eq_walk (length : Nat) (first bound : Option Int64) (stride : Int) :
    ∃ q n, Index.positions length first bound stride = walk q stride n := ⟨_, _, rfl⟩

/-- A slice of a range goes from its first member on in steps of the product. -/
theorem sliced_eq_walk (start stop step : Int64) (first bound : Option Int64)
    {stride : Option Int64} (hstride : stride ≠ some 0) :
    ∃ p n, sliced (members start stop step) first bound stride =
      walk p ((stride.getD 1).toInt * step.toInt) n := by
  have hne : (stride.getD 1).toInt ≠ 0 := toInt_ne_zero (Index.getD_ne_zero stride hstride)
  have hin : ∀ i ∈ Index.positions (members start stop step).length first bound
      (stride.getD 1).toInt, 0 ≤ i ∧ i < (members start stop step).length :=
    fun i hi => Index.inRange_of_mem_positions first bound hne hi
  obtain ⟨q, n, hwalk⟩ :=
    positions_eq_walk (members start stop step).length first bound (stride.getD 1).toInt
  rw [hwalk] at hin
  refine ⟨start.toInt + q * step.toInt, n, ?_⟩
  rw [sliced, hwalk, ← filterMap_walk _ _ hin, ← members_eq_walk]

theorem rangeOfItems_walk (step : Int64) (p d : Int) (n : Nat) :
    Index.rangeOfItems step ((walk p d (n + 2)).map Int64.ofInt) =
      .range (.ofInt p) (.ofInt (p + (n + 2 : Nat) * d)) (.ofInt d) := by
  have hd : Int64.ofInt (p + d) - Int64.ofInt p = Int64.ofInt d := by
    rw [Int64.ofInt_add, Int64.add_comm, Int64.add_sub_cancel]
  have hlength : ((walk p d (n + 2)).map Int64.ofInt).length = n + 2 := by
    rw [List.length_map, length_walk]
  rw [walk_succ, walk_succ] at hlength ⊢
  rw [List.map_cons, List.map_cons] at hlength ⊢
  rw [Index.rangeOfItems, hlength, hd, Int64.ofInt_add, Int64.ofInt_mul, Int64.ofInt_eq_ofNat,
    Int64.mul_comm]

theorem get_slice_eq (hstep : step ≠ 0) (hspan : Spans start stop step)
    {first bound stride : Option Int64} (hstride : stride ≠ some 0)
    (hreach : ∀ p ∈ Index.positions (members start stop step).length first bound
      (stride.getD 1).toInt, p + (stride.getD 1).toInt < 2 ^ 63) (h : Heap) :
    Index.get (.range start stop step) (.slice first bound stride) h =
      .ok (Index.rangeOfItems step
        ((sliced (members start stop step) first bound stride).map Int64.ofInt)) h := by
  have hlength := toInt_rangeLength hstep hspan
  have hlt := (rangeLength start stop step).toInt_lt
  have hsize : ((members start stop step).map Int64.ofInt).toArray.size =
      (members start stop step).length := by rw [List.size_toArray, List.length_map]
  have hslice := Index.slice_eq first bound stride
    ((members start stop step).map Int64.ofInt).toArray (by rw [hsize]; omega) h
  simp only [hsize, if_neg hstride] at hslice
  rw [if_neg fun ⟨p, hp, hover⟩ => Int.not_le.mpr (hreach p hp) hover] at hslice
  have hget : Index.get (.range start stop step) (.slice first bound stride) = do
      let items := (List.range (rangeLength start stop step).toInt.toNat).map fun i =>
        start + Int64.ofNat i * step
      return Index.rangeOfItems step (← Index.slice items.toArray first bound stride) := rfl
  rw [hget]
  simp only [integers_eq hstep hspan]
  rw [bind_ok hslice]
  simp only [List.getElem?_toArray, List.getElem?_map, sliced, List.map_filterMap]
  rfl

theorem ofInt_ne_zero {d : Int} (hfits : Fits d) (hd : d ≠ 0) : Int64.ofInt d ≠ 0 := fun h =>
  hd (by rw [← toInt_ofInt_of_fits hfits, h, Int64.toInt_zero])

/-- The range that goes through a walk of two integers or more, if the integer that the walk would
go on with has 64 bits. -/
theorem members_walk {p d : Int} {n : Nat} (hd : d ≠ 0) (hp : Fits p) (hfits : Fits d)
    (hend : Fits (p + n * d)) :
    members (.ofInt p) (.ofInt (p + n * d)) (.ofInt d) = walk p d n := by
  rw [members, toInt_ofInt_of_fits hp, toInt_ofInt_of_fits hfits, toInt_ofInt_of_fits hend,
    progression_walk hd]

/-- Otherwise that range is empty. -/
theorem members_walk_nil {p d : Int} {n : Nat} (hd : d ≠ 0) (hp : Fits p) (hfits : Fits d)
    (hspan : |n * d| < 2 ^ 63) (hlast : Fits (p + n * d)) (hend : ¬ Fits (p + (n + 1 : Nat) * d)) :
    members (.ofInt p) (.ofInt (p + (n + 1 : Nat) * d)) (.ofInt d) = [] := by
  have hstop : (Int64.ofInt (p + (n + 1 : Nat) * d)).toInt =
      Int.bmod (p + (n + 1 : Nat) * d) 18446744073709551616 := Int64.toInt_ofInt
  rw [members, toInt_ofInt_of_fits hp, toInt_ofInt_of_fits hfits, hstop]
  refine Index.progression_nil hd ?_
  rw [Nat.cast_succ, Int.add_mul, Int.one_mul] at *
  rw [abs_lt] at hspan
  unfold Fits at *
  unfold distance
  simp only [Int.bmod_def]
  generalize (n : Int) * d = m at *
  split <;> split <;> omega

theorem sub_lt_of_mem {q : Int} (hstep : step ≠ 0) (hspan : Spans start stop step)
    (hp : p ∈ members start stop step) (hq : q ∈ members start stop step) : |p - q| < 2 ^ 63 := by
  have hp := between_of_mem hstep hp
  have hq := between_of_mem hstep hq
  unfold Spans distance at hspan
  unfold Between at hp hq
  rw [abs_lt]
  split at hp
  · next hpos =>
    rw [if_pos hpos] at hq hspan
    omega
  · next hpos =>
    rw [if_neg hpos] at hq hspan
    omega

theorem mem_walk {p d q : Int} {n : Nat} : q ∈ walk p d n ↔ ∃ k < n, q = p + k * d := by
  simp only [walk, List.mem_map, List.mem_range, eq_comm]

theorem forall_fits_iff {p d : Int} {n : Nat} (hin : ∀ q ∈ walk p d (n + 1), Fits q) :
    (∀ q ∈ walk p d (n + 1), Fits (q + d)) ↔ Fits (p + (n + 1 : Nat) * d) := by
  have hnext (k : Nat) : p + k * d + d = p + (k + 1 : Nat) * d := by
    rw [Nat.cast_succ, Int.add_mul, Int.one_mul, Int.add_assoc]
  constructor
  · intro hall
    have := hall _ (mem_walk.mpr ⟨n, Nat.lt_succ_self n, rfl⟩)
    rwa [hnext] at this
  · intro hend q hq
    obtain ⟨k, hk, rfl⟩ := mem_walk.mp hq
    rw [hnext]
    rcases Nat.lt_succ_iff_lt_or_eq.mp hk with hlt | rfl
    · exact hin _ (mem_walk.mpr ⟨k + 1, Nat.succ_lt_succ hlt, rfl⟩)
    · exact hend

theorem mem_of_mem_sliced {ms : List Int} {first bound stride : Option Int64}
    (hp : p ∈ sliced ms first bound stride) : p ∈ ms := by
  obtain ⟨k, -, hk⟩ := List.mem_filterMap.mp hp
  exact List.mem_of_getElem? hk

theorem members_zero : members 0 0 1 = [] := Index.progression_nil (by decide) (by decide)

theorem walk_one (p d : Int) : walk p d 1 = [p] := by
  rw [walk_succ]
  rfl

theorem members_single {sign : Int64} (hsign : sign.toInt ≠ 0) (hp : Fits p)
    (hend : Fits (p + sign.toInt)) : members (.ofInt p) (.ofInt p + sign) sign = [p] := by
  have hwalk := members_walk (n := 1) hsign hp (fits_toInt sign)
  rw [Nat.cast_one, Int.one_mul, Int64.ofInt_add, Int64.ofInt_toInt, walk_one] at hwalk
  exact hwalk hend

theorem rangeOfItems_single (hstep : step ≠ 0) (hp : p ∈ members start stop step) :
    ∃ a b s, Index.rangeOfItems step [Int64.ofInt p] = .range a b s ∧ s ≠ 0 ∧
      members a b s = [p] := by
  have hfits := fits_of_mem hstep hp
  have hbetween := between_of_mem hstep hp
  have hstop := fits_toInt stop
  unfold Between at hbetween
  unfold Fits at hfits hstop
  by_cases hpos : step > 0
  · have hlt : 0 < step.toInt := Int64.lt_iff_toInt_lt.mp hpos
    rw [if_pos hlt] at hbetween
    refine ⟨_, _, 1, by rw [Index.rangeOfItems, if_pos hpos], by decide, ?_⟩
    refine members_single (by decide) hfits ⟨?_, ?_⟩ <;> rw [Int64.toInt_one] <;> omega
  · have hle : step.toInt ≤ 0 := Int.not_lt.mp fun h => hpos (Int64.lt_iff_toInt_lt.mpr h)
    have hne := toInt_ne_zero hstep
    have hneg : step < 0 := Int64.lt_iff_toInt_lt.mpr (by rw [Int64.toInt_zero]; omega)
    rw [if_neg (by omega)] at hbetween
    refine ⟨_, _, -1, by rw [Index.rangeOfItems, if_neg hpos, if_pos hneg], by decide, ?_⟩
    refine members_single (by decide) hfits ⟨?_, ?_⟩ <;>
      rw [show (-1 : Int64).toInt = -1 from rfl] <;> omega

theorem rangeOfItems_eq (hstep : step ≠ 0) (hspan : Spans start stop step) {d : Int} (hd : d ≠ 0)
    {n : Nat} (hin : ∀ q ∈ walk p d n, q ∈ members start stop step) :
    ∃ a b s, Index.rangeOfItems step ((walk p d n).map Int64.ofInt) = .range a b s ∧ s ≠ 0 ∧
      (members a b s = walk p d n ↔ (2 ≤ n → ∀ q ∈ walk p d n, Fits (q + d))) := by
  match n with
  | 0 => exact ⟨0, 0, 1, rfl, by decide, iff_of_true members_zero (by omega)⟩
  | 1 =>
    obtain ⟨a, b, s, hrange, hs, hmembers⟩ :=
      rangeOfItems_single hstep (hin p (mem_walk.mpr ⟨0, by omega, by simp⟩))
    rw [walk_one]
    exact ⟨a, b, s, hrange, hs, iff_of_true hmembers (by omega)⟩
  | n + 2 =>
    have hmem {k : Nat} (hk : k < n + 2) : p + k * d ∈ members start stop step :=
      hin _ (mem_walk.mpr ⟨k, hk, rfl⟩)
    have hfits {k : Nat} (hk : k < n + 2) : Fits (p + k * d) := fits_of_mem hstep (hmem hk)
    have hp : Fits p := by simpa using hfits (k := 0) (by omega)
    have hspan {k : Nat} (hk : k < n + 2) : |k * d| < 2 ^ 63 := by
      have := sub_lt_of_mem hstep hspan (hmem hk) (hmem (k := 0) (by omega))
      simpa using this
    have hdfits : Fits d := by
      have := hspan (k := 1) (by omega)
      rw [Nat.cast_one, Int.one_mul, abs_lt] at this
      exact ⟨this.1.le, this.2⟩
    refine ⟨_, _, _, rangeOfItems_walk step p d n, ofInt_ne_zero hdfits hd, ?_⟩
    rw [forall_fits_iff fun q hq => fits_of_mem hstep (hin q hq)]
    constructor
    · intro hmembers _
      by_contra hend
      have hnil := members_walk_nil hd hp hdfits (hspan (by omega)) (hfits (by omega)) hend
      rw [hnil, walk_succ] at hmembers
      cases hmembers
    · exact fun hend => members_walk hd hp hdfits (hend (by omega))

/-- The slice of a range is a range. Its members are the slice of the members, unless there are two
or more and a step from one of them leads over the end of the 64-bit integers. -/
theorem get_slice (hstep : step ≠ 0) (hspan : Spans start stop step)
    {first bound stride : Option Int64} (hstride : stride ≠ some 0)
    (hreach : ∀ p ∈ Index.positions (members start stop step).length first bound
      (stride.getD 1).toInt, p + (stride.getD 1).toInt < 2 ^ 63) (h : Heap) :
    let ms := sliced (members start stop step) first bound stride
    ∃ a b s, Index.get (.range start stop step) (.slice first bound stride) h =
        .ok (.range a b s) h ∧ s ≠ 0 ∧
      (members a b s = ms ↔
        (2 ≤ ms.length → ∀ p ∈ ms, Fits (p + (stride.getD 1).toInt * step.toInt))) := by
  intro ms
  have hd : (stride.getD 1).toInt * step.toInt ≠ 0 :=
    Int.mul_ne_zero (toInt_ne_zero (Index.getD_ne_zero stride hstride)) (toInt_ne_zero hstep)
  obtain ⟨p, n, hwalk⟩ := sliced_eq_walk start stop step first bound hstride
  have hin : ∀ q ∈ walk p ((stride.getD 1).toInt * step.toInt) n, q ∈ members start stop step :=
    fun q hq => mem_of_mem_sliced (hwalk ▸ hq)
  obtain ⟨a, b, s, hrange, hs, hmembers⟩ := rangeOfItems_eq hstep hspan hd hin
  refine ⟨a, b, s, ?_, hs, ?_⟩
  · rw [get_slice_eq hstep hspan hstride hreach, hwalk, hrange]
  · rw [show ms = _ from hwalk, length_walk]
    exact hmembers

end Resumable.Range
