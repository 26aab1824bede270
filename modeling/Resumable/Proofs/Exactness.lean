import Mathlib.Algebra.Order.Ring.Abs
import Mathlib.Algebra.Order.Ring.Int
import Mathlib.Algebra.Ring.Parity
import Mathlib.Tactic.Linarith
import Mathlib.Tactic.Ring
import Resumable.Operation.Binary
import Resumable.Proofs.Fits

/-!
# Integer arithmetic is exact

`Result op x y n` says what the result of an operator on two integers is where integers have no
bound. On 64-bit integers the operators give that result if it fits, report a division by zero if
there is no result, and an overflow if it does not fit (`Heap.binary_integers`). There are two
exceptions, `Premature`: the remainder of the least integer by `-1`, and the powers of `-1`, `0` and
`1` with an exponent of 33 bits or more, are refused as an overflow though they fit.
-/

namespace Resumable.Number

variable {op : Operator} {x y : Int64} {n : Int}

/-! ## Results -/

/-- The quotient of `x` by `y`, rounded to the floor, is `q`, and the remainder `r`, which has the
sign of the divisor. -/
structure Divided (x y q r : Int) : Prop where
  sum : q * y + r = x
  remainder : 0 ≤ r ∧ r < y ∨ y < r ∧ r ≤ 0

theorem Divided.ne_zero {x y q r : Int} (h : Divided x y q r) : y ≠ 0 := by
  have := h.remainder
  omega

theorem divided_fdiv (x : Int) {y : Int} (hy : y ≠ 0) :
    Divided x y (x.fdiv y) (x.fmod y) := by
  refine ⟨Int.fdiv_mul_add_fmod x y, ?_⟩
  rcases Int.lt_or_gt_of_ne hy with hneg | hpos
  · have hleast := Int.emod_nonneg x hy
    have hmost := Int.emod_lt_of_neg x hneg
    rw [Int.fmod_eq_emod]
    split
    · next h =>
      have hzero : x % y = 0 := Int.emod_eq_zero_of_dvd (h.resolve_left (Int.not_le.mpr hneg))
      omega
    · next h =>
      have hne : x % y ≠ 0 := fun hzero => h (.inr (Int.dvd_of_emod_eq_zero hzero))
      omega
  · exact .inl ⟨Int.fmod_nonneg_of_pos x hpos, Int.fmod_lt_of_pos x hpos⟩

/-- There is only one way to divide. -/
theorem Divided.unique {x y q r q' r' : Int} (h : Divided x y q r) (h' : Divided x y q' r') :
    q = q' ∧ r = r' := by
  have hsum : (q - q') * y = r' - r := by
    have := h.sum
    have := h'.sum
    linarith
  have hr : r' - r = 0 := by
    refine Int.eq_zero_of_abs_lt_dvd (m := |y|) ((abs_dvd y _).mpr ⟨q - q', ?_⟩) ?_
    · rw [← hsum, Int.mul_comm]
    · have := h.remainder
      have := h'.remainder
      rw [abs_lt]
      rcases Int.le_total 0 y with hy | hy
      · rw [abs_of_nonneg hy]
        omega
      · rw [abs_of_nonpos hy]
        omega
  rw [hr, Int.mul_eq_zero] at hsum
  have := hsum.resolve_right h.ne_zero
  omega

/-- The result of an operator on integers. -/
inductive Result : Operator → Int → Int → Int → Prop where
  | add (x y : Int) : Result .add x y (x + y)
  | sub (x y : Int) : Result .sub x y (x - y)
  | mult (x y : Int) : Result .mult x y (x * y)
  | floorDiv {x y q r : Int} (h : Divided x y q r) : Result .floorDiv x y q
  | mod {x y q r : Int} (h : Divided x y q r) : Result .mod x y r
  | pow (x : Int) {y : Int} {k : Nat} (h : y = k) : Result .pow x y (x ^ k)

/-! ## Powers -/

theorem not_fits_pow {x : Int} {k : Nat} (hx : 2 ≤ x.natAbs) (hk : 64 ≤ k) : ¬ Fits (x ^ k) := by
  have hpow : 2 ^ 64 ≤ (x ^ k).natAbs := by
    rw [Int.natAbs_pow]
    calc 2 ^ 64 ≤ 2 ^ k := Nat.pow_le_pow_right (by decide) hk
      _ ≤ x.natAbs ^ k := Nat.pow_le_pow_left hx k
  rintro ⟨hleast, hmost⟩
  omega

/-- Operators that report an overflow whatever the result is. -/
def Premature : Operator → Int64 → Int64 → Prop
  | .mod, x, y => x = Int64.minValue ∧ y = -1
  | .pow, x, k => 2 ^ 32 ≤ k.toInt ∧ (x = 0 ∨ x = 1 ∨ x = -1)
  | _, _, _ => False

theorem integerPower_of_premature {k : Int64} (h : Premature .pow x k) :
    integerPower x k = .error .overflow := if_pos h.1

theorem two_le_natAbs (h : ¬ (x = 0 ∨ x = 1 ∨ x = -1)) : 2 ≤ x.toInt.natAbs := by
  simp only [← Int64.toInt_inj, not_or] at h
  have : (0 : Int64).toInt = 0 := rfl
  have : (1 : Int64).toInt = 1 := rfl
  have : (-1 : Int64).toInt = -1 := rfl
  omega

theorem neg_one_pow_eq (k : Nat) :
    (if (k : Int) % 2 == 0 then 1 else -1 : Int64).toInt = (-1) ^ k := by
  rcases Nat.even_or_odd k with heven | hodd
  · obtain ⟨j, rfl⟩ := heven
    rw [if_pos (by rw [beq_iff_eq]; omega), Even.neg_one_pow ⟨j, rfl⟩]
    rfl
  · obtain ⟨j, rfl⟩ := hodd
    rw [if_neg (by rw [beq_iff_eq]; omega), Odd.neg_one_pow ⟨j, rfl⟩]
    rfl

theorem integerPower_eq {k : Int64} (hk : 0 ≤ k.toInt) (h : ¬ Premature .pow x k) :
    integerPower x k = narrow (x.toInt ^ k.toInt.toNat) := by
  obtain ⟨e, he⟩ := Int.eq_ofNat_of_zero_le hk
  have hsize : (UInt32.size : Int) = 2 ^ 32 := rfl
  have hlarge (hx : ¬ (x = 0 ∨ x = 1 ∨ x = -1)) (he : 64 ≤ e) :
      narrow (x.toInt ^ e) = .error .overflow :=
    narrow_of_not_fits (not_fits_pow (two_le_natAbs hx) he)
  unfold integerPower
  rw [he, Int.toNat_natCast]
  split
  · next hfar =>
    refine (hlarge (fun hx => h ⟨?_, hx⟩) ?_).symm <;> omega
  split
  · next hone =>
    refine (narrow_eq_ok_iff.mpr ?_).symm
    rcases Bool.or_eq_true _ _ ▸ hone with hzero | hone
    · rw [beq_iff_eq, ← Int64.toInt_inj, he] at hzero
      rw [Int.natCast_eq_zero.mp hzero, Int.pow_zero]
      rfl
    · rw [eq_of_beq hone]
      exact (one_pow e).symm
  next hk0 =>
  rw [Bool.or_eq_true, not_or, beq_iff_eq, beq_iff_eq, ← Int64.toInt_inj, he] at hk0
  split
  · next hzero =>
    have hne : e ≠ 0 := fun hzero => hk0.1 (hzero ▸ rfl)
    refine (narrow_eq_ok_iff.mpr ?_).symm
    rw [eq_of_beq hzero]
    exact (zero_pow hne).symm
  next hx0 =>
  split
  · next hneg =>
    refine (narrow_eq_ok_iff.mpr ?_).symm
    rw [eq_of_beq hneg]
    exact neg_one_pow_eq e
  next hx1 =>
  split
  · refine (hlarge ?_ (by omega)).symm
    rintro (hx | hx | hx)
    · exact hx0 (beq_iff_eq.mpr hx)
    · exact hk0.2 hx
    · exact hx1 (beq_iff_eq.mpr hx)
  · rfl

/-! ## Operators -/

/-- An operator is refused too early only with one of three results. -/
theorem Premature.result (h : Premature op x y) (hn : Result op x.toInt y.toInt n) :
    n = 0 ∨ n = 1 ∨ n = -1 := by
  cases hn with
  | add | sub | mult | floorDiv => exact h.elim
  | mod hdivided =>
    obtain ⟨rfl, rfl⟩ := h
    have hr := hdivided.remainder
    rw [show (-1 : Int64).toInt = -1 from rfl] at hr
    omega
  | @pow _ _ k hk =>
    have hne : k ≠ 0 := by
      have := h.1
      omega
    rcases h.2 with rfl | rfl | rfl
    · exact .inl (zero_pow hne)
    · exact .inr (.inl (one_pow k))
    · exact .inr (neg_one_pow_eq_or Int k)

theorem onIntegers_of_premature (h : Premature op x y) : onIntegers op x y = .error .overflow := by
  cases op with
  | add | sub | mult | div | floorDiv => exact h.elim
  | mod =>
    obtain ⟨rfl, rfl⟩ := h
    rfl
  | pow =>
    have hneg : ¬ y < 0 := by
      rw [Int64.lt_iff_toInt_lt, show (0 : Int64).toInt = 0 from rfl]
      have := h.1
      omega
    rw [onIntegers, if_neg hneg, integerPower_of_premature h]
    rfl

/-- Where an operator has a result, it gives that one if it fits. -/
theorem onIntegers_of_result (hn : Result op x.toInt y.toInt n) (h : ¬ Premature op x y) :
    onIntegers op x y = .int <$> narrow n := by
  cases hn with
  | add | sub | mult => rfl
  | floorDiv hdivided =>
    have hy : y.toInt ≠ 0 := hdivided.ne_zero
    rw [onIntegers, if_neg (by rw [beq_iff_eq, ← Int64.toInt_inj]; exact hy),
      ((divided_fdiv x.toInt hy).unique hdivided).1]
  | mod hdivided =>
    have hy : y.toInt ≠ 0 := hdivided.ne_zero
    have hearly : ¬ (x == Int64.minValue && y == -1) = true := by
      rw [Bool.and_eq_true, beq_iff_eq, beq_iff_eq]
      exact h
    rw [onIntegers, if_neg (by rw [beq_iff_eq, ← Int64.toInt_inj]; exact hy), if_neg hearly,
      ((divided_fdiv x.toInt hy).unique hdivided).2, narrow_of_fits]
    · rfl
    · -- The remainder is nearer to zero than the divisor.
      have hr := hdivided.remainder
      have hy := fits_toInt y
      unfold Fits at *
      omega
  | @pow _ _ k hk =>
    have hneg : ¬ y < 0 := by
      rw [Int64.lt_iff_toInt_lt, hk]
      exact Int.not_lt.mpr (Int.natCast_nonneg k)
    rw [onIntegers, if_neg hneg, integerPower_eq (hk ▸ Int.natCast_nonneg k) h, hk,
      Int.toNat_natCast]

/-- Only a division by zero has no result. -/
def ByZero (op : Operator) (y : Int64) : Prop := (op = .floorDiv ∨ op = .mod) ∧ y = 0

theorem onIntegers_of_byZero (h : ByZero op y) :
    ∃ e, onIntegers op x y = .error e ∧ e.type = .zeroDivisionError := by
  obtain ⟨rfl | rfl, rfl⟩ := h
  · exact ⟨.integerDivision, rfl, rfl⟩
  · exact ⟨.integerModulo, rfl, rfl⟩

/-- The operators whose result is an integer if there is one: a quotient that is not rounded and a
power with a negative exponent are floats. -/
def IsIntegral (op : Operator) (y : Int) : Prop := op ≠ .div ∧ (op = .pow → 0 ≤ y)

theorem exists_result (hop : IsIntegral op y.toInt) (h : ¬ ByZero op y) :
    ∃ n, Result op x.toInt y.toInt n := by
  have hdivided (hdiv : op = .floorDiv ∨ op = .mod) := divided_fdiv x.toInt (y := y.toInt)
    fun hzero => h ⟨hdiv, Int64.toInt_inj.mp hzero⟩
  cases op with
  | add => exact ⟨_, .add _ _⟩
  | sub => exact ⟨_, .sub _ _⟩
  | mult => exact ⟨_, .mult _ _⟩
  | div => exact absurd rfl hop.1
  | floorDiv => exact ⟨_, .floorDiv (hdivided (.inl rfl))⟩
  | mod => exact ⟨_, .mod (hdivided (.inr rfl))⟩
  | pow => exact ⟨_, .pow _ (Int.eq_ofNat_of_zero_le (hop.2 rfl)).choose_spec⟩

theorem Result.not_byZero (hn : Result op x.toInt y.toInt n) : ¬ ByZero op y := by
  rintro ⟨hop, rfl⟩
  cases hn with
  | add | sub | mult | pow => simp at hop
  | floorDiv h | mod h => exact h.ne_zero rfl

theorem Result.unique {x y m : Int} (hm : Result op x y m) (hn : Result op x y n) : m = n := by
  cases hm with
  | add | sub | mult => cases hn; rfl
  | floorDiv h =>
    cases hn with
    | floorDiv h' => exact (h.unique h').1
  | mod h =>
    cases hn with
    | mod h' => exact (h.unique h').2
  | pow _ hk =>
    cases hn with
    | pow _ hk' => rw [Int.natCast_inj.mp (hk.symm.trans hk')]

/-- What an operator on integers can come to. -/
inductive Comes (op : Operator) (x y : Int64) : Except NumberError Value → Prop where
  | exact {r : Int64} (hr : Result op x.toInt y.toInt r.toInt) (h : ¬ Premature op x y) :
    Comes op x y (.ok (.int r))
  | byZero {e : NumberError} (he : e.type = .zeroDivisionError) (h : ByZero op y) :
    Comes op x y (.error e)
  | overflow {n : Int} (hn : Result op x.toInt y.toInt n) (h : Fits n → Premature op x y) :
    Comes op x y (.error .overflow)

theorem onIntegers_comes (hop : IsIntegral op y.toInt) : Comes op x y (onIntegers op x y) := by
  by_cases hzero : ByZero op y
  · obtain ⟨e, he, htype⟩ := onIntegers_of_byZero (x := x) hzero
    rw [he]
    exact .byZero htype hzero
  obtain ⟨n, hn⟩ := exists_result (x := x) hop hzero
  by_cases hearly : Premature op x y
  · rw [onIntegers_of_premature hearly]
    exact .overflow hn fun _ => hearly
  rw [onIntegers_of_result hn hearly]
  by_cases hfits : Fits n
  · rw [narrow_of_fits hfits]
    refine .exact ?_ hearly
    rwa [narrow_eq_ok_iff.mp (narrow_of_fits hfits)]
  · rw [narrow_of_not_fits hfits]
    exact .overflow hn fun h => absurd h hfits

end Resumable.Number

namespace Resumable.Heap

open Number

variable {op : Operator} {x y : Int64}

theorem binary_eq_onIntegers {a b : Value} (ha : a.int? = some x) (hb : b.int? = some y)
    (h : Heap) :
    binary op a b h = withinNumbers (onIntegers op x y) h := by
  unfold binary
  rw [ha, hb]

/-- An operator on integers gives the one result that it has in the integers if that fits, and
reports a division by zero if it has none and an overflow if the result does not fit. Only a
premature overflow is reported of a result that fits. -/
theorem binary_integers (h : Heap) {a b : Value} (ha : a.int? = some x) (hb : b.int? = some y)
    (hop : IsIntegral op y.toInt) :
    (∀ r, binary op a b h = .ok (.int r) h ↔
      Result op x.toInt y.toInt r.toInt ∧ ¬ Premature op x y) ∧
    ((∃ m, binary op a b h = .error (.exception .zeroDivisionError m) h) ↔ ByZero op y) ∧
    ((∃ m, binary op a b h = .error (.exception .overflowError m) h) ↔
      ∃ n, Result op x.toInt y.toInt n ∧ (Fits n → Premature op x y)) := by
  rw [binary_eq_onIntegers ha hb]
  have hcomes := onIntegers_comes (x := x) hop
  generalize onIntegers op x y = result at hcomes
  cases hcomes with
  | @exact r hr hearly =>
    refine ⟨fun s => ⟨?_, fun ⟨hs, _⟩ => ?_⟩, ⟨nofun, fun hzero => absurd hzero hr.not_byZero⟩,
      ⟨nofun, fun ⟨n, hn, hover⟩ => ?_⟩⟩
    · rintro ⟨⟩
      exact ⟨hr, hearly⟩
    · rw [Int64.toInt_inj.mp (hs.unique hr)]
      rfl
    · exact absurd (hover (hr.unique hn ▸ fits_toInt r)) hearly
  | @byZero e he hzero =>
    refine ⟨fun r => ⟨nofun, fun ⟨hr, _⟩ => absurd hzero hr.not_byZero⟩,
      ⟨fun _ => hzero, fun _ => ⟨e.message, by rw [← he]; rfl⟩⟩,
      ⟨fun ⟨m, hm⟩ => ?_, fun ⟨n, hn, _⟩ => absurd hzero hn.not_byZero⟩⟩
    injection hm with hm
    injection hm with hm
    rw [he] at hm
    cases hm
  | @overflow n hn hover =>
    refine ⟨fun r => ⟨nofun, fun ⟨hr, hearly⟩ => absurd (hover ?_) hearly⟩,
      ⟨nofun, fun hzero => absurd hzero hn.not_byZero⟩,
      ⟨fun _ => ⟨n, hn, hover⟩, fun _ => ⟨_, rfl⟩⟩⟩
    exact hr.unique hn ▸ fits_toInt r

/-- The remainder of the least integer by `-1` is zero, and is refused. -/
example (h : Heap) : binary .mod (.int Int64.minValue) (.int (-1)) h =
    .error (.exception .overflowError "integer result too large for 64 bits") h := rfl

end Resumable.Heap
