import Mathlib.Algebra.Ring.Int.Defs
import Mathlib.Algebra.Ring.Nat
import Resumable.Number

/-!
# Integers of 64 bits

`Fits n`: the integer `n` is one of 64 bits. The wrapping operations give the results of the
integers where these fit, and `narrow` fails exactly where its argument does not.
-/

namespace Resumable.Number

variable {n : Int} {x y : Int64}

/-- An integer that has 64 bits. -/
def Fits (n : Int) : Prop := -2 ^ 63 ≤ n ∧ n < 2 ^ 63

instance (n : Int) : Decidable (Fits n) := inferInstanceAs (Decidable (_ ∧ _))

theorem fits_toInt (x : Int64) : Fits x.toInt := ⟨x.le_toInt, x.toInt_lt⟩

theorem toInt_ofInt_of_fits (h : Fits n) : (Int64.ofInt n).toInt = n :=
  Int64.toInt_ofInt_of_le h.1 h.2

theorem toInt_ne_zero (h : x ≠ 0) : x.toInt ≠ 0 := fun hzero => h (Int64.toInt_inj.mp hzero)

/-! ## Wrapping operations -/

theorem bmod_of_fits (h : Fits n) : n.bmod (2 ^ 64) = n := by
  unfold Fits at h
  refine Int.bmod_eq_of_le_mul_two ?_ ?_ <;> omega

theorem toInt_add_of_fits (h : Fits (x.toInt + y.toInt)) : (x + y).toInt = x.toInt + y.toInt := by
  rw [Int64.toInt_add, bmod_of_fits h]

theorem toInt_sub_of_fits (h : Fits (x.toInt - y.toInt)) : (x - y).toInt = x.toInt - y.toInt := by
  rw [Int64.toInt_sub, bmod_of_fits h]

theorem toInt_neg_of_fits (h : Fits (-x.toInt)) : (-x).toInt = -x.toInt := by
  rw [Int64.toInt_neg, bmod_of_fits h]

/-! ## Narrowing -/

theorem narrow_of_fits (h : Fits n) : narrow n = .ok (Int64.ofInt n) :=
  if_pos ⟨h.1, Int.le_of_lt_add_one h.2⟩

theorem narrow_of_not_fits (h : ¬ Fits n) : narrow n = .error .overflow :=
  if_neg fun hn => h ⟨hn.1, Int.lt_add_one_of_le hn.2⟩

theorem narrow_eq_ok_iff : narrow n = .ok x ↔ x.toInt = n := by
  by_cases h : Fits n
  · rw [narrow_of_fits h, Except.ok.injEq]
    constructor
    · rintro rfl
      exact toInt_ofInt_of_fits h
    · rintro rfl
      exact Int64.ofInt_toInt x
  · rw [narrow_of_not_fits h]
    exact ⟨nofun, fun hx => absurd (hx ▸ fits_toInt x) h⟩

end Resumable.Number
