import Mathlib
import Resumable.Decimal
import Resumable.Value.Basic

/-!
# The nearest float of an integer

`rounded n` is the integer with 53 significant bits that is nearest to `n`; of two that are, the one
with the even last bit. The conversion to a float gives that integer (`represents_toNearestFloat`),
so that converted integers are equal, or in an order, as their rounded values are
(`Represents.beq_iff`, `Represents.lt_iff`). Rounding keeps the order (`rounded_mono`) and leaves
the integers up to `2 ^ 53` as they are (`rounded_of_le`).
-/

namespace Resumable.Number

open Decimal (roundDiv)
open Float.Model (Format UnpackedFloat)
open Float.Model.UnpackedFloat (Sign)

/-! ## Rounding -/

theorem roundDiv_eq (n d : Nat) : roundDiv n d =
    n / d + if 2 * (n % d) < d then 0 else if 2 * (n % d) = d then n / d % 2 else 1 := by
  simp only [roundDiv, gt_iff_lt, beq_iff_eq]
  split_ifs <;> omega

theorem le_roundDiv (n d : Nat) : n / d ≤ roundDiv n d := by
  rw [roundDiv_eq]
  exact Nat.le_add_right _ _

theorem roundDiv_le (n d : Nat) : roundDiv n d ≤ n / d + 1 := by
  rw [roundDiv_eq]
  split_ifs <;> omega

theorem roundDiv_one (n : Nat) : roundDiv n 1 = n := by
  rw [roundDiv_eq, Nat.div_one, Nat.mod_one, if_pos (by decide), Nat.add_zero]

theorem roundDiv_mono {m n : Nat} (h : m ≤ n) (d : Nat) : roundDiv m d ≤ roundDiv n d := by
  rcases Nat.lt_or_ge (m / d) (n / d) with hlt | hge
  · exact (roundDiv_le m d).trans (hlt.trans_le (le_roundDiv n d))
  · have hdiv : n / d = m / d := le_antisymm hge (Nat.div_le_div_right h)
    have hmod : m % d ≤ n % d := by
      have hm := Nat.div_add_mod m d
      have hn := Nat.div_add_mod n d
      rw [hdiv] at hn
      omega
    rw [roundDiv_eq, roundDiv_eq, hdiv]
    split_ifs <;> omega

/-- The natural number with 53 significant bits that is nearest to another one; of two that are, the
one with the even last bit. -/
def nearest (k : Nat) : Nat := roundDiv k (2 ^ (k.log2 - 52)) * 2 ^ (k.log2 - 52)

/-- The significant bits, of which there are 54 if they have been rounded up to a power of two. -/
theorem roundDiv_mem {k s : Nat} (hs : k.log2 = 52 + s) :
    2 ^ 52 ≤ roundDiv k (2 ^ s) ∧ roundDiv k (2 ^ s) ≤ 2 ^ 53 := by
  have hk : k ≠ 0 := by
    rintro rfl
    rw [Nat.log2_zero] at hs
    omega
  have hleast : 2 ^ 52 * 2 ^ s ≤ k := by
    rw [← Nat.pow_add, ← hs]
    exact Nat.log2_self_le hk
  have hmost : k < 2 ^ 53 * 2 ^ s := by
    rw [← Nat.pow_add, ← Nat.log2_lt hk]
    omega
  have hpos := Nat.two_pow_pos s
  have hq := (Nat.le_div_iff_mul_le hpos).mpr hleast
  have hq' := (Nat.div_lt_iff_lt_mul hpos).mpr hmost
  exact ⟨hq.trans (le_roundDiv k _), (roundDiv_le k _).trans hq'⟩

theorem roundDiv_near (n : Nat) {d : Nat} (hd : 0 < d) :
    2 * (roundDiv n d * d) ≤ 2 * n + d ∧ 2 * n ≤ 2 * (roundDiv n d * d) + d := by
  have hn := Nat.div_add_mod n d
  have hlt := Nat.mod_lt n hd
  rw [Nat.mul_comm] at hn
  rw [roundDiv_eq, Nat.add_mul]
  generalize n / d * d = m at *
  split_ifs with hbelow hhalf
  · omega
  · rcases Nat.mod_two_eq_zero_or_one (n / d) with hbit | hbit <;> rw [hbit] <;> omega
  · omega

/-- The error is at most half of what the last bit counts for. -/
theorem nearest_near (k : Nat) : 2 * nearest k ≤ 2 * k + 2 ^ (k.log2 - 52) ∧
    2 * k ≤ 2 * nearest k + 2 ^ (k.log2 - 52) := roundDiv_near k (Nat.two_pow_pos _)

theorem nearest_of_log2_le {k : Nat} (h : k.log2 ≤ 52) : nearest k = k := by
  rw [nearest, Nat.sub_eq_zero_of_le h, Nat.pow_zero, roundDiv_one, Nat.mul_one]

theorem nearest_bounds {k : Nat} (hk : k ≠ 0) :
    2 ^ k.log2 ≤ nearest k ∧ nearest k ≤ 2 ^ (k.log2 + 1) := by
  rcases Nat.le_total k.log2 52 with h | h
  · rw [nearest_of_log2_le h]
    exact ⟨Nat.log2_self_le hk, ((Nat.log2_lt hk).mp (Nat.lt_succ_self _)).le⟩
  · obtain ⟨s, hs⟩ := Nat.exists_eq_add_of_le h
    obtain ⟨hleast, hmost⟩ := roundDiv_mem hs
    rw [nearest, hs, Nat.add_sub_cancel_left, Nat.pow_add, Nat.add_right_comm, Nat.pow_add]
    exact ⟨Nat.mul_le_mul_right _ hleast, Nat.mul_le_mul_right _ hmost⟩

theorem nearest_mono {a b : Nat} (h : a ≤ b) : nearest a ≤ nearest b := by
  rcases Nat.eq_zero_or_pos a with rfl | ha
  · rw [nearest_of_log2_le (by decide)]
    exact Nat.zero_le _
  have hb : b ≠ 0 := by omega
  have hlog : a.log2 ≤ b.log2 := (Nat.le_log2 hb).mpr ((Nat.log2_self_le ha.ne').trans h)
  rcases Nat.eq_or_lt_of_le hlog with heq | hlt
  · rw [nearest, nearest, heq]
    exact Nat.mul_le_mul_right _ (roundDiv_mono h _)
  · calc nearest a ≤ 2 ^ (a.log2 + 1) := (nearest_bounds ha.ne').2
      _ ≤ 2 ^ b.log2 := Nat.pow_le_pow_right (by decide) hlt
      _ ≤ nearest b := (nearest_bounds hb).1

theorem nearest_of_le {k : Nat} (h : k ≤ 2 ^ 53) : nearest k = k := by
  rcases Nat.eq_or_lt_of_le h with rfl | hlt
  · decide
  · rcases Nat.eq_zero_or_pos k with rfl | hk
    · exact nearest_of_log2_le (by decide)
    · exact nearest_of_log2_le (Nat.lt_succ_iff.mp ((Nat.log2_lt hk.ne').mpr hlt))

/-- The integer with 53 significant bits that is nearest to another one. -/
def rounded (n : Int) : Int := if n < 0 then -(nearest n.natAbs : Int) else nearest n.natAbs

theorem rounded_mono {a b : Int} (h : a ≤ b) : rounded a ≤ rounded b := by
  unfold rounded
  split
  · next ha =>
    split
    · next hb =>
      have := nearest_mono (show b.natAbs ≤ a.natAbs by omega)
      omega
    · omega
  · next ha =>
    have := nearest_mono (show a.natAbs ≤ b.natAbs by omega)
    rw [if_neg (by omega)]
    omega

theorem rounded_of_le {n : Int} (h : n.natAbs ≤ 2 ^ 53) : rounded n = n := by
  rw [rounded, nearest_of_le h]
  split <;> omega

/-! ## Canonical floats that are integers -/

/-- The integer that a float in parts is: zero, or a mantissa of 53 bits times a power of two. -/
inductive Denotes : UnpackedFloat → Int → Prop
  | zero (sign : Sign) : Denotes (.zero sign) 0
  | positive {m t k : Nat} (hm : 0 < m) (hmem : 2 ^ 52 ≤ m ∧ m < 2 ^ 53) (ht : t ≤ 64)
    (hk : k * 2 ^ 52 = m * 2 ^ t) : Denotes (.finite .positive m (t - 52) hm) k
  | negative {m t k : Nat} (hm : 0 < m) (hmem : 2 ^ 52 ≤ m ∧ m < 2 ^ 53) (ht : t ≤ 64)
    (hk : k * 2 ^ 52 = m * 2 ^ t) : Denotes (.finite .negative m (t - 52) hm) (-k)

theorem Denotes.neg {f : UnpackedFloat} {n : Int} (h : Denotes f n) : Denotes f.neg (-n) := by
  cases h with
  | zero sign => exact .zero _
  | positive hm hmem ht hk => exact .negative hm hmem ht hk
  | negative hm hmem ht hk => rw [Int.neg_neg]; exact .positive hm hmem ht hk

theorem compare_congr {α β : Type} [LinearOrder α] [LinearOrder β] {a b : α} {c d : β}
    (hlt : a < b ↔ c < d) (hgt : b < a ↔ d < c) : compare a b = compare c d := by
  rcases lt_trichotomy a b with h | rfl | h
  · rw [compare_lt_iff_lt.mpr h, compare_lt_iff_lt.mpr (hlt.mp h)]
  · have heq : c = d := le_antisymm (not_lt.mp fun h => lt_irrefl a (hgt.mpr h))
      (not_lt.mp fun h => lt_irrefl a (hlt.mpr h))
    rw [compare_eq_iff_eq.mpr rfl, compare_eq_iff_eq.mpr heq]
  · rw [compare_gt_iff_gt.mpr h, compare_gt_iff_gt.mpr (hgt.mp h)]

/-- Canonical floats are in the order of their exponents, and in that of their mantissas if these
are one. -/
theorem compare_of_canonical {m m' t t' k k' : Nat} (hmem : 2 ^ 52 ≤ m ∧ m < 2 ^ 53)
    (hmem' : 2 ^ 52 ≤ m' ∧ m' < 2 ^ 53) (hk : k * 2 ^ 52 = m * 2 ^ t)
    (hk' : k' * 2 ^ 52 = m' * 2 ^ t') :
    (compare ((t : Int) - 52) (t' - 52)).then (compare m m') = compare k k' := by
  have hless {m m' t t' : Nat} (hm : m < 2 ^ 53) (hm' : 2 ^ 52 ≤ m') (hlt : t < t') :
      m * 2 ^ t < m' * 2 ^ t' :=
    calc m * 2 ^ t < 2 ^ 53 * 2 ^ t := Nat.mul_lt_mul_of_pos_right hm (Nat.two_pow_pos t)
      _ = 2 ^ 52 * 2 ^ (t + 1) := by ring
      _ ≤ m' * 2 ^ t' := Nat.mul_le_mul hm' (Nat.pow_le_pow_right (by decide) hlt)
  have hvalues : compare k k' = compare (m * 2 ^ t) (m' * 2 ^ t') := by
    rw [← hk, ← hk']
    exact compare_congr (Nat.mul_lt_mul_right (by decide)).symm
      (Nat.mul_lt_mul_right (by decide)).symm
  rw [hvalues]
  rcases Nat.lt_trichotomy t t' with hlt | rfl | hgt
  · rw [compare_lt_iff_lt.mpr (by omega), compare_lt_iff_lt.mpr (hless hmem.2 hmem'.1 hlt)]
    rfl
  · rw [compare_eq_iff_eq.mpr rfl]
    have hscale := Nat.two_pow_pos t
    exact compare_congr (Nat.mul_lt_mul_right hscale).symm (Nat.mul_lt_mul_right hscale).symm
  · rw [compare_gt_iff_gt.mpr (by omega), compare_gt_iff_gt.mpr (hless hmem'.2 hmem.1 hgt)]
    rfl

theorem pos_of_canonical {m t k : Nat} (hm : 0 < m) (hk : k * 2 ^ 52 = m * 2 ^ t) : 0 < k := by
  have := Nat.mul_pos hm (Nat.two_pow_pos t)
  omega

theorem Denotes.compare_eq {f g : UnpackedFloat} {a b : Int} (hf : Denotes f a)
    (hg : Denotes g b) : f.compare g = some (compare a b) := by
  cases hf with
  | zero sign =>
    cases hg with
    | zero sign' => rfl
    | positive hm hmem ht hk =>
      have := pos_of_canonical hm hk
      rw [compare_lt_iff_lt.mpr (by omega)]
      rfl
    | negative hm hmem ht hk =>
      have := pos_of_canonical hm hk
      rw [compare_gt_iff_gt.mpr (by omega)]
      rfl
  | positive hm hmem ht hk =>
    have := pos_of_canonical hm hk
    cases hg with
    | zero sign' =>
      rw [compare_gt_iff_gt.mpr (by omega)]
      rfl
    | positive hm' hmem' ht' hk' =>
      refine congrArg some ((compare_of_canonical hmem hmem' hk hk').trans ?_)
      exact compare_congr Nat.cast_lt.symm Nat.cast_lt.symm
    | negative hm' hmem' ht' hk' =>
      have := pos_of_canonical hm' hk'
      rw [compare_gt_iff_gt.mpr (by omega)]
      rfl
  | negative hm hmem ht hk =>
    have := pos_of_canonical hm hk
    cases hg with
    | zero sign' =>
      rw [compare_lt_iff_lt.mpr (by omega)]
      rfl
    | positive hm' hmem' ht' hk' =>
      have := pos_of_canonical hm' hk'
      rw [compare_lt_iff_lt.mpr (by omega)]
      rfl
    | negative hm' hmem' ht' hk' =>
      refine congrArg some ?_
      rw [compare_of_canonical hmem hmem' hk hk', ← Std.OrientedCmp.eq_swap]
      exact compare_congr (by omega) (by omega)

/-- The bits of a mantissa with the leading one, which is left out, are those of the mantissa. -/
theorem toNat_append_ofNat {m : Nat} (hmem : 2 ^ 52 ≤ m ∧ m < 2 ^ 53) :
    (1#1 ++ BitVec.ofNat 52 m).toNat = m := by
  rw [BitVec.toNat_append, BitVec.toNat_ofNat, BitVec.toNat_ofNat,
    ← Nat.shiftLeft_add_eq_or_of_lt (Nat.mod_lt _ (Nat.two_pow_pos 52)), Nat.shiftLeft_eq]
  omega

theorem unpack_pack_of_canonical (sign : Sign) {m t : Nat} (hm : 0 < m)
    (hmem : 2 ^ 52 ≤ m ∧ m < 2 ^ 53) (ht : t ≤ 64) :
    UnpackedFloat.unpack Format.binary64
        (UnpackedFloat.pack Format.binary64 (.finite sign m (t - 52) hm)) =
      .finite sign m (t - 52) hm := by
  have hlog : m.log2 = 52 := by
    have hne := hm.ne'
    have := (Nat.le_log2 hne).mpr hmem.1
    have := (Nat.log2_lt hne).mpr hmem.2
    omega
  have hbias : ((t : Int) - 52 + (1023 : Nat) + (52 : Nat)).toNat = t + 1023 := by omega
  have hpack : UnpackedFloat.pack Format.binary64 (.finite sign m (t - 52) hm) =
      UnpackedFloat.packComponents Format.binary64 sign (BitVec.ofNat 11 (t + 1023))
        (BitVec.ofNat 52 m) := by
    change (if 2 ^ 11 ≤ ((t : Int) - 52 + (1023 : Nat) + (52 : Nat)).toNat + 1 then _ else
      if m.log2 + 1 = 1 + 52 then _ else _) = _
    rw [hbias, hlog, if_neg (by omega), if_pos rfl]
    exact congrArg (fun b => UnpackedFloat.packComponents Format.binary64 sign (BitVec.ofNat 11 b)
      (BitVec.ofNat 52 m)) hbias
  have hexponent : (BitVec.ofNat 11 (t + 1023)).toNat = t + 1023 := by
    rw [BitVec.toNat_ofNat, Nat.mod_eq_of_lt (by omega)]
  have hinfinite : BitVec.ofNat 11 (t + 1023) ≠ -1#11 := fun h => by
    have := congrArg BitVec.toNat h
    rw [hexponent, show (-1#11).toNat = 2047 from rfl] at this
    omega
  have hsmall : BitVec.ofNat 11 (t + 1023) ≠ 0#11 := fun h => by
    have := congrArg BitVec.toNat h
    rw [hexponent, show (0#11).toNat = 0 from rfl] at this
    omega
  have hunbiased : ((t + 1023 : Nat) : Int) - (Format.binary64.exponentBias + (52 : Nat)) =
      t - 52 := by
    rw [show Format.binary64.exponentBias = 1023 from rfl]
    omega
  rw [hpack]
  unfold UnpackedFloat.unpack
  simp only [UnpackedFloat.unpackMantissa_packComponents,
    UnpackedFloat.unpackExponent_packComponents, UnpackedFloat.unpackSign_packComponents,
    Sign.ofBitVec_toBitVec, if_neg hinfinite, if_neg hsmall, hexponent, toNat_append_ofNat hmem,
    hunbiased]

/-- A float is packed without loss. -/
theorem Denotes.unpack_pack {f : UnpackedFloat} {n : Int} (h : Denotes f n) :
    UnpackedFloat.unpack Format.binary64 (UnpackedFloat.pack Format.binary64 f) = f := by
  cases h with
  | zero sign => cases sign <;> rfl
  | positive hm hmem ht hk => exact unpack_pack_of_canonical .positive hm hmem ht
  | negative hm hmem ht hk => exact unpack_pack_of_canonical .negative hm hmem ht

/-! ## Rounding a mantissa -/

open Float.Model.UnpackedFloat (ExtendedMantissa)

/-- What is left of a mantissa that has been shifted to the right: whether the part that is out is a
half or more, and whether it is neither nothing nor a half. -/
theorem shiftRight_exact (k s : Nat) : ExtendedMantissa.ofMantissaAndAccuracy k .exact >>> s =
    ⟨k / 2 ^ s, decide (2 ^ s ≤ 2 * (k % 2 ^ s)),
      decide (k % 2 ^ s ≠ 0 ∧ 2 * (k % 2 ^ s) ≠ 2 ^ s)⟩ := by
  induction s with
  | zero =>
    simp only [Nat.pow_zero, Nat.div_one, Nat.mod_one]
    rfl
  | succ s ih =>
    have hone (em : ExtendedMantissa) : em >>> (s + 1) = (em >>> s).shiftRightOne := rfl
    have hlt := Nat.mod_lt k (Nat.two_pow_pos s)
    rw [hone, ih, ExtendedMantissa.shiftRightOne, Nat.pow_succ, ← Nat.div_div_eq_div_mul,
      Nat.mod_mul]
    generalize k % 2 ^ s = r at *
    generalize 2 ^ s = d at *
    simp only
    rcases Nat.mod_two_eq_zero_or_one (k / d) with hbit | hbit
    all_goals
      rw [hbit]
      congr 1
      · rw [Bool.eq_iff_iff, bne_iff_ne, decide_eq_true_iff]
        omega
      · rw [Bool.eq_iff_iff, Bool.or_eq_true, decide_eq_true_iff, decide_eq_true_iff,
          decide_eq_true_iff]
        omega

theorem roundedMantissa_shiftRight (k s : Nat) :
    (ExtendedMantissa.ofMantissaAndAccuracy k .exact >>> s).roundedMantissa =
      roundDiv k (2 ^ s) := by
  rw [shiftRight_exact, roundDiv_eq]
  have hpos := Nat.two_pow_pos s
  generalize k % 2 ^ s = r
  generalize 2 ^ s = d at *
  rcases Nat.lt_trichotomy (2 * r) d with hlt | heq | hgt
  · rw [if_pos hlt, decide_eq_false (by omega)]
    by_cases hr : r = 0
    · rw [decide_eq_false (by omega)]
      rfl
    · rw [decide_eq_true (by omega)]
      rfl
  · rw [if_neg (by omega), if_pos heq, decide_eq_true (by omega), decide_eq_false (by omega)]
    rfl
  · rw [if_neg (by omega), if_neg (by omega), decide_eq_true (by omega), decide_eq_true (by omega)]
    rfl

/-- A mantissa of 53 bits or more is shifted until it has 53. -/
theorem shiftToTargetExponent_eq {m : Nat} {e : Int} (hm : 52 ≤ m.log2) (he : -52 ≤ e) :
    UnpackedFloat.shiftToTargetExponent Format.binary64 m e .exact =
      (ExtendedMantissa.ofMantissaAndAccuracy m .exact >>> (m.log2 - 52),
        e + (m.log2 - 52 : Nat)) := by
  have htarget : Format.binary64.targetExponent (Float.Model.totalExponent m e) =
      e + (m.log2 - 52 : Nat) := by
    unfold Float.Model.totalExponent Format.targetExponent
    rw [show Format.binary64.minExponent = -1074 from rfl,
      show Format.binary64.mantissaBits = 53 from rfl]
    omega
  unfold UnpackedFloat.shiftToTargetExponent UnpackedFloat.shiftToExponent
  have hshift : (e + (m.log2 - 52 : Nat) - e).toNat = m.log2 - 52 := by omega
  simp only [htarget, hshift]

theorem mantissa_shiftRight (k s : Nat) :
    (ExtendedMantissa.ofMantissaAndAccuracy k .exact >>> s).mantissa = k / 2 ^ s := by
  rw [shiftRight_exact]

/-- A mantissa of 53 bits or more is rounded to 53, and then shifted once more if it has 54. -/
theorem roundWithAccuracy_eq (sign : Sign) {m s n j : Nat} {e : Int} (he : -52 ≤ e)
    (hs : m.log2 = 52 + s) (hj : (roundDiv m (2 ^ s)).log2 = 52 + j)
    (hdiv : roundDiv m (2 ^ s) / 2 ^ j = n) (hn : 0 < n) :
    UnpackedFloat.roundWithAccuracy Format.binary64 sign m e .exact =
      .finite sign n (e + s + j) hn := by
  have hfirst := shiftToTargetExponent_eq (m := m) (e := e) (by omega) he
  have hsecond := shiftToTargetExponent_eq (m := roundDiv m (2 ^ s)) (e := e + s) (by omega)
    (by omega)
  rw [hs, Nat.add_sub_cancel_left] at hfirst
  rw [hj, Nat.add_sub_cancel_left] at hsecond
  unfold UnpackedFloat.roundWithAccuracy
  simp only [hfirst, roundedMantissa_shiftRight, hsecond, mantissa_shiftRight, hdiv]
  exact dif_neg hn.ne'

/-- The power of two that has to be taken out of the rounded bits. -/
theorem exists_canonical {q : Nat} (hleast : 2 ^ 52 ≤ q) (hmost : q ≤ 2 ^ 53) :
    ∃ n j : Nat, (2 ^ 52 ≤ n ∧ n < 2 ^ 53) ∧ j ≤ 1 ∧ q = n * 2 ^ j ∧ q.log2 = 52 + j := by
  rcases Nat.lt_or_ge q (2 ^ 53) with hlt | hge
  · refine ⟨q, 0, ⟨hleast, hlt⟩, by decide, (Nat.mul_one q).symm, ?_⟩
    have hne : q ≠ 0 := by omega
    have := (Nat.le_log2 hne).mpr hleast
    have := (Nat.log2_lt hne).mpr hlt
    omega
  · obtain rfl := le_antisymm hmost hge
    exact ⟨2 ^ 52, 1, by decide, by decide, by decide, by decide⟩

theorem round_eq (sign : Sign) (k : Nat) : UnpackedFloat.round Format.binary64 sign k 0 =
    UnpackedFloat.roundWithAccuracy Format.binary64 sign (k * 2 ^ (52 - k.log2))
      (-(52 - k.log2 : Nat)) .exact := by
  have htarget : Format.binary64.targetExponent (Float.Model.totalExponent k 0) =
      (k.log2 : Int) - 52 := by
    unfold Float.Model.totalExponent Format.targetExponent
    rw [show Format.binary64.minExponent = -1074 from rfl,
      show Format.binary64.mantissaBits = 53 from rfl]
    omega
  have hshift : (0 - ((k.log2 : Int) - 52)).toNat = 52 - k.log2 := by omega
  unfold UnpackedFloat.round UnpackedFloat.decreaseExponent
  simp only [htarget, hshift, Nat.shiftLeft_eq]
  rw [Int.zero_sub]

theorem log2_mul_two_pow {k : Nat} (hk : 0 < k) (s : Nat) : (k * 2 ^ s).log2 = k.log2 + s := by
  have hpos := Nat.two_pow_pos s
  have hne : k * 2 ^ s ≠ 0 := (Nat.mul_pos hk hpos).ne'
  have hleast : 2 ^ (k.log2 + s) ≤ k * 2 ^ s := by
    rw [Nat.pow_add]
    exact Nat.mul_le_mul_right _ (Nat.log2_self_le hk.ne')
  have hmost : k * 2 ^ s < 2 ^ (k.log2 + s + 1) := by
    rw [Nat.add_right_comm, Nat.pow_add]
    exact Nat.mul_lt_mul_of_pos_right ((Nat.log2_lt hk.ne').mp (Nat.lt_succ_self _)) hpos
  have := (Nat.le_log2 hne).mpr hleast
  have := (Nat.log2_lt hne).mpr hmost
  omega

theorem exists_round_eq (sign : Sign) {k : Nat} (hk : 0 < k) (hlt : k < 2 ^ 64) :
    ∃ m t : Nat, ∃ hm : 0 < m, (2 ^ 52 ≤ m ∧ m < 2 ^ 53) ∧ t ≤ 64 ∧
      nearest k * 2 ^ 52 = m * 2 ^ t ∧
      UnpackedFloat.round Format.binary64 sign k 0 = .finite sign m (t - 52) hm := by
  have hlog := (Nat.log2_lt hk.ne').mpr hlt
  -- What the mantissa is shifted to the left by, if it has less than 53 bits, and to the right.
  obtain ⟨l, hl⟩ : ∃ l, l = 52 - k.log2 := ⟨_, rfl⟩
  obtain ⟨s, hs⟩ : ∃ s, s = k.log2 - 52 := ⟨_, rfl⟩
  have hbits : (k * 2 ^ l).log2 = 52 + s := by
    rw [log2_mul_two_pow hk]
    omega
  obtain ⟨hleast, hmost⟩ := roundDiv_mem hbits
  obtain ⟨n, j, hn, hj, hq, hqlog⟩ := exists_canonical hleast hmost
  have hpos : 0 < n := by omega
  have hdiv : roundDiv (k * 2 ^ l) (2 ^ s) / 2 ^ j = n := by
    rw [hq, Nat.mul_div_cancel _ (Nat.two_pow_pos j)]
  refine ⟨n, k.log2 + j, hpos, hn, by omega, ?_, ?_⟩
  · rcases Nat.le_total k.log2 52 with hsmall | hlarge
    · obtain rfl : s = 0 := by omega
      rw [Nat.pow_zero, roundDiv_one] at hq
      calc nearest k * 2 ^ 52 = k * 2 ^ (l + k.log2) := by
            rw [nearest_of_log2_le hsmall, hl, Nat.sub_add_cancel hsmall]
        _ = n * 2 ^ j * 2 ^ k.log2 := by rw [Nat.pow_add, ← Nat.mul_assoc, hq]
        _ = n * 2 ^ (k.log2 + j) := by ring
    · obtain rfl : l = 0 := by omega
      rw [Nat.pow_zero, Nat.mul_one] at hq
      calc nearest k * 2 ^ 52 = n * 2 ^ j * 2 ^ s * 2 ^ 52 := by rw [nearest, ← hs, hq]
        _ = n * 2 ^ (52 + s + j) := by ring
        _ = n * 2 ^ (k.log2 + j) := by rw [hs, Nat.add_sub_cancel' hlarge]
  · rw [round_eq, ← hl, roundWithAccuracy_eq sign (by omega) hbits hqlog hdiv hpos]
    congr 1
    omega

theorem denotes_ofUInt64 (n : UInt64) :
    Denotes (UnpackedFloat.ofUInt64 Format.binary64 n) (nearest n.toNat) := by
  change Denotes (UnpackedFloat.normalize Format.binary64 n.toNat 0 .positive) _
  unfold UnpackedFloat.normalize
  rcases Nat.eq_zero_or_pos n.toNat with hzero | hpos
  · rw [hzero]
    exact .zero _
  · obtain ⟨m, t, hm, hmem, ht, hvalue, hround⟩ := exists_round_eq .positive hpos n.toNat_lt
    rw [compare_gt_iff_gt.mpr (Int.natCast_pos.mpr hpos)]
    simp only [Int.toNat_natCast, hround]
    exact .positive hm hmem ht hvalue

/-! ## The conversion -/

/-- A float that is an integer, by its parts. -/
def Represents (x : Float) (n : Int) : Prop := Denotes x.toModel.unpack n

theorem represents_of_denotes {f : UnpackedFloat} {n : Int} (h : Denotes f n) :
    Represents ⟨.pack f⟩ n := by
  have hunpack : (Float.Model.pack f).unpack = f := h.unpack_pack
  rw [Represents, hunpack]
  exact h

variable {x y : Float} {a b : Int}

theorem Represents.neg (h : Represents x a) : Represents (-x) (-a) :=
  represents_of_denotes (Denotes.neg h)

theorem Represents.lt_iff (hx : Represents x a) (hy : Represents y b) : x < y ↔ a < b := by
  change decide (x.toModel.unpack.lt y.toModel.unpack = true) = true ↔ _
  rw [decide_eq_true_iff, UnpackedFloat.lt, Denotes.compare_eq hx hy, beq_iff_eq,
    Option.some.injEq, compare_lt_iff_lt]

theorem Represents.beq_iff (hx : Represents x a) (hy : Represents y b) :
    (x == y) = true ↔ a = b := by
  change x.toModel.unpack.beq y.toModel.unpack = true ↔ _
  rw [UnpackedFloat.beq, Denotes.compare_eq hx hy, beq_iff_eq, Option.some.injEq,
    compare_eq_iff_eq]

/-- The conversion rounds. -/
theorem represents_toNearestFloat (i : Int64) :
    Represents (toNearestFloat i) (rounded i.toInt) := by
  have hsmall : i.toInt.natAbs < 2 ^ 64 := by
    have := i.le_toInt
    have := i.toInt_lt
    omega
  have hmagnitude := represents_of_denotes (denotes_ofUInt64 (.ofNat i.toInt.natAbs))
  rw [UInt64.toNat_ofNat', Nat.mod_eq_of_lt hsmall] at hmagnitude
  simp only [toNearestFloat, rounded, Int64.lt_iff_toInt_lt, Int64.toInt_zero]
  split
  · exact hmagnitude.neg
  · exact hmagnitude

end Resumable.Number
