import Mathlib.Data.List.Basic
import Resumable.Text.Utf8

/-!
# Texts as bytes and back

Reading the bytes of a text gives the text (`ofUtf8_utf8`), since the first character of an encoding
is the one that was encoded, whatever follows it (`utf8First?_encode`).
-/

namespace Resumable.Text

/-! ## Bytes -/

variable {n v : Nat} {a b c d lo hi : UInt8} {rest : List UInt8}

theorem toNat_byte (h : n < 256) : (UInt8.ofNat n).toNat = n := UInt8.toNat_ofNat_of_lt' h

theorem between_eq_true (hlo : lo.toNat ≤ a.toNat) (hhi : a.toNat < hi.toNat) :
    (decide (lo ≤ a) && decide (a < hi)) = true := by
  rw [Bool.and_eq_true, decide_eq_true_eq, decide_eq_true_eq]
  exact ⟨UInt8.le_iff_toNat_le.mpr hlo, UInt8.lt_iff_toNat_lt.mpr hhi⟩

theorem between_eq_false (hhi : hi.toNat ≤ a.toNat) :
    (decide (lo ≤ a) && decide (a < hi)) = false := by
  rw [Bool.and_eq_false_iff]
  exact .inr (decide_eq_false (UInt8.not_lt.mpr (UInt8.le_iff_toNat_le.mpr hhi)))

/-- A byte that continues a character with the six lowest bits of a number. -/
structure Continues (b : UInt8) (v : Nat) : Prop where
  isContinuation : isContinuation b = true
  tail6 : tail6 b = v % 64

theorem continues_byte (v : Nat) : Continues (UInt8.ofNat (v % 64 + 128)) v := by
  have hbyte : (UInt8.ofNat (v % 64 + 128)).toNat = v % 64 + 128 := toNat_byte (by omega)
  constructor
  · refine between_eq_true ?_ ?_
    · rw [hbyte]; change 128 ≤ _; omega
    · rw [hbyte]; change _ < 192; omega
  · rw [Text.tail6, hbyte]
    omega

/-! ## The first character of an encoding -/

theorem utf8First?_one (ha : a.toNat = v) (hv : v ≤ 127) :
    utf8First? (a :: rest) = some (Char.ofNat v, rest) := by
  have hlt : a < 0x80 := UInt8.lt_iff_toNat_lt.mpr (by change a.toNat < 128; omega)
  unfold utf8First?
  simp only [hlt, if_true, ha]

theorem utf8First?_two (ha : a.toNat = v / 64 + 192) (hb : Continues b v) (hlo : 127 < v)
    (hhi : v ≤ 2047) : utf8First? (a :: b :: rest) = some (Char.ofNat v, rest) := by
  have hlt : ¬ a < 0x80 := UInt8.not_lt.mpr (UInt8.le_iff_toNat_le.mpr (by change 128 ≤ _; omega))
  have htwo : (decide (0xC2 ≤ a) && decide (a < 0xE0)) = true :=
    between_eq_true (by change 194 ≤ _; omega) (by change _ < 224; omega)
  have hvalue : a.toNat % 32 * 64 + tail6 b = v := by rw [hb.tail6]; omega
  unfold utf8First?
  simp only [hlt, htwo, hb.isContinuation, hvalue, if_true, if_false]

theorem utf8First?_three (ha : a.toNat = v / 4096 + 224) (hb : Continues b (v / 64))
    (hc : Continues c v) (hlo : 2047 < v) (hhi : v ≤ 65535) (hvalid : v < 0xD800 ∨ 0xE000 ≤ v) :
    utf8First? (a :: b :: c :: rest) = some (Char.ofNat v, rest) := by
  have hlt : ¬ a < 0x80 := UInt8.not_lt.mpr (UInt8.le_iff_toNat_le.mpr (by change 128 ≤ _; omega))
  have htwo : (decide (0xC2 ≤ a) && decide (a < 0xE0)) = false :=
    between_eq_false (by change 224 ≤ _; omega)
  have hthree : (decide (0xE0 ≤ a) && decide (a < 0xF0)) = true :=
    between_eq_true (by change 224 ≤ _; omega) (by change _ < 240; omega)
  have hvalue : a.toNat % 16 * 4096 + tail6 b * 64 + tail6 c = v := by
    rw [hb.tail6, hc.tail6]; omega
  have hplain : (decide (0xD800 ≤ v) && decide (v < 0xE000)) = false := by
    rw [Bool.and_eq_false_iff, decide_eq_false_iff_not, decide_eq_false_iff_not]
    omega
  have hlong : v ≥ 0x800 := by omega
  unfold utf8First?
  simp only [hlt, htwo, hthree, hb.isContinuation, hc.isContinuation, hvalue, hplain, hlong,
    Bool.false_eq_true, if_true, if_false, Bool.and_true, Bool.not_false, decide_true]

theorem utf8First?_four (ha : a.toNat = v / 262144 + 240) (hb : Continues b (v / 4096))
    (hc : Continues c (v / 64)) (hd : Continues d v) (hlo : 65535 < v) (hhi : v < 0x110000) :
    utf8First? (a :: b :: c :: d :: rest) = some (Char.ofNat v, rest) := by
  have hlt : ¬ a < 0x80 := UInt8.not_lt.mpr (UInt8.le_iff_toNat_le.mpr (by change 128 ≤ _; omega))
  have htwo : (decide (0xC2 ≤ a) && decide (a < 0xE0)) = false :=
    between_eq_false (by change 224 ≤ _; omega)
  have hthree : (decide (0xE0 ≤ a) && decide (a < 0xF0)) = false :=
    between_eq_false (by change 240 ≤ _; omega)
  have hfour : (decide (0xF0 ≤ a) && decide (a < 0xF5)) = true :=
    between_eq_true (by change 240 ≤ _; omega) (by change _ < 245; omega)
  have hvalue : a.toNat % 8 * 262144 + tail6 b * 4096 + tail6 c * 64 + tail6 d = v := by
    rw [hb.tail6, hc.tail6, hd.tail6]; omega
  have hlong : v ≥ 0x10000 := by omega
  unfold utf8First?
  simp only [hlt, htwo, hthree, hfour, hb.isContinuation, hc.isContinuation, hd.isContinuation,
    hvalue, hlong, hhi, Bool.false_eq_true, if_true, if_false, Bool.and_true, decide_true]

/-- The first character of an encoding is read as it was written, whatever follows it. -/
theorem utf8First?_encode (c : Char) (rest : List UInt8) :
    utf8First? (String.utf8EncodeChar c ++ rest) = some (c, rest) := by
  have hvalid : c.toNat < 0xD800 ∨ (0xDFFF < c.toNat ∧ c.toNat < 0x110000) := c.valid
  have hc : Char.ofNat c.toNat = c := Char.ofNat_toNat c
  have hval : c.val.toNat = c.toNat := rfl
  simp only [String.utf8EncodeChar, hval]
  generalize c.toNat = v at *
  subst hc
  split
  · rename_i hone
    exact utf8First?_one (toNat_byte (by omega)) hone
  split
  · rename_i hlo hhi
    have ha : (UInt8.ofNat (v / 64 % 32 + 192)).toNat = v / 64 + 192 := by
      rw [toNat_byte] <;> omega
    exact utf8First?_two ha (continues_byte v) (by omega) hhi
  split
  · rename_i hlo hhi
    have ha : (UInt8.ofNat (v / 4096 % 16 + 224)).toNat = v / 4096 + 224 := by
      rw [toNat_byte] <;> omega
    exact utf8First?_three ha (continues_byte (v / 64)) (continues_byte v) (by omega) hhi
      (by omega)
  · have ha : (UInt8.ofNat (v / 262144 % 8 + 240)).toNat = v / 262144 + 240 := by
      rw [toNat_byte] <;> omega
    exact utf8First?_four ha (continues_byte (v / 4096)) (continues_byte (v / 64))
      (continues_byte v) (by omega) (by omega)

/-! ## Texts -/

theorem ofUtf8_go_encode (index : Nat) (text : String) (chars : List Char) :
    ofUtf8.go index text (chars.flatMap String.utf8EncodeChar) =
      .ok (text ++ String.ofList chars) := by
  induction chars generalizing index text with
  | nil => simp [ofUtf8.go]
  | cons c chars ih =>
    have hfirst := utf8First?_encode c (chars.flatMap String.utf8EncodeChar)
    obtain ⟨a, more, hmore⟩ := List.exists_cons_of_ne_nil
      (l := String.utf8EncodeChar c ++ chars.flatMap String.utf8EncodeChar) (by
        intro hnil
        rw [hnil] at hfirst
        cases hfirst)
    rw [List.flatMap_cons, hmore, ofUtf8.go]
    rw [hmore] at hfirst
    split
    · rename_i hread
      rw [hfirst] at hread
      cases hread
      rw [ih, String.push_eq_append, String.append_assoc, ← String.ofList_cons]
    · rename_i hread
      rw [hfirst] at hread
      cases hread

theorem utf8_eq (s : String) : utf8 s = s.toList.flatMap String.utf8EncodeChar := by
  have h : s.toList.utf8Encode = s.toByteArray := String.utf8Encode_toList
  rw [utf8, String.toUTF8, ← h, List.utf8Encode, List.toList_data_toByteArray]

/-- The bytes of a text are read as the text. -/
@[simp] theorem ofUtf8_utf8 (s : String) : ofUtf8 (utf8 s) = .ok s := by
  rw [ofUtf8, utf8_eq, ofUtf8_go_encode, String.ofList_toList, String.empty_append]

end Resumable.Text
