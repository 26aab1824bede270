import Resumable.Operation.Numerals
import Resumable.Proofs.Fits
import Resumable.Proofs.Lockstep.Basic

/-!
# Integers that are read from texts

`Literal radix cs m`: the text `cs` is a literal of the integer `m`, with an optional sign, an
optional mark of the radix, and digits with single underscores between them. Every literal is read
as its integer if this has 64 bits, except the least one (`readInteger_of_literal`), and so is every
integer that has been written (`int_text`). Other texts are read as well: the blanks around a text
and all its underscores are taken away, and behind the sign and the mark another sign counts, so
that `--5` is five (`readInteger_eq_some_iff`). Texts without underscores and second signs are read
only if they are literals (`readInteger_eq_some_iff_literal`).
-/

namespace Resumable.Numeral

open Number (Fits toInt_ofInt_of_fits)
open Text (digitValue? readDigits readSigned splitSign)

variable {radix r acc n : Nat} {cs ds : List Char} {c : Char} {m : Int} {s : String} {i : Int64}

/-! ## Literals -/

/-- Digits in a radix, with single underscores between them, that continue the number `acc` to
another one. -/
inductive Digits (radix : Nat) : Nat → List Char → Nat → Prop
  | last {acc d : Nat} {c : Char} (hvalue : digitValue? c = some d) (hd : d < radix) :
    Digits radix acc [c] (acc * radix + d)
  | next {acc d n : Nat} {c : Char} {cs : List Char} (hvalue : digitValue? c = some d)
    (hd : d < radix) (h : Digits radix (acc * radix + d) cs n) : Digits radix acc (c :: cs) n
  | spaced {acc d n : Nat} {c : Char} {cs : List Char} (hvalue : digitValue? c = some d)
    (hd : d < radix) (h : Digits radix (acc * radix + d) cs n) : Digits radix acc (c :: '_' :: cs) n

/-- A number that is written in digits. -/
def Magnitude (radix : Nat) (cs : List Char) (m : Int) : Prop :=
  ∃ n : Nat, Digits radix 0 cs n ∧ m = n

/-- Whether a text begins with a sign. -/
def HasSign (cs : List Char) : Prop := cs.head? = some '+' ∨ cs.head? = some '-'

/-- What is read behind an optional sign. -/
inductive Signed (P : List Char → Int → Prop) : List Char → Int → Prop
  | bare {cs : List Char} {m : Int} (hsign : ¬ HasSign cs) (h : P cs m) : Signed P cs m
  | plus {cs : List Char} {m : Int} (h : P cs m) : Signed P ('+' :: cs) m
  | minus {cs : List Char} {m : Int} (h : P cs m) : Signed P ('-' :: cs) (-m)

/-- What is read behind an optional mark of the radix, which has to agree with the radix unless this
is zero. -/
inductive Marked (P : Nat → List Char → Int → Prop) (radix : Nat) : List Char → Int → Prop
  | bare {cs : List Char} {m : Int} (h : P (if radix = 0 then 10 else radix) cs m) :
    Marked P radix cs m
  | mark {r : Nat} {letter : Char} {cs : List Char} {m : Int} (hmark : markedRadix letter = some r)
    (hradix : radix = 0 ∨ radix = r) (h : P r cs m) : Marked P radix ('0' :: letter :: cs) m
  | spaced {r : Nat} {letter : Char} {cs : List Char} {m : Int}
    (hmark : markedRadix letter = some r) (hradix : radix = 0 ∨ radix = r) (h : P r cs m) :
    Marked P radix ('0' :: letter :: '_' :: cs) m

/-- The literals of integers. -/
def Literal (radix : Nat) : List Char → Int → Prop := Signed (Marked Magnitude radix)

/-! ## Digits -/

theorem Digits.ne_nil (h : Digits radix acc cs n) : cs ≠ [] := by
  cases h <;> exact List.cons_ne_nil _ _

theorem Digits.not_hasSign (h : Digits radix acc cs n) : ¬ HasSign cs := by
  rintro (hsign | hsign) <;> cases h <;> cases hsign <;> cases ‹digitValue? _ = some _›

theorem readDigits_eq_some_iff (hplain : '_' ∉ cs) (hne : cs ≠ []) :
    readDigits radix acc cs = some n ↔ Digits radix acc cs n := by
  induction cs generalizing acc with
  | nil => exact absurd rfl hne
  | cons c cs ih =>
    have hplain' : '_' ∉ cs := fun h => hplain (List.mem_cons_of_mem c h)
    rw [readDigits]
    constructor
    · intro h
      cases hvalue : digitValue? c with
      | none =>
        rw [hvalue] at h
        cases h
      | some d =>
        simp only [hvalue, Option.ite_none_right_eq_some] at h
        cases cs with
        | nil =>
          cases h.2
          exact .last hvalue h.1
        | cons c' cs => exact .next hvalue h.1 ((ih hplain' (List.cons_ne_nil _ _)).mp h.2)
    · intro h
      cases h with
      | last hvalue hd =>
        simp only [hvalue, if_pos hd]
        rfl
      | next hvalue hd h =>
        simp only [hvalue, if_pos hd]
        exact (ih hplain' h.ne_nil).mpr h
      | spaced hvalue hd h => exact absurd List.mem_cons_self hplain'

/-! ## Signs -/

section

variable {P : List Char → Int → Prop}

theorem signed_bare_iff (hsign : ¬ HasSign cs) : Signed P cs m ↔ P cs m := by
  constructor
  · rintro (⟨-, h⟩ | h | h)
    · exact h
    · exact absurd (.inl rfl) hsign
    · exact absurd (.inr rfl) hsign
  · exact .bare hsign

theorem signed_plus_iff : Signed P ('+' :: cs) m ↔ P cs m := by
  constructor
  · rintro (⟨hsign, -⟩ | h | h)
    · exact absurd (.inl rfl) hsign
    · exact h
  · exact .plus

theorem signed_minus_iff : Signed P ('-' :: cs) m ↔ ∃ k, P cs k ∧ m = -k := by
  constructor
  · rintro (⟨hsign, -⟩ | h | h)
    · exact absurd (.inr rfl) hsign
    · exact ⟨_, h, rfl⟩
  · rintro ⟨k, h, rfl⟩
    exact .minus h

/-- A text begins with a sign or not. -/
theorem sign_cases (cs : List Char) :
    (∃ ds, cs = '+' :: ds) ∨ (∃ ds, cs = '-' :: ds) ∨ ¬ HasSign cs := by
  match cs with
  | [] => exact .inr (.inr nofun)
  | c :: ds =>
    by_cases hplus : c = '+'
    · exact .inl ⟨ds, by rw [hplus]⟩
    by_cases hminus : c = '-'
    · exact .inr (.inl ⟨ds, by rw [hminus]⟩)
    · refine .inr (.inr ?_)
      rintro (h | h)
      · exact hplus (Option.some.inj h)
      · exact hminus (Option.some.inj h)

end

theorem splitSign_eq (hsign : ¬ HasSign cs) : splitSign cs = (false, cs) := by
  unfold splitSign
  split
  · exact absurd (.inr rfl) hsign
  · exact absurd (.inl rfl) hsign
  · rfl

theorem map_readDigits_eq_some_iff (hplain : '_' ∉ cs) (negative : Bool) :
    (if cs.isEmpty then none
      else (readDigits radix 0 cs).map fun n : Nat => if negative then -(n : Int) else (n : Int)) =
        some m ↔ ∃ k, Magnitude radix cs k ∧ m = if negative then -k else k := by
  by_cases hne : cs = []
  · subst hne
    exact ⟨nofun, fun ⟨_, ⟨_, h, _⟩, _⟩ => absurd rfl h.ne_nil⟩
  · rw [if_neg (by rwa [List.isEmpty_iff]), Option.map_eq_some_iff]
    simp only [readDigits_eq_some_iff hplain hne, Magnitude]
    constructor
    · rintro ⟨n, h, rfl⟩
      exact ⟨n, ⟨n, h, rfl⟩, rfl⟩
    · rintro ⟨_, ⟨n, h, rfl⟩, rfl⟩
      exact ⟨n, h, rfl⟩

theorem readSigned_eq_some_iff (hplain : '_' ∉ cs) :
    readSigned radix cs = some m ↔ Signed (Magnitude radix) cs m := by
  obtain ⟨ds, rfl⟩ | ⟨ds, rfl⟩ | hsign := sign_cases cs
  · rw [signed_plus_iff]
    refine (map_readDigits_eq_some_iff (List.not_mem_of_not_mem_cons hplain) false).trans ?_
    simp
  · rw [signed_minus_iff]
    exact map_readDigits_eq_some_iff (List.not_mem_of_not_mem_cons hplain) true
  · rw [signed_bare_iff hsign]
    rw [readSigned, splitSign_eq hsign]
    refine (map_readDigits_eq_some_iff hplain false).trans ?_
    simp

/-! ## Marks -/

theorem eq_of_toLower {l : Char} (h : c.toLower = l) : c = l ∨ c.toNat + 32 = l.toNat := by
  subst h
  unfold Char.toLower
  split
  · next h =>
    have hmost : c.val.toNat ≤ 90 := h.2
    refine .inr ?_
    change c.val.toNat + 32 = (c.val + 32).toNat
    rw [UInt32.toNat_add, Nat.mod_eq_of_lt]
    · rfl
    · exact Nat.lt_of_le_of_lt (Nat.add_le_add_right hmost 32) (by decide)
  · exact .inl rfl

/-- The letter of a mark is no digit, neither of ten nor in the radix that it marks. -/
theorem digitValue?_of_mark (hmark : markedRadix c = some r) :
    ∃ d, digitValue? c = some d ∧ r ≤ d ∧ 10 ≤ d := by
  have hletter {l u : Char} (hl : c.toLower = l) (hu : u.toNat + 32 = l.toNat) : c = l ∨ c = u :=
    (eq_of_toLower hl).imp_right fun h => Char.toNat_inj.mp (by omega)
  unfold markedRadix at hmark
  split at hmark
  · next hx =>
    cases hmark
    obtain rfl | rfl := hletter (u := 'X') hx rfl <;> exact ⟨33, rfl, by decide⟩
  · next ho =>
    cases hmark
    obtain rfl | rfl := hletter (u := 'O') ho rfl <;> exact ⟨24, rfl, by decide⟩
  · next hb =>
    cases hmark
    obtain rfl | rfl := hletter (u := 'B') hb rfl <;> exact ⟨11, rfl, by decide⟩
  · cases hmark

/-- A text with a mark is not read without it. -/
theorem not_digits_of_mark (hmark : markedRadix c = some r) (hradix : radix = 0 ∨ radix = r) :
    ¬ Digits (if radix = 0 then 10 else radix) acc ('0' :: c :: cs) n := by
  obtain ⟨d, hvalue, hr, hten⟩ := digitValue?_of_mark hmark
  have hd : ¬ d < if radix = 0 then 10 else radix := by split <;> omega
  have hnot {acc n : Nat} : ¬ Digits (if radix = 0 then 10 else radix) acc (c :: cs) n := by
    intro h
    cases h
    all_goals
      cases hvalue.symm.trans ‹digitValue? c = some _›
      exact hd ‹_›
  intro h
  cases h with
  | next _ _ h => exact hnot h
  | spaced => cases hmark

theorem splitRadix_cases (radix : Nat) (cs : List Char) :
    (∃ r letter ds, cs = '0' :: letter :: ds ∧ markedRadix letter = some r ∧
      (radix = 0 ∨ radix = r) ∧ splitRadix radix cs = (r, ds)) ∨
    (∀ r letter ds, cs = '0' :: letter :: ds → markedRadix letter = some r →
      ¬ (radix = 0 ∨ radix = r)) ∧ splitRadix radix cs = (if radix = 0 then 10 else radix, cs) := by
  have hdefault : (if radix == 0 then 10 else radix) = if radix = 0 then 10 else radix := by
    simp only [beq_iff_eq]
  unfold splitRadix
  rw [hdefault]
  generalize (if radix = 0 then 10 else radix) = plain
  dsimp only
  split
  · next letter ds =>
    cases hmark : markedRadix letter with
    | none =>
      refine .inr ⟨fun r letter' ds' h hmark' => ?_, rfl⟩
      cases h
      cases hmark.symm.trans hmark'
    | some r =>
      by_cases hradix : radix = 0 ∨ radix = r
      · refine .inl ⟨r, letter, ds, rfl, hmark, hradix, if_pos ?_⟩
        rwa [Bool.or_eq_true, beq_iff_eq, beq_iff_eq]
      · refine .inr ⟨fun r' letter' ds' h hmark' => ?_, if_neg ?_⟩
        · cases h
          cases hmark.symm.trans hmark'
          exact hradix
        · rwa [Bool.or_eq_true, beq_iff_eq, beq_iff_eq]
  · next hnone => exact .inr ⟨fun r letter ds h => absurd h (hnone letter ds), rfl⟩

theorem readMarked_eq_some_iff (hplain : '_' ∉ cs) :
    readSigned (splitRadix radix cs).1 (splitRadix radix cs).2 = some m ↔
      Marked (fun r => Signed (Magnitude r)) radix cs m := by
  obtain ⟨r, letter, ds, rfl, hmark, hradix, hsplit⟩ | ⟨hnone, hsplit⟩ := splitRadix_cases radix cs
  · have hplain' : '_' ∉ ds := fun h => hplain (by simp [h])
    rw [hsplit, readSigned_eq_some_iff hplain']
    refine ⟨fun h => .mark hmark hradix h, fun h => ?_⟩
    cases h with
    | bare h =>
      have hsign : ¬ HasSign ('0' :: letter :: ds) := by rintro (h | h) <;> cases h
      obtain ⟨n, h, -⟩ := (signed_bare_iff hsign).mp h
      exact absurd h (not_digits_of_mark hmark hradix)
    | mark hmark' _ h =>
      cases hmark.symm.trans hmark'
      exact h
    | spaced => exact absurd List.mem_cons_self hplain'
  · rw [hsplit, readSigned_eq_some_iff hplain]
    refine ⟨fun h => .bare h, fun h => ?_⟩
    cases h with
    | bare h => exact h
    | mark hmark hradix h => exact absurd hradix (hnone _ _ _ rfl hmark)
    | spaced hmark hradix h => exact absurd hradix (hnone _ _ _ rfl hmark)

/-! ## Texts -/

/-- A text without the blanks around it and without its underscores. -/
def compact (s : String) : List Char := (Text.trim s).toList.filter (· != '_')

/-- What is read: behind an optional sign and an optional mark, a number with another sign of its
own, which counts, that has 64 bits. -/
def Readable (radix : Nat) : List Char → Int → Prop :=
  Signed fun cs m => Marked (fun r => Signed (Magnitude r)) radix cs m ∧ Fits m

theorem not_mem_compact (s : String) : '_' ∉ compact s := fun h =>
  bne_iff_ne.mp (List.mem_filter.mp h).2 rfl

/-- What is read behind the first sign. -/
def readBehind (radix : Nat) (cs : List Char) : Option Int :=
  (readSigned (splitRadix radix cs).1 (splitRadix radix cs).2).filter fun m => decide (Fits m)

theorem readBehind_eq_some_iff (hplain : '_' ∉ cs) : readBehind radix cs = some m ↔
    Marked (fun r => Signed (Magnitude r)) radix cs m ∧ Fits m := by
  rw [readBehind, Option.filter_eq_some_iff, readMarked_eq_some_iff hplain, decide_eq_true_iff]

theorem readInteger_eq (radix : Nat) (s : String) : readInteger radix s =
    (readBehind radix (splitSign (compact s)).2).map fun m =>
      Int64.ofInt (if (splitSign (compact s)).1 then -m else m) := by
  rcases hsign : splitSign (compact s) with ⟨negative, ds⟩
  rcases hradix : splitRadix radix ds with ⟨r, ds'⟩
  unfold compact at hsign
  simp only [readInteger, hsign, hradix, readBehind]
  cases readSigned r ds' with
  | none => rfl
  | some m =>
    have hnarrow : (Int64.minValue.toInt ≤ m ∧ m ≤ Int64.maxValue.toInt) ↔ Fits m :=
      and_congr_right fun _ => Int.le_iff_lt_add_one
    simp only [hnarrow, Option.filter_some, decide_eq_true_eq]
    split
    · rw [Option.map_some]
      cases negative with
      | false => rfl
      | true => exact congrArg some (Int64.ofInt_neg m).symm
    · rfl

/-- What a text is read as; an integer of 65 bits wraps. -/
theorem readInteger_eq_some_iff : readInteger radix s = some i ↔
    ∃ m, Readable radix (compact s) m ∧ i = Int64.ofInt m := by
  have hplain := not_mem_compact s
  rw [readInteger_eq, Option.map_eq_some_iff, Readable]
  obtain ⟨ds, hds⟩ | ⟨ds, hds⟩ | hsign := sign_cases (compact s)
  · rw [hds] at hplain ⊢
    have hplain' := List.not_mem_of_not_mem_cons hplain
    simp only [splitSign, signed_plus_iff, ← readBehind_eq_some_iff hplain']
    exact exists_congr fun m => and_congr_right fun _ => eq_comm
  · rw [hds] at hplain ⊢
    have hplain' := List.not_mem_of_not_mem_cons hplain
    simp only [splitSign, signed_minus_iff, ← readBehind_eq_some_iff hplain']
    constructor
    · rintro ⟨m, h, rfl⟩
      exact ⟨-m, ⟨m, h, rfl⟩, rfl⟩
    · rintro ⟨_, ⟨m, h, rfl⟩, rfl⟩
      exact ⟨m, h, rfl⟩
  · rw [splitSign_eq hsign]
    simp only [signed_bare_iff hsign, ← readBehind_eq_some_iff hplain]
    exact exists_congr fun m => and_congr_right fun _ => eq_comm

/-- A second sign counts, and underscores count nowhere. -/
example : readInteger 10 " -+_1__2_ " = some (-12) := by decide

/-! ## Literals are read -/

section

variable {P Q : Nat → List Char → Int → Prop}

theorem Marked.imp (h : Marked P radix cs m) (hPQ : ∀ r ds, ds <:+ cs → P r ds m → Q r ds m) :
    Marked Q radix cs m := by
  cases h with
  | bare h => exact .bare (hPQ _ _ (List.suffix_refl cs) h)
  | mark hmark hradix h => exact .mark hmark hradix (hPQ _ _ ⟨['0', _], rfl⟩ h)
  | spaced hmark hradix h => exact .spaced hmark hradix (hPQ _ _ ⟨['0', _, '_'], rfl⟩ h)

end

theorem Magnitude.signed (h : Magnitude radix cs m) : Signed (Magnitude radix) cs m :=
  let ⟨_, hdigits, _⟩ := h
  .bare hdigits.not_hasSign h

theorem Marked.not_hasSign (h : Marked Magnitude radix cs m) : ¬ HasSign cs := by
  cases h with
  | bare h =>
    obtain ⟨n, h, -⟩ := h
    exact h.not_hasSign
  | mark => rintro (h | h) <;> cases h
  | spaced => rintro (h | h) <;> cases h

theorem Marked.nonneg (h : Marked Magnitude radix cs m) : 0 ≤ m := by
  cases h with
  | bare h | mark _ _ h | spaced _ _ h =>
    obtain ⟨n, -, rfl⟩ := h
    exact Int.natCast_nonneg n

theorem filter_cons_of_digit {d : Nat} (h : digitValue? c = some d) (cs : List Char) :
    (c :: cs).filter (· != '_') = c :: cs.filter (· != '_') := by
  refine List.filter_cons_of_pos (bne_iff_ne.mpr ?_)
  rintro rfl
  cases h

theorem Digits.filter (h : Digits radix acc cs n) : Digits radix acc (cs.filter (· != '_')) n := by
  induction h with
  | last hvalue hd =>
    rw [filter_cons_of_digit hvalue]
    exact .last hvalue hd
  | next hvalue hd _ ih =>
    rw [filter_cons_of_digit hvalue]
    exact .next hvalue hd ih
  | spaced hvalue hd _ ih =>
    rw [filter_cons_of_digit hvalue, List.filter_cons_of_neg (by decide)]
    exact .next hvalue hd ih

theorem Magnitude.filter (h : Magnitude radix cs m) : Magnitude radix (cs.filter (· != '_')) m :=
  let ⟨n, h, hm⟩ := h
  ⟨n, h.filter, hm⟩

theorem Marked.filter (h : Marked Magnitude radix cs m) :
    Marked Magnitude radix (cs.filter (· != '_')) m := by
  cases h with
  | bare h => exact .bare h.filter
  | mark hmark hradix h =>
    obtain ⟨d, hvalue, -⟩ := digitValue?_of_mark hmark
    rw [List.filter_cons_of_pos (by decide), filter_cons_of_digit hvalue]
    exact .mark hmark hradix h.filter
  | spaced hmark hradix h =>
    obtain ⟨d, hvalue, -⟩ := digitValue?_of_mark hmark
    rw [List.filter_cons_of_pos (by decide), filter_cons_of_digit hvalue,
      List.filter_cons_of_neg (by decide)]
    exact .mark hmark hradix h.filter

/-- A literal without its underscores is one. -/
theorem Literal.compact (h : Literal radix (Text.trim s).toList m) :
    Literal radix (compact s) m := by
  rw [Numeral.compact]
  generalize (Text.trim s).toList = cs at *
  cases h with
  | bare _ h => exact .bare h.filter.not_hasSign h.filter
  | plus h =>
    rw [List.filter_cons_of_pos (by decide)]
    exact .plus h.filter
  | minus h =>
    rw [List.filter_cons_of_pos (by decide)]
    exact .minus h.filter

theorem readBehind_of_marked (hplain : '_' ∉ cs) (h : Marked Magnitude radix cs m) :
    readBehind radix cs = if m.natAbs < 2 ^ 63 then some m else none := by
  have hread := (readMarked_eq_some_iff hplain).mpr (h.imp fun _ _ _ => Magnitude.signed)
  have hfits : Fits m ↔ m.natAbs < 2 ^ 63 := by
    have := h.nonneg
    unfold Fits
    omega
  rw [readBehind, hread, Option.filter_some]
  simp only [hfits, decide_eq_true_eq]

/-- A literal is read if its integer has 64 bits and is not the least one. -/
theorem readInteger_of_literal (h : Literal radix (Text.trim s).toList m) :
    readInteger radix s = if m.natAbs < 2 ^ 63 then some (Int64.ofInt m) else none := by
  have hplain := not_mem_compact s
  replace h := h.compact
  rw [readInteger_eq]
  generalize compact s = cs at *
  cases h with
  | bare hsign h =>
    rw [splitSign_eq hsign, readBehind_of_marked hplain h, apply_ite (Option.map _)]
    rfl
  | plus h =>
    rw [splitSign, readBehind_of_marked (List.not_mem_of_not_mem_cons hplain) h,
      apply_ite (Option.map _)]
    rfl
  | minus h =>
    rw [splitSign, readBehind_of_marked (List.not_mem_of_not_mem_cons hplain) h, Int.natAbs_neg,
      apply_ite (Option.map _)]
    rfl

/-- Without a sign behind the first character only literals are read. -/
theorem literal_of_readable (hsign : ∀ c ∈ cs.tail, c ≠ '+' ∧ c ≠ '-') (h : Readable radix cs m) :
    Literal radix cs m ∧ m.natAbs < 2 ^ 63 := by
  have htail {ds : List Char} (hds : ds <:+ cs.tail) : ¬ HasSign ds := by
    rintro (h | h)
    · exact (hsign _ (hds.subset (List.mem_of_head? h))).1 rfl
    · exact (hsign _ (hds.subset (List.mem_of_head? h))).2 rfl
  have hbounds {ds : List Char} {m : Int} (hm : Marked Magnitude radix ds m) (hfits : Fits m) :
      m.natAbs < 2 ^ 63 := by
    have := hm.nonneg
    unfold Fits at hfits
    omega
  cases h with
  | bare hbare h =>
    have hm : Marked Magnitude radix cs m := h.1.imp fun r ds hds h => by
      refine (signed_bare_iff ?_).mp h
      cases cs with
      | nil => exact List.suffix_nil.mp hds ▸ hbare
      | cons c cs =>
        obtain rfl | hds := List.suffix_cons_iff.mp hds
        · exact hbare
        · exact htail hds
    exact ⟨.bare hbare hm, hbounds hm h.2⟩
  | plus h =>
    have hm := h.1.imp fun r ds hds h => (signed_bare_iff (htail hds)).mp h
    exact ⟨.plus hm, hbounds hm h.2⟩
  | minus h =>
    have hm := h.1.imp fun r ds hds h => (signed_bare_iff (htail hds)).mp h
    exact ⟨.minus hm, by rw [Int.natAbs_neg]; exact hbounds hm h.2⟩

/-- A text without underscores and without a sign behind its first character is read as what it is a
literal of. -/
theorem readInteger_eq_some_iff_literal (hplain : '_' ∉ (Text.trim s).toList)
    (hsign : ∀ c ∈ (Text.trim s).toList.tail, c ≠ '+' ∧ c ≠ '-') :
    readInteger radix s = some i ↔
      Literal radix (Text.trim s).toList i.toInt ∧ i ≠ Int64.minValue := by
  constructor
  · intro h
    obtain ⟨m, hm, rfl⟩ := readInteger_eq_some_iff.mp h
    have hcompact : compact s = (Text.trim s).toList :=
      List.filter_eq_self.mpr fun c hc => bne_iff_ne.mpr fun h => hplain (h ▸ hc)
    rw [hcompact] at hm
    obtain ⟨hliteral, hsmall⟩ := literal_of_readable hsign hm
    have hm : (Int64.ofInt m).toInt = m := toInt_ofInt_of_fits (by unfold Fits; omega)
    rw [hm]
    refine ⟨hliteral, fun hmin => ?_⟩
    rw [hmin] at hm
    have : m = -2 ^ 63 := hm.symm
    omega
  · rintro ⟨h, hmin⟩
    have hsmall : i.toInt.natAbs < 2 ^ 63 := by
      have hne : i.toInt ≠ -2 ^ 63 := fun h => hmin (Int64.toInt_inj.mp h)
      have := i.le_toInt
      have := i.toInt_lt
      omega
    rw [readInteger_of_literal h, if_pos hsmall, Int64.ofInt_toInt]

/-! ## Reading what has been written -/

theorem digits_of_isDigit (hne : cs ≠ []) (h : ∀ c ∈ cs, c.isDigit = true) :
    Digits 10 acc cs (Nat.ofDigitChars 10 cs acc) := by
  induction cs generalizing acc with
  | nil => exact absurd rfl hne
  | cons c cs ih =>
    obtain ⟨hc, hcs⟩ := List.forall_mem_cons.mp h
    have hvalue : digitValue? c = some (c.toNat - '0'.toNat) := if_pos hc
    have hd : c.toNat - '0'.toNat < 10 := by
      have hbounds := Char.isDigit_iff_toNat.mp hc
      have hzero : '0'.toNat = 48 := rfl
      have hnine : '9'.toNat = 57 := rfl
      omega
    rw [Nat.ofDigitChars_cons, Nat.mul_comm]
    cases cs with
    | nil => exact .last hvalue hd
    | cons c' cs => exact .next hvalue hd (ih (List.cons_ne_nil _ _) hcs)

theorem magnitude_repr (n : Nat) : Magnitude 10 n.repr.toList n := by
  have hdigits : ∀ c ∈ Nat.toDigits 10 n, c.isDigit = true := fun c hc =>
    Nat.isDigit_of_mem_toDigits (by decide) (by decide) hc
  have h : Digits 10 0 _ _ := digits_of_isDigit Nat.toDigits_ne_nil hdigits
  rw [Nat.ofDigitChars_toDigits (by decide) (by decide)] at h
  exact ⟨n, Nat.toList_repr ▸ h, rfl⟩

theorem literal_toString (m : Int) : Literal 10 (toString m).toList m := by
  change Literal 10 m.repr.toList m
  have hbare (n : Nat) : Marked Magnitude 10 n.repr.toList n := .bare (magnitude_repr n)
  rw [Int.repr_eq_if]
  split
  · next hm =>
    have h := hbare m.toNat
    rw [Int.toNat_of_nonneg hm] at h
    exact .bare h.not_hasSign h
  · next hm =>
    have h := hbare (-m).toNat
    rw [Int.toNat_of_nonneg (by omega)] at h
    have hminus := Signed.minus h
    rw [Int.neg_neg] at hminus
    rw [String.toList_append]
    exact hminus

theorem not_blank_of_isDigit (h : c.isDigit = true) : Text.isBlank c = false := by
  have hbounds := Char.isDigit_iff_toNat.mp h
  have hzero : '0'.toNat = 48 := rfl
  have hnine : '9'.toNat = 57 := rfl
  simp only [Text.isBlank, Bool.or_eq_false_iff, Bool.and_eq_false_iff, decide_eq_false_iff_not,
    beq_eq_false_iff_ne]
  omega

theorem not_blank_of_mem_toString (m : Int) :
    ∀ c ∈ (toString m).toList, Text.isBlank c = false := by
  have hdigits {n : Nat} {c : Char} (hc : c ∈ n.repr.toList) : Text.isBlank c = false := by
    rw [Nat.toList_repr] at hc
    exact not_blank_of_isDigit (Nat.isDigit_of_mem_toDigits (by decide) (by decide) hc)
  intro c hc
  change c ∈ m.repr.toList at hc
  rw [Int.repr_eq_if] at hc
  split at hc
  · exact hdigits hc
  · rw [String.toList_append] at hc
    rcases List.mem_append.mp hc with hc | hc
    · obtain rfl := List.mem_singleton.mp hc
      rfl
    · exact hdigits hc

theorem dropWhile_of_forall {p : Char → Bool} (h : ∀ c ∈ cs, p c = false) :
    cs.dropWhile p = cs := by
  cases cs with
  | nil => rfl
  | cons c cs => exact List.dropWhile_cons_of_neg (by simp [h c List.mem_cons_self])

theorem trim_toString (m : Int) : Text.trim (toString m) = toString m := by
  have hblank := not_blank_of_mem_toString m
  rw [Text.trim, Text.dropBoth, Text.dropStart, Text.dropEnd, dropWhile_of_forall hblank,
    dropWhile_of_forall fun c hc => hblank c (List.mem_reverse.mp hc), List.reverse_reverse,
    String.ofList_toList]

/-- An integer that has been written is read again, except the least one. -/
theorem readInteger_toString (i : Int64) :
    readInteger 10 (toString i.toInt) = if i = Int64.minValue then none else some i := by
  have h := literal_toString i.toInt
  rw [← trim_toString] at h
  rw [readInteger_of_literal h, Int64.ofInt_toInt]
  have hmin : i = Int64.minValue ↔ i.toInt = -2 ^ 63 := Int64.toInt_inj.symm
  have := i.le_toInt
  have := i.toInt_lt
  by_cases h : i = Int64.minValue
  · rw [if_pos h, if_neg]
    rw [hmin.mp h]
    decide
  · rw [if_neg h, if_pos]
    rw [hmin] at h
    omega

theorem toInteger_str (s : String) (h : Heap) : toInteger (.str s) none h =
    match readInteger 10 s with
    | some i => .ok i h
    | none => .error (.valueError
        ("invalid literal for int() with base 10: " ++ Text.quoted s)) h := by
  have hradix : (pure 10 : Heap.Action Nat) h = .ok 10 h := rfl
  have hmessage : toString "invalid literal for int() with base " ++ toString 10 ++ toString ": " =
      "invalid literal for int() with base 10: " := by decide
  simp only [toInteger, Option.elim]
  rw [bind_ok hradix, hmessage]
  generalize readInteger 10 s = read
  cases read <;> rfl

/-- `int(str(i))` is `i`, except for the least integer, which `int` refuses. -/
theorem int_text (h : Heap) (i : Int64) : Numeral.int ⟨[.str (h.text (.int i))], []⟩ h =
    if i = Int64.minValue then
      .error (.valueError "invalid literal for int() with base 10: '-9223372036854775808'") h
    else .ok (.int i) h := by
  have hint (v : Value) : Numeral.int ⟨[v], []⟩ h =
      (toInteger v none >>= fun i => pure (.int i)) h := rfl
  have htext : h.text (.int i) = toString i.toInt := rfl
  have hread := toInteger_str (toString i.toInt) h
  rw [readInteger_toString] at hread
  rw [hint, htext]
  by_cases hmin : i = Int64.minValue
  · have hquoted : Text.quoted (toString Int64.minValue.toInt) = "'-9223372036854775808'" := by
      decide
    subst hmin
    rw [if_pos rfl, hquoted] at hread
    rw [if_pos rfl, bind_error hread]
    rfl
  · rw [if_neg hmin] at hread
    rw [if_neg hmin, bind_ok hread]
    rfl

end Resumable.Numeral
