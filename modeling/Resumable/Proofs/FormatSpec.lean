import Mathlib.Data.List.TakeWhile
import Resumable.Format
import Resumable.Text.Letter

/-!
# Reading format specifications

`FormatSpec.parse` looks at one or two characters at a time and never takes anything back, although
digits, `0`, signs and alignments may each be a fill as well. A specification whose kind is a
letter, `%` or absent is read from what `render` writes if its parts are what they can be
(`FormatSpec.WellFormed`), and what it is read from is what `render` writes, but for zeros in front
of the digits of the width and of the precision. Main statement: `FormatSpec.parse_iff_spelled`.
-/

namespace Resumable

/-! ## Digits -/

namespace Decimal

theorem digitsValue_nil (acc : Nat) : digitsValue acc [] = acc := rfl

theorem digitsValue_cons (acc : Nat) (c : Char) (ds : List Char) :
    digitsValue acc (c :: ds) = digitsValue (10 * acc + (c.toNat - 48)) ds := Nat.ofDigitChars_cons

theorem digitsValue_append (acc : Nat) (ds es : List Char) :
    digitsValue acc (ds ++ es) = digitsValue (digitsValue acc ds) es := Nat.ofDigitChars_append acc

theorem digitsValue_zeros (n : Nat) : digitsValue 0 (List.replicate n '0') = 0 := by
  induction n with
  | zero => rfl
  | succ n ih =>
    rw [List.replicate_succ, digitsValue_cons]
    exact ih

theorem digitsValue_toDigits (n : Nat) : digitsValue 0 (Nat.toDigits 10 n) = n :=
  Nat.ofDigitChars_toDigits (by decide) (by decide)

theorem isDigit_of_mem_toDigits {n : Nat} {c : Char} (hc : c ∈ Nat.toDigits 10 n) :
    c.isDigit = true :=
  Nat.isDigit_of_mem_toDigits (by decide) (by decide) hc

theorem toNat_of_isDigit {c : Char} (hc : c.isDigit = true) : 48 ≤ c.toNat ∧ c.toNat ≤ 57 :=
  Char.isDigit_iff_toNat.mp hc

theorem digitChar_of_isDigit {c : Char} (hc : c.isDigit = true) :
    (c.toNat - 48).digitChar = c := by
  have hbounds := toNat_of_isDigit hc
  refine Char.toNat_inj.mp ?_
  rw [Nat.toNat_digitChar_of_lt_ten (by omega)]
  omega

/-- The digits of a number that is not zero, and further ones, are the digits of the number that
they continue it to. -/
theorem toDigits_digitsValue {acc : Nat} (hacc : 0 < acc) {ds : List Char}
    (hds : ∀ c ∈ ds, c.isDigit = true) :
    Nat.toDigits 10 (digitsValue acc ds) = Nat.toDigits 10 acc ++ ds := by
  induction ds generalizing acc with
  | nil => rw [digitsValue_nil, List.append_nil]
  | cons c ds ih =>
    obtain ⟨hc, hds⟩ := List.forall_mem_cons.mp hds
    have hbounds := toNat_of_isDigit hc
    have hd : c.toNat - 48 < 10 := by omega
    have happend := Nat.toDigits_append_toDigits (b := 10) (by decide) hacc hd
    rw [Nat.toDigits_of_lt_base hd, digitChar_of_isDigit hc] at happend
    rw [digitsValue_cons, ih (by omega) hds, ← happend, List.append_assoc]
    rfl

/-- The first digit of a number that is not zero is not zero. -/
theorem head_toDigits {n : Nat} (hn : 0 < n) : (Nat.toDigits 10 n).head? ≠ some '0' := by
  induction n using Nat.strongRecOn with
  | ind n ih =>
    by_cases hlt : n < 10
    · have hall : ∀ d < 10, 0 < d → d.digitChar ≠ '0' := by decide
      rw [Nat.toDigits_of_lt_base hlt]
      exact fun hhead => hall n hlt hn (Option.some.inj hhead)
    · have hprefix := ih (n / 10) (by omega) (by omega)
      rw [Nat.toDigits_of_base_le (by decide) (by omega), List.head?_append]
      cases hdigits : Nat.toDigits 10 (n / 10) with
      | nil => exact (Nat.toDigits_ne_nil hdigits).elim
      | cons c ds =>
        rw [hdigits] at hprefix
        exact hprefix

/-- The digits of a number; zero has none. -/
def shortDigits (n : Nat) : List Char := if n = 0 then [] else Nat.toDigits 10 n

theorem shortDigits_of_pos {n : Nat} (hn : 0 < n) : shortDigits n = Nat.toDigits 10 n :=
  if_neg (by omega)

theorem digitsValue_shortDigits (n : Nat) : digitsValue 0 (shortDigits n) = n := by
  by_cases hn : n = 0
  · rw [hn]
    rfl
  · rw [shortDigits, if_neg hn, digitsValue_toDigits]

/-- Any digits are zeros and the digits of their number. -/
theorem exists_zeros {ds : List Char} (hds : ∀ c ∈ ds, c.isDigit = true) :
    ∃ zeros, ds = List.replicate zeros '0' ++ shortDigits (digitsValue 0 ds) := by
  induction ds with
  | nil => exact ⟨0, rfl⟩
  | cons c ds ih =>
    obtain ⟨hc, hds⟩ := List.forall_mem_cons.mp hds
    by_cases hzero : c = '0'
    · obtain ⟨zeros, hzeros⟩ := ih hds
      refine ⟨zeros + 1, ?_⟩
      have hvalue : digitsValue 0 (c :: ds) = digitsValue 0 ds := by
        rw [hzero, digitsValue_cons]
        rfl
      rw [hvalue, List.replicate_succ, List.cons_append, ← hzeros, hzero]
    · have hbounds := toNat_of_isDigit hc
      have hne : c.toNat ≠ 48 := fun h => hzero (Char.toNat_inj.mp h)
      have hpos : 0 < c.toNat - 48 := by omega
      refine ⟨0, ?_⟩
      have hfirst : Nat.toDigits 10 (c.toNat - 48) = [c] := by
        rw [Nat.toDigits_of_lt_base (by omega), digitChar_of_isDigit hc]
      have hdigits := toDigits_digitsValue hpos hds
      rw [hfirst] at hdigits
      have hvalue : digitsValue 0 (c :: ds) = digitsValue (c.toNat - 48) ds := by
        rw [digitsValue_cons, Nat.mul_zero, Nat.zero_add]
      have hnonzero : 0 < digitsValue (c.toNat - 48) ds := by
        by_contra hvanishes
        rw [Nat.eq_zero_of_not_pos hvanishes] at hdigits
        exact hzero (List.cons.inj hdigits).1.symm
      rw [hvalue, shortDigits_of_pos hnonzero, hdigits]
      rfl

/-- If there is a digit, the last one is not one of the zeros. -/
theorem exists_zeros_of_ne_nil {ds : List Char} (hds : ∀ c ∈ ds, c.isDigit = true) (hne : ds ≠ []) :
    ∃ zeros, ds = List.replicate zeros '0' ++ Nat.toDigits 10 (digitsValue 0 ds) := by
  obtain ⟨zeros, hzeros⟩ := exists_zeros hds
  by_cases hvalue : digitsValue 0 ds = 0
  · rw [hvalue, shortDigits, if_pos rfl, List.append_nil] at hzeros
    cases zeros with
    | zero => exact (hne hzeros).elim
    | succ zeros =>
      refine ⟨zeros, ?_⟩
      rw [hvalue, Nat.toDigits_zero, ← List.replicate_succ']
      exact hzeros
  · rw [shortDigits, if_neg hvalue] at hzeros
    exact ⟨zeros, hzeros⟩

end Decimal

namespace FormatSpec

/-! ## Characters and where they stand -/

/-- A text does not begin with a character of a class. -/
def Bars (p : Char → Bool) (cs : List Char) : Prop := ∀ c ∈ cs.head?, p c = false

theorem bars_nil (p : Char → Bool) : Bars p [] := nofun

theorem bars_cons {p : Char → Bool} {c : Char} (hc : p c = false) (cs : List Char) :
    Bars p (c :: cs) := by
  rintro _ ⟨⟩
  exact hc

theorem Bars.append {p : Char → Bool} {cs ds : List Char} (hcs : Bars p cs) (hds : Bars p ds) :
    Bars p (cs ++ ds) := by
  cases cs with
  | nil => exact hds
  | cons c cs => exact hcs

theorem bars_of_forall {p : Char → Bool} {cs : List Char} (h : ∀ c ∈ cs, p c = false) :
    Bars p cs := fun c hc => h c (List.mem_of_head? hc)

variable {p : Char → Bool} {o : Option Char} {cs rest : List Char}

theorem optional_append (ho : ∀ c ∈ o, p c = true) (hrest : o = none → Bars p rest) :
    optional p (o.toList ++ rest) = (o, rest) := by
  cases o with
  | some c => exact if_pos (ho c rfl)
  | none =>
    cases rest with
    | nil => rfl
    | cons c rest =>
      have hc : p c = false := hrest rfl c rfl
      simp [optional, hc]

theorem optional_eq (h : optional p cs = (o, rest)) :
    cs = o.toList ++ rest ∧ (∀ c ∈ o, p c = true) ∧ (o = none → Bars p rest) := by
  cases cs with
  | nil =>
    cases h
    exact ⟨rfl, nofun, fun _ => bars_nil p⟩
  | cons c cs =>
    cases hc : p c with
    | true =>
      rw [optional, if_pos hc] at h
      cases h
      refine ⟨rfl, ?_, nofun⟩
      rintro _ ⟨⟩
      exact hc
    | false =>
      rw [optional, if_neg (by rw [hc]; exact Bool.false_ne_true)] at h
      cases h
      exact ⟨rfl, nofun, fun _ => bars_cons hc cs⟩

theorem takeWhile_append {ds : List Char} (hds : ∀ c ∈ ds, p c = true) (hrest : Bars p rest) :
    (ds ++ rest).takeWhile p = ds ∧ (ds ++ rest).dropWhile p = rest := by
  have hstop : rest.takeWhile p = [] ∧ rest.dropWhile p = rest := by
    cases rest with
    | nil => exact ⟨rfl, rfl⟩
    | cons c rest =>
      have hc : p c = false := hrest c rfl
      simp [hc]
  rw [List.takeWhile_append_of_pos hds, List.dropWhile_append_of_pos hds, hstop.1, hstop.2]
  exact ⟨List.append_nil ds, rfl⟩

/-! ## Parts of a specification -/

/-- Whether a character may say which kind of presentation is asked for: a letter or `%`. -/
def isKind (c : Char) : Bool := Text.isAlphabetic c || c == '%'

/-- The parts of a specification are what they can be. A fill needs an alignment, and numbers have
at most 64 bits. -/
structure WellFormed (f : FormatSpec) : Prop where
  fill : f.fill.isSome → f.align.isSome
  align : ∀ c ∈ f.align, isAlign c = true
  sign : ∀ c ∈ f.sign, isSign c = true
  width : f.width < UInt64.size
  grouping : ∀ c ∈ f.grouping, isGrouping c = true
  precision : ∀ n ∈ f.precision, n < UInt64.size

/-- The digits of the width behind some zeros. -/
def widthText (f : FormatSpec) (zeros : Nat) : List Char :=
  List.replicate zeros '0' ++ Decimal.shortDigits f.width

/-- The precision, with some zeros in front of its digits. -/
def precisionText (f : FormatSpec) (zeros : Nat) : List Char :=
  f.precision.elim [] fun n => '.' :: (List.replicate zeros '0' ++ Nat.toDigits 10 n)

/-- What `render` writes, with zeros in front of the digits of the width and of the precision. -/
def spelling (f : FormatSpec) (widthZeros precisionZeros : Nat) : List Char :=
  f.fill.toList ++ (f.align.toList ++ (f.sign.toList ++ ((if f.zero then ['0'] else []) ++
    (f.widthText widthZeros ++ (f.grouping.toList ++ (f.precisionText precisionZeros ++
      f.kind.toList))))))

theorem render_eq_spelling (f : FormatSpec) : f.render = f.spelling 0 0 := by
  have hdigits (n : Nat) : (toString n).toList = Nat.toDigits 10 n := Nat.toList_repr
  have hwidth : (if f.width == 0 then [] else (toString f.width).toList) = f.widthText 0 := by
    rw [hdigits, widthText, List.replicate_zero, List.nil_append, Decimal.shortDigits]
    by_cases hw : f.width = 0 <;> simp [hw]
  rw [render, spelling, hwidth, precisionText]
  cases f.precision with
  | none => simp only [List.append_assoc, Option.elim]
  | some n => simp only [List.append_assoc, Option.elim, hdigits, List.replicate_zero,
      List.nil_append, List.cons_append]

/-! ### Characters that stand for one part only -/

section
variable {c : Char}

theorem isKind_of_isDigit (hc : c.isDigit = true) : isKind c = false := by
  have hall : ∀ n < 10, isKind (Char.ofNat (48 + n)) = false := by decide
  have hbounds := Decimal.toNat_of_isDigit hc
  have hn := hall (c.toNat - 48) (by omega)
  rwa [Nat.add_sub_cancel' hbounds.1, Char.ofNat_toNat] at hn

theorem isAlign_cases (hc : isAlign c = true) : c = '<' ∨ c = '>' ∨ c = '^' ∨ c = '=' := by
  simpa [isAlign, or_assoc] using hc

theorem isSign_cases (hc : isSign c = true) : c = '+' ∨ c = '-' ∨ c = ' ' := by
  simpa [isSign, or_assoc] using hc

theorem isGrouping_cases (hc : isGrouping c = true) : c = ',' ∨ c = '_' := by
  simpa [isGrouping] using hc

/-- A kind is no other part. -/
theorem bars_kind {p : Char → Bool} {kind : Option Char} (hkind : ∀ c ∈ kind, isKind c = true)
    (hp : ∀ c, p c = true → isKind c = false) : Bars p kind.toList := by
  refine bars_of_forall fun c hc => ?_
  have hmem : c ∈ kind := Option.mem_toList.mp hc
  by_contra htrue
  have hfalse := hp c (by simpa using htrue)
  rw [hkind c hmem] at hfalse
  cases hfalse

theorem isKind_of_isAlign (hc : isAlign c = true) : isKind c = false := by
  obtain rfl | rfl | rfl | rfl := isAlign_cases hc <;> decide

theorem isKind_of_isSign (hc : isSign c = true) : isKind c = false := by
  obtain rfl | rfl | rfl := isSign_cases hc <;> decide

theorem isKind_of_isGrouping (hc : isGrouping c = true) : isKind c = false := by
  obtain rfl | rfl := isGrouping_cases hc <;> decide

end

/-! ### Reading the parts -/

section
variable {fill align : Option Char} {cs ds rest : List Char} {n : Nat}

theorem readAlign_append (hfill : fill.isSome → align.isSome)
    (halign : ∀ c ∈ align, isAlign c = true)
    (hrest : ∀ c ∈ rest, isAlign c = false) :
    readAlign (fill.toList ++ (align.toList ++ rest)) = (fill, align, rest) := by
  cases align with
  | none =>
    cases fill with
    | some c => cases hfill rfl
    | none =>
      match rest with
      | [] => rfl
      | [c] =>
        have hc := hrest c List.mem_cons_self
        simp [readAlign, optional, hc]
      | c :: d :: rest =>
        have hc := hrest c List.mem_cons_self
        have hd := hrest d (List.mem_cons_of_mem c List.mem_cons_self)
        simp [readAlign, hc, hd]
  | some a =>
    have ha := halign a rfl
    cases fill with
    | some c => simp [readAlign, ha]
    | none =>
      cases rest with
      | nil => simp [readAlign, optional, ha]
      | cons c rest =>
        have hc := hrest c List.mem_cons_self
        simp [readAlign, ha, hc]

theorem readAlign_eq (h : readAlign cs = (fill, align, rest)) :
    cs = fill.toList ++ (align.toList ++ rest) ∧ (∀ c ∈ align, isAlign c = true) ∧
      (fill.isSome → align.isSome) := by
  have one {ds : List Char} (h : (none, optional isAlign ds) = (fill, align, rest)) :
      ds = fill.toList ++ (align.toList ++ rest) ∧ (∀ c ∈ align, isAlign c = true) ∧
        (fill.isSome → align.isSome) := by
    obtain ⟨rfl, hoption⟩ := Prod.mk.inj h
    obtain ⟨hcs, halign, -⟩ := optional_eq hoption
    exact ⟨hcs, halign, nofun⟩
  match cs with
  | [] => exact one h
  | [c] => exact one h
  | c :: a :: cs =>
    cases ha : isAlign a with
    | true =>
      simp only [readAlign, ha, if_true] at h
      cases h
      refine ⟨rfl, ?_, fun _ => rfl⟩
      rintro _ ⟨⟩
      exact ha
    | false =>
      refine one (h ▸ ?_)
      cases hc : isAlign c <;> simp [readAlign, optional, ha, hc]

theorem readNumber_eq_some_iff :
    readNumber ds = some n ↔ ds ≠ [] ∧ Decimal.digitsValue 0 ds = n ∧ n < UInt64.size := by
  cases ds with
  | nil => simp [readNumber]
  | cons c ds =>
    simp only [readNumber, List.isEmpty_cons, Bool.false_eq_true, if_false, ne_eq, reduceCtorEq,
      not_false_eq_true, true_and]
    constructor
    · intro h
      obtain ⟨hlt, hn⟩ := Option.ite_none_right_eq_some.mp h
      obtain rfl := Option.some.inj hn
      exact ⟨rfl, hlt⟩
    · rintro ⟨rfl, hlt⟩
      exact if_pos hlt

theorem readWidth_append (hds : ∀ c ∈ ds, c.isDigit = true) (hrest : Bars Char.isDigit rest)
    (hn : Decimal.digitsValue 0 ds = n) (hlt : n < UInt64.size) :
    readWidth (ds ++ rest) = some (n, rest) := by
  obtain ⟨htake, hdrop⟩ := takeWhile_append hds hrest
  rw [readWidth, htake, hdrop]
  cases ds with
  | nil =>
    obtain rfl : 0 = n := hn
    rfl
  | cons c ds => rw [List.isEmpty_cons, if_neg Bool.false_ne_true,
      readNumber_eq_some_iff.mpr ⟨List.cons_ne_nil c ds, hn, hlt⟩, Option.map_some]

theorem readWidth_eq (h : readWidth cs = some (n, rest)) :
    ∃ ds, cs = ds ++ rest ∧ (∀ c ∈ ds, c.isDigit = true) ∧ Decimal.digitsValue 0 ds = n ∧
      n < UInt64.size := by
  refine ⟨cs.takeWhile Char.isDigit, ?_⟩
  have hsplit := (List.takeWhile_append_dropWhile (p := Char.isDigit) (l := cs)).symm
  have hdigits : ∀ c ∈ cs.takeWhile Char.isDigit, c.isDigit = true := fun c =>
    List.mem_takeWhile_imp
  rw [readWidth] at h
  generalize cs.takeWhile Char.isDigit = ds at h hsplit hdigits ⊢
  generalize cs.dropWhile Char.isDigit = behind at h hsplit
  cases ds with
  | nil =>
    cases h
    exact ⟨hsplit, hdigits, rfl, by decide⟩
  | cons c ds =>
    rw [List.isEmpty_cons, if_neg Bool.false_ne_true] at h
    obtain ⟨k, hk, hpair⟩ := Option.map_eq_some_iff.mp h
    cases hpair
    obtain ⟨-, hvalue, hlt⟩ := readNumber_eq_some_iff.mp hk
    exact ⟨hsplit, hdigits, hvalue, hlt⟩

theorem readPrecision_some (hne : ds ≠ []) (hds : ∀ c ∈ ds, c.isDigit = true)
    (hrest : Bars Char.isDigit rest) (hn : Decimal.digitsValue 0 ds = n) (hlt : n < UInt64.size) :
    readPrecision ('.' :: (ds ++ rest)) = some (some n, rest) := by
  obtain ⟨htake, hdrop⟩ := takeWhile_append hds hrest
  rw [readPrecision, htake, hdrop, readNumber_eq_some_iff.mpr ⟨hne, hn, hlt⟩, Option.map_some]

theorem readPrecision_none (hrest : Bars (· == '.') rest) :
    readPrecision rest = some (none, rest) := by
  unfold readPrecision
  split
  · next behind =>
    have hpoint := hrest '.' rfl
    cases hpoint
  · rfl

theorem readPrecision_eq {precision : Option Nat} (h : readPrecision cs = some (precision, rest)) :
    (precision = none ∧ cs = rest) ∨
      ∃ ds n, precision = some n ∧ cs = '.' :: (ds ++ rest) ∧ ds ≠ [] ∧
        (∀ c ∈ ds, c.isDigit = true) ∧ Decimal.digitsValue 0 ds = n ∧ n < UInt64.size := by
  unfold readPrecision at h
  split at h
  · next behind =>
    obtain ⟨n, hn, hpair⟩ := Option.map_eq_some_iff.mp h
    cases hpair
    obtain ⟨hne, hvalue, hlt⟩ := readNumber_eq_some_iff.mp hn
    refine .inr ⟨_, n, rfl, ?_, hne, fun c => List.mem_takeWhile_imp, hvalue, hlt⟩
    rw [List.takeWhile_append_dropWhile]
  · cases h
    exact .inl ⟨rfl, rfl⟩

end

/-- The parts are read one after the other, each from what the one before has left. -/
theorem parse_eq_some_iff {cs : List Char} {f : FormatSpec} :
    parse cs = some f ↔ ∃ t₁ t₂ z t₃ t₄ t₅ t₆, readAlign cs = (f.fill, f.align, t₁) ∧
      optional isSign t₁ = (f.sign, t₂) ∧ optional (· == '0') t₂ = (z, t₃) ∧ f.zero = z.isSome ∧
      readWidth t₃ = some (f.width, t₄) ∧ optional isGrouping t₄ = (f.grouping, t₅) ∧
      readPrecision t₅ = some (f.precision, t₆) ∧ optional (fun _ => true) t₆ = (f.kind, []) := by
  constructor
  · intro h
    unfold parse at h
    obtain ⟨⟨width, t₄⟩, hwidth, h⟩ := Option.bind_eq_some_iff.mp h
    obtain ⟨⟨precision, t₆⟩, hprecision, h⟩ := Option.bind_eq_some_iff.mp h
    obtain ⟨hempty, hf⟩ := Option.ite_none_right_eq_some.mp h
    obtain rfl := Option.some.inj hf
    refine ⟨_, _, _, _, _, _, _, rfl, rfl, rfl, rfl, hwidth, rfl, hprecision, ?_⟩
    exact Prod.ext rfl (List.isEmpty_iff.mp hempty)
  · rintro ⟨t₁, t₂, z, t₃, t₄, t₅, t₆, halign, hsign, hz, hzero, hwidth, hgrouping, hprecision,
      hkind⟩
    simp only [parse, halign, hsign, hz, hwidth, hgrouping, hprecision, hkind, ← hzero,
      Option.bind_eq_bind, Option.bind_some, List.isEmpty_nil, if_true]

/-! ### What stands behind a part -/

section
variable {f : FormatSpec} {c : Char} (hkind : ∀ c ∈ f.kind, isKind c = true) (w p : Nat)

theorem isDigit_of_mem_widthText (hc : c ∈ f.widthText w) : c.isDigit = true := by
  rw [widthText, List.mem_append] at hc
  rcases hc with hc | hc
  · rw [List.eq_of_mem_replicate hc]
    rfl
  · unfold Decimal.shortDigits at hc
    split at hc
    · cases hc
    · exact Decimal.isDigit_of_mem_toDigits hc

theorem isDigit_of_mem_zeros {n : Nat} (hc : c ∈ List.replicate p '0' ++ Nat.toDigits 10 n) :
    c.isDigit = true := by
  rcases List.mem_append.mp hc with hc | hc
  · rw [List.eq_of_mem_replicate hc]
    rfl
  · exact Decimal.isDigit_of_mem_toDigits hc

theorem mem_precisionText (hc : c ∈ f.precisionText p) : c = '.' ∨ c.isDigit = true := by
  unfold precisionText at hc
  cases hprecision : f.precision with
  | none =>
    rw [hprecision] at hc
    cases hc
  | some n =>
    rw [hprecision] at hc
    exact (List.mem_cons.mp hc).imp_right (isDigit_of_mem_zeros p)

/-- The precision begins with a point. -/
theorem bars_precisionText {q : Char → Bool} (hq : q '.' = false) : Bars q (f.precisionText p) := by
  unfold precisionText
  cases f.precision with
  | none => exact bars_nil q
  | some n => exact bars_cons hq _

include hkind

/-- Behind the sign there are digits, separators, a point and the kind. -/
theorem mem_behindSign (hf : f.WellFormed)
    (hc : c ∈ (if f.zero then ['0'] else []) ++ (f.widthText w ++ (f.grouping.toList ++
      (f.precisionText p ++ f.kind.toList)))) :
    c.isDigit = true ∨ isGrouping c = true ∨ c = '.' ∨ isKind c = true := by
  simp only [List.mem_append, Option.mem_toList] at hc
  rcases hc with hc | hc | hc | hc | hc
  · split at hc
    · rw [List.mem_singleton.mp hc]
      exact .inl rfl
    · cases hc
  · exact .inl (isDigit_of_mem_widthText w hc)
  · exact .inr (.inl (hf.grouping c hc))
  · rcases mem_precisionText p hc with hpoint | hdigit
    · exact .inr (.inr (.inl hpoint))
    · exact .inl hdigit
  · exact .inr (.inr (.inr (hkind c hc)))

theorem bars_digits (hf : f.WellFormed) :
    Bars Char.isDigit (f.grouping.toList ++ (f.precisionText p ++ f.kind.toList)) := by
  refine Bars.append (bars_of_forall fun c hc => ?_) ((bars_precisionText p rfl).append ?_)
  · obtain rfl | rfl := isGrouping_cases (hf.grouping c (Option.mem_toList.mp hc)) <;> rfl
  · exact bars_kind hkind fun _ => isKind_of_isDigit

end

section
variable {c : Char}

/-- Neither a sign nor an alignment stands behind the sign. -/
theorem not_isSign_not_isAlign
    (hc : c.isDigit = true ∨ isGrouping c = true ∨ c = '.' ∨ isKind c = true) :
    isSign c = false ∧ isAlign c = false := by
  rw [← Bool.not_eq_true, ← Bool.not_eq_true]
  constructor
  · intro hsign
    rcases hc with hdigit | hgrouping | rfl | hkind
    · obtain rfl | rfl | rfl := isSign_cases hsign <;> cases hdigit
    · obtain rfl | rfl | rfl := isSign_cases hsign <;> cases hgrouping
    · cases hsign
    · rw [isKind_of_isSign hsign] at hkind
      cases hkind
  · intro halign
    rcases hc with hdigit | hgrouping | rfl | hkind
    · obtain rfl | rfl | rfl | rfl := isAlign_cases halign <;> cases hdigit
    · obtain rfl | rfl | rfl | rfl := isAlign_cases halign <;> cases hgrouping
    · cases halign
    · rw [isKind_of_isAlign halign] at hkind
      cases hkind

theorem isAlign_of_isSign (hc : isSign c = true) : isAlign c = false := by
  obtain rfl | rfl | rfl := isSign_cases hc <;> rfl

end

/-- No zero stands in front of the digits of a width. -/
theorem bars_widthText (f : FormatSpec) : Bars (· == '0') (f.widthText 0) := by
  rw [widthText, List.replicate_zero, List.nil_append, Decimal.shortDigits]
  split
  · exact bars_nil _
  · next hwidth =>
    intro c hc
    refine beq_eq_false_iff_ne.mpr ?_
    rintro rfl
    exact Decimal.head_toDigits (by omega) hc

/-! ## Both directions -/

/-- A specification is read from each of its spellings. -/
theorem parse_spelling {f : FormatSpec} (hf : f.WellFormed) (hkind : ∀ c ∈ f.kind, isKind c = true)
    {w p : Nat} (hw : w = 0 ∨ f.zero = true) : parse (f.spelling w p) = some f := by
  let behindWidth := f.grouping.toList ++ (f.precisionText p ++ f.kind.toList)
  let behindSign := (if f.zero then ['0'] else []) ++ (f.widthText w ++ behindWidth)
  have hother : ∀ c ∈ behindSign, isSign c = false ∧ isAlign c = false := fun c hc =>
    not_isSign_not_isAlign (mem_behindSign hkind w p hf hc)
  have hdigits : Bars Char.isDigit behindWidth := bars_digits hkind p hf
  have halign : readAlign (f.spelling w p) = (f.fill, f.align, f.sign.toList ++ behindSign) := by
    refine readAlign_append hf.fill hf.align fun c hc => ?_
    rcases List.mem_append.mp hc with hsign | hbehind
    · exact isAlign_of_isSign (hf.sign c (Option.mem_toList.mp hsign))
    · exact (hother c hbehind).2
  have hsign : optional isSign (f.sign.toList ++ behindSign) = (f.sign, behindSign) :=
    optional_append hf.sign fun _ => bars_of_forall fun c hc => (hother c hc).1
  have hzero : optional (· == '0') behindSign =
      (if f.zero then some '0' else none, f.widthText w ++ behindWidth) := by
    cases hflag : f.zero with
    | true => simp [behindSign, hflag, optional]
    | false =>
      obtain rfl : w = 0 := hw.resolve_right (by rw [hflag]; exact Bool.false_ne_true)
      have hbars : Bars (· == '0') (f.widthText 0 ++ behindWidth) := by
        refine (bars_widthText f).append fun c hc => beq_eq_false_iff_ne.mpr ?_
        rintro rfl
        cases hdigits '0' hc
      simpa [behindSign, hflag] using optional_append (o := none) nofun fun _ => hbars
  have hwidth : readWidth (f.widthText w ++ behindWidth) = some (f.width, behindWidth) := by
    refine readWidth_append (fun c => isDigit_of_mem_widthText w) hdigits ?_ hf.width
    rw [widthText, Decimal.digitsValue_append, Decimal.digitsValue_zeros,
      Decimal.digitsValue_shortDigits]
  have hgrouping : optional isGrouping behindWidth =
      (f.grouping, f.precisionText p ++ f.kind.toList) :=
    optional_append hf.grouping fun _ => (bars_precisionText p rfl).append
      (bars_kind hkind fun _ => isKind_of_isGrouping)
  have hprecision : readPrecision (f.precisionText p ++ f.kind.toList) =
      some (f.precision, f.kind.toList) := by
    cases hprecision : f.precision with
    | none =>
      rw [precisionText, hprecision]
      refine readPrecision_none (bars_kind hkind fun c hc => ?_)
      rw [beq_iff_eq.mp hc]
      decide
    | some n =>
      rw [precisionText, hprecision]
      refine readPrecision_some (List.append_ne_nil_of_right_ne_nil _ Nat.toDigits_ne_nil)
        (fun c => isDigit_of_mem_zeros p) (bars_kind hkind fun _ => isKind_of_isDigit) ?_
        (hf.precision n hprecision)
      rw [Decimal.digitsValue_append, Decimal.digitsValue_zeros, Decimal.digitsValue_toDigits]
  have hlast : optional (fun _ => true) f.kind.toList = (f.kind, []) := by
    cases f.kind <;> rfl
  refine parse_eq_some_iff.mpr ⟨_, _, _, _, _, _, _, halign, hsign, hzero, ?_, hwidth, hgrouping,
    hprecision, hlast⟩
  cases f.zero <;> rfl

/-- What a specification is read from is one of its spellings, whatever its kind. -/
theorem exists_spelling_of_parse {f : FormatSpec} {cs : List Char} (h : parse cs = some f) :
    f.WellFormed ∧ ∃ w p, (w = 0 ∨ f.zero = true) ∧ cs = f.spelling w p := by
  obtain ⟨t₁, t₂, z, t₃, t₄, t₅, t₆, halign, hsign, hz, hzero, hwidth, hgrouping, hprecision,
    hkind⟩ := parse_eq_some_iff.mp h
  obtain ⟨rfl, haligns, hfill⟩ := readAlign_eq halign
  obtain ⟨rfl, hsigns, -⟩ := optional_eq hsign
  obtain ⟨rfl, hzeros, hnozero⟩ := optional_eq hz
  obtain ⟨ds, rfl, hds, hvalue, hlt⟩ := readWidth_eq hwidth
  obtain ⟨rfl, hgroupings, -⟩ := optional_eq hgrouping
  obtain ⟨rfl, -, -⟩ := optional_eq hkind
  have hzeroText : z.toList = if f.zero then ['0'] else [] := by
    cases z with
    | none => rw [hzero]; rfl
    | some c => rw [hzero, beq_iff_eq.mp (hzeros c rfl)]; rfl
  obtain ⟨w, hw⟩ := Decimal.exists_zeros hds
  rw [hvalue] at hw
  -- A width without the flag does not begin with a zero, which would have been the flag.
  have hflag : w = 0 ∨ f.zero = true := by
    cases w with
    | zero => exact .inl rfl
    | succ w =>
      cases z with
      | some c => exact .inr hzero
      | none =>
        have hfirst := hnozero rfl '0' (by rw [hw]; rfl)
        cases hfirst
  have hexists : ∃ p, t₅ = f.precisionText p ++ (f.kind.toList ++ []) ∧
      ∀ n ∈ f.precision, n < UInt64.size := by
    rcases readPrecision_eq hprecision with
      ⟨hnone, rfl⟩ | ⟨ds, n, hsome, rfl, hne, hds, hvalue, hlt⟩
    · refine ⟨0, ?_, ?_⟩
      · rw [precisionText, hnone]
        rfl
      · rw [hnone]
        rintro _ ⟨⟩
    · obtain ⟨p, hp⟩ := Decimal.exists_zeros_of_ne_nil hds hne
      rw [hvalue] at hp
      refine ⟨p, ?_, ?_⟩
      · rw [precisionText, hsome, hp]
        rfl
      · rw [hsome]
        rintro _ ⟨⟩
        exact hlt
  obtain ⟨p, rfl, hfits⟩ := hexists
  refine ⟨⟨hfill, haligns, hsigns, hlt, hgroupings, hfits⟩, w, p, hflag, ?_⟩
  rw [hzeroText, hw, List.append_nil]
  rfl

/-- A specification whose kind is a letter, `%` or absent is read from what is written for it if its
parts are what they can be; and what it is read from is what is written for it, but for zeros in
front of the digits of the width, behind the zero flag, and in front of those of the precision. -/
theorem parse_iff_spelled (f : FormatSpec) (hkind : ∀ c ∈ f.kind, isKind c = true) :
    (f.WellFormed → parse f.render = some f) ∧
      ∀ cs, parse cs = some f ↔
        f.WellFormed ∧ ∃ w p, (w = 0 ∨ f.zero = true) ∧ cs = f.spelling w p := by
  refine ⟨fun hf => ?_, fun cs => ⟨exists_spelling_of_parse, ?_⟩⟩
  · rw [render_eq_spelling]
    exact parse_spelling hf hkind (.inl rfl)
  · rintro ⟨hf, w, p, hw, rfl⟩
    exact parse_spelling hf hkind hw

/-- A specification with a zero, or more, in each place where one can stand. -/
def everyZero : FormatSpec := ⟨some '0', some '>', some ' ', true, 10, some '_', some 0, some 'é'⟩

/-- The first zero is the fill, the one behind the sign is the flag, and those in front of the
digits say nothing. -/
theorem parse_iff_spelled_zeros :
    (∀ c ∈ everyZero.kind, isKind c = true) ∧ everyZero.WellFormed ∧
      everyZero.render = "0> 010_.0é".toList ∧ parse everyZero.render = some everyZero ∧
      parse "0> 00010_.00é".toList = some everyZero := by
  have hkind : ∀ c ∈ everyZero.kind, isKind c = true := by
    rintro _ ⟨⟩
    decide +kernel
  have hzeros : everyZero.WellFormed :=
    { fill := fun _ => rfl
      align := by rintro _ ⟨⟩; decide
      sign := by rintro _ ⟨⟩; decide
      width := by decide
      grouping := by rintro _ ⟨⟩; decide
      precision := by rintro _ ⟨⟩; decide }
  obtain ⟨hrender, hspelled⟩ := parse_iff_spelled everyZero hkind
  refine ⟨hkind, hzeros, by decide +kernel, hrender hzeros, ?_⟩
  exact (hspelled _).mpr ⟨hzeros, 2, 1, .inr rfl, by decide +kernel⟩

end FormatSpec

end Resumable
