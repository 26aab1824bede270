import Resumable.Text.Radix

/-!
# Floats in decimal notation

The conversions between floats and decimal digits, in exact arithmetic.

## Floats as exact fractions

The magnitude of a finite float is an integer times a power of two, so it is a fraction, and its
decimal digits are found in exact arithmetic on natural numbers. A float is rounded to a number of
places, or to a number of significant digits, from its exact value.
-/

namespace Resumable.Decimal

/-- `num / den` rounded to the nearest integer; a half goes to the even neighbour. -/
def roundDiv (num den : Nat) : Nat :=
  let q := num / den
  let r := num % den
  if 2 * r < den then q
  else if 2 * r > den then q + 1
  else if q % 2 == 0 then q else q + 1

/-- The leading bit of a mantissa, `2^52`, which is not among the bits of a float. -/
def leadingBit : Nat := 0x10_0000_0000_0000

/-- The mantissa and the exponent of a finite float: its magnitude is the one times two to the
power of the other. -/
def parts (x : Float) : Nat × Int :=
  let bits := x.toBits.toNat
  let fraction := bits % leadingBit
  let biased := bits / leadingBit % 2048
  if biased == 0 then (fraction, -1074) else (fraction + leadingBit, Int.ofNat biased - 1075)

/-- Whether the sign bit of a float is set. -/
def isNegative (x : Float) : Bool := x.toBits ≥ 0x8000_0000_0000_0000

/-- `base ^ exponent` as a fraction. -/
def power (base : Nat) (exponent : Int) : Nat × Nat :=
  if exponent ≥ 0 then (base.pow exponent.toNat, 1) else (1, base.pow (-exponent).toNat)

/-- `mantissa · 2^binary · 10^decimal` as a fraction. -/
def fraction (mantissa : Nat) (binary decimal : Int) : Nat × Nat :=
  let (a, b) := power 2 binary
  let (c, d) := power 10 decimal
  (mantissa * a * c, b * d)

/-- The number of decimal digits of `n`. -/
def digitCount (n : Nat) : Nat := (Nat.toDigits 10 n).length

/-- The exponent of the first significant digit of the positive fraction `num / den`. -/
def leadingExponent (num den : Nat) : Int :=
  if num ≥ den then (digitCount (num / den) : Int) - 1
  else -(digitCount ((den + num - 1) / num - 1) : Int)

/-- A text of `n` zeros. -/
def zeros (n : Nat) : String := String.ofList (List.replicate n '0')

/-! ### Floats with a given number of digits -/

/-- `n` with the decimal point in front of its last `places` digits. -/
def pointBefore (places n : Nat) : String :=
  let digits := toString n
  let digits := zeros (places + 1 - digits.length) ++ digits
  if places == 0 then digits
  else
    let whole := digits.length - places
    String.ofList (digits.toList.take whole) ++ "." ++ String.ofList (digits.toList.drop whole)

/-- The magnitude of a float with a number of places after the point. -/
def fixed (places : Nat) (x : Float) : String :=
  if x.isNaN then "NaN"
  else if x.isInf then "inf"
  else
    let (mantissa, binary) := parts x
    let (num, den) := fraction mantissa binary places
    pointBefore places (roundDiv num den)

/-- The magnitude of a float in scientific notation, with a number of places after the point of the
mantissa; the exponent has a sign and at least two digits. -/
def scientific (places : Nat) (x : Float) : String :=
  if x.isNaN then "NaN"
  else if x.isInf then "inf"
  else
    let (mantissa, binary) := parts x
    let (digits, exponent) :=
      if mantissa == 0 then (0, (0 : Int))
      else
        let (num, den) := fraction mantissa binary 0
        let leading := leadingExponent num den
        let (num, den) := fraction mantissa binary (places - leading)
        let d := roundDiv num den
        if digitCount d > places + 1 then (d / 10, leading + 1) else (d, leading)
    let written := toString exponent.natAbs
    pointBefore places digits ++ "e" ++ (if exponent < 0 then "-" else "+") ++
      zeros (2 - written.length) ++ written

/-!
## The shortest decimal that reads back

Of all decimals that round to a given float, `shortest` finds one with the fewest digits, and among
those the nearest. A `FloatStyle` says how such digits are written.
-/

/-- Whether the grid point `d · 10^exponent` rounds to the float with these parts. All numbers that
lie nearer to the float than to its neighbours do, and those half-way between two floats belong to
the one with the even mantissa. Below a power of two the neighbour is at half the distance. -/
def roundsTo (mantissa : Nat) (binary exponent : Int) (d : Nat) : Bool :=
  let (num, den) := fraction d (2 - binary) exponent
  let low := if mantissa == leadingBit && binary > -1074 then 4 * mantissa - 1 else 4 * mantissa - 2
  let high := 4 * mantissa + 2
  if mantissa % 2 == 0 then low * den ≤ num && num ≤ high * den
  else low * den < num && num < high * den

/-- The point of a grid that is nearest to the float and rounds to it, of the float's two
neighbours on the grid. -/
def nearestOnGrid (mantissa : Nat) (binary exponent : Int) : Option Nat :=
  let (num, den) := fraction mantissa binary (-exponent)
  let below := num / den
  let isBelow := roundsTo mantissa binary exponent below
  let isAbove := roundsTo mantissa binary exponent (below + 1)
  if isAbove && (!isBelow || 2 * (num % den) ≥ den) then some (below + 1)
  else if isBelow then some below
  else none

/-- The coarsest grid, from a digit count on, that has a point which rounds to the float. -/
def coarsest (mantissa : Nat) (binary leading : Int) : Nat → Nat → Nat × Int
  | 0, count => (0, leading - count)
  | tries + 1, count =>
    let exponent := leading - count + 1
    match nearestOnGrid mantissa binary exponent with
    | some d => (d, exponent)
    | none => coarsest mantissa binary leading tries (count + 1)

/-- The number without its last zeros, and the exponent that makes up for them. -/
def dropZeros : Nat → Nat → Int → Nat × Int
  | 0, d, exponent => (d, exponent)
  | fuel + 1, d, exponent =>
    if d % 10 == 0 && d != 0 then dropZeros fuel (d / 10) (exponent + 1) else (d, exponent)

/-- The digits of the shortest decimal that reads back as the magnitude of a finite float other
than zero, and the exponent of its last digit. -/
def shortest (x : Float) : Nat × Int :=
  let (mantissa, binary) := parts x
  let (num, den) := fraction mantissa binary 0
  let (d, exponent) := coarsest mantissa binary (leadingExponent num den) 17 1
  dropZeros 17 d exponent

/-- How the digits of a float are written. -/
structure FloatStyle where
  /-- The exponents of the first digit that are written without an exponent. -/
  positional : Int → Bool
  /-- Whether an integral value ends in `.0`. -/
  pointZero : Bool
  /-- The least number of digits of a written exponent. -/
  exponentWidth : Nat
  /-- What stands for a value that is not a number. -/
  nan : String

/-- Digits with the point after the first `whole` of them, padded with zeros on either side. -/
def placePoint (style : FloatStyle) (digits : String) (leading : Int) : String :=
  let count := digits.length
  if leading ≥ (count : Int) - 1 then
    digits ++ zeros (leading.toNat + 1 - count) ++ (if style.pointZero then ".0" else "")
  else if leading ≥ 0 then
    let whole := leading.toNat + 1
    String.ofList (digits.toList.take whole) ++ "." ++ String.ofList (digits.toList.drop whole)
  else "0." ++ zeros ((-leading).toNat - 1) ++ digits

/-- Digits with an exponent: one digit before the point, and no point behind a single digit. -/
def withExponent (style : FloatStyle) (digits : String) (leading : Int) : String :=
  let mantissa := match digits.toList with
    | [] => ""
    | [d] => String.ofList [d]
    | d :: rest => String.ofList (d :: '.' :: rest)
  let exponent := toString leading.natAbs
  let sign := if leading < 0 then "-" else "+"
  mantissa ++ "e" ++ sign ++ zeros (style.exponentWidth - exponent.length) ++ exponent

/-- The shortest text of the magnitude of a finite float. -/
def FloatStyle.magnitude (style : FloatStyle) (x : Float) : String :=
  if x == 0.0 then placePoint style "0" 0
  else
    let (d, exponent) := shortest x
    let digits := toString d
    let leading := exponent + digits.length - 1
    if style.positional leading then placePoint style digits leading
    else withExponent style digits leading

/-- The shortest text of a float that reads back as it. -/
def FloatStyle.text (style : FloatStyle) (x : Float) : String :=
  if x.isNaN then style.nan
  else
    let sign := if isNegative x then "-" else ""
    if x.isInf then sign ++ "inf" else sign ++ style.magnitude x

/-- The style of programs: positional from `0.0001` to below `10^16`, always with a point or an
exponent, and exponents of at least two digits. -/
def FloatStyle.program : FloatStyle := ⟨fun e => -4 ≤ e && e < 16, true, 2, "nan"⟩

/-- The style of JSON: positional from `0.00001` to below `10^16`. -/
def FloatStyle.json : FloatStyle := ⟨fun e => -5 ≤ e && e < 16, true, 1, "nan"⟩

/-- The style of messages: always positional, and integral values as integers. -/
def FloatStyle.plain : FloatStyle := ⟨fun _ => true, false, 1, "NaN"⟩

/-!
## Reading a decimal number as a float

The notation is an optional sign, then `inf`, `infinity` or `nan` in any case, or decimal digits
with at most one point among them and an optional exponent. At least one digit must stand before
the exponent. The result is the float nearest to the number written.
-/

/-- The value of a list of decimal digits, continuing from `acc`. -/
def digitsValue (acc : Nat) (ds : List Char) : Nat := Nat.ofDigitChars 10 ds acc

/-- The float nearest to `mantissa · 10^exponent`. Exponents far outside the range of floats are
settled by magnitude, so that no huge power is formed. -/
def nearestFloat (mantissa : Nat) (exponent : Int) : Float :=
  if mantissa == 0 then 0.0
  else
    let magnitude : Int := (Nat.log2 mantissa : Int) * 30103 / 100000 + exponent
    if magnitude > 400 then 1.0 / 0.0
    else if magnitude < -500 then 0.0
    else Float.ofScientific mantissa (exponent < 0) exponent.natAbs

/-- The exponent that follows a mantissa: none written is zero, and `none` is a malformed one. -/
def readExponent : List Char → Option Int
  | [] => some 0
  | e :: rest =>
    if e == 'e' || e == 'E' then
      let (negative, ds) := Text.splitSign rest
      if ds.isEmpty || !ds.all Char.isDigit then none
      else
        let n := digitsValue 0 (ds.dropWhile (· == '0') |>.take 9)
        let n := if (ds.dropWhile (· == '0')).length > 9 then 1000000000 else n
        some (if negative then -(n : Int) else n)
    else none

/-- The float that an unsigned notation stands for. -/
def readUnsigned (cs : List Char) : Option Float :=
  let lowered := String.ofList (cs.map Char.toLower)
  if lowered == "inf" || lowered == "infinity" then some (1.0 / 0.0)
  else if lowered == "nan" then some (0.0 / 0.0)
  else
    let whole := cs.takeWhile Char.isDigit
    let rest := cs.dropWhile Char.isDigit
    let (fraction, rest) := match rest with
      | '.' :: more => (more.takeWhile Char.isDigit, more.dropWhile Char.isDigit)
      | _ => ([], rest)
    if whole.isEmpty && fraction.isEmpty then none
    else do
      let exponent ← readExponent rest
      pure (nearestFloat (digitsValue 0 (whole ++ fraction)) (exponent - fraction.length))

/-- The float that a text stands for, if it is a decimal notation. -/
def readFloat (cs : List Char) : Option Float :=
  let (negative, rest) := Text.splitSign cs
  (readUnsigned rest).map fun x => if negative then -x else x

end Resumable.Decimal
