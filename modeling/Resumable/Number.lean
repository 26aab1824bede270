import Resumable.Decimal
import Resumable.Value.Basic

/-!
# Numbers

The operators of programs on integers and floats.

## Operations on floats

Remainder, rounding to an integer and integral powers. The remainder is found in exact arithmetic.
-/

namespace Resumable.Number

/-- The remainder of a division that is rounded toward zero; it has the sign of `x`. -/
def remainder (x y : Float) : Float :=
  if x.isNaN || y.isNaN || x.isInf || y == 0.0 then 0.0 / 0.0
  else if y.isInf then x
  else
    let (a, p) := Decimal.parts x
    let (b, q) := Decimal.parts y
    let e := min p q
    let r := (a <<< (p - e).toNat) % (b <<< (q - e).toNat)
    let magnitude := (Float.ofNat r).scaleB e
    if Decimal.isNegative x then -magnitude else magnitude

/-- The nearest integer; a half goes to the even neighbour, and a zero keeps the sign. -/
def roundEven (x : Float) : Float :=
  if x.isNaN || x.isInf || x.abs ≥ 4503599627370496.0 then x
  else
    let a := x.abs
    let below := a.floor
    let rest := a - below
    let rounded :=
      if rest < 0.5 then below
      else if rest > 0.5 then below + 1.0
      else if remainder below 2.0 == 0.0 then below else below + 1.0
    if Decimal.isNegative x then -rounded else rounded

/-- `acc · base ^ n` by repeated squaring. -/
def powerFrom : Nat → Float → Float → Nat → Float
  | 0, acc, _, _ => acc
  | fuel + 1, acc, base, n =>
    let acc := if n % 2 == 1 then acc * base else acc
    if n / 2 == 0 then acc else powerFrom fuel acc (base * base) (n / 2)

/-- `base ^ n`: for a negative exponent, the inverse of the positive power. -/
def integralPower (base : Float) (n : Int) : Float :=
  let power := powerFrom (n.natAbs + 1) 1.0 base n.natAbs
  if n < 0 then 1.0 / power else power

/-- The float rounded to a number of decimal places, through a multiplication with a power of ten
of an exponent between -308 and 308. -/
def roundPlaces (x : Float) (places : Int) : Float :=
  let factor := integralPower 10.0 (max (-308) (min places 308))
  roundEven (x * factor) / factor

end Resumable.Number

/-!
## Arithmetic

The operators on numbers. Integers have 64 bits, and a result that does not fit is an error. The
quotient of integers is rounded to the floor and the remainder has the sign of the divisor.
-/

namespace Resumable

/-- Why an operation on numbers has no result. -/
inductive NumberError where
  | overflow
  | division
  | integerDivision
  | integerModulo
  | floatDivision
  | floatFloorDivision
  | floatModulo
  | zeroPower
deriving DecidableEq, Repr

namespace NumberError

/-- The type of exception that the error is raised as. -/
def type : NumberError → ExceptionType
  | .overflow => .overflowError
  | _ => .zeroDivisionError

/-- The message of the error. -/
def message : NumberError → String
  | .overflow => "integer result too large for 64 bits"
  | .division => "division by zero"
  | .integerDivision => "integer division or modulo by zero"
  | .integerModulo => "integer modulo by zero"
  | .floatDivision => "float division by zero"
  | .floatFloorDivision => "float floor division by zero"
  | .floatModulo => "float modulo"
  | .zeroPower => "0.0 cannot be raised to a negative power"

end NumberError

namespace Number

/-- The integer as one of 64 bits, if it fits. -/
def narrow (i : Int) : Except NumberError Int64 :=
  if Int64.minValue.toInt ≤ i ∧ i ≤ Int64.maxValue.toInt then .ok (Int64.ofInt i)
  else .error .overflow

/-- `x ^ n`, if it fits. Powers of more than 63 factors only fit for `-1`, `0` and `1`. -/
def integerPower (x : Int64) (n : Int64) : Except NumberError Int64 :=
  if n.toInt ≥ UInt32.size then .error .overflow
  else if n == 0 || x == 1 then .ok 1
  else if x == 0 then .ok 0
  else if x == -1 then .ok (if n.toInt % 2 == 0 then 1 else -1)
  else if n.toInt > 63 then .error .overflow
  else narrow (x.toInt.pow n.toInt.toNat)

/-- An operator on integers. -/
def onIntegers (op : Operator) (x y : Int64) : Except NumberError Value :=
  match op with
  | .add => .int <$> narrow (x.toInt + y.toInt)
  | .sub => .int <$> narrow (x.toInt - y.toInt)
  | .mult => .int <$> narrow (x.toInt * y.toInt)
  | .div => if y == 0 then .error .division else .ok (.float (toNearestFloat x / toNearestFloat y))
  | .floorDiv =>
    if y == 0 then .error .integerDivision else .int <$> narrow (Int.fdiv x.toInt y.toInt)
  | .mod =>
    if y == 0 then .error .integerModulo
    else if x == Int64.minValue && y == -1 then .error .overflow
    else .ok (.int (Int64.ofInt (Int.fmod x.toInt y.toInt)))
  | .pow =>
    if y < 0 then
      if x == 0 then .error .zeroPower else .ok (.float ((toNearestFloat x).pow (toNearestFloat y)))
    else .int <$> integerPower x y

/-- An operator on floats. -/
def onFloats (op : Operator) (x y : Float) : Except NumberError Value :=
  match op with
  | .add => .ok (.float (x + y))
  | .sub => .ok (.float (x - y))
  | .mult => .ok (.float (x * y))
  | .div => if y == 0.0 then .error .floatDivision else .ok (.float (x / y))
  | .floorDiv => if y == 0.0 then .error .floatFloorDivision else .ok (.float (x / y).floor)
  | .mod =>
    if y == 0.0 then .error .floatModulo
    else
      let r := remainder x y
      .ok (.float (if r != 0.0 && decide (r < 0.0) != decide (y < 0.0) then r + y else r))
  | .pow => if x == 0.0 && y < 0.0 then .error .zeroPower else .ok (.float (x.pow y))

/-- The negative of an integer. -/
def negate (i : Int64) : Except NumberError Int64 := narrow (-i.toInt)

end Number

end Resumable
