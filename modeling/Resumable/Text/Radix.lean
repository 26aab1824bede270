/-!
# Integers in a radix

Digits from ten on are letters, of either case where they are read and lower case where they are
written.
-/

namespace Resumable.Text

/-- The value of a digit, whatever the radix. -/
def digitValue? (c : Char) : Option Nat :=
  if c.isDigit then some (c.toNat - '0'.toNat)
  else if 'a' ≤ c && c ≤ 'z' then some (c.toNat - 'a'.toNat + 10)
  else if 'A' ≤ c && c ≤ 'Z' then some (c.toNat - 'A'.toNat + 10)
  else none

/-- The number that digits in a radix stand for, continuing from `acc`. -/
def readDigits (radix acc : Nat) : List Char → Option Nat
  | [] => some acc
  | c :: rest =>
    match digitValue? c with
    | some d => if d < radix then readDigits radix (acc * radix + d) rest else none
    | none => none

/-- An optional sign in front of a number: whether it is a minus, and the rest. -/
def splitSign : List Char → Bool × List Char
  | '-' :: rest => (true, rest)
  | '+' :: rest => (false, rest)
  | cs => (false, cs)

/-- The number that a text in a radix stands for: an optional sign and at least one digit. -/
def readSigned (radix : Nat) (cs : List Char) : Option Int :=
  let (negative, digits) := splitSign cs
  if digits.isEmpty then none
  else (readDigits radix 0 digits).map fun n : Nat => if negative then -(n : Int) else n

/-- The digits of a number in a radix of at most sixteen. -/
def writeDigits (radix n : Nat) : String := String.ofList (Nat.toDigits radix n)

end Resumable.Text
