import Resumable.Decimal
import Resumable.Heap.Conversion
import Resumable.Number
import Resumable.Operation.Arguments
import Resumable.Text.Letter
import Resumable.Text.Radix
import Resumable.Text.Search

/-!
# Conversions to numbers

Texts and other values as integers and floats, and rounding.
-/

namespace Resumable.Numeral

open Heap (Action)

/-- The radix that is marked by the letter of a mark such as `0x`. -/
def markedRadix (letter : Char) : Option Nat :=
  match letter.toLower with
  | 'x' => some 16
  | 'o' => some 8
  | 'b' => some 2
  | _ => none

/-- The radix of a numeral and its digits. A mark in front counts if it agrees with the radix, or
if the radix is left to it by a zero. -/
def splitRadix (radix : Nat) (cs : List Char) : Nat × List Char :=
  let unmarked := (if radix == 0 then 10 else radix, cs)
  match cs with
  | '0' :: letter :: digits =>
    match markedRadix letter with
    | some marked => if radix == 0 || radix == marked then (marked, digits) else unmarked
    | none => unmarked
  | _ => unmarked

/-- The integer that a text stands for, with blanks around it and underscores anywhere. A second
sign behind the first one, or behind the mark of the radix, counts too. -/
def readInteger (radix : Nat) (s : String) : Option Int64 :=
  let cs := (Text.trim s).toList.filter (· != '_')
  let (negative, digits) := Text.splitSign cs
  let (radix, digits) := splitRadix radix digits
  match Text.readSigned radix digits with
  | some i =>
    if Int64.minValue.toInt ≤ i ∧ i ≤ Int64.maxValue.toInt then
      some (if negative then -(Int64.ofInt i) else Int64.ofInt i)
    else none
  | none => none

/-- The float that a text stands for, with blanks around it and underscores anywhere. -/
def readFloat (s : String) : Option Float :=
  let cs := (Text.trim s).toList
  let unsigned := (cs.map Char.toLower).dropWhile fun c => c == '+' || c == '-'
  let isSpecial := ["inf", "infinity", "nan"].contains (String.ofList unsigned)
  if !isSpecial && unsigned.any Text.isAlphabetic && !unsigned.contains 'e' then none
  else Decimal.readFloat (cs.filter (· != '_'))

/-- The radix that a value means. -/
def radixOf : Value → Action Nat
  | .int b =>
    if b == 0 || (2 ≤ b && b ≤ 36) then pure b.toInt.toNat
    else throw (.valueError "int() base must be >= 2 and <= 36, or 0")
  | v => do throw ((← get).notAnInteger v)

/-- The integer part of a float. -/
def truncate (x : Float) : Action Int64 :=
  if x.isNaN then throw (.valueError "cannot convert float NaN to integer")
  else if x.isInf then
    throw (.exception .overflowError "cannot convert float infinity to integer")
  else if x.abs ≥ 9.2e18 then
    throw (.exception .overflowError "integer result too large for 64 bits")
  else pure x.toInt64

/-- The integer that a value converts to, in a radix where one is said. -/
def toInteger (v : Value) (radix : Option Value) : Action Int64 := do
  match v, radix with
  | .str s, radix => do
    let radix ← radix.elim (pure 10) radixOf
    match readInteger radix s with
    | some i => return i
    | none =>
      let shown := Text.quoted s
      throw (.valueError s!"invalid literal for int() with base {radix}: {shown}")
  | _, some _ => throw (.typeError "int() can't convert non-string with explicit base")
  | .float x, none => truncate x
  | v, none =>
    match v.int? with
    | some i => return i
    | none =>
      let kind := (← get).typeName v
      throw (.typeError ("int() argument must be a string, a bytes-like object or a real " ++
        s!"number, not '{kind}'"))

/-- The call of `int`. -/
def int (args : Arguments) : Action Value := do
  let (named, args) := args.take "base"
  match ← args.between "int" 0 (some 2) with
  | [] =>
    if named.isSome then throw (.typeError "int() missing string argument") else return .int 0
  | v :: rest => return .int (← toInteger v (rest.head?.or named))

/-- The call of `float`. -/
def float (args : Arguments) : Action Value := do
  match ← args.atMostOne "float" with
  | none => return .float 0.0
  | some (.str s) =>
    match readFloat s with
    | some x => return .float x
    | none => throw (.valueError ("could not convert string to float: " ++ Text.quoted s))
  | some v =>
    match v.number? with
    | some x => return .float x
    | none =>
      let kind := (← get).typeName v
      throw (.typeError s!"float() argument must be a string or a real number, not '{kind}'")

/-- A value rounded to a number of places, or to an integer. -/
def roundTo (v : Value) (places : Option Int64) : Action Value := do
  match v, v.int?, places with
  | _, some i, _ => return .int i
  | .float x, _, none =>
    if x.isFinite then return .int (Number.roundEven x).toInt64
    else throw (.exception .overflowError "cannot convert float infinity to integer")
  | .float x, _, some n => return .float (Number.roundPlaces x n.toInt)
  | v, _, _ =>
    let kind := (← get).typeName v
    throw (.typeError s!"type {kind} doesn't define __round__ method")

/-- The call of `round`. -/
def round (args : Arguments) : Action Value := do
  let (v, places) ← args.oneOrTwo "round"
  match places with
  | none | some .none => roundTo v none
  | some (.int n) => roundTo v (some n)
  | some other => throw ((← get).notAnInteger other)

/-- The magnitude of a number. -/
def magnitude (v : Value) : Action Value := do
  match v with
  | .int i =>
    match Number.narrow i.toInt.natAbs with
    | .ok i => return .int i
    | .error e => throw (.exception e.type e.message)
  | .bool b => return .int (if b then 1 else 0)
  | .float x => return .float x.abs
  | v =>
    let kind := (← get).typeName v
    throw (.typeError s!"bad operand type for abs(): '{kind}'")

end Resumable.Numeral
