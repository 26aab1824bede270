import Resumable.Decimal
import Resumable.Heap.Conversion
import Resumable.Text.Radix

/-!
# Formatting

How a value is written in a formatted string, from the specification to the text.

## Format specifications

A specification such as `*>+08,.2f` says how a value is written in a formatted string. Its parts are
fill and alignment, sign, a zero flag, width, grouping, precision and the kind of presentation; each
of them may be missing.
-/

namespace Resumable

/-- A format specification. -/
structure FormatSpec where
  fill : Option Char
  align : Option Char
  sign : Option Char
  zero : Bool
  /-- Zero is no width. -/
  width : Nat
  grouping : Option Char
  precision : Option Nat
  kind : Option Char
deriving DecidableEq, Repr, Inhabited

namespace FormatSpec

/-- Whether a character says how to align. -/
def isAlign (c : Char) : Bool := c == '<' || c == '>' || c == '^' || c == '='

/-- Whether a character says which signs to write. -/
def isSign (c : Char) : Bool := c == '+' || c == '-' || c == ' '

/-- Whether a character separates groups of digits. -/
def isGrouping (c : Char) : Bool := c == ',' || c == '_'

/-- The first character, if it is in a class, and the rest. -/
def optional (p : Char → Bool) : List Char → Option Char × List Char
  | c :: rest => if p c then (some c, rest) else (none, c :: rest)
  | [] => (none, [])

/-- The fill and the alignment at the start of a specification. -/
def readAlign : List Char → Option Char × Option Char × List Char
  | c :: a :: rest =>
    if isAlign a then (some c, some a, rest)
    else if isAlign c then (none, some c, a :: rest)
    else (none, none, c :: a :: rest)
  | cs =>
    let (align, rest) := optional isAlign cs
    (none, align, rest)

/-- The number that digits stand for, if it fits into 64 bits; there must be at least one digit. -/
def readNumber (digits : List Char) : Option Nat :=
  if digits.isEmpty then none
  else
    let n := Decimal.digitsValue 0 digits
    if n < UInt64.size then some n else none

/-- The width at the start of a text; none written is zero. -/
def readWidth (cs : List Char) : Option (Nat × List Char) :=
  let digits := cs.takeWhile Char.isDigit
  let rest := cs.dropWhile Char.isDigit
  if digits.isEmpty then some (0, rest) else (readNumber digits).map (·, rest)

/-- The precision at the start of a text: a point and digits, or nothing. -/
def readPrecision : List Char → Option (Option Nat × List Char)
  | '.' :: rest =>
    (readNumber (rest.takeWhile Char.isDigit)).map fun n => (some n, rest.dropWhile Char.isDigit)
  | cs => some (none, cs)

/-- Reads a specification. -/
def parse (cs : List Char) : Option FormatSpec := do
  let (fill, align, cs) := readAlign cs
  let (sign, cs) := optional isSign cs
  let (zero, cs) := optional (· == '0') cs
  let (width, cs) ← readWidth cs
  let (grouping, cs) := optional isGrouping cs
  let (precision, cs) ← readPrecision cs
  let (kind, cs) := optional (fun _ => true) cs
  if cs.isEmpty then
    some ⟨fill, align, sign, zero.isSome, width, grouping, precision, kind⟩
  else none

/-- The text of a specification. -/
def render (f : FormatSpec) : List Char :=
  f.fill.toList ++ f.align.toList ++ f.sign.toList ++ (if f.zero then ['0'] else []) ++
    (if f.width == 0 then [] else (toString f.width).toList) ++ f.grouping.toList ++
    (match f.precision with
      | some n => '.' :: (toString n).toList
      | none => []) ++
    f.kind.toList

end FormatSpec

end Resumable

/-!
## Layout of formatted values

Signs, groups of digits, and padding to a width.
-/

namespace Resumable.FormatSpec

/-- The sign of a number. -/
def signText (sign : Option Char) (negative : Bool) : String :=
  if negative then "-"
  else
    match sign with
    | some '+' => "+"
    | some ' ' => " "
    | _ => ""

/-- A text with a separator in front of every character that has a multiple of three characters
from itself on, but not in front of the first. -/
def grouped (separator : Option Char) (text : String) : String :=
  match separator with
  | none => text
  | some separator =>
    let cs := text.toList
    let count := cs.length
    let pieces := cs.zipIdx.map fun (c, i) =>
      if i > 0 && (count - i) % 3 == 0 then [separator, c] else [c]
    String.ofList pieces.flatten

/-- A text with the digits in front of its first point grouped, or all of it where there is no
point. -/
def groupedWhole (separator : Option Char) (text : String) : String :=
  let cs := text.toList
  let whole := String.ofList (cs.takeWhile (· != '.'))
  let rest := cs.dropWhile (· != '.')
  grouped separator whole ++ String.ofList rest

/-- A text of `n` copies of a character. -/
def copies (c : Char) (n : Nat) : String := String.ofList (List.replicate n c)

/-- How a text is padded: the fill and the alignment. The zero flag stands for zeros behind the
sign; numbers go to the right and other values to the left where nothing is said. -/
def padding (f : FormatSpec) (numeric : Bool) : Char × Char :=
  if f.zero && f.align.isNone then ('0', '=')
  else (f.fill.getD ' ', f.align.getD (if numeric then '>' else '<'))

/-- A text padded to the width. -/
def pad (f : FormatSpec) (numeric : Bool) (body : String) : String :=
  let missing := f.width - body.length
  if missing == 0 then body
  else
    let (fill, align) := f.padding numeric
    match align with
    | '>' => copies fill missing ++ body
    | '^' => copies fill (missing / 2) ++ body ++ copies fill (missing - missing / 2)
    | '=' =>
      match body.toList with
      | c :: rest =>
        if isSign c then String.ofList [c] ++ copies fill missing ++ String.ofList rest
        else copies fill missing ++ body
      | [] => copies fill missing
    | _ => body ++ copies fill missing

end Resumable.FormatSpec

/-!
## Formatting values

A value as a specification asks for it. Each kind of presentation is for certain types of values;
any other combination is an error that names the specification and the type.
-/

namespace Resumable.FormatSpec

/-- The digits of a number without its sign, in the presentation of integers of that kind. -/
def radixDigits (kind : Char) (n : Nat) : Option String :=
  match kind with
  | 'x' => some (Text.writeDigits 16 n)
  | 'X' => some ((Text.writeDigits 16 n).toUpper)
  | 'o' => some (Text.writeDigits 8 n)
  | 'b' => some (Text.writeDigits 2 n)
  | _ => none

/-- The digits of a magnitude, in the presentation of floats of that kind. -/
def floatDigits (kind : Char) (places : Nat) (x : Float) : Option String :=
  match kind with
  | 'f' | 'F' => some (Decimal.fixed places x)
  | 'e' => some (Decimal.scientific places x)
  | 'E' => some (Decimal.scientific places x).toUpper
  | '%' => some (Decimal.fixed places (x * 100.0) ++ "%")
  | _ => none

/-- The text of an integer. -/
def integerText (f : FormatSpec) (i : Int64) : String :=
  signText f.sign (i < 0) ++ grouped f.grouping (toString i.toInt.natAbs)

/-- The text of a float without a kind of presentation. -/
def plainFloatText (f : FormatSpec) (x : Float) : String :=
  let text := match f.precision with
    | some places => Decimal.fixed places x.abs
    | none => Decimal.FloatStyle.program.text x.abs
  signText f.sign (Decimal.isNegative x) ++ text

/-- The text of a value before it is padded, if the specification fits its type. -/
def body (f : FormatSpec) (h : Heap) (v : Value) : Option String :=
  match f.kind, v with
  | none, .str s | some 's', .str s =>
    match f.precision with
    | some n => some (String.ofList (s.toList.take n))
    | none => some s
  | none, .int i => some (f.integerText i)
  | none, .float x | some 'g', .float x => some (f.plainFloatText x)
  | none, v => if f.precision.isNone && f.sign.isNone then some (h.text v) else none
  | some kind, v =>
    match kind, v.int?, v.number? with
    | 'd', some i, _ => some (f.integerText i)
    | kind, int?, some x =>
      match int?.bind fun i => (radixDigits kind i.toInt.natAbs).map (i, ·) with
      | some (i, digits) => some (signText f.sign (i < 0) ++ digits)
      | none =>
        (floatDigits kind (f.precision.getD 6) x.abs).map fun digits =>
          signText f.sign (Decimal.isNegative x && x != 0.0) ++ groupedWhole f.grouping digits
    | _, _, _ => none

/-- Whether a value is laid out as a number. -/
def isNumeric (f : FormatSpec) : Value → Bool
  | .bool _ => f.kind.isSome
  | v => v.number?.isSome

/-- A bound from below on the bytes of the padded text. -/
def requested (f : FormatSpec) : Nat :=
  let characters := max f.width (f.precision.getD 0)
  min (characters * f.fill.elim 1 (·.utf8Size)) (UInt64.size - 1)

end Resumable.FormatSpec

namespace Resumable.Heap

/-- The text of a value in a formatted string. -/
def format (v : Value) (spec : String) : Action String := do
  let h ← get
  if spec.isEmpty then return h.text v
  let invalid := Failure.valueError
    ("Invalid format specifier '" ++ spec ++ "' for object of type '" ++ h.typeName v ++ "'")
  match FormatSpec.parse spec.toList with
  | none => throw invalid
  | some f =>
    checkLarge f.requested
    match f.body h v with
    | some body => return f.pad (f.isNumeric v) body
    | none => throw invalid

end Resumable.Heap
