import Resumable.Decimal
import Resumable.Json.Cursor
import Resumable.Text.Radix

/-!
# Reading JSON

A text is JSON if it is one value with blanks around it. Lists and objects may be nested in each
other up to `maxNesting` deep.

A number without point and exponent is an integer if it has at most 64 bits. Any other number is a
float: as many leading digits as fit into 64 bits are rounded to a float, and that is multiplied or
divided by the power of ten that is left.
-/

namespace Resumable.Json

/-- How deep lists and objects may be nested. -/
def maxNesting : Nat := 127

/-! ## Numbers -/

/-- As many digits as fit into 64 bits behind those of `n`: their number, and how many digits are
left over. -/
def fill (n : Nat) : List Char → Nat × Nat
  | [] => (n, 0)
  | c :: rest =>
    let more := n * 10 + (c.toNat - '0'.toNat)
    if more < UInt64.size then fill more rest else (n, rest.length + 1)

/-- The float `x · 10^exponent`, scaled in steps of at most 308 places; `none` if it is too large.
Four steps are enough for any exponent, because the float is zero by then. -/
def scaled : Nat → Float → Int → Option Float
  | 0, x, _ => some x
  | steps + 1, x, exponent =>
    if exponent.natAbs ≤ 308 then
      let power := Decimal.nearestFloat 1 exponent.natAbs
      let y := if 0 ≤ exponent then x * power else x / power
      if y.isInf then none else some y
    else if x == 0.0 then some x
    else if 0 ≤ exponent then none
    else scaled steps (x / Decimal.nearestFloat 1 308) (exponent + 308)

namespace Reader

/-- The longest run of digits. -/
def digits : Reader (List Char) := do
  let p ← get
  let run := p.rest.takeWhile Char.isDigit
  set (p.skip Char.isDigit)
  return run

/-- The digits in front of the point; a zero stands alone. -/
def wholeDigits : Reader (List Char) := do
  match ← next with
  | none => fail .endInValue
  | some '0' => do
    match ← peek with
    | some d => if d.isDigit then failNext .badNumber else return ['0']
    | none => return ['0']
  | some c => if c.isDigit then return c :: (← digits) else fail .badNumber

/-- The digits behind the point, if there is one. -/
def fractionDigits : Reader (Option (List Char)) := do
  match ← peek with
  | some '.' => do
    let _ ← next
    let ds ← digits
    if ds.isEmpty then
      if (← peek).isSome then failNext .badNumber else failNext .endInValue
    else return some ds
  | _ => return none

/-- The exponent of a number, if it has one: a large one counts as `10^10`. `isZero` says that the
number is zero, so that its exponent cannot be too large. -/
def exponent (isZero : Bool) : Reader (Option Int) := do
  match ← peek with
  | some e =>
    if e != 'e' && e != 'E' then return none
    let _ ← next
    let sign ← peek
    if sign == some '+' || sign == some '-' then
      let _ ← next
    let negative := sign == some '-'
    match ← next with
    | none => fail .endInValue
    | some c =>
      if !c.isDigit then fail .badNumber
      let before ← get
      let ds := c :: (← digits)
      match firstTooLarge 0 ds with
      | none =>
        let n := Decimal.digitsValue 0 ds
        return some (if negative then -(n : Int) else n)
      | some taken =>
        if !isZero && !negative then
          throw ⟨.hugeNumber, before.line, before.column + (taken - 1)⟩
        return some (if negative then -10_000_000_000 else 10_000_000_000)
  | none => return none
where
  /-- How many digits there are in front of the one that makes the number need more than 31 bits. -/
  firstTooLarge (n : Nat) : List Char → Option Nat
    | [] => none
    | c :: rest =>
      let more := n * 10 + (c.toNat - '0'.toNat)
      if more < 0x8000_0000 then (firstTooLarge more rest).map (· + 1) else some 0

/-- A number whose sign has been taken. -/
def number (negative : Bool) : Reader Json := do
  let whole ← wholeDigits
  let (significand, left) := fill 0 whole
  let fraction ← fractionDigits
  let (significand, taken) := match fraction with
    | none => (significand, 0)
    | some ds =>
      let (n, dropped) := fill significand ds
      (n, ds.length - dropped)
  let power ← exponent (significand == 0)
  if fraction.isNone && power.isNone && left == 0 then
    if !negative then return .int significand
    else if significand == 0 || -(significand : Int) < Int64.minValue.toInt then
      return .float (-(UInt64.ofNat significand).toFloat)
    else return .int (-(significand : Int))
  else
    match scaled 4 (UInt64.ofNat significand).toFloat (power.getD 0 + left - taken) with
    | some x => return .float (if negative then -x else x)
    | none => fail .hugeNumber

/-! ## Strings -/

/-- The number of four hexadecimal digits. -/
def hexDigits : Reader Nat := do
  let p ← get
  let ds := p.rest.take 4
  if (String.ofList ds).utf8ByteSize < 4 then
    set (p.skip fun _ => true)
    fail .endInString
  match Text.readDigits 16 0 ds with
  | some n =>
    set (⟨p.rest.drop 4, p.line, p.column + 4⟩ : Cursor)
    return n
  | none => throw ⟨.badEscape, p.line, p.column + 4⟩

/-- The next character of a string, which must not end here. -/
def peekInString : Reader Char := do
  match ← peek with
  | some c => return c
  | none => fail .endInString

/-- The rest of an escape that names a character by its number, behind the `u`. A character beyond
16 bits is written as two such escapes. -/
def numberedChar : Reader Char := do
  let n ← hexDigits
  if 0xDC00 ≤ n && n < 0xE000 then fail .loneSurrogate
  if !(0xD800 ≤ n && n < 0xDC00) then return Char.ofNat n
  if (← peekInString) != '\\' then
    let _ ← next
    fail .cutSurrogate
  let _ ← next
  if (← peekInString) != 'u' then
    let _ ← next
    fail .cutSurrogate
  let _ ← next
  let low ← hexDigits
  if !(0xDC00 ≤ low && low < 0xE000) then fail .loneSurrogate
  return Char.ofNat ((n - 0xD800) * 1024 + (low - 0xDC00) + 0x10000)

/-- The rest of an escape behind the backslash. -/
def escapedChar : Reader Char := do
  match ← next with
  | none => fail .endInString
  | some '"' => return '"'
  | some '\\' => return '\\'
  | some '/' => return '/'
  | some 'b' => return '\x08'
  | some 'f' => return '\x0c'
  | some 'n' => return '\n'
  | some 'r' => return '\r'
  | some 't' => return '\t'
  | some 'u' => numberedChar
  | some _ => fail .badEscape

/-- The rest of a string behind `done`, up to its closing quote; it has at most `size`
characters. -/
def stringFrom (done : String) : Nat → Reader String
  | 0 => fail .endInString
  | size + 1 => do
    match ← next with
    | none => fail .endInString
    | some '"' => return done
    | some '\\' => stringFrom (done.push (← escapedChar)) size
    | some c => if c.toNat < 0x20 then fail .rawControl else stringFrom (done.push c) size

/-- A string whose opening quote has been taken. -/
def string : Reader String := do stringFrom "" ((← get).rest.length + 1)

/-! ## Lists and objects -/

/-- Whether a list whose items so far have been taken goes on; takes the comma in front of the next
item. -/
def hasNextItem (isFirst : Bool) : Reader Bool := do
  match ← skipBlanks with
  | none => failNext .endInList
  | some ']' => return false
  | some c =>
    if isFirst then return true
    if c != ',' then failNext .openList
    let _ ← next
    match ← skipBlanks with
    | some ']' => failNext .trailingComma
    | some _ => return true
    | none => failNext .endInValue

/-- Whether an object whose members so far have been taken goes on; takes the comma in front of the
next member. -/
def hasNextMember (isFirst : Bool) : Reader Bool := do
  match ← skipBlanks with
  | none => failNext .endInObject
  | some '\x7d' => return false
  | some c =>
    if isFirst then
      if c == '"' then return true else failNext .nameNotText
    if c != ',' then failNext .openObject
    let _ ← next
    match ← skipBlanks with
    | some '"' => return true
    | some '\x7d' => failNext .trailingComma
    | some _ => failNext .nameNotText
    | none => failNext .endInValue

/-- The colon behind the name of a member. -/
def colon : Reader Unit := do
  match ← skipBlanks with
  | some ':' => discard next
  | some _ => failNext .noColon
  | none => failNext .endInObject

/-- The rest of a list behind the items in `done`, the last of them first; there are at most
`size` more. -/
def itemsFrom (item : Reader Json) (done : List Json) : Nat → Reader (List Json)
  | 0 => fail .endInList
  | size + 1 => do
    if ← hasNextItem done.isEmpty then itemsFrom item ((← item) :: done) size
    else
      let _ ← next
      return done.reverse

/-- The rest of an object: `member` takes the name of a member, and reads its value from the colon
on. There are at most `size` more members. -/
def membersFrom {α : Type} (member : α → String → Reader α) (isFirst : Bool) (a : α) :
    Nat → Reader α
  | 0 => fail .endInObject
  | size + 1 => do
    if ← hasNextMember isFirst then
      let _ ← next
      let name ← string
      membersFrom member false (← member a name) size
    else
      let _ ← next
      return a

/-- A value; `inner` reads the items of lists and the members of objects, unless these would be
nested too deeply. -/
def valueOver (inner : Option (Reader Json)) : Reader Json := do
  match ← skipBlanks with
  | none => failNext .endInValue
  | some 'n' => do
    let _ ← next
    word ['u', 'l', 'l']
    return .null
  | some 't' => do
    let _ ← next
    word ['r', 'u', 'e']
    return .bool true
  | some 'f' => do
    let _ ← next
    word ['a', 'l', 's', 'e']
    return .bool false
  | some '-' => do
    let _ ← next
    number true
  | some '"' => do
    let _ ← next
    return .string (← string)
  | some '[' =>
    match inner with
    | none => failNext .tooDeep
    | some inner => do
      let _ ← next
      return .array (← itemsFrom inner [] ((← get).rest.length + 1))
  | some '\x7b' =>
    match inner with
    | none => failNext .tooDeep
    | some inner => do
      let _ ← next
      let member := fun (done : List (String × Json)) (name : String) => do
        colon
        return (name, ← inner) :: done
      return .ofMembers (← membersFrom member true [] ((← get).rest.length + 1)).reverse
  | some c => if c.isDigit then number false else failNext .noValue

/-- A value with at most `depth` lists and objects around each other. -/
def value : Nat → Reader Json
  | 0 => valueOver none
  | depth + 1 => valueOver (some (value depth))

/-- Reads a whole text. -/
def ofWhole {α : Type} (reader : Reader α) (s : String) : Except ReadError α :=
  match (do let a ← reader; finish; return a) (Cursor.ofString s) with
  | .ok a _ => .ok a
  | .error e _ => .error e

end Reader

/-- The value that a text stands for. -/
def read (s : String) : Except ReadError Json := Reader.ofWhole (Reader.value maxNesting) s

end Resumable.Json
