import Resumable.Host.Error
import Resumable.Json
import Resumable.Json.Reader

/-!
# Limits of a run

How a host and a file set limits.

## Limits as a host sets them

The limits of a run in the form in which they are configured: the duration in seconds, and any of
them left out. A limit that is left out is off, apart from the depth of calls, which then has its
default.
-/

namespace Resumable

/-- The limits of a run as they are configured. -/
structure LimitSettings where
  maxAllocations : Option Nat
  /-- In seconds. -/
  maxDuration : Option Float
  /-- In bytes. -/
  maxMemory : Option Nat
  gcInterval : Option Nat
  maxRecursionDepth : Option Nat
  maxOperations : Option Nat
deriving Inhabited

/-- One of the limits. -/
inductive LimitField where
  | allocations
  | duration
  | memory
  | interval
  | depth
  | operations
deriving DecidableEq, Repr

namespace LimitField

/-- All limits, in the order in which a list gives them. -/
def all : List LimitField := [.allocations, .duration, .memory, .interval, .depth, .operations]

/-- The name of a limit in a configuration. -/
def name : LimitField → String
  | .allocations => "max_allocations"
  | .duration => "max_duration_secs"
  | .memory => "max_memory"
  | .interval => "gc_interval"
  | .depth => "max_recursion_depth"
  | .operations => "max_operations"

/-- The limit with a name. -/
def ofName? (name : String) : Option LimitField := all.find? (·.name == name)

end LimitField

namespace LimitSettings

/-- Nothing is limited but the depth of calls, to its default. -/
def unset : LimitSettings := ⟨none, none, none, none, none, none⟩

/-- Sets a limit that is a count. -/
def setCount (s : LimitSettings) (field : LimitField) (n : Option Nat) : LimitSettings :=
  match field with
  | .allocations => { s with maxAllocations := n }
  | .duration => s
  | .memory => { s with maxMemory := n }
  | .interval => { s with gcInterval := n }
  | .depth => { s with maxRecursionDepth := n }
  | .operations => { s with maxOperations := n }

/-- Sets a limit from a JSON value; `null` leaves it out. -/
def set? (s : LimitSettings) : LimitField → Json → Option LimitSettings
  | .duration, .null => some { s with maxDuration := none }
  | .duration, .int i => some { s with maxDuration := some (Float.ofInt i) }
  | .duration, .float x => some { s with maxDuration := some x }
  | .duration, _ => none
  | field, .null => some (s.setCount field none)
  | field, .int i => if 0 ≤ i then some (s.setCount field (some i.toNat)) else none
  | _, _ => none

/-- The settings of a JSON value: an object with the names of limits, or a list with the first ones
in order. -/
def ofJson? : Json → Option LimitSettings
  | .object members =>
    members.foldlM (fun s (name, v) => do s.set? (← LimitField.ofName? name) v) unset
  | .array items =>
    if items.length > LimitField.all.length then none
    else (LimitField.all.zip items).foldlM (fun s (field, v) => s.set? field v) unset
  | _ => none

/-- A duration in seconds as nanoseconds, rounded to the nearest, a half to even; `none` if it is
negative, not a number, or `2^64` seconds and more. -/
def nanoseconds? (seconds : Float) : Option Nat :=
  if seconds.isNaN || seconds < 0.0 || seconds ≥ 18446744073709551616.0 then none
  else
    let (mantissa, binary) := Decimal.parts seconds
    let (num, den) := Decimal.fraction mantissa binary 9
    some (Decimal.roundDiv num den)

/-- The limits that settings stand for. -/
def toLimits (s : LimitSettings) : Except HostError Limits := do
  let maxDuration ← s.maxDuration.mapM fun seconds =>
    match nanoseconds? seconds with
    | some n => .ok n
    | none => .error (HostError.validation (.duration seconds))
  if s.gcInterval == some 0 then throw (.validation .zeroInterval)
  return {
    maxOperations := s.maxOperations
    maxAllocations := s.maxAllocations
    maxDuration
    maxMemory := s.maxMemory
    gcInterval := s.gcInterval
    maxRecursionDepth := some (s.maxRecursionDepth.getD Limits.defaultRecursionDepth) }

end LimitSettings

end Resumable

/-!
## Limits in a file

A file with limits is JSON. A value that is no limit is refused where it stands, before the rest of
the file is read.
-/

namespace Resumable.LimitSettings

open Json Json.Reader

/-- A text in quotes, as messages show it. -/
def shownText (s : String) : String :=
  "\"" ++ String.ofList (s.toList.flatMap shown) ++ "\""
where
  shown (c : Char) : List Char :=
    if c == '"' then ['\\', '"']
    else if c == '\\' then ['\\', '\\']
    else if c == '\n' then ['\\', 'n']
    else if c == '\r' then ['\\', 'r']
    else if c == '\t' then ['\\', 't']
    else if c == '\x00' then ['\\', '0']
    else if c.toNat < 0x20 || c.toNat == 0x7F then
      '\\' :: 'u' :: '\x7b' :: Nat.toDigits 16 c.toNat ++ ['\x7d']
    else [c]

/-- What a JSON value is, as messages call it. -/
def kindText : Json → String
  | .null => "null"
  | .bool b => "boolean `" ++ (if b then "true" else "false") ++ "`"
  | .int i => "integer `" ++ toString i ++ "`"
  | .float x => "floating point `" ++ Decimal.FloatStyle.json.text x ++ "`"
  | .string s => "string " ++ shownText s
  | .array _ => "sequence"
  | .object _ => "map"

/-- Refuses a value. -/
def refuse {α : Type} (reason : String) (j : Json) (expected : String) : Reader α :=
  fail (.unfit (s!"invalid {reason}: " ++ kindText j ++ s!", expected {expected}"))

/-- Refuses the value that stands here; of a list or an object only the bracket is looked at. -/
def refuseNext {α : Type} (expected : String) : Reader α := do
  match ← peek with
  | some '[' => refuse "type" (.array []) expected
  | some '\x7b' => refuse "type" (.object []) expected
  | _ => refuse "type" (← valueOver none) expected

/-- A number. -/
def numberFor (expected : String) : Reader Json := do
  match ← skipBlanks with
  | none => failNext .endInValue
  | some c =>
    if c == '-' || c.isDigit then valueOver none else refuseNext expected

/-- Sets a limit from the value that stands here. -/
def readField (s : LimitSettings) (field : LimitField) : Reader LimitSettings := do
  let expected := if field == .duration then "f64" else "usize"
  let j ← if (← skipBlanks) == some 'n' then valueOver none else numberFor expected
  match s.set? field j with
  | some s => return s
  | none =>
    match j with
    | .int _ => refuse "value" j expected
    | _ => refuse "type" j expected

/-- Refuses the name of a member. -/
def refuseName {α : Type} (message : String) : Reader α := do
  if (← skipBlanks) == some '\x7d' then
    let _ ← next
  fail (.unfit message)

/-- The names of all limits. -/
def fieldList : String := ", ".intercalate (LimitField.all.map fun f => "`" ++ f.name ++ "`")

/-- Sets the limit of a member whose name has been taken; `seen` are those that are set. -/
def readMember (state : List LimitField × LimitSettings) (name : String) :
    Reader (List LimitField × LimitSettings) := do
  let (seen, s) := state
  match LimitField.ofName? name with
  | none => refuseName ("unknown field `" ++ name ++ "`, expected one of " ++ fieldList)
  | some field =>
    if seen.contains field then refuseName ("duplicate field `" ++ name ++ "`")
    colon
    return (field :: seen, ← s.readField field)

/-- The rest of a list of limits. -/
def readItems (isFirst : Bool) (s : LimitSettings) : List LimitField → Reader LimitSettings
  | [] => do
    match ← skipBlanks with
    | some ']' =>
      let _ ← next
      return s
    | some ',' =>
      let _ ← next
      if (← skipBlanks) == some ']' then failNext .trailingComma else failNext .trailingText
    | some _ => failNext .trailingText
    | none => failNext .endInList
  | field :: rest => do
    if ← hasNextItem isFirst then readItems false (← s.readField field) rest
    else
      let _ ← next
      return s

/-- Limits as a JSON value. -/
def reader : Reader LimitSettings := do
  match ← skipBlanks with
  | none => failNext .endInValue
  | some '[' =>
    let _ ← next
    readItems true unset LimitField.all
  | some '\x7b' =>
    let _ ← next
    return (← membersFrom readMember true ([], unset) ((← get).rest.length + 1)).2
  | some _ => refuseNext "struct Limits"

/-- The limits in the text of a file. -/
def read (text : String) : Except ReadError LimitSettings := ofWhole reader text

end Resumable.LimitSettings
