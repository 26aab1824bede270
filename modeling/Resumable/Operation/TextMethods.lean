import Resumable.Heap.Iteration
import Resumable.Operation.Arguments
import Resumable.Text.CaseMap
import Resumable.Text.Quoted
import Resumable.Text.Search
import Resumable.Text.Utf8

/-!
# Methods of texts and byte strings
-/

namespace Resumable.TextMethod

open Heap (Action)

/-- An argument that must be a text. -/
def textOf (method : String) : Value → Action String
  | .str s => pure s
  | v => do
    let kind := (← get).typeName v
    throw (.typeError s!"{method}() argument must be str, not {kind}")

/-- The list of texts. -/
def listOfTexts (pieces : List (List Char)) : Action Value :=
  Heap.allocList (pieces.map fun cs => Value.str (String.ofList cs)).toArray

/-- The text without certain characters at one end or both; blanks where nothing is said. -/
def strip (s method : String) (args : Arguments) : Action Value := do
  let drop ←
    match ← args.atMostOne method with
    | none | some .none => pure Text.isBlank
    | some v => do
      let set := (← textOf method v).toList
      pure fun c => set.contains c
  let cs := s.toList
  let kept :=
    if method == "lstrip" then Text.dropStart drop cs
    else if method == "rstrip" then Text.dropEnd drop cs
    else Text.dropBoth drop cs
  return .str (String.ofList kept)

/-- The number of splits that a value allows; any number where nothing is said. -/
def splitLimit : Option Value → Action (Option Nat)
  | none => pure none
  | some (.int n) => pure (if n ≥ 0 then some n.toInt.toNat else none)
  | some v => do throw ((← get).notAnInteger v)

/-- The pieces of a text between separators, or its fields where there is no separator. -/
def splitBy (s : String) (limit : Option Nat) (separator : Value) : Action Value := do
  match separator with
  | .none => listOfTexts (Text.fields limit s.toList)
  | v => do
    let separator ← textOf "split" v
    if separator.isEmpty then throw (.valueError "empty separator")
    listOfTexts (Text.split separator.toList limit s.toList)

/-- The call of `split`. -/
def split (s : String) (args : Arguments) : Action Value := do
  let (namedLimit, args) := args.take "maxsplit"
  let (namedSeparator, args) := args.take "sep"
  let positional ← args.between "split" 0 (some 2)
  let (separator, rest) := match namedSeparator, positional with
    | some v, rest => (v, rest)
    | none, v :: rest => (v, rest)
    | none, [] => (.none, [])
  let limit ← splitLimit (namedLimit.or rest.head?)
  splitBy s limit separator

/-- The texts that a value holds, which must be texts. -/
def textsOf (texts : List (List Char)) (index : Nat) : List Value → Action (List (List Char))
  | [] => pure texts.reverse
  | .str s :: rest => textsOf (s.toList :: texts) (index + 1) rest
  | v :: _ => do
    let kind := (← get).typeName v
    throw (.typeError s!"sequence item {index}: expected str instance, {kind} found")

/-- The text with `s` between the texts of an iterable value. -/
def join (s : String) (args : Arguments) : Action Value := do
  let texts ← textsOf [] 0 (← Heap.items (← args.one "join")).toList
  let joined := String.ofList (s.toList.intercalate texts)
  Heap.checkResult (Text.utf8Size joined)
  return .str joined

/-- The values in a tuple, or a value alone. -/
def alternatives : Value → List Value
  | .tuple items => items
  | v => [v]

/-- Whether a text begins or ends with one of some texts, which are all looked at. -/
def hasAffix (s method : String) (args : Arguments) : Action Value := do
  let texts ← (alternatives (← args.one method)).mapM (textOf method)
  let matchesAffix := fun (t : String) =>
    if method == "startswith" then t.toList.isPrefixOf s.toList else t.toList.isSuffixOf s.toList
  return .bool (texts.any matchesAffix)

/-- The text with one text in place of another. -/
def replace (s : String) (args : Arguments) : Action Value := do
  match ← args.between "replace" 2 (some 3) with
  | old :: new :: rest => do
    let old ← textOf "replace" old
    let new ← textOf "replace" new
    let limit := match rest.head? with
      | some (.int n) => if n ≥ 0 then some n.toInt.toNat else none
      | _ => none
    let replaced := String.ofList (Text.replace old.toList new.toList limit s.toList)
    Heap.checkResult (Text.utf8Size replaced)
    return .str replaced
  | _ => return .none

/-- The text that bytes encode. -/
def decode (data : List UInt8) : Action Value := do
  match Text.ofUtf8 data with
  | .ok s => return .str s
  | .error index =>
    let byte := String.ofList (Text.hexByte ((data[index]?).elim 0 (·.toNat)))
    throw (.exception .unicodeDecodeError
      s!"'utf-8' codec can't decode byte 0x{byte} in position {index}: invalid start byte")

/-- Calls a method of a text; `none` if there is no method of that name. -/
def call (s name : String) (args : Arguments) : Option (Action Value) :=
  match name with
  | "upper" => some do
    args.nothing name
    return .str (Text.upper s)
  | "lower" => some do
    args.nothing name
    return .str (Text.lower s)
  | "strip" | "lstrip" | "rstrip" => some (strip s name args)
  | "split" => some (split s args)
  | "splitlines" => some do
    args.nothing name
    Heap.allocList ((linesOf s).map Value.str).toArray
  | "join" => some (join s args)
  | "startswith" | "endswith" => some (hasAffix s name args)
  | "replace" => some (replace s args)
  | "encode" => some do
    let _ ← args.between name 0 (some 2)
    return .bytes (Text.utf8 s)
  | "find" => some do
    let needle ← textOf name (← args.one name)
    match Text.cut? needle.toList s.toList with
    | some (before, _) => return .int (Int64.ofNat before.length)
    | none => return .int (-1)
  | "count" => some do
    let needle ← textOf name (← args.one name)
    return .int (Int64.ofNat (Text.count needle.toList s.toList))
  | "isdigit" => some do
    args.nothing name
    return .bool (!s.isEmpty && s.all Char.isDigit)
  | _ => none

/-- Calls a method of a byte string; `none` if there is no method of that name. -/
def callBytes (data : List UInt8) (name : String) (args : Arguments) : Option (Action Value) :=
  if name == "decode" then some do
    let _ ← args.between name 0 (some 2)
    decode data
  else none

end Resumable.TextMethod
