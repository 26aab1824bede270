import Resumable.Heap.Comparison
import Resumable.Heap.Iteration
import Resumable.Number
import Resumable.Path
import Resumable.Text.Search
import Resumable.Text.Utf8

/-!
# Operators

The operators of programs on all types of values. Numbers come first; sequences can be added and
repeated, and paths divided.
-/

namespace Resumable

namespace Heap

/-- The failure that an error of arithmetic leads to. -/
def withinNumbers {α : Type} : Except NumberError α → Action α
  | .ok a => pure a
  | .error e => throw (.exception e.type e.message)

/-- The failure of an operator on values of these types. -/
def unsupported (h : Heap) (op : Operator) (a b : Value) : Failure :=
  .typeError ("unsupported operand type(s) for " ++ op.symbol ++ ": '" ++ h.typeName a ++
    "' and '" ++ h.typeName b ++ "'")

/-- `n` copies of a list, one behind the other. -/
def copies {α : Type} (n : Nat) (items : List α) : List α :=
  if items.isEmpty then [] else (List.replicate n items).flatten

/-- The bytes that one copy of a sequence counts for in a repetition. -/
def unitBytes (h : Heap) : Value → Option Nat
  | .str s => some (Text.utf8Size s)
  | .bytes data => some data.length
  | .tuple items => some (items.length * Cell.valueBytes)
  | .ref id =>
    match h.cell? id with
    | some (.list items) => some (items.size * Cell.valueBytes)
    | _ => none
  | _ => none

/-- A sequence repeated `n` times; `none` if the value is no sequence. -/
def repeated (v : Value) (n : Nat) : Action (Option Value) := do
  let h ← get
  match h.unitBytes v with
  | none => return none
  | some unit =>
    if unit * n ≥ UInt64.size then
      throw (.exception .overflowError "repeated sequence is too long")
    checkLarge (unit * n)
    match v with
    | .str s => return some (.str (String.ofList (copies n s.toList)))
    | .bytes data => return some (.bytes (copies n data))
    | .tuple items => return some (.tuple (copies n items))
    | .ref id =>
      match h.cell? id with
      | some (.list items) => return some (← allocList (copies n items.toList).toArray)
      | _ => return none
    | _ => return none

/-- An operator on values that are not both numbers. -/
def combine (op : Operator) (a b : Value) : Action Value := do
  match op, a, b with
  | .add, .str x, .str y => do
    checkLarge (Text.utf8Size x + Text.utf8Size y)
    return .str (x ++ y)
  | .add, .bytes x, .bytes y => do
    checkLarge (x.length + y.length)
    return .bytes (x ++ y)
  | .add, .tuple x, .tuple y => return .tuple (x ++ y)
  | .add, .ref x, .ref y => do
    let h ← get
    match h.cell? x, h.cell? y with
    | some (.list l), some (.list r) => allocList (l ++ r)
    | _, _ => throw (h.unsupported op a b)
  | .mult, a, b => do
    let product? ←
      match b.int?, a.int? with
      | some n, _ => repeated a n.toInt.toNat
      | none, some n => repeated b n.toInt.toNat
      | none, none => pure none
    match product? with
    | some v => return v
    | none => throw ((← get).unsupported op a b)
  | .div, .path base, .str part | .div, .path base, .path part | .div, .str base, .path part =>
    return .path (String.ofList (Path.join base.toList part.toList))
  | op, a, b => throw ((← get).unsupported op a b)

/-- An operator on two values. -/
def binary (op : Operator) (a b : Value) : Action Value := do
  match a.int?, b.int?, a.number?, b.number? with
  | some x, some y, _, _ => withinNumbers (Number.onIntegers op x y)
  | _, _, some x, some y => withinNumbers (Number.onFloats op x y)
  | _, _, _, _ => combine op a b

/-- An operator of an assignment: a list on the left of `+=` is extended in place. -/
def inplace (op : Operator) (a b : Value) : Action Value := do
  match op, a with
  | .add, .ref id => do
    match (← get).cell? id with
    | some (.list _) => do
      let more ← items b
      more.forM fun _ => chargeInsert id
      modifyList id (· ++ more)
      return a
    | _ => binary op a b
  | _, _ => binary op a b

/-- The negative of a number. -/
def negate (v : Value) : Action Value := do
  match v, v.int? with
  | .float x, _ => return .float (-x)
  | _, some i => return .int (← withinNumbers (Number.negate i))
  | v, none =>
    let kind := (← get).typeName v
    throw (.typeError s!"bad operand type for unary -: '{kind}'")

/-- A number as it is, a truth value as an integer. -/
def positive (v : Value) : Action Value := do
  match v, v.int? with
  | .float x, _ => return .float x
  | _, some i => return .int i
  | v, none =>
    let kind := (← get).typeName v
    throw (.typeError s!"bad operand type for unary +: '{kind}'")

/-- Whether an integer is in a range; the arithmetic wraps. There is no answer where the remainder
of the least integer by `-1` is asked for. -/
def inRange (i start stop step : Int64) : Option Bool :=
  if if step > 0 then i ≥ start && i < stop else i ≤ start && i > stop then
    if i - start == Int64.minValue && step == -1 then none else some ((i - start) % step == 0)
  else some false

/-- Whether a container holds an item. -/
def holds (container item : Value) : Action Bool := do
  match container with
  | .str s =>
    match item with
    | .str needle => return Text.occursIn needle.toList s.toList
    | _ =>
      let kind := (← get).typeName item
      throw (.typeError s!"'in <string>' requires string as left operand, not {kind}")
  | .bytes data =>
    match item, item.int? with
    | .bytes needle, _ => return Text.occursIn needle data
    | _, some i => return data.any fun b => (b.toNat : Int) == i.toInt
    | _, none => throw (.typeError "a bytes-like object is required")
  | .tuple items | .namedTuple _ _ items => isAmong item items
  | .range start stop step =>
    match item.int? with
    | some i =>
      match inRange i start stop step with
      | some answer => return answer
      | none => throw .stuck
    | none => return false
  | .ref id =>
    match (← get).cell? id with
    | some (.dict d) => return d.contains (← key item)
    | _ => isAmong item (← items container).toList
  | v =>
    let kind := (← get).typeName v
    throw (.typeError s!"argument of type '{kind}' is not iterable")

/-- Whether an ordering is what an operator asks for. -/
def agrees : Comparator → Ordering → Bool
  | .lt, o => o == .lt
  | .ltE, o => o != .gt
  | .gt, o => o == .gt
  | .gtE, o => o != .lt
  | _, _ => false

/-- Whether two values are in the order that an operator asks for. Numbers that have no order are
in none. -/
def ordered (op : Comparator) (a b : Value) : Action Bool := do
  let h ← get
  match a.number?, b.number?, h.compare? a b with
  | some _, some _, .error .nan => return false
  | _, _, .ok ordering => return agrees op ordering
  | _, _, .error .endless => throw .endless
  | _, _, .error _ =>
    throw (.typeError ("'" ++ op.symbol ++ "' not supported between instances of '" ++
      h.typeName a ++ "' and '" ++ h.typeName b ++ "'"))

/-- A comparison of two values. -/
def comparison (op : Comparator) (a b : Value) : Action Bool :=
  match op with
  | .eq => equal a b
  | .notEq => not <$> equal a b
  | .is => pure (a.same b)
  | .isNot => pure (!a.same b)
  | .isIn => holds b a
  | .notIn => not <$> holds b a
  | op => ordered op a b

end Heap

end Resumable
