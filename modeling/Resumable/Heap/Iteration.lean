import Resumable.Heap.Basic

/-!
# Iteration

The items of values that can be iterated over, and iterators, which give one item at a time. An
iterator over a list looks at the list anew for each item; one over anything else has its items from
the start, except that of a range, which counts.
-/

namespace Resumable

/-- A text of one character. -/
def Value.ofChar (c : Char) : Value := .str (String.singleton c)

/-- A byte as an integer. -/
def Value.ofByte (b : UInt8) : Value := .int (Int64.ofNat b.toNat)

namespace Heap

/-- The items that an iterator still has to give. -/
def remaining (h : Heap) : Iter → Array Value
  | .items items position => items.extract position items.size
  | .list id position =>
    match h.cell? id with
    | some (.list items) => items.extract position items.size
    | _ => #[]
  | .range next stop step => (rangeItems next stop step).toArray

/-- The items of a value, if it can be iterated over. -/
def items? (h : Heap) : Value → Option (Array Value)
  | .tuple items | .namedTuple _ _ items => some items.toArray
  | .str s => some (s.toList.map Value.ofChar).toArray
  | .bytes data => some (data.map Value.ofByte).toArray
  | .range start stop step => some (rangeItems start stop step).toArray
  | .ref id =>
    match h.cell? id with
    | some (.list items) => some items
    | some (.dict d) => some d.names
    | some (.iter state) => some (h.remaining state)
    | none => none
  | _ => none

/-- The items of a value. -/
def items (v : Value) : Action (Array Value) := do
  let h ← get
  match h.items? v with
  | some items => pure items
  | none =>
    let kind := h.typeName v
    throw (.typeError s!"'{kind}' object is not iterable")

/-- An iterator over a value; an iterator is its own. -/
def iterate (v : Value) : Action Value := do
  match v with
  | .range start stop step => alloc (.iter (.range start stop step))
  | .ref id =>
    match (← get).cell? id with
    | some (.list _) => alloc (.iter (.list id 0))
    | some (.iter _) => pure v
    | _ => do
      let items ← items v
      alloc (.iter (.items items 0))
  | v => do
    let items ← items v
    alloc (.iter (.items items 0))

/-- The item that an iterator gives next, and its state behind that. -/
def advance (h : Heap) : Iter → Option (Value × Iter)
  | .items items position =>
    items[position]?.map fun item => (item, .items items (position + 1))
  | .list id position =>
    match h.cell? id with
    | some (.list items) => items[position]?.map fun item => (item, .list id (position + 1))
    | _ => none
  | .range next stop step =>
    if (if step > 0 then next ≥ stop else next ≤ stop) then none
    else some (.int next, .range (next + step) stop step)

/-- The next item of the iterator in a slot, if it has one. -/
def next (id : Nat) : Action (Option Value) := do
  let h ← get
  match h.cell? id with
  | some (.iter state) =>
    match h.advance state with
    | some (item, state) => do
      modifyCell id fun _ => .iter state
      pure (some item)
    | none => pure none
  | _ => pure none

end Heap

end Resumable
