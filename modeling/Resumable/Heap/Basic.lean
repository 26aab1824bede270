import Resumable.Value.Key

/-!
# The heap

Lists, dicts and iterators, each in a slot of its own. A freed slot is used again before the heap
grows, the one freed last first. Every allocation and every insertion into a container is charged
to the budget that the heap carries.

Operations on the heap are actions: they end with a result or with a failure, and keep what they
have changed in either case.
-/

namespace Resumable

/-- The state of an iterator. -/
inductive Iter where
  /-- Over the list in a slot, so that items added on the way are seen. -/
  | list (id : Nat) (position : Nat)
  | items (items : Array Value) (position : Nat)
  | range (next stop step : Int64)
deriving Inhabited

/-- The contents of a slot. -/
inductive Cell where
  | list (items : Array Value)
  | dict (d : Dict)
  | iter (state : Iter)
deriving Inhabited

namespace Cell

/-- The bytes that a value counts for. -/
def valueBytes : Nat := 48

/-- The bytes that a slot counts for, without what its values count for. -/
def slotBytes : Nat := 88

/-- The bytes that an allocation counts for. -/
def bytes : Cell → Nat
  | .list items => slotBytes + items.size * valueBytes
  | .dict d => slotBytes + d.size * 2 * valueBytes
  | .iter (.items items _) => slotBytes + items.size * valueBytes
  | .iter _ => slotBytes

/-- The slots that a cell refers to. -/
def refs : Cell → List Nat
  | .list items => Value.allRefs [] items.toList
  | .dict d => d.entries.toList.foldl (fun ids e => e.value.refs (e.name.refs ids)) []
  | .iter (.list id _) => [id]
  | .iter (.items items _) => Value.allRefs [] items.toList
  | .iter (.range ..) => []

end Cell

/-- A slot in use. -/
structure Slot where
  cell : Cell
  /-- The bytes charged for it, which are given back when it is freed. -/
  charged : Nat
deriving Inhabited

/-- The slots of a run and its budget. -/
structure Heap where
  slots : Array (Option Slot)
  /-- The free slots, the one freed last first. -/
  free : List Nat
  /-- The number of allocations since the last collection. -/
  recent : Nat
  budget : Budget
deriving Inhabited

/-- Why an action does not end with a result. -/
inductive Failure where
  /-- An exception that the program can catch. -/
  | raised (e : Raised)
  /-- A limit was hit, which ends the run. -/
  | overrun (e : LimitError)
  /-- A comparison of lists or dicts that contain themselves has no end. -/
  | endless
  /-- A slice looks for an item where there is none, or a remainder has no value, which breaks off
  the run. -/
  | stuck
deriving Inhabited

namespace Failure

/-- An exception of a type. -/
def exception (type : ExceptionType) (message : String) : Failure :=
  .raised (.fresh type (some message))

def typeError (message : String) : Failure := exception .typeError message

def valueError (message : String) : Failure := exception .valueError message

/-- The failure that an overrun leads to. -/
def ofLimit (e : LimitError) : Failure :=
  if e.isCatchable then .raised ⟨e.exceptionType, some e.message, [], some e⟩ else .overrun e

end Failure

namespace Heap

/-- An action on the heap. -/
abbrev Action := EStateM Failure Heap

/-- The heap without slots. -/
def ofBudget (budget : Budget) : Heap := ⟨#[], [], 0, budget⟩

/-- The contents of a slot in use. -/
def cell? (h : Heap) (id : Nat) : Option Cell :=
  match h.slots[id]? with
  | some (some slot) => some slot.cell
  | _ => none

/-- The number of slots in use. -/
def liveCount (h : Heap) : Nat := h.slots.countP (·.isSome)

/-- Changes the contents of a slot in use. -/
def modifyCell (id : Nat) (f : Cell → Cell) : Action Unit :=
  modify fun h =>
    { h with slots := h.slots.modify id (Option.map fun s => { s with cell := f s.cell }) }

/-- Changes the items of a list. -/
def modifyList (id : Nat) (f : Array Value → Array Value) : Action Unit :=
  modifyCell id fun
    | .list items => .list (f items)
    | c => c

/-- Changes a dict. -/
def modifyDict (id : Nat) (f : Dict → Dict) : Action Unit :=
  modifyCell id fun
    | .dict d => .dict (f d)
    | c => c

/-- Ends an action if a limit is hit. -/
def withinLimit {α : Type} : Except LimitError α → Action α
  | .ok a => pure a
  | .error e => throw (.ofLimit e)

/-- Charges an allocation or insertion of so many bytes. -/
def charge (bytes : Nat) : Action Unit := do
  let budget ← withinLimit ((← get).budget.allocate bytes)
  modify fun h => { h with budget }

/-- Puts a cell into a slot. -/
def place (h : Heap) (slot : Slot) : Nat × Heap :=
  match h.free with
  | id :: free => (id, { h with slots := h.slots.setIfInBounds id (some slot), free })
  | [] => (h.slots.size, { h with slots := h.slots.push (some slot) })

/-- Allocates a cell. -/
def alloc (c : Cell) : Action Value := do
  charge c.bytes
  modifyGet fun h =>
    let (id, h) := place { h with recent := h.recent + 1 } ⟨c, c.bytes⟩
    (.ref id, h)

/-- Allocates a list. -/
def allocList (items : Array Value) : Action Value := alloc (.list items)

/-- Charges the insertion of an item into a container. -/
def chargeInsert (id : Nat) : Action Unit := do
  charge Cell.valueBytes
  modify fun h =>
    { h with
      slots := h.slots.modify id (Option.map fun s =>
        { s with charged := s.charged + Cell.valueBytes }) }

/-- Checks a result of so many bytes before it is built. -/
def checkResult (bytes : Nat) : Action Unit := do
  withinLimit ((← get).budget.checkResult bytes)

/-- Checks a result whose size is worth a check. -/
def checkLarge (bytes : Nat) : Action Unit := do
  if bytes > Limits.largeResult then checkResult bytes

/-- The name of the type of a value. -/
def typeName (h : Heap) : Value → String
  | .undefined => "undefined"
  | .none => "NoneType"
  | .ellipsis => "ellipsis"
  | .bool _ => "bool"
  | .int _ => "int"
  | .float _ => "float"
  | .str _ => "str"
  | .bytes _ => "bytes"
  | .tuple _ => "tuple"
  | .path _ => "PosixPath"
  | .exception e => e.type.name
  | .namedTuple .. => "stat_result"
  | .ref id =>
    match h.cell? id with
    | some (.list _) => "list"
    | some (.dict _) => "dict"
    | _ => "iterator"
  | .function .. | .external _ => "function"
  | .builtin _ => "builtin_function_or_method"
  | .excClass _ => "type"
  | .module _ => "module"
  | .future _ => "Future"
  | .gather _ => "_GatheringFuture"
  | .range .. => "range"
  | .slice .. => "slice"

/-- Whether a value counts as true. -/
def isTruthy (h : Heap) : Value → Bool
  | .none | .undefined => false
  | .bool b => b
  | .int i => i != 0
  | .float x => x != 0.0
  | .str s | .path s => !s.isEmpty
  | .bytes data => !data.isEmpty
  | .tuple items | .namedTuple _ _ items => !items.isEmpty
  | .range start stop step => rangeLength start stop step > 0
  | .ref id =>
    match h.cell? id with
    | some (.list items) => !items.isEmpty
    | some (.dict d) => d.size != 0
    | _ => true
  | _ => true

/-- The key of a value. -/
def key (v : Value) : Action Key := do
  match Key.ofValue v with
  | .ok key => pure key
  | .error part =>
    let kind := (← get).typeName part
    throw (.typeError s!"unhashable type: '{kind}'")

end Heap

end Resumable
