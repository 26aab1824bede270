import Resumable.Heap.Comparison
import Resumable.Object.Text

/-!
# Values and objects

Values become objects when they leave a run, and objects become values when they enter one. A list
or dict inside itself is cut off where it comes again; a value that has no meaning outside a run
becomes its text.
-/

namespace Resumable

namespace Value

/-- The text of a bound of a slice. -/
def boundText : Option Int64 → String
  | some i => toString i.toInt
  | Option.none => "None"

mutual

/-- The object of a value, where `cell` gives the objects of heap entries. -/
def toObjectBy (cell : Nat → Object) : Value → Object
  | .undefined | .none => .none
  | .ellipsis => .ellipsis
  | .bool b => .bool b
  | .int i => .int i
  | .float x => .float x
  | .str s => .string s
  | .bytes data => .bytes data
  | .tuple items => .tuple (toObjectsBy cell [] items)
  | .path p => .path p
  | .exception e => .exception e.type e.message
  | .namedTuple type fields items => .namedTuple type fields (toObjectsBy cell [] items)
  | .ref id => cell id
  | .function .. => .repr "<function>"
  | .external _ => .repr "<external function>"
  | .builtin f => .repr ("<built-in function " ++ f.name ++ ">")
  | .excClass type => .repr ("<class '" ++ type.name ++ "'>")
  | .module m => .repr ("<module '" ++ m.name ++ "'>")
  | .future id => .repr s!"<Future call_id={id}>"
  | .gather _ => .repr "<_GatheringFuture>"
  | .range start stop step =>
    let bounds := toString start.toInt ++ ", " ++ toString stop.toInt
    let bounds := if step == 1 then bounds else bounds ++ ", " ++ toString step.toInt
    .repr s!"range({bounds})"
  | .slice start stop step =>
    .repr ("slice(" ++ boundText start ++ ", " ++ boundText stop ++ ", " ++ boundText step ++ ")")

/-- The objects of values, behind those in `done`, the last of them first. -/
def toObjectsBy (cell : Nat → Object) (done : List Object) : List Value → List Object
  | [] => done.reverse
  | v :: vs => toObjectsBy cell (toObjectBy cell v :: done) vs

end

end Value

namespace Heap

/-- The object of a heap entry. The entries in `around` contain it; there are fewer than `depth`
others. -/
def cellObject (h : Heap) : Nat → List Nat → Nat → Object
  | 0, _, _ => .repr "[...]"
  | depth + 1, around, id =>
    let inside := Value.toObjectBy (cellObject h depth (id :: around))
    match h.cell? id with
    | some (.list items) =>
      if around.contains id then .repr "[...]" else .list (items.toList.map inside)
    | some (.dict d) =>
      if around.contains id then .repr "\x7b...\x7d"
      else .dict (d.entries.toList.map fun e => (inside e.name, inside e.value))
    | _ => .repr "<iterator object>"

/-- The object of a value. -/
def toObject (h : Heap) (v : Value) : Object :=
  v.toObjectBy (cellObject h (h.slots.size + 1) [])

/-- The spelling of a value in a program. -/
def literal (h : Heap) (v : Value) : String := (h.toObject v).literal

/-- A value as a program prints it. -/
def text (h : Heap) : Value → String
  | .str s | .path s => s
  | v => (h.toObject v).text

mutual

/-- The value of an object; lists and dicts are allocated, the inner ones first. -/
def ofObject : Object → Action Value
  | .none => pure .none
  | .ellipsis => pure .ellipsis
  | .bool b => pure (.bool b)
  | .int i => pure (.int i)
  | .float x => pure (.float x)
  | .string s => pure (.str s)
  | .bytes data => pure (.bytes data)
  | .path p => pure (.path p)
  | .tuple items => do return .tuple (← ofObjects [] items)
  | .list items => do allocList (← ofObjects [] items).toArray
  | .dict entries => do alloc (.dict (← ofEntries .empty entries))
  | .namedTuple type fields items => do return .namedTuple type fields (← ofObjects [] items)
  | .exception type message => pure (.exception (.fresh type message))
  | .repr shown =>
    throw (.typeError s!"repr-only value {shown} cannot be passed into the sandbox")

/-- The values of objects, behind those in `done`, the last of them first. -/
def ofObjects (done : List Value) : List Object → Action (List Value)
  | [] => pure done.reverse
  | o :: rest => do
    let v ← ofObject o
    ofObjects (v :: done) rest

/-- The dict with further entries. -/
def ofEntries (d : Dict) : List (Object × Object) → Action Dict
  | [] => pure d
  | (k, v) :: rest => do
    let name ← ofObject k
    let value ← ofObject v
    let key ← key name
    ofEntries (d.insert key name value) rest

end

end Heap

end Resumable
