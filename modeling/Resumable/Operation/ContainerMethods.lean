import Resumable.Heap.Conversion
import Resumable.Heap.Iteration
import Resumable.Operation.Arguments
import Resumable.Operation.Sorting

/-!
# Methods of lists and dicts

A method first checks its arguments, then charges what it adds, and only then changes its object.
The exceptions are a dict that gets a new key from `update`, which is charged for it afterwards, and
a sort that fails, which leaves its list in another order.
-/

namespace Resumable

open Heap (Action)

namespace ListMethod

/-- The items of a list. -/
def itemsOf (id : Nat) : Action (Array Value) := do
  match (← get).cell? id with
  | some (.list items) => pure items
  | _ => pure #[]

/-- Adds the items of an iterable value at the end. -/
def extend (id : Nat) (iterable : Value) : Action Value := do
  let more ← Heap.items iterable
  more.forM fun _ => Heap.chargeInsert id
  Heap.modifyList id (· ++ more)
  return .none

/-- Inserts an item in front of the one at an index. -/
def insert (id : Nat) (index item : Value) : Action Value := do
  match index with
  | .int i => do
    Heap.chargeInsert id
    Heap.modifyList id fun items =>
      let at_ := if i < 0 then (i.toInt + items.size).toNat else min i.toInt.toNat items.size
      items.insertIdxIfInBounds at_ item
    return .none
  | v => throw ((← get).notAnInteger v)

/-- The position that an index of `pop` means, the last one where nothing is said. -/
def popPosition (size : Nat) : Option Value → Action Int
  | none => pure ((size : Int) - 1)
  | some (.int i) => pure (if i < 0 then i.toInt + size else i.toInt)
  | some _ => throw (.typeError "list indices must be integers")

/-- Removes and returns the item at an index. -/
def pop (id : Nat) (index : Option Value) : Action Value := do
  let items ← itemsOf id
  if items.isEmpty then throw (.exception .indexError "pop from empty list")
  let i ← popPosition items.size index
  if i < 0 then throw (.exception .indexError "pop index out of range")
  match items[i.toNat]? with
  | none => throw (.exception .indexError "pop index out of range")
  | some item => do
    Heap.modifyList id (·.eraseIdxIfInBounds i.toNat)
    return item

/-- The index of the first item that is equal to a value, counting from `index` on. -/
def positionOf (needle : Value) (index : Nat) : List Value → Action (Option Nat)
  | [] => pure none
  | v :: rest => do
    if ← Heap.equal v needle then pure (some index) else positionOf needle (index + 1) rest

/-- The number of items that are equal to a value, on top of `found`. -/
def countOf (needle : Value) (found : Nat) : List Value → Action Nat
  | [] => pure found
  | v :: rest => do
    countOf needle (if ← Heap.equal v needle then found + 1 else found) rest

/-- Sorts the list. While its items are compared, the list itself is empty. -/
def sort (id : Nat) (descending : Bool) : Action Value := do
  let items ← itemsOf id
  Heap.modifyList id fun _ => #[]
  let (items, failed) := (← get).sorted descending items
  Heap.modifyList id fun _ => items
  match failed with
  | some e => throw e
  | none => return .none

/-- Calls a method of a list; `none` if there is no method of that name. -/
def call (id : Nat) (name : String) (args : Arguments) : Option (Action Value) :=
  match name with
  | "append" => some do
    let item ← args.one name
    Heap.chargeInsert id
    Heap.modifyList id (·.push item)
    return .none
  | "extend" => some do extend id (← args.one name)
  | "insert" => some do
    let (index, item) ← args.two name
    insert id index item
  | "pop" => some do pop id (← args.atMostOne name)
  | "index" => some do
    let needle ← args.one name
    match ← positionOf needle 0 (← itemsOf id).toList with
    | some p => return .int (Int64.ofNat p)
    | none => throw (.valueError ((← get).literal needle ++ " is not in list"))
  | "count" => some do
    let needle ← args.one name
    return .int (Int64.ofNat (← countOf needle 0 (← itemsOf id).toList))
  | "remove" => some do
    let needle ← args.one name
    match ← positionOf needle 0 (← itemsOf id).toList with
    | some p => do
      Heap.modifyList id (·.eraseIdxIfInBounds p)
      return .none
    | none => throw (.valueError "list.remove(x): x not in list")
  | "copy" => some do
    args.nothing name
    Heap.allocList (← itemsOf id)
  | "reverse" => some do
    args.nothing name
    Heap.modifyList id Array.reverse
    return .none
  | "clear" => some do
    args.nothing name
    Heap.modifyList id fun _ => #[]
    return .none
  | "sort" => some do
    let (reverse, args) := args.take "reverse"
    let descending := reverse.any (← get).isTruthy
    let (key, args) := args.take "key"
    if key.isSome then
      throw (.exception .notImplementedError "list.sort() key= is not supported")
    args.nothing name
    sort id descending
  | _ => none

end ListMethod

namespace DictMethod

/-- The dict in a slot. -/
def dictOf (id : Nat) : Action Dict := do
  match (← get).cell? id with
  | some (.dict d) => pure d
  | _ => pure .empty

/-- The pair in the `index`-th item of a sequence of pairs. -/
def pairOf (index : Nat) (item : Value) : Action (Value × Value) := do
  let parts ← Heap.items item
  match parts.toList with
  | [k, v] => pure (k, v)
  | parts =>
    let count := parts.length
    throw (.valueError
      s!"dictionary update sequence element #{index} has length {count}; 2 is required")

/-- The pairs in the items of a sequence from the `index`-th on, behind those in `done`, the last
of them first. -/
def pairsOf (done : List (Value × Value)) (index : Nat) :
    List Value → Action (List (Value × Value))
  | [] => pure done.reverse
  | item :: rest => do
    let pair ← pairOf index item
    pairsOf (pair :: done) (index + 1) rest

/-- The pairs of a dict, or those in the items of an iterable value. -/
def entriesOf (source : Value) : Action (List (Value × Value)) := do
  match source with
  | .ref id =>
    match (← get).cell? id with
    | some (.dict d) => return d.pairs
    | _ => pairsOf [] 0 (← Heap.items source).toList
  | _ => pairsOf [] 0 (← Heap.items source).toList

/-- Named arguments as pairs of key and value. -/
def namedEntries (named : List (String × Value)) : List (Value × Value) :=
  named.map fun (name, v) => (.str name, v)

/-- The entries that a call for a dict gives: those of at most one argument, then the named ones. -/
def entriesOfCall (function : String) (args : Arguments) : Action (List (Value × Value)) := do
  match args.positional with
  | [] => return namedEntries args.named
  | [source] => return (← entriesOf source) ++ namedEntries args.named
  | many =>
    let count := many.length
    throw (.typeError s!"{function} expected at most 1 argument, got {count}")

/-- Puts a value under a key; a new key is charged afterwards. -/
def put (id : Nat) (name value : Value) : Action Unit := do
  let key ← Heap.key name
  let isNew := !(← dictOf id).contains key
  Heap.modifyDict id (·.insert key name value)
  if isNew then Heap.chargeInsert id

/-- Calls a method of a dict; `none` if there is no method of that name. -/
def call (id : Nat) (name : String) (args : Arguments) : Option (Action Value) :=
  match name with
  | "get" => some do
    let (k, default) ← args.oneOrTwo name
    let key ← Heap.key k
    return (((← dictOf id).get? key).or default).getD .none
  | "keys" => some do
    args.nothing name
    Heap.allocList (← dictOf id).names
  | "values" => some do
    args.nothing name
    Heap.allocList (← dictOf id).values
  | "items" => some do
    args.nothing name
    Heap.allocList ((← dictOf id).pairs.map fun (k, v) => Value.tuple [k, v]).toArray
  | "pop" => some do
    let (k, default) ← args.oneOrTwo name
    let key ← Heap.key k
    match (← dictOf id).get? key, default with
    | some v, _ => do
      Heap.modifyDict id (·.erase key)
      return v
    | none, some v => return v
    | none, none => throw (.exception .keyError ((← get).literal k))
  | "setdefault" => some do
    let (k, default) ← args.oneOrTwo name
    let key ← Heap.key k
    match (← dictOf id).get? key with
    | some v => return v
    | none => do
      let v := default.getD .none
      Heap.chargeInsert id
      Heap.modifyDict id (·.insert key k v)
      return v
  | "update" => some do
    let entries ← entriesOfCall name args
    entries.forM fun (k, v) => put id k v
    return .none
  | "copy" => some do
    args.nothing name
    Heap.alloc (.dict (← dictOf id))
  | "clear" => some do
    args.nothing name
    Heap.modifyDict id fun _ => .empty
    return .none
  | _ => none

end DictMethod

end Resumable
