import Resumable.Heap.Conversion
import Resumable.Heap.Iteration

/-!
# Indexing and slicing

An index counts from the start, or from the end if it is negative. A slice takes every `step`-th
item between two bounds, which are moved to the nearest end if they are out of range. Positions are
64-bit integers, and a step over their end wraps.
-/

namespace Resumable.Index

open Heap (Action)

/-- The position that an index means among `length` items. -/
def position? (length : Nat) (index : Int64) : Option Nat :=
  let i := if index < 0 then index.toInt + length else index.toInt
  if 0 ≤ i ∧ i < length then some i.toNat else none

/-- The position that an index means. -/
def position (kind : String) (length : Nat) (index : Value) : Action Nat :=
  match index.int? with
  | none => throw (.typeError s!"{kind} indices must be integers")
  | some i =>
    match position? length i with
    | some p => pure p
    | none => throw (.exception .indexError s!"{kind} index out of range")

/-- A bound of a slice, moved between `low` and `high`; a negative one counts from the end. -/
def clamp (count low high bound : Int64) : Int64 :=
  let i := if bound < 0 then bound + count else bound
  max low (min i high)

/-- Whether there is an item at a position, among `length` items. -/
abbrev InRange (length : Nat) (i : Int64) : Prop := 0 ≤ i.toInt ∧ i.toInt < length

/-- The items between a position and the end that a step leads to. -/
def ahead (length : Nat) (step i : Int64) : Nat :=
  if InRange length i then (if 0 < step.toInt then length - i.toInt else i.toInt + 1).toNat else 0

/-- A step from an item leads to one nearer to the end, or out of range, be it by wrapping. -/
theorem ahead_lt {length : Nat} {step i : Int64} (hstep : step ≠ 0) (hi : InRange length i) :
    ahead length step (i + step) < ahead length step i := by
  have hne : step.toInt ≠ 0 := fun h => hstep (Int64.toInt_inj.mp h)
  have hsum : (i + step).toInt = Int.bmod (i.toInt + step.toInt) 18446744073709551616 :=
    Int64.toInt_add i step
  have hsize := i.toInt_lt
  have hleast := step.le_toInt
  have hmost := step.toInt_lt
  simp only [Int.bmod_def] at hsum
  unfold ahead
  rw [if_pos hi]
  split <;> omega

/-- Why a slice has no items. -/
inductive SliceError where
  | zeroStep
  /-- A step has led over the end of the 64-bit integers, to where there is no item. -/
  | astray

/-- The positions in `done`, the last one first, and those from `i` on in steps of `step`, as long
as they are wanted. Steps wrap at 64 bits. -/
def walk (length : Nat) (wanted : Int64 → Bool) (step : Int64) (hstep : step ≠ 0)
    (done : List Nat) (i : Int64) : Except SliceError (List Nat) :=
  if wanted i then
    if InRange length i then walk length wanted step hstep (i.toInt.toNat :: done) (i + step)
    else .error .astray
  else .ok done.reverse
termination_by ahead length step i
decreasing_by exact ahead_lt hstep ‹_›

/-- The positions of a slice of `length` items. -/
def slicePositions (length : Nat) (start stop step : Option Int64) :
    Except SliceError (List Nat) :=
  let step := step.getD 1
  let count := Int64.ofNat length
  if hstep : step = 0 then .error .zeroStep
  else if step > 0 then
    let start := start.elim 0 (clamp count 0 count)
    let stop := stop.elim count (clamp count 0 count)
    walk length (· < stop) step hstep [] start
  else
    let last := count - 1
    let start := start.elim last (clamp count (-1) last)
    let stop := stop.elim (-1) (clamp count (-1) last)
    walk length (· > stop) step hstep [] start

/-- The items of a slice. -/
def slice {α : Type} (items : Array α) (start stop step : Option Int64) : Action (List α) :=
  match slicePositions items.size start stop step with
  | .ok positions => pure (positions.filterMap fun p => items[p]?)
  | .error .zeroStep => throw (.valueError "slice step cannot be zero")
  | .error .astray => throw .stuck

/-- The item or slice of a sequence; `kind` names the sequence in messages. -/
def sequence {α : Type} (kind : String) (items : Array α) (one : α → Value)
    (many : List α → Value) (index : Value) : Action Value := do
  match index, index.int? with
  | .slice start stop step, _ => return many (← slice items start stop step)
  | _, some _ => do
    let p ← position kind items.size index
    return (items[p]?).elim .none one
  | _, none =>
    let other := (← get).typeName index
    throw (.typeError s!"{kind} indices must be integers or slices, not {other}")

/-- The range of the integers that a slice of a range with this step took. -/
def rangeOfItems (step : Int64) (items : List Int64) : Value :=
  match items with
  | first :: second :: _ =>
    let d := second - first
    .range first (first + d * Int64.ofNat items.length) d
  | [first] =>
    let sign : Int64 := if step > 0 then 1 else if step < 0 then -1 else 0
    .range first (first + sign) sign
  | [] => .range 0 0 1

/-- The failure of an index on a value that has no items. -/
def notSubscriptable (h : Heap) (v : Value) : Failure :=
  .typeError ("'" ++ h.typeName v ++ "' object is not subscriptable")

/-- The item of a value at an index, or under a key. -/
def get (object index : Value) : Action Value := do
  match object with
  | .tuple items | .namedTuple _ _ items => sequence "tuple" items.toArray id .tuple index
  | .str s =>
    sequence "string" s.toList.toArray Value.ofChar (fun cs => .str (String.ofList cs)) index
  | .bytes data => sequence "bytes" data.toArray Value.ofByte .bytes index
  | .range start stop step => do
    let length := (rangeLength start stop step).toInt.toNat
    match index with
    | .slice first bound stride =>
      let items := (List.range length).map fun i => start + Int64.ofNat i * step
      return rangeOfItems step (← slice items.toArray first bound stride)
    | _ =>
      let p ← position "range object" length index
      return .int (start + Int64.ofNat p * step)
  | .ref id =>
    match (← MonadState.get).cell? id with
    | some (.list items) =>
      match index with
      | .slice start stop step => do
        Heap.allocList (← slice items start stop step).toArray
      | _ => sequence "list" items (·) .tuple index
    | some (.dict d) => do
      let key ← Heap.key index
      match d.get? key with
      | some v => return v
      | none => throw (.exception .keyError ((← MonadState.get).literal index))
    | _ => throw (notSubscriptable (← MonadState.get) object)
  | v => throw (notSubscriptable (← MonadState.get) v)

/-- Puts a value into a list at an index, or into a dict under a key. -/
def set (object index value : Value) : Action Unit := do
  let refuse (h : Heap) (v : Value) : Failure :=
    .typeError ("'" ++ h.typeName v ++ "' object does not support item assignment")
  match object with
  | .ref id =>
    match (← MonadState.get).cell? id with
    | some (.list items) =>
      match index.int? with
      | some _ => do
        let p ← position "list assignment" items.size index
        Heap.modifyList id fun items => items.setIfInBounds p value
      | none =>
        let other := (← MonadState.get).typeName index
        throw (.typeError s!"list indices must be integers or slices, not {other}")
    | some (.dict d) => do
      let key ← Heap.key index
      let isNew := !d.contains key
      Heap.modifyDict id (·.insert key index value)
      if isNew then Heap.chargeInsert id
    | _ => throw (refuse (← MonadState.get) object)
  | v => throw (refuse (← MonadState.get) v)

/-- The items of a value that is unpacked into `n` targets. -/
def unpack (v : Value) (n : Nat) : Action (List Value) := do
  let h ← MonadState.get
  match h.items? v with
  | none =>
    let kind := h.typeName v
    throw (.typeError s!"cannot unpack non-iterable {kind} object")
  | some items =>
    let count := items.size
    if count > n then throw (.valueError s!"too many values to unpack (expected {n})")
    else if count < n then
      throw (.valueError s!"not enough values to unpack (expected {n}, got {count})")
    else return items.toList

end Resumable.Index
