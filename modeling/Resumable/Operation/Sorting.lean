import Resumable.Heap.Comparison

/-!
# Sorting

A stable sort whose comparisons can fail. After the first failure no element counts as less than
another, and the failure is reported with the elements in the order that they happen to have then.
For a list of more than `shortLength` elements that order is no part of what a sort promises:
another stable sort may leave another permutation, or break off when it notices that the answers
contradict each other.
-/

namespace Resumable.Sorting

variable {α ε : Type}

/-- A sort in progress: the first failure of a comparison. -/
abbrev Attempt (ε : Type) := StateM (Option ε)

/-- Asks whether `a` is less than `b`, unless a comparison has failed. -/
def ask (less : α → α → Except ε Bool) (a b : α) : Attempt ε Bool := do
  if (← get).isSome then return false
  match less a b with
  | .ok answer => return answer
  | .error e => do
    set (some e)
    return false

/-- Inserts an element into a list whose last element comes first, from there on. -/
def insert (less : α → α → Except ε Bool) (a : α) : List α → Attempt ε (List α)
  | [] => return [a]
  | b :: rest => do
    if ← ask less a b then return b :: (← insert less a rest) else return a :: b :: rest

/-- Sorts a short list by insertion of one element after the other. -/
def insertAll (less : α → α → Except ε Bool) (done : List α) : List α → Attempt ε (List α)
  | [] => return done.reverse
  | a :: rest => do
    let done ← insert less a done
    insertAll less done rest

/-- Merges two sorted lists behind the elements in `done`, the last of them first. Of equal
elements the one of the first list comes first. -/
def merge (less : α → α → Except ε Bool) (done as bs : List α) : Attempt ε (List α) :=
  match as, bs with
  | [], bs => return done.reverse ++ bs
  | as, [] => return done.reverse ++ as
  | a :: as, b :: bs => do
    if ← ask less b a then merge less (b :: done) (a :: as) bs
    else merge less (a :: done) as (b :: bs)
termination_by as.length + bs.length
decreasing_by all_goals (simp only [List.length_cons]; omega)

/-- Up to this length a list is sorted by insertion. -/
def shortLength : Nat := 20

/-- Sorts a list: a long one by halves. -/
def sortFrom (less : α → α → Except ε Bool) (as : List α) : Attempt ε (List α) :=
  if as.length ≤ shortLength then insertAll less [] as
  else do
    let left ← sortFrom less (as.take (as.length / 2))
    let right ← sortFrom less (as.drop (as.length / 2))
    merge less [] left right
termination_by as.length
decreasing_by
  all_goals
    have : shortLength = 20 := rfl
    simp only [List.length_take, List.length_drop]
    omega

/-- Sorts a list and reports the first failure of a comparison. -/
def sort (less : α → α → Except ε Bool) (as : List α) : List α × Option ε :=
  (sortFrom less as).run none

end Resumable.Sorting

namespace Resumable.Heap

/-- Whether a value comes before another one, in ascending or descending order. -/
def comesBefore (h : Heap) (descending : Bool) (a b : Value) : Except Unordered Bool :=
  match h.compare? a b with
  | .ok ordering => .ok ((if descending then ordering.swap else ordering) == .lt)
  | .error e => .error e

/-- The items in order, and the failure if they have none. -/
def sorted (h : Heap) (descending : Bool) (items : Array Value) : Array Value × Option Failure :=
  let (sorted, failed) := Sorting.sort (h.comesBefore descending) items.toList
  (sorted.toArray, failed.map h.unordered)

end Resumable.Heap
