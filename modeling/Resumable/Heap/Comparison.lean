import Resumable.Heap.Basic

/-!
# Equality and order of values

Values are compared by what they hold, through lists and dicts. Both comparisons walk from one pair
of heap references to the next. A walk that meets a pair again has no end; it is recognised by its
length, because there are only so many pairs. The results are then `none` and `endless`.
-/

namespace Resumable

/-- Whether all elements have a property, asked from the first one on and as long as they do; the
answer `none` ends the questions. -/
def allAnswer {α : Type} (p : α → Option Bool) : List α → Option Bool
  | [] => some true
  | a :: rest =>
    match p a with
    | some true => allAnswer p rest
    | answer => answer

/-- Whether some element has a property, asked from the first one on. -/
def anyAnswer {α : Type} (p : α → Option Bool) : List α → Option Bool
  | [] => some false
  | a :: rest =>
    match p a with
    | some false => anyAnswer p rest
    | answer => answer

namespace Value

mutual

/-- Whether two values are equal, where `cells` compares two entries of the heap. -/
def equalBy (cells : Nat → Nat → Option Bool) : Value → Value → Option Bool
  | .ref x, .ref y => if x == y then some true else cells x y
  | .tuple as, .tuple bs | .namedTuple _ _ as, .namedTuple _ _ bs
  | .namedTuple _ _ as, .tuple bs | .tuple as, .namedTuple _ _ bs =>
    if as.length == bs.length then allEqualBy cells as bs else some false
  | .exception a, .exception b => some (a.type == b.type && a.message == b.message)
  | .undefined, _ | _, .undefined => some false
  | a, b =>
    match a.number?, b.number? with
    | some x, some y => some (x == y)
    | Option.none, Option.none => some (same a b)
    | _, _ => some false

def allEqualBy (cells : Nat → Nat → Option Bool) : List Value → List Value → Option Bool
  | a :: as, b :: bs =>
    match equalBy cells a b with
    | some true => allEqualBy cells as bs
    | answer => answer
  | _, _ => some true

end

end Value

/-- Why two values have no order. -/
inductive Unordered where
  | nan
  | types (a b : Value)
  /-- Lists that contain themselves. -/
  | endless

namespace Value

/-- The lexicographic order of byte strings. -/
def compareBytes : List UInt8 → List UInt8 → Ordering
  | [], [] => .eq
  | [], _ :: _ => .lt
  | _ :: _, [] => .gt
  | a :: as, b :: bs => (compare a b).then (compareBytes as bs)

/-- The order of two values as numbers. -/
def compareNumbers (a b : Value) : Except Unordered Ordering :=
  match a.number?, b.number? with
  | some x, some y =>
    if x < y then .ok .lt
    else if y < x then .ok .gt
    else if x == y then .ok .eq
    else .error .nan
  | _, _ => .error (.types a b)

mutual

/-- The order of two values. `equal` says which items of sequences are equal: sequences have the
order of the first two that are not. -/
def compareBy (equal : Value → Value → Option Bool)
    (cells : Nat → Nat → Except Unordered Ordering) :
    Value → Value → Except Unordered Ordering
  | .str a, .str b => .ok (compare a b)
  | .path a, .path b => .ok (compare a b)
  | .bytes a, .bytes b => .ok (compareBytes a b)
  | .tuple as, .tuple bs => compareAllBy equal cells as bs
  | .ref x, .ref y => cells x y
  | a, b => compareNumbers a b

def compareAllBy (equal : Value → Value → Option Bool)
    (cells : Nat → Nat → Except Unordered Ordering) :
    List Value → List Value → Except Unordered Ordering
  | a :: as, b :: bs =>
    match equal a b with
    | some true => compareAllBy equal cells as bs
    | some false => compareBy equal cells a b
    | Option.none => .error .endless
  | [], [] => .ok .eq
  | [], _ :: _ => .ok .lt
  | _ :: _, [] => .ok .gt

end

end Value

namespace Heap

/-- Whether two entries are equal, where `cells` compares the entries in them. -/
def cellsEqualBy (h : Heap) (cells : Nat → Nat → Option Bool) (x y : Nat) : Option Bool :=
  match h.cell? x, h.cell? y with
  | some (.list as), some (.list bs) =>
    if as.size == bs.size then
      allAnswer (fun (a, b) => Value.equalBy cells a b) (as.toList.zip bs.toList)
    else some false
  | some (.dict as), some (.dict bs) =>
    if as.size == bs.size then
      allAnswer (fun e => (bs.get? e.key).elim (some false) (Value.equalBy cells e.value))
        as.entries.toList
    else some false
  | _, _ => some false

/-- Whether two entries are equal, over walks of at most so many references. -/
def cellsEqual (h : Heap) : Nat → Nat → Nat → Option Bool
  | 0 => fun _ _ => none
  | steps + 1 => h.cellsEqualBy (cellsEqual h steps)

/-- A length that no walk through pairs of entries has without meeting a pair again. -/
def walkBound (h : Heap) : Nat := h.slots.size * h.slots.size + 2

/-- Whether two values are equal. -/
def equal? (h : Heap) (a b : Value) : Option Bool :=
  Value.equalBy (cellsEqual h h.walkBound) a b

/-- The order of two entries, where `cells` compares the entries in them. -/
def compareCellsBy (h : Heap) (cells : Nat → Nat → Except Unordered Ordering) (x y : Nat) :
    Except Unordered Ordering :=
  match h.cell? x, h.cell? y with
  | some (.list as), some (.list bs) => Value.compareAllBy h.equal? cells as.toList bs.toList
  | _, _ => .error (.types (.ref x) (.ref y))

/-- The order of two entries, over walks of at most so many references. -/
def compareCells (h : Heap) : Nat → Nat → Nat → Except Unordered Ordering
  | 0 => fun _ _ => .error .endless
  | steps + 1 => h.compareCellsBy (compareCells h steps)

/-- The order of two values. -/
def compare? (h : Heap) (a b : Value) : Except Unordered Ordering :=
  Value.compareBy h.equal? (compareCells h h.walkBound) a b

/-- Whether two values are equal, as an action. -/
def equal (a b : Value) : Action Bool := do
  match (← get).equal? a b with
  | some answer => pure answer
  | none => throw .endless

/-- The failure that values without an order lead to. -/
def unordered (h : Heap) : Unordered → Failure
  | .nan => .valueError "cannot order NaN"
  | .types a b =>
    .typeError ("'<' not supported between instances of '" ++ h.typeName a ++ "' and '" ++
      h.typeName b ++ "'")
  | .endless => .endless

/-- The order of two values, as an action. -/
def compare (a b : Value) : Action Ordering := do
  let h ← get
  match h.compare? a b with
  | .ok ordering => pure ordering
  | .error e => throw (h.unordered e)

/-- Whether a value is equal to one of some items. -/
def isAmong (item : Value) (items : List Value) : Action Bool := do
  let h ← get
  match anyAnswer (fun v => h.equal? v item) items with
  | some answer => pure answer
  | none => throw .endless

end Heap

end Resumable
