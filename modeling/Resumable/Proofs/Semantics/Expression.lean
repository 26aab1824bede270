import Resumable.Code.Compile
import Resumable.Proofs.Semantics.State

/-!
# What expressions mean

Expressions are evaluated from left to right. `and` and `or` stop at the operand that decides, a
chain of comparisons evaluates each operand once and only as long as it holds, and the items of
starred arguments are spliced in where they stand.
-/

namespace Resumable.Semantics

/-- What names mean in a piece of program. -/
structure Names where
  /-- The names of the local slots, inside a function. -/
  locals : Option (List String)
  /-- The names that the program binds outside of its functions. -/
  module : List String
  /-- The names of the global slots. -/
  slots : List String

/-- The global slot of a name. -/
def Names.slot (ns : Names) (name : String) : Nat := (ns.slots.findIdx? (· == name)).getD 0

/-- What a name refers to: a local, a global, or else the builtin of that name. -/
def Names.place (ns : Names) (name : String) : Compile.Place :=
  match ns.locals.bind fun names => names.findIdx? (· == name) with
  | some slot => .local slot
  | none =>
    if ns.module.contains name then .global (ns.slot name)
    else
      match Builtin.ofName? name, ExceptionType.ofName? name with
      | some b, _ => .builtin b
      | none, some t => .excClass t
      | none, none => .global (ns.slot name)

/-- What the evaluation of a piece of program relies on. -/
structure Setting where
  calls : Calls
  /-- How many turns each loop may take. -/
  fuel : Nat
  names : Names
  scope : Scope

namespace Setting

variable (E : Setting)

/-- The value of a slot, which may not have one yet. -/
def slotValue (slots : Array Value) (slot : Nat) (e : Failure) : Except Failure Value :=
  match slots[slot]? with
  | some .undefined | none => .error e
  | some v => .ok v

/-- The value of a name. -/
def read (name : String) : Sem Value := fun σ =>
  match E.names.place name with
  | .local slot =>
    ofExcept (slotValue σ.locals slot (.exception .unboundLocalError
      s!"cannot access local variable '{name}' where it is not associated with a value")) σ
  | .global slot =>
    ofExcept (slotValue σ.globals slot (.exception .nameError s!"name '{name}' is not defined")) σ
  | .builtin b => .ok (.builtin b) σ
  | .excClass t => .ok (.excClass t) σ

/-- Loads the value of a name. -/
def load (span : Span) (kept : List Value) (name : String) : Sem Value :=
  perform E.scope span kept (E.read name)

/-- The globals with a value in a slot; they grow up to it. -/
def withGlobal (globals : Array Value) (slot : Nat) (v : Value) : Array Value :=
  (globals ++ List.replicate (slot + 1 - globals.size) Value.undefined).setIfInBounds slot v

/-- Binds a name to a value. -/
def store (kept : List Value) (v : Value) (name : String) : Sem Unit := do
  charge E.scope (v :: kept)
  match E.names.place name with
  | .local slot => modify fun σ => { σ with locals := σ.locals.setIfInBounds slot v }
  | .global slot => modify fun σ => { σ with globals := withGlobal σ.globals slot v }
  | .builtin _ | .excClass _ =>
    modify fun σ => { σ with globals := withGlobal σ.globals (E.names.slot name) v }

/-- The text of formatted parts. -/
def joined (parts : List Value) : Sem Value := fun σ =>
  let text := String.join (parts.map σ.heap.text)
  onHeap (do
    Heap.checkResult (Text.utf8Size text)
    return .str text) σ

/-- A value after the conversion that a formatted string asks for. -/
def converted (h : Heap) (v : Value) : Conversion → Value
  | .none => v
  | .str => .str (h.text v)
  | .repr => .str (h.literal v)

/-- The text of a value in a formatted string. -/
def formatted (v : Value) (conversion : Conversion) (spec : Option String) : Sem String := fun σ =>
  onHeap (Heap.format (converted σ.heap v conversion) (spec.getD "")) σ

/-- A bound of a slice. -/
def bound : Value → Except Failure (Option Int64)
  | .none => .ok none
  | v =>
    match v.int? with
    | some i => .ok (some i)
    | none => .error (.typeError
        "slice indices must be integers or None or have an __index__ method")

/-- A slice with these bounds. -/
def sliceOf (start stop step : Value) : Except Failure Value := do
  return .slice (← bound start) (← bound stop) (← bound step)

/-- The items of a starred argument. -/
def spread (h : Heap) (v : Value) : Except Failure (List Value) :=
  match v with
  | .tuple items => .ok items
  | v =>
    match h.items? v with
    | some items => .ok items.toList
    | none =>
      let kind := h.typeName v
      .error (.typeError s!"argument after * must be an iterable, not {kind}")

/-- What is kept while arguments with starred ones among them are evaluated: those in front of the
last starred one stand in one tuple, if there is one, and `pending` behind it. -/
def gathered (packed : Option (List Value)) (pending kept : List Value) : List Value :=
  pending.reverse ++ (packed.map Value.tuple).toList ++ kept

/-- Puts pending arguments into the tuple of arguments. -/
def gather (packed : Option (List Value)) (pending kept : List Value) : Sem (List Value) := do
  if packed.isNone || !pending.isEmpty then
    charge E.scope (gathered packed pending kept)
    match packed with
    | some items => do
      charge E.scope (.tuple pending :: .tuple items :: kept)
      pure (items ++ pending)
    | none => pure pending
  else pure (packed.getD [])

/-- What is kept of positional arguments: one tuple if starred ones are among them. -/
def argumentsKept (args : List Expr) (values kept : List Value) : List Value :=
  if args.any Compile.isStarred then .tuple values :: kept else values.reverse ++ kept

/-- The comparison of two operands. -/
def holds (span : Span) (kept : List Value) (op : Comparator) (a b : Value) : Sem Bool :=
  perform E.scope span kept (onHeap (Heap.comparison op a b))

end Setting

/-- The next item of an iterator, if it has one. -/
def nextOf : Value → Sem (Option Value)
  | .ref id => onHeap (Heap.next id)
  | _ => pure none

/-- The name of a keyword argument. -/
def keywordName : Keyword → String
  | .mk name _ => name

open Setting

mutual

/-- The value of an expression. -/
def eval (E : Setting) (kept : List Value) : Expr → Sem Value
  | .mk span form => evalForm E kept span form

def evalForm (E : Setting) (kept : List Value) (span : Span) : ExprForm → Sem Value
  | .literal value => do
    charge E.scope kept
    pure (.ofLiteral value)
  | .format parts => do
    let values ← evalParts E kept span parts
    charge E.scope (values.reverse ++ kept)
    joined values
  | .name id => E.load span kept id
  | .list items => do
    let values ← evalAll E kept items
    perform E.scope span (values.reverse ++ kept) (onHeap (Heap.allocList values.toArray))
  | .tuple items => do
    let values ← evalAll E kept items
    charge E.scope (values.reverse ++ kept)
    pure (.tuple values)
  | .dict items => do
    let values ← evalItems E kept items
    perform E.scope span (values.reverse ++ kept)
      (onHeap do Heap.alloc (.dict (← Machine.dictOf .empty values)))
  | .binary left op right => do
    let a ← eval E kept left
    let b ← eval E (a :: kept) right
    perform E.scope span (b :: a :: kept) (onHeap (Heap.binary op a b))
  | .all first rest => do
    let a ← eval E kept first
    evalUntil E kept false a rest
  | .any first rest => do
    let a ← eval E kept first
    evalUntil E kept true a rest
  | .not operand => do
    let v ← eval E kept operand
    observe E.scope (v :: kept) fun h => .bool (!h.isTruthy v)
  | .neg operand => do
    let v ← eval E kept operand
    perform E.scope span (v :: kept) (onHeap (Heap.negate v))
  | .pos operand => do
    let v ← eval E kept operand
    perform E.scope span (v :: kept) (onHeap (Heap.positive v))
  | .compare left rest => do
    let a ← eval E kept left
    evalChain E kept span false a rest
  | .conditional test body orElse => do
    let t ← eval E kept test
    if ← observe E.scope (t :: kept) (·.isTruthy t) then do
      let v ← eval E kept body
      charge E.scope (v :: kept)
      pure v
    else eval E kept orElse
  | .call callee args kws => do
    let f ← eval E kept callee
    let values ←
      if args.any Compile.isStarred then evalSpliced E (f :: kept) none [] args
      else evalAll E (f :: kept) args
    let operands := argumentsKept args values (f :: kept)
    let named ← evalKeywords E operands kws
    perform E.scope span (named.reverse ++ operands)
      (callValue E.calls E.scope kept f ⟨values, (kws.map keywordName).zip named⟩)
  | .methodCall object method args kws => do
    let v ← eval E kept object
    let values ←
      if args.any Compile.isStarred then evalSpliced E (v :: kept) none [] args
      else evalAll E (v :: kept) args
    let operands := argumentsKept args values (v :: kept)
    let named ← evalKeywords E operands kws
    perform E.scope span (named.reverse ++ operands)
      (callMethod E.calls E.scope kept v method ⟨values, (kws.map keywordName).zip named⟩)
  | .attribute object name => do
    let v ← eval E kept object
    perform E.scope span (v :: kept) (attributeValue v name)
  | .subscript object index => do
    let o ← eval E kept object
    let i ← eval E (o :: kept) index
    perform E.scope span (i :: o :: kept) (onHeap (Index.get o i))
  | .slice lower upper step => do
    let l ← evalBound E kept lower
    let u ← evalBound E (l :: kept) upper
    let s ← evalBound E (u :: l :: kept) step
    perform E.scope span (s :: u :: l :: kept) (ofExcept (sliceOf l u s))
  | .await operand => do
    let v ← eval E kept operand
    await E.scope span kept v E.fuel
  | .starred operand => eval E kept operand

/-- The values of expressions, from left to right. -/
def evalAll (E : Setting) (kept : List Value) : List Expr → Sem (List Value)
  | [] => pure []
  | e :: rest => do
    let v ← eval E kept e
    let values ← evalAll E (v :: kept) rest
    pure (v :: values)

def evalBound (E : Setting) (kept : List Value) : Option Expr → Sem Value
  | some e => eval E kept e
  | none => do
    charge E.scope kept
    pure .none

/-- The texts of the parts of a formatted string. -/
def evalParts (E : Setting) (kept : List Value) (span : Span) :
    List FormatPart → Sem (List Value)
  | [] => pure []
  | .text s :: rest => do
    charge E.scope kept
    let values ← evalParts E (.str s :: kept) span rest
    pure (.str s :: values)
  | .field value conversion spec :: rest => do
    let v ← eval E kept value
    let text ← perform E.scope span (v :: kept) (formatted v conversion spec)
    let values ← evalParts E (.str text :: kept) span rest
    pure (.str text :: values)

/-- Keys and values of a dict, in turn. -/
def evalItems (E : Setting) (kept : List Value) : List DictItem → Sem (List Value)
  | [] => pure []
  | .mk key value :: rest => do
    let k ← eval E kept key
    let v ← eval E (k :: kept) value
    let values ← evalItems E (v :: k :: kept) rest
    pure (k :: v :: values)

/-- The operands behind `a`, up to the first value that counts as `wanted`. -/
def evalUntil (E : Setting) (kept : List Value) (wanted : Bool) (a : Value) :
    List Expr → Sem Value
  | [] => pure a
  | e :: rest => do
    if (← observe E.scope (a :: kept) (·.isTruthy a)) == wanted then pure a
    else do
      let b ← eval E kept e
      evalUntil E kept wanted b rest

/-- The comparisons of a chain behind the operand `a`, up to the first one that is false; `behind`
says that others stand in front of them. -/
def evalChain (E : Setting) (kept : List Value) (span : Span) (behind : Bool) (a : Value) :
    List Comparison → Sem Value
  | [] => pure a
  | [.mk op right] => do
    let b ← eval E (a :: kept) right
    let r ← E.holds span (b :: a :: kept) op a b
    -- what drops an operand behind a false comparison is jumped over
    if behind then charge E.scope (.bool r :: kept)
    pure (.bool r)
  | .mk op right :: rest => do
    let b ← eval E (a :: kept) right
    -- the operand is copied, and the copy put below the two that are compared
    charge E.scope (b :: a :: kept)
    charge E.scope (b :: b :: a :: kept)
    let r ← E.holds span (b :: a :: b :: kept) op a b
    charge E.scope (.bool r :: b :: kept)
    if r then evalChain E kept span true b rest
    else do
      -- the copy is dropped
      charge E.scope (.bool r :: b :: kept)
      charge E.scope (b :: .bool r :: kept)
      pure (.bool r)

/-- Arguments with starred ones among them, whose items are spliced in. -/
def evalSpliced (E : Setting) (kept : List Value) (packed : Option (List Value))
    (pending : List Value) : List Expr → Sem (List Value)
  | [] => do
    if pending.isEmpty then pure (packed.getD [])
    else E.gather packed pending kept
  | .mk span (.starred operand) :: rest => do
    let items ← E.gather packed pending kept
    let v ← eval E (.tuple items :: kept) operand
    let more ← perform E.scope span (v :: .tuple items :: kept) (examine (spread · v))
    charge E.scope (.tuple more :: .tuple items :: kept)
    evalSpliced E kept (some (items ++ more)) [] rest
  | e :: rest => do
    let v ← eval E (gathered packed pending kept) e
    evalSpliced E kept packed (pending ++ [v]) rest

def evalKeywords (E : Setting) (kept : List Value) : List Keyword → Sem (List Value)
  | [] => pure []
  | .mk _ value :: rest => do
    let v ← eval E kept value
    let values ← evalKeywords E (v :: kept) rest
    pure (v :: values)

end

end Resumable.Semantics
