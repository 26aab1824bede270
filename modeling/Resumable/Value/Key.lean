import Resumable.Value.Basic

/-!
# Keys of dicts

What of a value counts where it is a key. Equal numbers are one key whatever their type, and a
named tuple is the same key as the tuple of its items.
-/

namespace Resumable

/-- The identity of a value as a key of a dict. -/
inductive Key where
  | none
  | ellipsis
  | int (i : Int64)
  /-- A float that is no integer in reach, by its bits. -/
  | float (bits : UInt64)
  | str (s : String)
  | bytes (data : List UInt8)
  | tuple (items : List Key)
  | path (p : String)
  | excClass (type : ExceptionType)
  | builtin (function : Builtin)
deriving Inhabited

namespace Key

mutual

/-- Whether two keys are the same. -/
def same : Key → Key → Bool
  | .none, .none => true
  | .ellipsis, .ellipsis => true
  | .int a, .int b => a == b
  | .float a, .float b => a == b
  | .str a, .str b => a == b
  | .bytes a, .bytes b => a == b
  | .tuple as, .tuple bs => allSame as bs
  | .path a, .path b => a == b
  | .excClass a, .excClass b => a == b
  | .builtin a, .builtin b => a == b
  | _, _ => false

def allSame : List Key → List Key → Bool
  | [], [] => true
  | a :: as, b :: bs => same a b && allSame as bs
  | _, _ => false

end

instance : BEq Key := ⟨same⟩

mutual

theorem eq_of_same {a b : Key} (h : same a b = true) : a = b := by
  cases a <;> cases b <;> simp_all [same]
  exact eq_of_allSame h

theorem eq_of_allSame {as bs : List Key} (h : allSame as bs = true) : as = bs := by
  cases as with
  | nil => cases bs <;> simp_all [allSame]
  | cons a as =>
    cases bs with
    | nil => simp [allSame] at h
    | cons b bs =>
      simp only [allSame, Bool.and_eq_true] at h
      rw [eq_of_same h.1, eq_of_allSame h.2]

end

mutual

theorem same_self (a : Key) : same a a = true := by
  cases a <;> simp [same]
  rename_i items
  exact allSame_self items

theorem allSame_self (as : List Key) : allSame as as = true := by
  cases as with
  | nil => simp [allSame]
  | cons a as => simp [allSame, same_self a, allSame_self as]

end

instance : LawfulBEq Key where
  eq_of_beq := eq_of_same
  rfl := same_self _

/-- The key of a float. -/
def ofFloat (x : Float) : Key :=
  if x.floor == x && x.abs < 9.0e18 then .int x.toInt64 else .float x.toBits

mutual

/-- The key of a value, or the value in it that cannot be part of a key. -/
def ofValue : Value → Except Value Key
  | .none => .ok .none
  | .ellipsis => .ok .ellipsis
  | .bool b => .ok (.int (if b then 1 else 0))
  | .int i => .ok (.int i)
  | .float x => .ok (ofFloat x)
  | .str s => .ok (.str s)
  | .bytes data => .ok (.bytes data)
  | .path p => .ok (.path p)
  | .tuple items | .namedTuple _ _ items =>
    match ofValues [] items with
    | .ok keys => .ok (.tuple keys)
    | .error v => .error v
  | .excClass type => .ok (.excClass type)
  | .builtin function => .ok (.builtin function)
  | v => .error v

/-- The keys of values, behind those in `done`, the last of them first. -/
def ofValues (done : List Key) : List Value → Except Value (List Key)
  | [] => .ok done.reverse
  | v :: vs =>
    match ofValue v with
    | .ok key => ofValues (key :: done) vs
    | .error v => .error v

end

end Key

/-- An entry of a dict. -/
structure Entry where
  key : Key
  /-- The value that was first inserted under the key. -/
  name : Value
  value : Value
deriving Inhabited

/-- A dict: entries with distinct keys, in the order in which the keys were inserted. -/
structure Dict where
  entries : Array Entry
deriving Inhabited

namespace Dict

/-- The dict without entries. -/
def empty : Dict := ⟨#[]⟩

def size (d : Dict) : Nat := d.entries.size

/-- The index of the entry of a key. -/
def find? (d : Dict) (key : Key) : Option Nat := d.entries.findIdx? (·.key == key)

/-- The value of a key. -/
def get? (d : Dict) (key : Key) : Option Value :=
  (d.entries.find? (·.key == key)).map (·.value)

def contains (d : Dict) (key : Key) : Bool := (d.find? key).isSome

/-- The dict with a value for a key. A key that is there already keeps its place and its name. -/
def insert (d : Dict) (key : Key) (name value : Value) : Dict :=
  match d.find? key with
  | some i => ⟨d.entries.modify i fun e => { e with value }⟩
  | none => ⟨d.entries.push ⟨key, name, value⟩⟩

/-- The dict without a key. -/
def erase (d : Dict) (key : Key) : Dict :=
  match d.find? key with
  | some i => ⟨d.entries.eraseIdxIfInBounds i⟩
  | none => d

/-- The keys as they were first inserted. -/
def names (d : Dict) : Array Value := d.entries.map (·.name)

def values (d : Dict) : Array Value := d.entries.map (·.value)

/-- The entries as pairs of key and value. -/
def pairs (d : Dict) : List (Value × Value) := d.entries.toList.map fun e => (e.name, e.value)

end Dict

end Resumable
