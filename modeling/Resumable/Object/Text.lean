import Resumable.Decimal
import Resumable.Json
import Resumable.Object.Basic
import Resumable.Text.Quoted

/-!
# Objects in writing

Objects as programs write them, and as JSON.

## Objects as texts

`Object.literal` writes an object the way a program would spell it, and `Object.text` the way a
program prints it. They differ for texts, paths and exceptions.
-/

namespace Resumable.Object

mutual

/-- The spelling of an object in a program. -/
def literal : Object → String
  | .none => "None"
  | .ellipsis => "Ellipsis"
  | .bool b => if b then "True" else "False"
  | .int i => toString i.toInt
  | .float x => Decimal.FloatStyle.program.text x
  | .string s => Text.quoted s
  | .bytes data => Text.quotedBytes data
  | .list items => joined "[" items ++ "]"
  | .tuple items => joined "(" items ++ (if items.length == 1 then ",)" else ")")
  | .dict entries => joinedEntries "\x7b" entries ++ "\x7d"
  | .path p => "PosixPath(" ++ Text.quoted p ++ ")"
  | .namedTuple type fields items => joinedFields (type ++ "(") fields items ++ ")"
  | .exception type message =>
    match message with
    | .some message => type.name ++ "(" ++ Text.quoted message ++ ")"
    | .none => type.name ++ "()"
  | .repr shown => shown

/-- `written`, and behind it objects with commas between them. -/
def joined (written : String) : List Object → String
  | [] => written
  | [o] => written ++ literal o
  | o :: rest => joined (written ++ literal o ++ ", ") rest

def joinedEntries (written : String) : List (Object × Object) → String
  | [] => written
  | [(k, v)] => written ++ literal k ++ ": " ++ literal v
  | (k, v) :: rest => joinedEntries (written ++ literal k ++ ": " ++ literal v ++ ", ") rest

def joinedFields (written : String) : List String → List Object → String
  | [f], o :: _ | f :: _, [o] => written ++ f ++ "=" ++ literal o
  | f :: fs, o :: os => joinedFields (written ++ f ++ "=" ++ literal o ++ ", ") fs os
  | _, _ => written

end

/-- An object as a program prints it. -/
def text : Object → String
  | .string s | .path s => s
  | .exception _ message => message.getD ""
  | .repr shown => shown
  | o => o.literal

/-!
## Objects as JSON

Objects that JSON has no value for are tagged: an object with the single member `$tuple` is a
tuple, and so on. Reading takes a tag for what it says if its payload has the right form, and for a
dict with one key otherwise.
-/

/-- A single member. -/
def tagged (tag : String) (payload : Json) : Json := .object [(tag, payload)]

/-- The name under which a key of a dict is written. -/
def memberName : Object → String
  | .string s => s
  | key => key.literal

mutual

/-- The JSON value of an object. -/
def toJson : Object → Json
  | .none => .null
  | .ellipsis => tagged "$ellipsis" (.bool true)
  | .bool b => .bool b
  | .int i => .int i.toInt
  | .float x => if x.isFinite then .float x else .null
  | .string s => .string s
  | .bytes data => tagged "$bytes" (.array (data.map fun b => .int b.toNat))
  | .list items => .array (toJsonAll [] items)
  | .tuple items => tagged "$tuple" (.array (toJsonAll [] items))
  | .dict entries => .ofMembers (toMembers [] entries)
  | .path p => tagged "$path" (.string p)
  | .namedTuple type fields items =>
    tagged "$namedtuple" (.object
      [("type", .string type), ("fields", .ofMembers (fields.zip (toJsonAll [] items)))])
  | .exception type message =>
    tagged "$exception" (.object
      [("type", .string type.name), ("arg", message.elim .null .string)])
  | .repr shown => tagged "$repr" (.string shown)

/-- The values of objects, behind those in `done`, the last of them first. -/
def toJsonAll (done : List Json) : List Object → List Json
  | [] => done.reverse
  | o :: rest => toJsonAll (toJson o :: done) rest

def toMembers (done : List (String × Json)) : List (Object × Object) → List (String × Json)
  | [] => done.reverse
  | (k, v) :: rest => toMembers ((memberName k, toJson v) :: done) rest

end

/-- The byte that a JSON value stands for. -/
def byte? : Json → Option UInt8
  | .int i => if 0 ≤ i ∧ i < 256 then .some (UInt8.ofNat i.toNat) else .none
  | _ => .none

/-- The integer as an object: a float where it needs more than 64 bits with a sign. -/
def ofInteger (i : Int) : Object :=
  if Int64.minValue.toInt ≤ i ∧ i ≤ Int64.maxValue.toInt then .int (Int64.ofInt i)
  else .float (Float.ofInt i)

/-- The object of a single member: `payload` is its value, and `read` the object of that value. -/
def ofTagged (tag : String) (payload : Json) (read : Object) : Object :=
  match tag, payload, read with
  | "$path", .string s, _ => .path s
  | "$tuple", .array _, .list items => .tuple items
  | "$bytes", .array items, _ =>
    match items.mapM byte? with
    | .some data => .bytes data
    | .none => .dict [(.string tag, read)]
  | "$ellipsis", _, _ => .ellipsis
  | _, _, _ => .dict [(.string tag, read)]

mutual

/-- The object that a JSON value stands for. -/
def ofJson : Json → Object
  | .null => .none
  | .bool b => .bool b
  | .int i => ofInteger i
  | .float x => .float x
  | .string s => .string s
  | .array items => .list (ofJsonAll [] items)
  | .object members =>
    match members, ofMembers [] members with
    | [(tag, payload)], [(_, read)] => ofTagged tag payload read
    | _, entries => .dict entries

/-- The objects of values, behind those in `done`, the last of them first. -/
def ofJsonAll (done : List Object) : List Json → List Object
  | [] => done.reverse
  | j :: rest => ofJsonAll (ofJson j :: done) rest

def ofMembers (done : List (Object × Object)) : List (String × Json) → List (Object × Object)
  | [] => done.reverse
  | (name, j) :: rest => ofMembers ((.string name, ofJson j) :: done) rest

end

end Resumable.Object
