import Resumable.Decimal
import Resumable.Text.Quoted

/-!
# JSON

JSON values and their compact text. Numbers are integers of up to 64 bits, with or without sign, or
floats; members of an object keep the order in which their names were first written.
-/

namespace Resumable

/-- A JSON value. -/
inductive Json where
  | null
  | bool (b : Bool)
  /-- An integer from `-2^63` to `2^64 - 1`. -/
  | int (i : Int)
  | float (x : Float)
  | string (s : String)
  | array (items : List Json)
  | object (members : List (String × Json))
deriving Inhabited

namespace Json

/-- A list of members with one more: it takes the place of the one with its name, if there is
one. -/
def insert (members : List (String × Json)) (name : String) (value : Json) :
    List (String × Json) :=
  if members.any (·.1 == name) then
    members.map fun m => if m.1 == name then (name, value) else m
  else members ++ [(name, value)]

/-- The object of members of which the last one of each name counts. -/
def ofMembers (members : List (String × Json)) : Json :=
  .object (members.foldl (fun done (name, value) => insert done name value) [])

/-- A character as it stands in a JSON text. -/
def escape (c : Char) : List Char :=
  if c == '"' then ['\\', '"']
  else if c == '\\' then ['\\', '\\']
  else if c == '\x08' then ['\\', 'b']
  else if c == '\x0c' then ['\\', 'f']
  else if c == '\n' then ['\\', 'n']
  else if c == '\r' then ['\\', 'r']
  else if c == '\t' then ['\\', 't']
  else if c.toNat < 0x20 then '\\' :: 'u' :: '0' :: '0' :: Text.hexByte c.toNat
  else [c]

/-- A text in JSON quotes. -/
def quoted (s : String) : String :=
  String.ofList ('"' :: s.toList.flatMap escape ++ ['"'])

mutual

/-- The compact text of a JSON value; numbers that JSON cannot write are `null`. -/
def text : Json → String
  | .null => "null"
  | .bool b => if b then "true" else "false"
  | .int i => toString i
  | .float x => if x.isFinite then Decimal.FloatStyle.json.text x else "null"
  | .string s => quoted s
  | .array items => itemsText "[" items ++ "]"
  | .object members => membersText "\x7b" members ++ "\x7d"

/-- `written`, and behind it values with commas between them. -/
def itemsText (written : String) : List Json → String
  | [] => written
  | [j] => written ++ text j
  | j :: rest => itemsText (written ++ text j ++ ",") rest

def membersText (written : String) : List (String × Json) → String
  | [] => written
  | [(name, j)] => written ++ quoted name ++ ":" ++ text j
  | (name, j) :: rest => membersText (written ++ quoted name ++ ":" ++ text j ++ ",") rest

end

end Json

end Resumable
