import Resumable.Json

/-!
# Places in a JSON text

A cursor is a place in a text, by line and column. Readers move it forward; a reader that fails says
what is wrong and where. Columns count bytes.
-/

namespace Resumable.Json

/-- What is wrong with a text that should be JSON. -/
inductive Fault where
  | endInList
  | endInObject
  | endInString
  | endInValue
  | noColon
  | openList
  | openObject
  | badWord
  | noValue
  | badEscape
  | badNumber
  | hugeNumber
  | rawControl
  | nameNotText
  | loneSurrogate
  | cutSurrogate
  | trailingComma
  | trailingText
  | tooDeep
  /-- The text is JSON, but its value is not one that is wanted. -/
  | unfit (reason : String)
deriving DecidableEq, Repr

namespace Fault

/-- The fault in words. -/
def message : Fault → String
  | .endInList => "EOF while parsing a list"
  | .endInObject => "EOF while parsing an object"
  | .endInString => "EOF while parsing a string"
  | .endInValue => "EOF while parsing a value"
  | .noColon => "expected `:`"
  | .openList => "expected `,` or `]`"
  | .openObject => "expected `,` or `\x7d`"
  | .badWord => "expected ident"
  | .noValue => "expected value"
  | .badEscape => "invalid escape"
  | .badNumber => "invalid number"
  | .hugeNumber => "number out of range"
  | .rawControl => "control character (\\u0000-\\u001F) found while parsing a string"
  | .nameNotText => "key must be a string"
  | .loneSurrogate => "lone leading surrogate in hex escape"
  | .cutSurrogate => "unexpected end of hex escape"
  | .trailingComma => "trailing comma"
  | .trailingText => "trailing characters"
  | .tooDeep => "recursion limit exceeded"
  | .unfit reason => reason

end Fault

/-- A place in a text. -/
structure Cursor where
  /-- The text from here on. -/
  rest : List Char
  line : Nat
  /-- The number of bytes in front of this place in its line. -/
  column : Nat
deriving Inhabited

/-- A fault at a place. -/
structure ReadError where
  fault : Fault
  line : Nat
  column : Nat
deriving DecidableEq, Repr

/-- The fault and its place in words. -/
def ReadError.message (e : ReadError) : String :=
  let line := e.line
  let column := e.column
  e.fault.message ++ s!" at line {line} column {column}"

namespace Cursor

/-- The start of a text. -/
def ofString (s : String) : Cursor := ⟨s.toList, 1, 0⟩

/-- The place behind a character. -/
def behind (p : Cursor) (c : Char) (rest : List Char) : Cursor :=
  if c == '\n' then ⟨rest, p.line + 1, 0⟩ else ⟨rest, p.line, p.column + c.utf8Size⟩

/-- The place behind the longest run of characters with a property. -/
def skip (test : Char → Bool) (p : Cursor) : Cursor :=
  go p p.rest
where
  go (p : Cursor) : List Char → Cursor
    | [] => p
    | c :: rest => if test c then go (p.behind c rest) rest else p

end Cursor

/-- A reader takes something from a text and moves the cursor behind it. -/
abbrev Reader := EStateM ReadError Cursor

namespace Reader

/-- The next character. -/
def peek : Reader (Option Char) := do return (← get).rest.head?

/-- Takes the next character. -/
def next : Reader (Option Char) := do
  let p ← get
  match p.rest with
  | [] => return none
  | c :: rest =>
    set (p.behind c rest)
    return some c

/-- Fails at the cursor. -/
def fail {α : Type} (f : Fault) : Reader α := do
  let p ← get
  throw ⟨f, p.line, p.column⟩

/-- Fails behind the first byte of the next character. -/
def failNext {α : Type} (f : Fault) : Reader α := do
  let p ← get
  match p.rest.head? with
  | none => throw ⟨f, p.line, p.column⟩
  | some c => if c == '\n' then throw ⟨f, p.line + 1, 0⟩ else throw ⟨f, p.line, p.column + 1⟩

/-- Passes over blanks, and gives the character behind them. -/
def skipBlanks : Reader (Option Char) := do
  modify (Cursor.skip fun c => c == ' ' || c == '\n' || c == '\t' || c == '\r')
  peek

/-- The rest of a word. -/
def word : List Char → Reader Unit
  | [] => pure ()
  | c :: cs => do
    match ← next with
    | none => fail .endInValue
    | some d => if d == c then word cs else fail .badWord

/-- Fails unless only blanks follow. -/
def finish : Reader Unit := do
  if (← skipBlanks).isSome then failNext .trailingText

end Reader

end Resumable.Json
