import Resumable.Decimal
import Resumable.Text.Letter
import Resumable.Token
import Resumable.Token.Escape

/-!
# Reading tokens

`Token.scan` turns a program text into its tokens, or reports that some part of it is no token.
The reader is a state machine over the characters that are left; every step consumes at least one
of them. The state holds the open blocks, the number of open brackets (inside brackets the layout
does not count), and the formatted strings that are open, innermost first. It knows places as byte
offsets; they become lines and columns when all tokens have been read.
-/

namespace Resumable.Token

/-- The characters that are left, and the byte offset of the first. -/
structure Cursor where
  rest : List Char
  offset : Nat

namespace Cursor

/-- One character further. -/
def bump (cur : Cursor) : Cursor :=
  match cur.rest with
  | [] => cur
  | c :: rest => ⟨rest, cur.offset + c.utf8Size⟩

/-- `n` characters further. -/
def skip : Nat → Cursor → Cursor
  | 0, cur => cur
  | n + 1, cur => skip n cur.bump

/-- Whether the characters left begin with `cs`. -/
def startsWith (cur : Cursor) (cs : List Char) : Bool :=
  cs.isPrefixOf cur.rest

end Cursor

/-- The width of an indentation: the column with tab stops at every eighth place, and the number
of characters. Two indentations compare only if both measures agree on the order. -/
structure Indentation where
  column : Nat
  characters : Nat
deriving DecidableEq

namespace Indentation

/-- No indentation. -/
def none : Indentation := ⟨0, 0⟩

def addSpace (i : Indentation) : Indentation := ⟨i.column + 1, i.characters + 1⟩

def addTab (i : Indentation) : Indentation := ⟨(i.column / 8) * 8 + 8, i.characters + 1⟩

/-- The order of two indentations, if their two measures agree on it. -/
def compare? (i j : Indentation) : Option Ordering :=
  let o := compare i.column j.column
  if o == compare i.characters j.characters then some o else Option.none

end Indentation

/-- A formatted string that is still open. -/
structure OpenFormat where
  quote : Char
  triple : Bool
  raw : Bool
  /-- The number of open brackets outside the string. -/
  depth : Nat
  /-- The number of format specifications that are open. -/
  specs : Nat

namespace OpenFormat

/-- Whether `depth` open brackets mean that an expression of the string is being read. -/
def inExpression (f : OpenFormat) (depth : Nat) : Bool :=
  f.specs < depth - f.depth

/-- Whether a format specification of the string is being read. -/
def inSpec (f : OpenFormat) (depth : Nat) : Bool :=
  0 < f.specs && !f.inExpression depth

/-- Whether a colon at `depth` open brackets begins a format specification. -/
def startsSpec (f : OpenFormat) (depth : Nat) : Bool :=
  depth - f.specs - f.depth == 1

/-- The closing quote. -/
def closing (f : OpenFormat) : List Char :=
  if f.triple then [f.quote, f.quote, f.quote] else [f.quote]

end OpenFormat

/-- A token, and the byte offsets between which it was read. -/
structure Reading where
  token : Token
  start : Nat
  stop : Nat

/-- The token with its span in the text of an index. -/
def Reading.lexeme? (r : Reading) (index : LineIndex) : Option Lexeme := do
  return ⟨r.token, ← index.span? r.start r.stop⟩

/-- The state of the reader. -/
structure ScanState where
  cursor : Cursor
  /-- Whether the cursor is at the start of a line whose indentation counts. -/
  lineStart : Bool
  /-- Whether the logical line has a token already. -/
  lineOpen : Bool
  /-- The indentations of the open blocks, innermost first. -/
  blocks : List Indentation
  /-- The number of open brackets. -/
  depth : Nat
  /-- The formatted strings that are open, innermost first. -/
  formats : List OpenFormat
  /-- The tokens read so far, last first. -/
  readings : List Reading

namespace ScanState

/-- The state before the first character. A byte order mark at the start is passed over. -/
def start (cs : List Char) : ScanState :=
  let cursor : Cursor := ⟨cs, 0⟩
  let cursor := if cs.head? == some (Char.ofNat 0xFEFF) then cursor.bump else cursor
  { cursor, lineStart := true, lineOpen := false, blocks := [], depth := 0, formats := [],
    readings := [] }

/-- Adds a token that ends at the cursor `cur`. -/
def emit (s : ScanState) (token : Token) (cur : Cursor) : ScanState :=
  { s with
    cursor := cur, lineOpen := true,
    readings := ⟨token, s.cursor.offset, cur.offset⟩ :: s.readings }

/-- Adds a token of no width at the cursor. -/
def emitLayout (s : ScanState) (token : Token) : ScanState :=
  { s with readings := ⟨token, s.cursor.offset, s.cursor.offset⟩ :: s.readings }

end ScanState

/-! ## Layout -/

/-- Measures the blanks at the start of a line, and counts the characters that are passed. A form
feed starts the measure anew; a backslash at the end of the line carries the first indentation over
to the next line. -/
def measureIndentation (i : Indentation) (carried : Option Indentation) (passed : Nat) :
    List Char → Option (Indentation × Nat)
  | ' ' :: rest => measureIndentation i.addSpace carried (passed + 1) rest
  | '\t' :: rest => measureIndentation i.addTab carried (passed + 1) rest
  | '\x0c' :: rest => measureIndentation .none carried (passed + 1) rest
  | '\\' :: '\r' :: '\n' :: rest => measureIndentation .none (carry i carried) (passed + 3) rest
  | '\\' :: '\r' :: rest | '\\' :: '\n' :: rest =>
    measureIndentation .none (carry i carried) (passed + 2) rest
  | '\\' :: _ => none
  | _ => some (carried.getD i, passed)
where
  carry (i : Indentation) (carried : Option Indentation) : Option Indentation :=
    if carried.isSome || i.characters == 0 then carried else some i

/-- Closes the blocks that are deeper than `i`; fails if no open block has that indentation. -/
def closeBlocks (s : ScanState) (i : Indentation) : List Indentation → Option ScanState
  | [] => if i == .none then some { s with blocks := [] } else none
  | top :: outer => do
    match ← i.compare? top with
    | .eq => pure { s with blocks := top :: outer }
    | .gt => none
    | .lt => closeBlocks (s.emitLayout .dedent) i outer

/-- Opens or closes blocks according to the indentation of the line at the cursor. -/
def readIndentation (s : ScanState) : Option ScanState := do
  let (i, passed) ← measureIndentation .none none 0 s.cursor.rest
  let cur := s.cursor.skip passed
  let s := { s with cursor := cur, lineStart := false }
  match cur.rest with
  | [] | '\n' :: _ | '\r' :: _ | '#' :: _ => pure s
  | _ =>
    match ← i.compare? (s.blocks.headD .none) with
    | .eq => pure s
    | .gt => pure { s.emitLayout .indent with blocks := i :: s.blocks }
    | .lt => closeBlocks s i s.blocks

/-- Passes the end of a line. Inside brackets, and on a line without tokens, it means nothing. -/
def readLineEnd (s : ScanState) (cur : Cursor) : ScanState :=
  if 0 < s.depth then { s with cursor := cur }
  else
    let s := if s.lineOpen then s.emitLayout .newline else s
    { s with cursor := cur, lineStart := true, lineOpen := false }

/-! ## Numbers -/

/-- The digits of a run in which single underscores may separate digits, the width of the run, and
the rest. -/
def digitRun (isDigit : Char → Bool) : List Char → List Char × Nat × List Char
  | '_' :: c :: rest =>
    if isDigit c then
      let (ds, width, more) := digitRun isDigit rest
      (c :: ds, width + 2, more)
    else ([], 0, '_' :: c :: rest)
  | c :: rest =>
    if isDigit c then
      let (ds, width, more) := digitRun isDigit rest
      (c :: ds, width + 1, more)
    else ([], 0, c :: rest)
  | [] => ([], 0, [])

/-- An integer in base 2, 8 or 16 behind its two-character marker, and its width. -/
def readRadix (base : Nat) (isDigit : Char → Bool) (source : List Char) : Option (Token × Nat) :=
  let (ds, width, _) := digitRun isDigit (source.drop 2)
  if ds.isEmpty then none
  else
    let n := ds.foldl (fun n c => n * base + (hexDigit? c).getD 0) 0
    let spelling := if n < UInt64.size then toString n else String.ofList (source.take (2 + width))
    some (.int n spelling, 2 + width)

/-- The fraction behind the whole digits of a number, with its point, and its width. -/
def readFraction (source : List Char) : Option (List Char × Nat × List Char) :=
  match source with
  | '.' :: '_' :: _ => none
  | '.' :: more =>
    let (ds, width, rest) := digitRun Char.isDigit more
    some ('.' :: ds, width + 1, rest)
  | _ => some ([], 0, source)

/-- The exponent of a number, if there is one, and its width. -/
def readExponent (source : List Char) : List Char × Nat × List Char :=
  match source with
  | e :: s :: d :: more =>
    if !(e == 'e' || e == 'E') then ([], 0, source)
    else if s.isDigit then
      let (ds, width, rest) := digitRun Char.isDigit (s :: d :: more)
      ('e' :: ds, width + 1, rest)
    else if (s == '+' || s == '-') && d.isDigit then
      let (ds, width, rest) := digitRun Char.isDigit (d :: more)
      ('e' :: s :: ds, width + 2, rest)
    else ([], 0, source)
  | [e, d] => if (e == 'e' || e == 'E') && d.isDigit then (['e', d], 2, []) else ([], 0, source)
  | _ => ([], 0, source)

/-- A decimal number at the start of a text, and its width. -/
def readDecimal (source : List Char) : Option (Token × Nat) := do
  let (whole, wholeWidth, rest) := digitRun Char.isDigit source
  let (fraction, fractionWidth, rest) ← readFraction rest
  let (exponent, exponentWidth, rest) := readExponent rest
  let width := wholeWidth + fractionWidth + exponentWidth
  if rest.head? == some 'j' || rest.head? == some 'J' then pure (.imaginary, width + 1)
  else if fraction.isEmpty && exponent.isEmpty then
    let n := Decimal.digitsValue 0 whole
    if whole.head? == some '0' && n != 0 then none
    else pure (.int n (toString n), width)
  else
    let x ← Decimal.readFloat (whole ++ fraction ++ exponent)
    pure (.float x, width)

/-- A number at the start of a text, and its width. -/
def readNumber (source : List Char) : Option (Token × Nat) :=
  match source with
  | '0' :: c :: _ =>
    if c == 'x' || c == 'X' then readRadix 16 (fun d => (hexDigit? d).isSome) source
    else if c == 'o' || c == 'O' then readRadix 8 isOctal source
    else if c == 'b' || c == 'B' then readRadix 2 (fun d => d == '0' || d == '1') source
    else readDecimal source
  | _ => readDecimal source

/-! ## Strings -/

/-- The letters in front of a string, as what they say about it. -/
structure StringKind where
  raw : Bool
  bytes : Bool
  formatted : Bool
  template : Bool

/-- The kind of string that letters in front of a quote announce. -/
def stringKind? (letters : List Char) : Option StringKind :=
  match letters.map Char.toLower with
  | [] | ['u'] => some ⟨false, false, false, false⟩
  | ['r'] => some ⟨true, false, false, false⟩
  | ['b'] => some ⟨false, true, false, false⟩
  | ['f'] => some ⟨false, false, true, false⟩
  | ['t'] => some ⟨false, false, true, true⟩
  | ['b', 'r'] | ['r', 'b'] => some ⟨true, true, false, false⟩
  | ['f', 'r'] | ['r', 'f'] => some ⟨true, false, true, false⟩
  | ['t', 'r'] | ['r', 't'] => some ⟨true, false, true, true⟩
  | _ => none

/-- The characters up to the closing quote. A backslash protects the character behind it; a line end
closes no string, and only a triple quoted one may hold it. -/
def stringBody? (quote : Char) (triple : Bool) : List Char → Option (List Char)
  | [] => none
  | '\\' :: '\r' :: '\n' :: rest =>
    (stringBody? quote triple rest).map ('\\' :: '\r' :: '\n' :: ·)
  | '\\' :: c :: rest => (stringBody? quote triple rest).map ('\\' :: c :: ·)
  | c :: rest =>
    if c == quote && (!triple || [quote, quote].isPrefixOf rest) then some []
    else if (c == '\n' || c == '\r') && !triple then none
    else (stringBody? quote triple rest).map (c :: ·)

/-- The token of a plain string or a literal of bytes with the body `body`. -/
def stringToken? (kind : StringKind) (body : List Char) : Option Token := do
  if kind.bytes && body.any fun c => 128 ≤ c.toNat then none
  else
    let cs ← if kind.raw then some body else resolveEscapes kind.bytes body
    if kind.bytes then pure (.bytes (cs.map fun c => UInt8.ofNat c.toNat))
    else pure (.string (String.ofList cs))

/-- A string whose quote stands behind `letters` letters at the cursor. -/
def readString (s : ScanState) (kind : StringKind) (letters : Nat) : Option ScanState :=
  let cur := s.cursor.skip letters
  match cur.rest with
  | [] => none
  | quote :: rest =>
    let triple := [quote, quote].isPrefixOf rest
    let opening := if triple then 3 else 1
    let inside := cur.skip opening
    if kind.formatted then
      let f : OpenFormat := ⟨quote, triple, kind.raw, s.depth, 0⟩
      some { s.emit (.formatStart kind.template) inside with formats := f :: s.formats }
    else do
      let body ← stringBody? quote triple inside.rest
      let token ← stringToken? kind body
      pure (s.emit token (inside.skip (body.length + opening)))

/-- The plain text of a formatted string up to an expression, the end of a format specification or
the closing quote: the text as written, doubled braces made single, and the width of what was
written. `named` says that the reader is inside the braces of a character name. -/
def formatBody? (f : OpenFormat) (inSpec : Bool) (named : Bool) :
    List Char → Option (List Char × Nat)
  | [] => none
  | '\\' :: 'N' :: '{' :: rest =>
    if f.raw then (formatBody? f inSpec named ('{' :: rest)).map (behind ['\\', 'N'] 2)
    else (formatBody? f inSpec true rest).map (behind ['\\', 'N', '{'] 3)
  | '\\' :: '\r' :: '\n' :: rest =>
    (formatBody? f inSpec named rest).map (behind ['\\', '\r', '\n'] 3)
  | '\\' :: c :: rest =>
    if c == '{' || c == '}' then (formatBody? f inSpec named (c :: rest)).map (behind ['\\'] 1)
    else (formatBody? f inSpec named rest).map (behind ['\\', c] 2)
  | ['\\'] => none
  | c :: rest =>
    if c == '{' then
      if inSpec then some ([], 0) else
      match rest with
      | '{' :: more => (formatBody? f inSpec named more).map (behind ['{'] 2)
      | _ => some ([], 0)
    else if c == '}' then
      if named then (formatBody? f inSpec false rest).map (behind ['}'] 1)
      else if inSpec then some ([], 0) else
      match rest with
      | '}' :: more => (formatBody? f inSpec named more).map (behind ['}'] 2)
      | _ => some ([], 0)
    else if (c == '\n' || c == '\r') && !f.triple then none
    else if f.closing.isPrefixOf (c :: rest) then some ([], 0)
    else (formatBody? f inSpec named rest).map (behind [c] 1)
where
  behind (cs : List Char) (width : Nat) (body : List Char × Nat) : List Char × Nat :=
    (cs ++ body.1, body.2 + width)

/-! ## Steps -/

/-- Ends a format specification if one is being read, since its brace has closed. -/
def closeSpec (s : ScanState) : ScanState :=
  match s.formats with
  | f :: outer =>
    if f.inSpec s.depth then { s with formats := { f with specs := f.specs - 1 } :: outer } else s
  | [] => s

/-- Reads an operator or a mark of punctuation and keeps the count of open brackets. -/
def readSymbol (s : ScanState) : Option ScanState :=
  match s.cursor.rest, s.formats with
  | ':' :: _, f :: outer =>
    if f.startsSpec s.depth then
      let s := s.emit (.symbol ":") s.cursor.bump
      some { s with formats := { f with specs := f.specs + 1 } :: outer }
    else general
  | '}' :: _, f :: _ => if f.depth == s.depth then none else general
  | _, _ => general
where
  general : Option ScanState := do
    let cs ← symbolAt? s.cursor.rest
    let next := s.emit (.symbol (String.ofList cs)) (s.cursor.skip cs.length)
    match cs with
    | ['('] | ['['] | ['{'] => pure { next with depth := s.depth + 1 }
    | ['}'] => pure { closeSpec next with depth := s.depth - 1 }
    | [')'] | [']'] => pure { next with depth := s.depth - 1 }
    | _ => pure next

/-- Reads one token, or passes one blank, comment or line end, outside the text of a formatted
string. -/
def readPlain (s : ScanState) : Option ScanState :=
  match s.cursor.rest with
  | [] => some s
  | c :: rest =>
    if c == ' ' || c == '\t' || c == '\x0c' then some { s with cursor := s.cursor.bump }
    else if c == '#' then
      let comment := s.cursor.rest.takeWhile fun d => d != '\n' && d != '\r'
      some { s with cursor := s.cursor.skip comment.length }
    else if c == '\n' then some (readLineEnd s s.cursor.bump)
    else if c == '\r' then
      some (readLineEnd s (s.cursor.skip (if rest.head? == some '\n' then 2 else 1)))
    else if c == '\\' then
      let width := match rest with
        | '\r' :: '\n' :: _ => 3
        | '\r' :: _ | '\n' :: _ => 2
        | _ => 0
      let next := s.cursor.skip width
      if width == 0 || next.rest.isEmpty then none else some { s with cursor := next }
    else if Text.isIdentifierStart c then
      let word := s.cursor.rest.takeWhile Text.isIdentifierPart
      let behind := (s.cursor.rest.drop word.length).head?
      let kind := if behind == some '\'' || behind == some '"' then stringKind? word else none
      match kind with
      | some kind => readString s kind word.length
      | none => some (s.emit (ofWord (String.ofList word)) (s.cursor.skip word.length))
    else if c.isDigit || (c == '.' && rest.head?.any Char.isDigit) then do
      let (token, width) ← readNumber s.cursor.rest
      pure (s.emit token (s.cursor.skip width))
    else if c == '\'' || c == '"' then readString s ⟨false, false, false, false⟩ 0
    else readSymbol s

/-- Reads the closing quote of the formatted string `f`, or the plain text at the cursor, or, where
there is none, the brace that stands there. -/
def readFormat (s : ScanState) (f : OpenFormat) : Option ScanState := do
  if s.cursor.startsWith f.closing then
    pure { s.emit .formatStop (s.cursor.skip f.closing.length) with formats := s.formats.drop 1 }
  else
    let inSpec := f.inSpec s.depth
    let (body, width) ← formatBody? f inSpec false s.cursor.rest
    if body.isEmpty then readPlain s
    else
      let cs ← if f.raw then some body else resolveEscapes false body
      pure (s.emit (.formatText (String.ofList cs)) (s.cursor.skip width))

/-- One step of the reader. -/
def readStep (s : ScanState) : Option ScanState :=
  match s.formats with
  | f :: _ => if f.inExpression s.depth then readPlain s else readFormat s f
  | [] => if s.lineStart && s.depth == 0 then readIndentation s else readPlain s

/-- Ends the last line and closes all blocks at the end of the text. -/
def readEnd (s : ScanState) : Option ScanState :=
  if !s.formats.isEmpty then none
  else
    let s := if s.lineOpen then s.emitLayout .newline else s
    some (s.blocks.foldl (fun s _ => s.emitLayout .dedent) s)

/-- Runs the reader to the end of the text; the count bounds the steps. -/
def readAll : Nat → ScanState → Option ScanState
  | 0, s => readEnd s
  | n + 1, s => if s.cursor.rest.isEmpty then readEnd s else readStep s >>= readAll n

/-- The tokens of a program text, or `none` if some part of it is no token. A step passes at least
one character, apart from the measuring of an indentation, which happens at most once a line. -/
def scan (text : String) : Option (List Lexeme) := do
  let cs := text.toList
  let s ← readAll (2 * cs.length + 2) (.start cs)
  let index := LineIndex.ofText text
  s.readings.reverse.mapM (·.lexeme? index)

end Resumable.Token
