import Resumable.Surface.Tree
import Resumable.Token

/-!
# Grammar rules

A rule of the grammar reads tokens from the front of what is left and builds a part of the surface
tree, or fails. Rules are functions of the input, so a failed alternative leaves no trace. Rules
that occur in one another below brackets, operators and blocks take the recursive ones from a
`Knot`, which is tied once, by the number of tokens.
-/

namespace Resumable.Surface

/-- The tokens that are left, and the place behind the last token that was read. Line ends, block
ends and semicolons do not count for that place. -/
structure Input where
  rest : List Lexeme
  /-- The number of tokens that are left. -/
  count : Nat
  last : Location
  count_eq : count = rest.length

/-- All tokens of a text. -/
def Input.ofLexemes (lexemes : List Lexeme) : Input := ⟨lexemes, lexemes.length, .first, rfl⟩

/-- A rule of the grammar. -/
abbrev Rule (α : Type) := StateT Input Option α

namespace Rule

/-- The rule that matches nothing. -/
def reject {α : Type} : Rule α := fun _ => none

/-- The next token. -/
def peek : Rule (Option Token) := fun i => some (i.rest.head?.map (·.token), i)

/-- The token behind the next one. -/
def peekSecond : Rule (Option Token) := fun i => some ((i.rest.drop 1).head?.map (·.token), i)

/-- Where the next token starts. -/
def here : Rule Location := fun i => some ((i.rest.head?.map (·.span.start)).getD i.last, i)

/-- The span from a place to the end of what has been read. -/
def since (start : Location) : Rule Span := fun i => some (⟨start, i.last⟩, i)

/-- The number of tokens that are left. -/
def remaining : Rule Nat := fun i => some (i.count, i)

/-- Whether a token counts for the extent of the construct that it closes. -/
def counts : Token → Bool
  | .newline | .dedent | .symbol ";" => false
  | _ => true

/-- Reads one token. -/
def advance : Rule Lexeme := fun i =>
  match h : i.rest with
  | [] => none
  | l :: rest =>
    let last := if counts l.token then l.span.stop else i.last
    some (l, ⟨rest, i.count - 1, last, by simp [i.count_eq, h]⟩)

def isSymbol (text : String) : Option Token → Bool
  | some (.symbol s) => s == text
  | _ => false

def isKeyword (word : String) : Option Token → Bool
  | some (.keyword w) => w == word
  | _ => false

/-- Whether the next token is the symbol `text`. -/
def atSymbol (text : String) : Rule Bool := do return isSymbol text (← peek)

/-- Whether the next token is the keyword `word`. -/
def atKeyword (word : String) : Rule Bool := do return isKeyword word (← peek)

/-- Reads the symbol `text` if it is next. -/
def eatSymbol (text : String) : Rule Bool := do
  if ← atSymbol text then
    let _ ← advance
    return true
  else return false

/-- Reads the keyword `word` if it is next. -/
def eatKeyword (word : String) : Rule Bool := do
  if ← atKeyword word then
    let _ ← advance
    return true
  else return false

/-- Reads the symbol `text`, which must be next. -/
def symbol (text : String) : Rule Unit := do
  unless ← eatSymbol text do reject

/-- Reads the keyword `word`, which must be next. -/
def keyword (word : String) : Rule Unit := do
  unless ← eatKeyword word do reject

/-- Reads an identifier. -/
def name : Rule String := do
  match (← advance).token with
  | .name text => return text
  | _ => reject

/-- Reads the end of a logical line. -/
def newline : Rule Unit := do
  match (← advance).token with
  | .newline => return
  | _ => reject

/-- The first of two rules that matches. -/
def orElse {α : Type} (p q : Rule α) : Rule α := fun i =>
  match p i with
  | some r => some r
  | none => q i

/-- A rule, tried: `none` if it does not match, and then nothing is read. -/
def optional {α : Type} (p : Rule α) : Rule (Option α) :=
  orElse (do return some (← p)) (return none)

/-- Runs a rule until it yields nothing and collects what it yields; the count bounds the runs. -/
def collect {α : Type} (p : Rule (Option α)) : Nat → Rule (List α)
  | 0 => return []
  | n + 1 => do
    match ← p with
    | none => return []
    | some a => return a :: (← collect p n)

/-- Runs a rule until it yields nothing. A run that yields something reads a token. -/
def many {α : Type} (p : Rule (Option α)) : Rule (List α) := do
  collect p (← remaining)

/-- Extends a value as long as a rule yields an extension; the count bounds the runs. -/
def extendUpTo {α : Type} (p : α → Rule (Option α)) : Nat → α → Rule α
  | 0, a => return a
  | n + 1, a => do
    match ← p a with
    | none => return a
    | some b => extendUpTo p n b

/-- Extends a value as long as a rule yields an extension. -/
def extend {α : Type} (p : α → Rule (Option α)) (a : α) : Rule α := do
  extendUpTo p (← remaining) a

/-- The elements that follow a first one, each behind a comma, up to a token that closes the list;
a comma may stand before that token. -/
def moreElements {α : Type} (element : Rule α) (closes : Option Token → Bool) : Rule (List α) :=
  many do
    if ← atSymbol "," then
      let _ ← advance
      if closes (← peek) then return none else return some (← element)
    else return none

/-- Elements with commas between them, and perhaps one behind, up to the symbol `closing`, which is
read too. -/
def elementsUntil {α : Type} (element : Rule α) (closing : String) : Rule (List α) := do
  if ← eatSymbol closing then return []
  let first ← element
  let more ← moreElements element (isSymbol closing)
  symbol closing
  return first :: more

/-- Elements with commas between them and none behind. -/
def elements {α : Type} (element : Rule α) : Rule (List α) := do
  let first ← element
  let more ← many do
    if ← eatSymbol "," then return some (← element) else return none
  return first :: more

end Rule

/-- Whether a starred expression may stand in a place, and what may follow its star. -/
inductive StarContext where
  | refused
  | conditional
  | bitwiseOr

/-- What a place in the grammar allows besides a plain expression. -/
structure Context where
  star : StarContext
  yields : Bool
  /-- Whether `in` belongs to the surrounding construct and is no operator. -/
  noIn : Bool

namespace Context

/-- A plain expression. -/
def plain : Context := ⟨.refused, false, false⟩

/-- A starred operand as in a display. -/
def starred : Context := ⟨.bitwiseOr, false, false⟩

/-- A starred operand as among arguments. -/
def starredConditional : Context := ⟨.conditional, false, false⟩

/-- A starred operand or a `yield`. -/
def yieldOrStarred : Context := ⟨.bitwiseOr, true, false⟩

/-- What stands in front of the `in` of a loop. -/
def loopTarget : Context := ⟨.conditional, false, true⟩

end Context

/-- The recursive rules. -/
structure Knot where
  /-- A conditional expression, a lambda, or what the context allows besides. -/
  conditional : Context → Rule Expr
  /-- An operand of `and`. -/
  inversion : Context → Rule Expr
  /-- An operand of a product. -/
  factor : Rule Expr
  /-- A field of a formatted string. -/
  field : Rule FormatPart
  /-- What a clause holds behind its colon. -/
  block : Rule (List Stmt)
  /-- A pattern of a `case`. -/
  pattern : Rule Unit

end Resumable.Surface
