import Resumable.Surface.Expression

/-!
# Patterns

The rules for the patterns of a `match` statement. Such statements cannot be run, so the rules
build nothing; they only tell patterns from other texts.
-/

namespace Resumable.Surface.Knot

open Rule

variable (k : Knot)

/-- A number with an optional minus, and perhaps an imaginary part behind a plus or minus. -/
def numberPattern : Rule Unit := do
  let number : Rule Unit := do
    match (← advance).token with
    | .int .. | .float _ | .imaginary => return
    | _ => reject
  let _ ← eatSymbol "-"
  number
  if (← atSymbol "+") || (← atSymbol "-") then
    let _ ← advance
    number

/-- Patterns with commas between them, up to the symbol `closing`, which is read too. -/
def patternsUntil (closing : String) : Rule Unit := do
  let _ ← elementsUntil k.pattern closing

/-- One item of a mapping pattern. -/
def mappingItem : Rule Unit := do
  if ← eatSymbol "**" then
    let _ ← Rule.name
  else
    match ← peek with
    | some (.name _) =>
      let _ ← advance
      symbol "."
      let _ ← Rule.name
      let _ ← many do
        if ← eatSymbol "." then
          let _ ← Rule.name
          return some ()
        else return none
    | some (.string _) | some (.bytes _) =>
      let _ ← many k.piece?
    | some (.keyword w) =>
      unless w == "None" || w == "True" || w == "False" do reject
      let _ ← advance
    | _ => numberPattern
    symbol ":"
    k.pattern

/-- One argument of a class pattern. -/
def classItem : Rule Unit := do
  if isSymbol "=" (← peekSecond) then
    let _ ← Rule.name
    symbol "="
  k.pattern

/-- A pattern that is no alternative and binds no name to a whole. -/
def closedPattern : Rule Unit := do
  match ← peek with
  | some (.symbol "(") =>
    let _ ← advance
    k.patternsUntil ")"
  | some (.symbol "[") =>
    let _ ← advance
    k.patternsUntil "]"
  | some (.symbol "\x7b") =>
    let _ ← advance
    let _ ← elementsUntil k.mappingItem "\x7d"
  | some (.symbol "*") =>
    let _ ← advance
    let _ ← Rule.name
  | some (.name _) =>
    let _ ← advance
    let _ ← many do
      if ← eatSymbol "." then
        let _ ← Rule.name
        return some ()
      else return none
    if ← eatSymbol "(" then
      let _ ← elementsUntil k.classItem ")"
  | some (.string _) | some (.bytes _) =>
    let pieces ← many k.piece?
    if (joinPieces pieces).isNone || pieces.any (· matches .format _) then reject
  | some (.keyword w) =>
    unless w == "None" || w == "True" || w == "False" do reject
    let _ ← advance
  | _ => numberPattern

/-- A pattern: alternatives, perhaps bound to a name as a whole. -/
def patternRule : Rule Unit := do
  k.closedPattern
  let _ ← many do
    if ← eatSymbol "|" then
      k.closedPattern
      return some ()
    else return none
  if ← eatKeyword "as" then
    unless (← Rule.name) != "_" do reject

/-- What stands between `case` and its guard or colon. -/
def topPattern : Rule Unit := do
  let starred ← atSymbol "*"
  k.pattern
  if ← atSymbol "," then
    let closes (t : Option Token) : Bool := isSymbol ":" t || isKeyword "if" t
    let _ ← moreElements k.pattern closes
  else if starred then reject

end Resumable.Surface.Knot
