import Resumable.Surface.Rule

/-!
# Expressions

The rules for expressions, from the loosest operator to the atoms. A construct that the guest
language has but that cannot be run is read in full and then stands as `unsupported`.
-/

namespace Resumable.Surface

open Rule

namespace Expr

/-- Whether an assignment can bind the expression: a name, an attribute, a subscript, or a list or
tuple of such, with stars anywhere. -/
def isAssignable : Expr → Bool
  | .mk _ form => isAssignableForm form
where
  isAssignableForm : ExprForm → Bool
    | .name _ | .attribute .. | .subscript .. => true
    | .starred e => isAssignable e
    | .list items | .tuple items => allAssignable items
    | _ => false
  allAssignable : List Expr → Bool
    | [] => true
    | e :: rest => isAssignable e && allAssignable rest

/-- Whether the expression stands without parentheses, given the place where it was begun. -/
def isBare (e : Expr) (start : Location) : Bool := e.span.start == start

def isName : Expr → Bool
  | .mk _ (.name _) => true
  | _ => false

def isStarred : Expr → Bool
  | .mk _ (.starred _) => true
  | _ => false

end Expr

/-! ## Constructs that cannot be run -/

/-- How messages name the constructs that cannot be run. -/
def namedConstruct : String := "assignment expressions (:=)"
def lambdaConstruct : String := "lambda"

def isUnsupported (construct : String) : Expr → Bool
  | .mk _ (.unsupported c) => c == construct
  | _ => false

/-- A rule whose result stands as an unsupported construct. -/
def asUnsupported {α : Type} (construct : String) (start : Location) (p : Rule α) : Rule Expr := do
  let _ ← p
  return .mk (← since start) (.unsupported construct)

namespace Knot

variable (k : Knot)

/-! ## Lists of expressions -/

/-- The tokens that end a list of expressions without brackets. -/
def endsList : Option Token → Bool
  | some (.symbol s) =>
    s == ")" || s == "]" || s == "\x7d" || s == ":" || s == "=" || s == ";" || s == "!" ||
      (s.length > 1 && s.endsWith "=" && s != "==" && s != "!=" && s != "<=" && s != ">=")
  | some (.keyword w) => w == "in" || w == "from" || w == "for" || w == "as" || w == "async"
  | some .newline | some (.formatText _) | some .formatStop | none => true
  | _ => false

/-- One expression, or several with commas as a tuple. -/
def expressionList (ctx : Context) : Rule Expr := do
  let start ← here
  let first ← k.conditional ctx
  if ← atSymbol "," then
    let more ← moreElements (k.conditional ctx) endsList
    return .mk (← since start) (.tuple (first :: more))
  else return first

/-- An expression, or a name that is bound to one by `:=`. -/
def namedExpression (ctx : Context) : Rule Expr := do
  let start ← here
  let e ← k.conditional ctx
  if ← eatSymbol ":=" then
    unless e.isName do reject
    asUnsupported namedConstruct start (k.conditional .plain)
  else return e

/-! ## Operators -/

/-- Operands of operators of one rank, joined from the left. -/
def leftToRight (ops : List (String × BinaryOp)) (operand : Rule Expr) : Rule Expr := do
  let start ← here
  let first ← operand
  extend (fun left => do
    match ← peek with
    | some (.symbol s) =>
      match ops.find? (·.1 == s) with
      | some (_, op) =>
        let _ ← advance
        let right ← operand
        return some (.mk (← since start) (.binary left op right))
      | none => return none
    | _ => return none) first

/-- Operands with one keyword between them; a single operand stands for itself. -/
def joined (word : String) (operand : Rule Expr) (join : Expr → List Expr → ExprForm) :
    Rule Expr := do
  let start ← here
  let first ← operand
  let more ← many do
    if ← eatKeyword word then return some (← operand) else return none
  if more.isEmpty then return first
  else return .mk (← since start) (join first more)

/-- The comparison operator that is next, read. -/
def comparator? (ctx : Context) : Rule (Option Comparator) := do
  match ← peek with
  | some (.symbol s) =>
    let op? : Option Comparator := match s with
      | "==" => some .eq
      | "!=" => some .notEq
      | "<" => some .lt
      | "<=" => some .ltE
      | ">" => some .gt
      | ">=" => some .gtE
      | _ => none
    if op?.isSome then
      let _ ← advance
    return op?
  | some (.keyword "in") =>
    if ctx.noIn then return none
    let _ ← advance
    return some .isIn
  | some (.keyword "not") =>
    if isKeyword "in" (← peekSecond) then
      let _ ← advance
      let _ ← advance
      return some .notIn
    else return none
  | some (.keyword "is") =>
    let _ ← advance
    if ← eatKeyword "not" then return some .isNot else return some .is
  | _ => return none

/-- An expression of the rank of a product's operand or tighter, joined by the operators of
arithmetic and of bits. -/
def bitwiseOr : Rule Expr :=
  let unsupported (s : String) : String × BinaryOp := (s, .unsupported s)
  let product := leftToRight
    [("*", .supported .mult), ("/", .supported .div), ("//", .supported .floorDiv),
     ("%", .supported .mod), unsupported "@"] k.factor
  let sum := leftToRight [("+", .supported .add), ("-", .supported .sub)] product
  let shift := leftToRight [unsupported "<<", unsupported ">>"] sum
  let bitAnd := leftToRight [unsupported "&"] shift
  let bitXor := leftToRight [unsupported "^"] bitAnd
  leftToRight [unsupported "|"] bitXor

/-- A chain of comparisons. -/
def comparison (ctx : Context) : Rule Expr := do
  let start ← here
  let left ← k.bitwiseOr
  let rest ← many do
    match ← comparator? ctx with
    | some op => return some (Comparison.mk op (← k.bitwiseOr))
    | none => return none
  if rest.isEmpty then return left
  else return .mk (← since start) (.compare left rest)

/-- An operand of `and`. -/
def inversionRule (ctx : Context) : Rule Expr := do
  let start ← here
  if ← eatKeyword "not" then
    let operand ← k.inversion ctx
    return .mk (← since start) (.unary .not operand)
  else k.comparison ctx

/-- An expression without conditional, joined by `or` and `and`. -/
def disjunction (ctx : Context) : Rule Expr :=
  joined "or" (joined "and" (k.inversion ctx) .all) .any

/-! ## Parameters -/

/-- What has been seen of a list of parameters. -/
structure ParamState where
  positional : List Param
  others : Bool
  /-- Whether a slash, a star or a default has been seen. -/
  slash : Bool
  star : Bool
  defaulted : Bool
  /-- Whether a bare star still waits for a parameter. -/
  bareStar : Bool
  /-- Whether the parameter for the remaining keywords has been seen. -/
  keywords : Bool

/-- The annotation of a parameter, where one may stand. -/
def annotation (annotated : Bool) (ctx : Context) : Rule Unit := do
  if annotated then
    if ← eatSymbol ":" then
      let _ ← k.conditional ctx

/-- One parameter or one of the marks between them. -/
def parameter (annotated : Bool) (s : ParamState) : Rule ParamState := do
  if s.keywords then reject
  if ← eatSymbol "*" then
    if s.star then reject
    match ← peek with
    | some (.name _) =>
      let _ ← advance
      k.annotation annotated .starred
      return { s with star := true, others := true }
    | _ => return { s with star := true, bareStar := true }
  else if ← eatSymbol "**" then
    let _ ← Rule.name
    k.annotation annotated .plain
    if s.bareStar then reject
    return { s with keywords := true, others := true }
  else if ← eatSymbol "/" then
    if s.slash || s.star || s.positional.isEmpty then reject
    return { s with slash := true }
  else
    let id ← Rule.name
    k.annotation annotated .plain
    let value ← if ← eatSymbol "=" then do pure (some (← k.conditional .plain)) else pure none
    if s.star then return { s with others := true, bareStar := false }
    if value.isNone && s.defaulted then reject
    return { s with
      positional := ⟨id, value⟩ :: s.positional, defaulted := s.defaulted || value.isSome }

/-- The parameters up to the symbol `closing`, which is not read. -/
def parameters (annotated : Bool) (closing : String) : Rule Params := do
  let s : ParamState := ⟨[], false, false, false, false, false, false⟩
  let s ← if ← atSymbol closing then pure s else do
    let s ← k.parameter annotated s
    extend (fun s => do
      if ← eatSymbol "," then
        if ← atSymbol closing then return none
        return some (← k.parameter annotated s)
      else return none) s
  unless ← atSymbol closing do reject
  if s.bareStar then reject
  return ⟨s.positional.reverse, s.others⟩

/-! ## Conditional expressions -/

/-- What stands behind `yield`. -/
def yieldExpression (start : Location) : Rule Expr := do
  if ← eatKeyword "from" then
    asUnsupported "yield from" start do
      let _ ← k.conditional .plain
      if ← atSymbol "," then reject
  else
    asUnsupported "yield" start do
      unless endsList (← peek) do
        let _ ← k.expressionList .starred

/-- A conditional expression, a lambda, or what the context allows besides. -/
def conditionalRule (ctx : Context) : Rule Expr := do
  let start ← here
  match ← peek with
  | some (.keyword "lambda") =>
    let _ ← advance
    asUnsupported lambdaConstruct start do
      let _ ← k.parameters false ":"
      symbol ":"
      k.conditional .plain
  | some (.keyword "yield") =>
    unless ctx.yields do reject
    let _ ← advance
    k.yieldExpression start
  | some (.symbol "*") =>
    let _ ← advance
    let operand ← match ctx.star with
      | .refused => reject
      | .conditional => k.conditional ctx
      | .bitwiseOr => k.bitwiseOr
    return .mk (← since start) (.starred operand)
  | _ =>
    let body ← k.disjunction ctx
    if ← eatKeyword "if" then
      let test ← k.disjunction .plain
      keyword "else"
      let orElse ← k.conditional .plain
      return .mk (← since start) (.conditional test body orElse)
    else return body

/-! ## Comprehensions -/

/-- Whether a `for` clause is next. -/
def atComprehension : Rule Bool := do
  return (← atKeyword "for") || ((← atKeyword "async") && isKeyword "for" (← peekSecond))

/-- One `for` clause with its conditions. -/
def comprehensionClause : Rule Unit := do
  let _ ← eatKeyword "async"
  keyword "for"
  let target ← k.expressionList .loopTarget
  unless target.isAssignable do reject
  keyword "in"
  let _ ← k.disjunction .plain
  let _ ← many do
    if ← eatKeyword "if" then
      let _ ← k.disjunction .plain
      return some ()
    else return none

/-- The clauses behind the element of a comprehension, up to the symbol `closing`, which is read
too. -/
def comprehension (closing : String) : Rule Unit := do
  k.comprehensionClause
  let _ ← many do
    if ← atComprehension then
      k.comprehensionClause
      return some ()
    else return none
  symbol closing

/-! ## Brackets -/

/-- What stands behind an opening parenthesis. -/
def parenthesized (start : Location) : Rule Expr := do
  if ← eatSymbol ")" then return .mk (← since start) (.tuple [])
  let first ← k.namedExpression .yieldOrStarred
  if ← atSymbol "," then
    let more ← moreElements (k.namedExpression .starred) (isSymbol ")")
    symbol ")"
    return .mk (← since start) (.tuple (first :: more))
  else if ← atComprehension then
    if first.isStarred then reject
    asUnsupported "generator expressions" start (k.comprehension ")")
  else
    if first.isStarred then reject
    symbol ")"
    return first

/-- What stands behind an opening square bracket. -/
def listDisplay (start : Location) : Rule Expr := do
  if ← eatSymbol "]" then return .mk (← since start) (.list [])
  let first ← k.namedExpression .starred
  if ← atComprehension then
    if first.isStarred then reject
    asUnsupported "list comprehensions" start (k.comprehension "]")
  else
    let more ← moreElements (k.namedExpression .starred) (isSymbol "]")
    symbol "]"
    return .mk (← since start) (.list (first :: more))

/-- One item of a dictionary display. -/
def dictItem : Rule DictItem := do
  if ← eatSymbol "**" then return .unpack (← k.bitwiseOr)
  let key ← k.conditional .plain
  symbol ":"
  return .pair key (← k.conditional .plain)

/-- What stands behind an opening brace. -/
def braceDisplay (start : Location) : Rule Expr := do
  let closing := "\x7d"
  if ← eatSymbol closing then return .mk (← since start) (.dict [])
  if ← atSymbol "**" then
    let items ← elementsUntil k.dictItem closing
    return .mk (← since start) (.dict items)
  let inner ← here
  let first ← k.namedExpression .starred
  if ← eatSymbol ":" then
    if first.isStarred || (isUnsupported namedConstruct first && first.isBare inner) then reject
    let value ← k.conditional .plain
    if ← atComprehension then
      asUnsupported "dict comprehensions" start (k.comprehension closing)
    else
      let more ← moreElements k.dictItem (isSymbol closing)
      symbol closing
      return .mk (← since start) (.dict (.pair first value :: more))
  else if ← atComprehension then
    if first.isStarred then reject
    asUnsupported "set comprehensions" start (k.comprehension closing)
  else
    asUnsupported "sets" start do
      let _ ← moreElements (k.namedExpression .starred) (isSymbol closing)
      symbol closing

/-! ## Strings -/

/-- A piece of a string: the pieces that stand side by side make one. -/
inductive Piece where
  | text (s : String)
  | bytes (b : List UInt8)
  | format (parts : List FormatPart)
  | template

/-- The parts of a formatted string up to its closing quote. -/
def formatParts : Rule (List FormatPart) := do
  let parts ← many do
    match ← peek with
    | some (.formatText s) =>
      let _ ← advance
      return some (.text s)
    | some (.symbol "\x7b") => return some (← k.field)
    | _ => return none
  match (← advance).token with
  | .formatStop => return parts
  | _ => reject

/-- A field of a formatted string, in its braces. -/
def fieldRule : Rule FormatPart := do
  symbol "\x7b"
  let start ← here
  let value ← k.expressionList .yieldOrStarred
  if isUnsupported lambdaConstruct value && value.isBare start then reject
  let debug ← eatSymbol "="
  let conversion ← conversionLetter
  let spec ← if ← eatSymbol ":" then do pure (some (← specText)) else pure none
  symbol "\x7d"
  return .field value debug conversion spec
where
  conversionLetter : Rule (Option Char) := do
    if ← atSymbol "!" then
      let mark ← advance
      let letter ← advance
      unless mark.span.stop == letter.span.start do reject
      match letter.token with
      | .name "s" => return some 's'
      | .name "r" => return some 'r'
      | .name "a" => return some 'a'
      | _ => reject
    else return none
  specText : Rule SpecText := do
    let parts ← many do
      match ← peek with
      | some (.formatText s) =>
        let _ ← advance
        return some (some s)
      | some (.symbol "\x7b") =>
        let _ ← k.field
        return some none
      | _ => return none
    if parts.any (·.isNone) then return .nested
    else return .plain (String.join (parts.map (·.getD "")))

/-- One string literal, if one is next. -/
def piece? : Rule (Option Piece) := do
  match ← peek with
  | some (.string s) =>
    let _ ← advance
    return some (.text s)
  | some (.bytes b) =>
    let _ ← advance
    return some (.bytes b)
  | some (.formatStart template) =>
    let _ ← advance
    let parts ← k.formatParts
    return some (if template then .template else .format parts)
  | _ => return none

/-- The string that pieces side by side make. Bytes and template strings stand only among their
own kind. -/
def joinPieces (pieces : List Piece) : Option ExprForm :=
  if pieces.any (· matches .template) then
    if pieces.all (· matches .template) then
      some (.unsupported "template strings (t-strings)")
    else none
  else if pieces.any (· matches .bytes _) then
    if pieces.all (· matches .bytes _) then
      some (.literal (.bytes (pieces.flatMap fun
        | .bytes b => b
        | _ => [])))
    else none
  else if pieces.any (· matches .format _) then
    some (.format (pieces.flatMap fun
      | .format parts => parts
      | .text s => if s.isEmpty then [] else [.text s]
      | _ => []))
  else
    some (.literal (.string (String.join (pieces.map fun
      | .text s => s
      | _ => ""))))

/-- String literals side by side. -/
def strings (start : Location) : Rule Expr := do
  let pieces ← many k.piece?
  match joinPieces pieces with
  | some form => return .mk (← since start) form
  | none => reject

/-! ## Atoms and what follows them -/

/-- A name, a literal or a bracketed expression. -/
def atom : Rule Expr := do
  let start ← here
  let leaf (form : ExprForm) : Rule Expr := do
    let l ← advance
    return .mk l.span form
  match ← peek with
  | some (.name id) => leaf (.name id)
  | some (.int n spelling) => leaf (.int n spelling)
  | some (.float x) => leaf (.literal (.float x))
  | some .imaginary => leaf (.unsupported "complex numbers")
  | some (.string _) | some (.bytes _) | some (.formatStart _) => k.strings start
  | some (.keyword "None") => leaf (.literal .none)
  | some (.keyword "True") => leaf (.literal (.bool true))
  | some (.keyword "False") => leaf (.literal (.bool false))
  | some (.symbol "...") => leaf (.literal .ellipsis)
  | some (.symbol "(") =>
    let _ ← advance
    k.parenthesized start
  | some (.symbol "[") =>
    let _ ← advance
    k.listDisplay start
  | some (.symbol "\x7b") =>
    let _ ← advance
    k.braceDisplay start
  | _ => reject

/-- An argument of a call. -/
inductive Argument where
  | positional (e : Expr)
  | generator (e : Expr)
  | keyword (k : Keyword)

/-- Reads one argument. -/
def argument : Rule Argument := do
  if ← eatSymbol "**" then return .keyword (.unpack (← k.conditional .plain))
  let start ← here
  let e ← k.namedExpression .starredConditional
  if ← atComprehension then
    if e.isStarred then reject
    k.comprehensionClause
    let _ ← many do
      if ← atComprehension then
        k.comprehensionClause
        return some ()
      else return none
    return .generator (.mk (← since start) (.unsupported "generator expressions"))
  else if ← eatSymbol "=" then
    match e with
    | .mk span (.name id) =>
      unless span.start == start do reject
      return .keyword (.named id (← k.conditional .plain))
    | _ => reject
  else return .positional e

/-- Whether the arguments stand in an order that a call allows: nothing positional behind a keyword,
nothing but keywords behind an unpacked mapping, and no keyword twice. -/
def validArguments (keyword unpacked : Bool) (seen : List String) : List Argument → Bool
  | [] => true
  | .generator _ :: rest => !keyword && !unpacked && validArguments keyword unpacked seen rest
  | .positional e :: rest =>
    !unpacked && (e.isStarred || !keyword) && validArguments keyword unpacked seen rest
  | .keyword (.unpack _) :: rest => validArguments keyword true seen rest
  | .keyword (.named id _) :: rest =>
    !seen.contains id && validArguments true unpacked (id :: seen) rest

/-- The arguments of a call behind its opening parenthesis. A generator without parentheses of its
own stands alone and without a comma. -/
def arguments : Rule (List Expr × List Keyword) := do
  if ← eatSymbol ")" then return ([], [])
  let first ← k.argument
  if first matches .generator _ then
    symbol ")"
    match first with
    | .generator e => return ([e], [])
    | _ => reject
  else
    let more ← moreElements k.argument (isSymbol ")")
    symbol ")"
    let args := first :: more
    if more.any (· matches .generator _) || !validArguments false false [] args then reject
    let positional := args.filterMap fun
      | .positional e => some e
      | _ => none
    let keywords := args.filterMap fun
      | .keyword kw => some kw
      | _ => none
    return (positional, keywords)

/-- One index or slice of a subscript. -/
def sliceItem : Rule Expr := do
  let start ← here
  let lower ← if ← atSymbol ":" then pure none else do
    pure (some (← k.namedExpression .starredConditional))
  if ← eatSymbol ":" then
    if lower.any fun e =>
        e.isStarred || (isUnsupported namedConstruct e && e.isBare start) then reject
    let ends (t : Option Token) : Bool := isSymbol "," t || isSymbol "]" t
    let upper ←
      if ends (← peek) || (← atSymbol ":") then pure none
      else do pure (some (← k.conditional .plain))
    let step ←
      if ← eatSymbol ":" then
        if ends (← peek) then pure none else do pure (some (← k.conditional .plain))
      else pure none
    return .mk (← since start) (.slice lower upper step)
  else
    match lower with
    | some e => return e
    | none => reject

/-- What stands in the brackets of a subscript, the closing one read too. -/
def subscriptIndex : Rule Expr := do
  let start ← here
  let first ← k.sliceItem
  let index ←
    if ← atSymbol "," then do
      let more ← moreElements k.sliceItem (isSymbol "]")
      pure (.mk (← since start) (.tuple (first :: more)))
    else if first.isStarred then pure (.mk (← since start) (.tuple [first]))
    else pure first
  symbol "]"
  return index

/-- An atom with the calls, subscripts and attributes behind it. -/
def primary : Rule Expr := do
  let start ← here
  let first ← k.atom
  extend (fun e => do
    match ← peek with
    | some (.symbol "(") =>
      let _ ← advance
      let (args, keywords) ← k.arguments
      return some (.mk (← since start) (.call e args keywords))
    | some (.symbol "[") =>
      let _ ← advance
      let index ← k.subscriptIndex
      return some (.mk (← since start) (.subscript e index))
    | some (.symbol ".") =>
      let _ ← advance
      let attr ← Rule.name
      return some (.mk (← since start) (.attribute e attr))
    | _ => return none) first

/-- An operand of a product: signs bind looser than a power, and a power's exponent may have one. -/
def factorRule : Rule Expr := do
  let start ← here
  let sign? : Option UnaryOp := match ← peek with
    | some (.symbol "+") => some .pos
    | some (.symbol "-") => some .neg
    | some (.symbol "~") => some .invert
    | _ => none
  match sign? with
  | some op =>
    let _ ← advance
    let operand ← k.factor
    return .mk (← since start) (.unary op operand)
  | none =>
    let base ←
      if ← eatKeyword "await" then do
        let operand ← k.primary
        pure (.mk (← since start) (.await operand))
      else k.primary
    if ← eatSymbol "**" then
      let exponent ← k.factor
      return .mk (← since start) (.binary base (.supported .pow) exponent)
    else return base

end Knot

end Resumable.Surface
