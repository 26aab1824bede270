import Resumable.Surface.Expression
import Resumable.Surface.Pattern
import Resumable.Token.Lexer

/-!
# Statements

The rules for statements and whole programs. `Surface.parse` reads a program text, and fails
exactly when the text is no program of the guest language.
-/

namespace Resumable.Surface

open Rule

namespace Knot

variable (k : Knot)

/-! ## Simple statements -/

/-- The operators of augmented assignments. -/
def augmentedOps : List (String × BinaryOp) :=
  [("+=", .supported .add), ("-=", .supported .sub), ("*=", .supported .mult),
   ("/=", .supported .div), ("//=", .supported .floorDiv), ("%=", .supported .mod),
   ("**=", .supported .pow), ("@=", .unsupported "@"), ("&=", .unsupported "&"),
   ("|=", .unsupported "|"), ("^=", .unsupported "^"), ("<<=", .unsupported "<<"),
   (">>=", .unsupported ">>")]

/-- Whether an augmented or annotated assignment can bind an expression. -/
def isSingleTarget : Expr → Bool
  | .mk _ (.name _) | .mk _ (.attribute ..) | .mk _ (.subscript ..) => true
  | _ => false

/-- Whether an expression can be deleted. -/
def isDeletable : Expr → Bool
  | .mk _ form => isDeletableForm form
where
  isDeletableForm : ExprForm → Bool
    | .name _ | .attribute .. | .subscript .. => true
    | .list items | .tuple items => allDeletable items
    | _ => false
  allDeletable : List Expr → Bool
    | [] => true
    | e :: rest => isDeletable e && allDeletable rest

/-- The expressions behind the first target of an assignment: the last one is its value. -/
def splitTargets (first : Expr) : List Expr → List Expr × Expr
  | [] => ([], first)
  | e :: rest =>
    let (targets, value) := splitTargets e rest
    (first :: targets, value)

/-- An assignment of any kind, or an expression that stands for itself. -/
def assignment : Rule StmtForm := do
  let first ← k.expressionList .yieldOrStarred
  match ← peek with
  | some (.symbol "=") =>
    let _ ← advance
    let second ← k.expressionList .yieldOrStarred
    let more ← many do
      if ← eatSymbol "=" then return some (← k.expressionList .yieldOrStarred) else return none
    let (rest, value) := splitTargets second more
    unless (first :: rest).all Expr.isAssignable do reject
    return .assign first rest value
  | some (.symbol ":") =>
    let _ ← advance
    unless isSingleTarget first do reject
    let _ ← k.conditional .plain
    if ← eatSymbol "=" then
      return .annAssign first (some (← k.expressionList .yieldOrStarred))
    else return .annAssign first none
  | some (.symbol s) =>
    match augmentedOps.find? (·.1 == s) with
    | some (_, op) =>
      let _ ← advance
      unless isSingleTarget first do reject
      return .augAssign first op (← k.expressionList .yieldOrStarred)
    | none => return .expr first
  | _ => return .expr first

/-- A name with dots in it. -/
def dottedName : Rule String := do
  let first ← Rule.name
  let more ← many do
    if ← eatSymbol "." then return some (← Rule.name) else return none
  return ".".intercalate (first :: more)

/-- The name that an import is bound to, if it is given. -/
def importBinding : Rule (Option String) := do
  if ← eatKeyword "as" then return some (← Rule.name) else return none

/-- What stands behind `import`. -/
def importNames : Rule StmtForm := do
  let names ← elements do
    let name ← dottedName
    return Alias.mk name (← importBinding)
  return .import names

/-- What stands behind `from`. -/
def importFromNames : Rule StmtForm := do
  let dots ← many do
    if ← eatSymbol "." then return some 1
    else if ← eatSymbol "..." then return some 3
    else return none
  let level := dots.foldl (· + ·) 0
  let module ← match ← peek with
    | some (.name _) => dottedName
    | _ => if level == 0 then reject else pure ""
  keyword "import"
  let one : Rule Alias := do
    let name ← Rule.name
    return ⟨name, ← importBinding⟩
  if ← eatSymbol "*" then return .importFrom module level [⟨"*", none⟩]
  else if ← eatSymbol "(" then
    let names ← elementsUntil one ")"
    if names.isEmpty then reject
    return .importFrom module level names
  else return .importFrom module level (← elements one)

/-- The type parameters of a definition, where it has any. -/
def typeParams : Rule Unit := do
  if ← eatSymbol "[" then
    let one : Rule Unit := do
      let starred ← eatSymbol "*"
      let double ← if starred then pure false else eatSymbol "**"
      let _ ← Rule.name
      if !starred && !double then
        if ← eatSymbol ":" then
          let _ ← k.conditional .plain
      if ← eatSymbol "=" then
        let _ ← k.conditional (if starred then .starred else .plain)
    let params ← elementsUntil one "]"
    if params.isEmpty then reject

/-- What stands behind `raise`. -/
def raiseForm : Rule StmtForm := do
  match ← peek with
  | some .newline | some (.symbol ";") => return .raise none false
  | _ =>
    let exc ← k.conditional .plain
    if ← eatKeyword "from" then
      let _ ← k.conditional .plain
      return .raise (some exc) true
    else return .raise (some exc) false

/-- Whether a type alias is next. -/
def atTypeAlias : Rule Bool := fun i =>
  let here := match (i.rest.take 3).map (·.token) with
    | [.name "type", .name _, .symbol s] => s == "=" || s == "["
    | _ => false
  some (here, i)

/-- A statement without a block. -/
def simpleForm : Rule StmtForm := do
  match ← peek with
  | some (.keyword word) =>
    match word with
    | "return" =>
      let _ ← advance
      match ← peek with
      | some .newline | some (.symbol ";") => return .return none
      | _ => return .return (some (← k.expressionList .starred))
    | "import" =>
      let _ ← advance
      importNames
    | "from" =>
      let _ ← advance
      importFromNames
    | "pass" =>
      let _ ← advance
      return .pass
    | "break" =>
      let _ ← advance
      return .break
    | "continue" =>
      let _ ← advance
      return .continue
    | "raise" =>
      let _ ← advance
      k.raiseForm
    | "del" =>
      let _ ← advance
      let first ← k.conditional .plain
      let more ← moreElements (k.conditional .plain) endsList
      unless (first :: more).all isDeletable do reject
      return .unsupported "del statements"
    | "assert" =>
      let _ ← advance
      let test ← k.conditional .plain
      if ← eatSymbol "," then return .assert test (some (← k.conditional .plain))
      else return .assert test none
    | "global" =>
      let _ ← advance
      return .global (← elements Rule.name)
    | "nonlocal" =>
      let _ ← advance
      let _ ← elements Rule.name
      return .unsupported "nonlocal"
    | _ => k.assignment
  | _ =>
    if ← atTypeAlias then
      let _ ← advance
      let _ ← Rule.name
      k.typeParams
      symbol "="
      let _ ← k.conditional .plain
      return .unsupported "type aliases"
    else k.assignment

/-- The simple statements of one logical line, its end read too. -/
def simpleLine : Rule (List Stmt) := do
  let one : Rule Stmt := do
    let start ← here
    let form ← k.simpleForm
    return .mk (← since start) form
  let first ← one
  let more ← many do
    if ← eatSymbol ";" then
      match ← peek with
      | some .newline => return none
      | _ => return some (← one)
    else return none
  newline
  return first :: more

/-! ## Compound statements -/

/-- What a clause holds behind its header: a colon, and then an indented block or simple statements
on the same line. -/
def body : Rule (List Stmt) := do
  symbol ":"
  k.block

/-- The `else` part of a loop or a `try`, where there is one. -/
def elseBody (word : String) : Rule (List Stmt) := do
  if ← eatKeyword word then k.body else return []

/-- What stands behind `if`. -/
def ifForm : Rule StmtForm := do
  let test ← k.namedExpression .plain
  let body ← k.body
  let elifs ← many do
    if ← eatKeyword "elif" then
      let test ← k.namedExpression .plain
      return some (Clause.mk (some test) (← k.body))
    else return none
  let last ← if ← eatKeyword "else" then do pure [Clause.mk none (← k.body)] else pure []
  return .ifElse test body (elifs ++ last)

/-- What stands behind `while`. -/
def whileForm : Rule StmtForm := do
  let test ← k.namedExpression .plain
  let body ← k.body
  return .while test body (← k.elseBody "else")

/-- What stands behind `for`. -/
def forForm (isAsync : Bool) : Rule StmtForm := do
  let target ← k.expressionList .loopTarget
  unless target.isAssignable do reject
  keyword "in"
  let iter ← k.expressionList .starred
  let body ← k.body
  return .for isAsync target iter body (← k.elseBody "else")

/-- One `except` clause behind its keyword, and whether it is a starred one. -/
def handler : Rule (Bool × Handler) := do
  let star ← eatSymbol "*"
  if ← atSymbol ":" then
    if star then reject
    return (star, .mk none none (← k.body))
  else
    let type ← k.expressionList .plain
    let single ← atKeyword "as"
    let name ← importBinding
    if single && (match type with | .mk span (.tuple (e :: _)) => span.start == e.span.start
                                  | _ => false) then reject
    return (star, .mk (some type) name (← k.body))

/-- What stands behind `try`. -/
def tryForm : Rule StmtForm := do
  let body ← k.body
  let handlers ← many do
    if ← eatKeyword "except" then return some (← k.handler) else return none
  let star := handlers.any (·.1)
  if star && !handlers.all (·.1) then reject
  let orElse ← k.elseBody "else"
  let hasFinally ← atKeyword "finally"
  let finally_ ← k.elseBody "finally"
  if handlers.isEmpty && !hasFinally then reject
  return .try star body (handlers.map (·.2)) orElse finally_

/-- What stands behind `with`. -/
def withForm : Rule StmtForm := do
  let item : Rule Unit := do
    let _ ← k.conditional .plain
    if ← eatKeyword "as" then
      let target ← k.conditional .starredConditional
      unless target.isAssignable do reject
  let bracketed : Rule Unit := do
    symbol "("
    let items ← elementsUntil item ")"
    if items.isEmpty then reject
    unless ← atSymbol ":" do reject
  orElse bracketed do
    let _ ← elements item
  let _ ← k.body
  return .unsupported "with statements"

/-- What stands behind `def`. -/
def functionForm (decorated : Bool) : Rule StmtForm := do
  let name ← Rule.name
  k.typeParams
  symbol "("
  let params ← k.parameters true ")"
  symbol ")"
  if ← eatSymbol "->" then
    let _ ← k.conditional .plain
  return .functionDef decorated name params (← k.body)

/-- What stands behind `class`. -/
def classForm : Rule StmtForm := do
  let _ ← Rule.name
  k.typeParams
  if ← eatSymbol "(" then
    let _ ← k.arguments
  let _ ← k.body
  return .unsupported "class definitions"

/-- What stands behind `async`. -/
def asyncForm (decorated : Bool) : Rule StmtForm := do
  match (← advance).token with
  | .keyword "def" => k.functionForm decorated
  | .keyword "for" => if decorated then reject else k.forForm true
  | .keyword "with" => if decorated then reject else k.withForm
  | _ => reject

/-- The decorators behind a first `@`, and the definition that they decorate. -/
def decoratedForm : Rule StmtForm := do
  let _ ← k.namedExpression .plain
  newline
  let _ ← many do
    if ← eatSymbol "@" then
      let _ ← k.namedExpression .plain
      newline
      return some ()
    else return none
  match (← advance).token with
  | .keyword "def" => k.functionForm true
  | .keyword "class" => k.classForm
  | .keyword "async" => k.asyncForm true
  | _ => reject

/-- A `match` statement. The word is an identifier wherever no such statement can be read. -/
def matchForm : Rule StmtForm := do
  unless (← Rule.name) == "match" do reject
  let _ ← k.namedExpression .starred
  if ← atSymbol "," then
    let _ ← moreElements (k.namedExpression .starred) endsList
  symbol ":"
  newline
  match (← advance).token with
  | .indent => pure ()
  | _ => reject
  let cases ← many do
    match ← peek with
    | some (.name "case") =>
      let _ ← advance
      k.topPattern
      if ← eatKeyword "if" then
        let _ ← k.namedExpression .plain
      let _ ← k.body
      return some ()
    | _ => return none
  if cases.isEmpty then reject
  match (← advance).token with
  | .dedent => return .unsupported "match statements"
  | _ => reject

/-- A statement with a block. -/
def compound? : Rule (Option StmtForm) := do
  match ← peek with
  | some (.keyword word) =>
    match word with
    | "if" =>
      let _ ← advance
      return some (← k.ifForm)
    | "while" =>
      let _ ← advance
      return some (← k.whileForm)
    | "for" =>
      let _ ← advance
      return some (← k.forForm false)
    | "try" =>
      let _ ← advance
      return some (← k.tryForm)
    | "with" =>
      let _ ← advance
      return some (← k.withForm)
    | "def" =>
      let _ ← advance
      return some (← k.functionForm false)
    | "class" =>
      let _ ← advance
      return some (← k.classForm)
    | "async" =>
      let _ ← advance
      return some (← k.asyncForm false)
    | _ => return none
  | some (.symbol "@") =>
    let _ ← advance
    return some (← k.decoratedForm)
  | some (.name "match") => Rule.optional k.matchForm
  | _ => return none

/-- A compound statement, or the simple statements of one line. -/
def statements : Rule (List Stmt) := do
  let start ← here
  match ← k.compound? with
  | some form => return [.mk (← since start) form]
  | none => k.simpleLine

/-- An indented block, or simple statements on the line of the header. -/
def blockRule : Rule (List Stmt) := do
  match ← peek with
  | some .newline =>
    let _ ← advance
    match (← advance).token with
    | .indent =>
      let first ← k.statements
      let more ← many do
        match ← peek with
        | some .dedent => return none
        | _ => return some (← k.statements)
      match (← advance).token with
      | .dedent => return first ++ more.flatten
      | _ => reject
    | _ => reject
  | _ => k.simpleLine

end Knot

/-- The recursive rules, down to a depth. -/
def knot : Nat → Knot
  | 0 =>
    { conditional := fun _ => reject, inversion := fun _ => reject, factor := reject,
      field := reject, block := reject, pattern := reject }
  | n + 1 =>
    { conditional := fun ctx i => (knot n).conditionalRule ctx i
      inversion := fun ctx i => (knot n).inversionRule ctx i
      factor := fun i => (knot n).factorRule i
      field := fun i => (knot n).fieldRule i
      block := fun i => (knot n).blockRule i
      pattern := fun i => (knot n).patternRule i }

/-- The statements of a whole program. -/
def program (k : Knot) : Rule (List Stmt) := do
  let lines ← many do
    match ← peek with
    | none => return none
    | _ => return some (← k.statements)
  match ← peek with
  | none => return lines.flatten
  | _ => reject

/-- The statements of a program text, or `none` if it is no program. Conditionals use inversions,
and these use factors, but between two conditionals around each other there is a token. So a depth
of three for each token is enough. -/
def parse (text : String) : Option (List Stmt) := do
  let input := Input.ofLexemes (← Token.scan text)
  let (stmts, _) ← program (knot (3 * (input.count + 1))) input
  pure stmts

end Resumable.Surface
