import Resumable.Program.SourceError
import Resumable.Surface.Statement

/-!
# From surface trees to program trees

Lowering keeps what can be run and refuses the rest, at the first place where it meets it. It also
refuses programs that nest more than `maxNesting` statements and expressions, so that later passes
may recurse over the tree.

Parts are lowered in the order in which they are written, with two exceptions: the clauses behind
an `if` are lowered last first, and the arguments of a call before what is called.
-/

namespace Resumable

/-- How many statements and expressions may contain one another. -/
def maxNesting : Nat := 200

namespace Lowering

open Surface (BinaryOp UnaryOp SpecText Alias)

/-- Lowering in a place below which so many levels are left. -/
abbrev Lower (α : Type) := Except SourceError α

/-- Lowers with one level less, or refuses if none is left. -/
def descend {α : Type} (levels : Nat) (span : Span) (lower : Nat → Lower α) : Lower α :=
  match levels with
  | 0 => .error (.tooDeep span)
  | n + 1 => lower n

def operator (op : BinaryOp) (span : Span) : Lower Operator :=
  match op with
  | .supported op => .ok op
  | .unsupported symbol => .error (.unsupported s!"the {symbol} operator" span)

def conversion (letter : Option Char) (span : Span) : Lower Conversion :=
  match letter with
  | none => .ok .none
  | some 's' => .ok .str
  | some 'r' => .ok .repr
  | some _ => .error (.unsupported "the !a conversion" span)

def formatSpec (spec : Option SpecText) (span : Span) : Lower (Option String) :=
  match spec with
  | none => .ok none
  | some (.plain text) => .ok (some text)
  | some .nested => .error (.unsupported "nested format specs" span)

mutual

/-- The expression `e` with `levels` levels left. -/
def expr (levels : Nat) (e : Surface.Expr) : Lower Expr :=
  match e with
  | .mk span form => descend levels span fun n => return .mk span (← exprForm n span form)

def exprForm (n : Nat) (span : Span) (form : Surface.ExprForm) : Lower ExprForm :=
  match form with
  | .name id => return .name id
  | .literal value => return .literal value
  | .int value spelling =>
    if value ≤ Int64.maxValue.toInt then return .literal (.int (Int64.ofNat value))
    else throw (.wideInteger spelling span)
  | .format parts => return .format (← formatParts n span parts)
  | .list items => return .list (← exprs n items)
  | .tuple items => return .tuple (← exprs n items)
  | .dict items => return .dict (← dictItems n span items)
  | .binary left op right => do
    let left ← expr n left
    let right ← expr n right
    return .binary left (← operator op span) right
  | .unary op operand => do
    let operand ← expr n operand
    match op with
    | .not => return .not operand
    | .neg => return .neg operand
    | .pos => return .pos operand
    | .invert => throw (.unsupported "the ~ operator" span)
  | .all first rest => do
    let first ← expr n first
    return .all first (← exprs n rest)
  | .any first rest => do
    let first ← expr n first
    return .any first (← exprs n rest)
  | .compare left rest => do
    let left ← expr n left
    return .compare left (← comparisons n rest)
  | .conditional test body orElse => do
    let test ← expr n test
    let body ← expr n body
    return .conditional test body (← expr n orElse)
  | .call callee args kws => do
    let args ← arguments n args
    let kws ← keywords n span kws
    match callee with
    | .mk _ (.attribute object method) => return .methodCall (← expr n object) method args kws
    | callee => return .call (← expr n callee) args kws
  | .attribute object name => return .attribute (← expr n object) name
  | .subscript object index => do
    let object ← expr n object
    return .subscript object (← expr n index)
  | .slice lower upper step => do
    let lower ← optional n lower
    let upper ← optional n upper
    return .slice lower upper (← optional n step)
  | .await operand => return .await (← expr n operand)
  | .starred _ => throw (.unsupported "starred expressions outside calls" span)
  | .unsupported construct => throw (.unsupported construct span)

def exprs (n : Nat) (es : List Surface.Expr) : Lower (List Expr) :=
  match es with
  | [] => return []
  | e :: rest => do
    let e ← expr n e
    return e :: (← exprs n rest)

def optional (n : Nat) (e : Option Surface.Expr) : Lower (Option Expr) :=
  match e with
  | none => return none
  | some e => return some (← expr n e)

/-- The positional arguments of a call. A star among them is no level of its own. -/
def arguments (n : Nat) (es : List Surface.Expr) : Lower (List Expr) :=
  match es with
  | [] => return []
  | .mk span (.starred operand) :: rest => do
    let operand ← expr n operand
    return .mk span (.starred operand) :: (← arguments n rest)
  | e :: rest => do
    let e ← expr n e
    return e :: (← arguments n rest)

def keywords (n : Nat) (span : Span) (kws : List Surface.Keyword) : Lower (List Keyword) :=
  match kws with
  | [] => return []
  | .named name value :: rest => do
    let value ← expr n value
    return .mk name value :: (← keywords n span rest)
  | .unpack _ :: _ => throw (.unsupported "**kwargs unpacking" span)

def dictItems (n : Nat) (span : Span) (items : List Surface.DictItem) : Lower (List DictItem) :=
  match items with
  | [] => return []
  | .pair key value :: rest => do
    let key ← expr n key
    let value ← expr n value
    return .mk key value :: (← dictItems n span rest)
  | .unpack _ :: _ => throw (.unsupported "dict unpacking (**)" span)

def comparisons (n : Nat) (cs : List Surface.Comparison) : Lower (List Comparison) :=
  match cs with
  | [] => return []
  | .mk op right :: rest => do
    let right ← expr n right
    return .mk op right :: (← comparisons n rest)

def formatParts (n : Nat) (span : Span) (parts : List Surface.FormatPart) :
    Lower (List FormatPart) :=
  match parts with
  | [] => return []
  | .text s :: rest => return .text s :: (← formatParts n span rest)
  | .field value debug letter spec :: rest => do
    if debug then throw (.unsupported "f-string `=` specifiers" span)
    let value ← expr n value
    let conversion ← conversion letter span
    let spec ← formatSpec spec span
    return .field value conversion spec :: (← formatParts n span rest)

end

mutual

/-- What an assignment binds. -/
def target (n : Nat) (e : Surface.Expr) : Lower Target :=
  match e with
  | .mk span form => targetForm n span form

def targetForm (n : Nat) (span : Span) (form : Surface.ExprForm) : Lower Target :=
  match form with
  | .name id => return .name id
  | .subscript object index => do
    let object ← expr n object
    return .subscript object (← expr n index)
  | .tuple items | .list items => return .tuple (← targets n items)
  | _ => throw (.unsupported "this assignment target" span)

def targets (n : Nat) (es : List Surface.Expr) : Lower (List Target) :=
  match es with
  | [] => return []
  | e :: rest => do
    let t ← target n e
    return t :: (← targets n rest)

end

def params (n : Nat) (ps : List Surface.Param) : Lower (List Param) :=
  match ps with
  | [] => return []
  | p :: rest => do
    let value ← optional n p.default
    return ⟨p.name, value⟩ :: (← params n rest)

/-- The one module that an import names. -/
def importForm (names : List Alias) (span : Span) : Lower Stmt :=
  match names with
  | [imported] =>
    match Module.ofName? imported.name with
    | some module => return .import module (imported.binding.getD imported.name)
    | none => throw (.noModule imported.name span)
  | _ => throw (.unsupported "multi-module import statements" span)

def importFromForm (module : String) (level : Nat) (names : List Alias) (span : Span) :
    Lower Stmt := do
  if level > 0 then throw (.relativeImport span)
  match Module.ofName? module with
  | none => throw (.noModule module span)
  | some module =>
    let names ← names.mapM fun (imported : Alias) =>
      if module.exports.contains imported.name then
        Except.ok (imported.name, imported.binding.getD imported.name)
      else Except.error (SourceError.notExported imported.name module span)
    return .importFrom module names span

mutual

/-- The statement `s` with `levels` levels left. -/
def stmt (levels : Nat) (s : Surface.Stmt) : Lower Stmt :=
  match s with
  | .mk span form => descend levels span fun n => stmtForm n span form

def stmtForm (n : Nat) (span : Span) (form : Surface.StmtForm) : Lower Stmt :=
  match form with
  | .expr value => return .expr (← expr n value)
  | .assign first rest value => do
    let first ← target n first
    let rest ← targets n rest
    return .assign first rest (← expr n value)
  | .augAssign t op value => do
    let t ← target n t
    let op ← operator op span
    return .augAssign t op (← expr n value) span
  | .annAssign t (some value) => do
    let t ← target n t
    return .assign t [] (← expr n value)
  | .annAssign _ none => return .pass
  | .ifElse test body cs => do
    let test ← expr n test
    let body ← stmts n body
    return .ifElse test body (← clauses n cs)
  | .while test body orElse => do
    let test ← expr n test
    let body ← stmts n body
    return .while test body (← stmts n orElse)
  | .for isAsync t iter body orElse => do
    if isAsync then throw (.unsupported "async for loops" span)
    let t ← target n t
    let iter ← expr n iter
    let body ← stmts n body
    return .for t iter body (← stmts n orElse) span
  | .break => return .break span
  | .continue => return .continue span
  | .pass => return .pass
  | .functionDef decorated name ps body => do
    if decorated then throw (.unsupported "decorators" span)
    if ps.others then throw (.unsupported "*args, **kwargs or keyword-only parameters" span)
    let ps ← params n ps.positional
    return .functionDef name ps (← stmts n body) span
  | .return value => return .return (← optional n value) span
  | .global names => return .global names
  | .try star body hs orElse finally_ => do
    if star then throw (.unsupported "except*" span)
    let body ← stmts n body
    let hs ← handlers n hs
    let orElse ← stmts n orElse
    return .try body hs orElse (← stmts n finally_)
  | .raise exc hasCause => do
    if hasCause then throw (.unsupported "raise ... from ..." span)
    return .raise (← optional n exc) span
  | .assert test message => do
    let test ← expr n test
    return .assert test (← optional n message) span
  | .import names => importForm names span
  | .importFrom module level names => importFromForm module level names span
  | .unsupported construct => throw (.unsupported construct span)

def stmts (n : Nat) (ss : List Surface.Stmt) : Lower (List Stmt) :=
  match ss with
  | [] => return []
  | s :: rest => do
    let s ← stmt n s
    return s :: (← stmts n rest)

/-- The clauses behind an `if`, each as the `else` part of the one before. -/
def clauses (n : Nat) (cs : List Surface.Clause) : Lower (List Stmt) :=
  match cs with
  | [] => return []
  | .mk test body :: rest => do
    let tail ← clauses n rest
    match test with
    | some test =>
      let test ← expr n test
      return [.ifElse test (← stmts n body) tail]
    | none => stmts n body

def handlers (n : Nat) (hs : List Surface.Handler) : Lower (List Handler) :=
  match hs with
  | [] => return []
  | .mk type name body :: rest => do
    let type ← optional n type
    let body ← stmts n body
    return .mk type name body :: (← handlers n rest)

end

end Lowering

/-- What reads the texts of programs: it gives the statements of a text, or says why there are none
and where. -/
abbrev Parser := String → Except (String × Option Span) (List Surface.Stmt)

/-- The parser that programs are read with where no other one is given. It reads names as they are
written, and says of a text that it refuses nothing but that. -/
def Parser.plain : Parser := fun source =>
  match Surface.parse source with
  | some program => .ok program
  | none => .error ("invalid syntax", none)

/-- The program of a text, or why it is refused. -/
def readProgram (source : String) (parse : Parser := .plain) : Except SourceError (List Stmt) :=
  match parse source with
  | .ok program => Lowering.stmts maxNesting program
  | .error (message, span) => .error (.notAProgram message span)

end Resumable
