import Resumable.Program.Tree

/-!
# Surface trees

A program as it is written, in the whole grammar of the guest language. A construct that cannot be
run keeps no parts, except where its parts are looked at before the construct itself is refused.
-/

namespace Resumable.Surface

/-- The binary operators: the ones that can be run, and the others by their symbol. -/
inductive BinaryOp where
  | supported (op : Operator)
  | unsupported (symbol : String)

/-- The unary operators. -/
inductive UnaryOp where
  | not
  | neg
  | pos
  | invert

/-- The format specification of a field in a formatted string. -/
inductive SpecText where
  | plain (text : String)
  | nested

mutual

/-- An expression and its span. -/
inductive Expr where
  | mk (span : Span) (form : ExprForm)

/-- The forms of expressions. -/
inductive ExprForm where
  | name (id : String)
  | literal (value : Literal)
  /-- An integer of any size, and how a message spells it. -/
  | int (value : Nat) (spelling : String)
  | format (parts : List FormatPart)
  | list (items : List Expr)
  | tuple (items : List Expr)
  | dict (items : List DictItem)
  | binary (left : Expr) (op : BinaryOp) (right : Expr)
  | unary (op : UnaryOp) (operand : Expr)
  /-- `a and b and c`: the first operand and those that follow it. -/
  | all (first : Expr) (rest : List Expr)
  | any (first : Expr) (rest : List Expr)
  | compare (left : Expr) (rest : List Comparison)
  | conditional (test body orElse : Expr)
  | call (callee : Expr) (args : List Expr) (keywords : List Keyword)
  | attribute (object : Expr) (name : String)
  | subscript (object index : Expr)
  | slice (lower upper step : Option Expr)
  | await (operand : Expr)
  | starred (operand : Expr)
  /-- A construct that cannot be run, by the name that a message gives it. -/
  | unsupported (construct : String)

inductive FormatPart where
  | text (s : String)
  /-- A field: `debug` says that it ends with an equals sign; the conversion is its letter. -/
  | field (value : Expr) (debug : Bool) (conversion : Option Char) (spec : Option SpecText)

/-- An item of a dictionary display; one without a key unpacks a mapping. -/
inductive DictItem where
  | pair (key value : Expr)
  | unpack (value : Expr)

inductive Comparison where
  | mk (op : Comparator) (right : Expr)

/-- A keyword argument; one without a name unpacks a mapping. -/
inductive Keyword where
  | named (name : String) (value : Expr)
  | unpack (value : Expr)

end

namespace Expr

def span : Expr → Span
  | .mk span _ => span

def form : Expr → ExprForm
  | .mk _ form => form

end Expr

structure Param where
  name : String
  default : Option Expr

/-- The parameters of a function: the positional ones, and whether there are any others. -/
structure Params where
  positional : List Param
  others : Bool

/-- A name in an import, and the name that it is bound to if that is another. -/
structure Alias where
  name : String
  binding : Option String

mutual

/-- A statement and its span. -/
inductive Stmt where
  | mk (span : Span) (form : StmtForm)

inductive StmtForm where
  | expr (value : Expr)
  /-- `a = b = value`: the first target and those that follow it. -/
  | assign (first : Expr) (rest : List Expr) (value : Expr)
  | augAssign (target : Expr) (op : BinaryOp) (value : Expr)
  | annAssign (target : Expr) (value : Option Expr)
  /-- The clauses are the `elif` and `else` parts in order. -/
  | ifElse (test : Expr) (body : List Stmt) (clauses : List Clause)
  | while (test : Expr) (body orElse : List Stmt)
  | for (isAsync : Bool) (target iter : Expr) (body orElse : List Stmt)
  | break
  | continue
  | pass
  | functionDef (decorated : Bool) (name : String) (params : Params) (body : List Stmt)
  | return (value : Option Expr)
  | global (names : List String)
  | try (star : Bool) (body : List Stmt) (handlers : List Handler) (orElse finally_ : List Stmt)
  | raise (exc : Option Expr) (hasCause : Bool)
  | assert (test : Expr) (message : Option Expr)
  | import (names : List Alias)
  | importFrom (module : String) (level : Nat) (names : List Alias)
  | unsupported (construct : String)

inductive Clause where
  | mk (test : Option Expr) (body : List Stmt)

inductive Handler where
  | mk (type : Option Expr) (name : Option String) (body : List Stmt)

end

end Resumable.Surface
