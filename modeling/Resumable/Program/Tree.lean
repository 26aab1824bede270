import Resumable.Location

/-!
# Program trees

A program as the compiler takes it: the part of the guest language that can be run. Every
expression carries its span, because an error at run time points at it.
-/

namespace Resumable

/-- A literal value. -/
inductive Literal where
  | none
  | ellipsis
  | bool (b : Bool)
  | int (n : Int64)
  | float (x : Float)
  | string (s : String)
  | bytes (b : List UInt8)
deriving DecidableEq, Inhabited

/-- The arithmetic operators. -/
inductive Operator where
  | add
  | sub
  | mult
  | div
  | floorDiv
  | mod
  | pow
deriving DecidableEq, Inhabited, Repr

/-- How messages write an arithmetic operator. -/
def Operator.symbol : Operator → String
  | .add => "+"
  | .sub => "-"
  | .mult => "*"
  | .div => "/"
  | .floorDiv => "//"
  | .mod => "%"
  | .pow => "** or pow()"

/-- The comparison operators. -/
inductive Comparator where
  | eq
  | notEq
  | lt
  | ltE
  | gt
  | gtE
  | is
  | isNot
  | isIn
  | notIn
deriving DecidableEq, Inhabited, Repr

/-- How messages write a comparison operator. -/
def Comparator.symbol : Comparator → String
  | .eq => "=="
  | .notEq => "!="
  | .lt => "<"
  | .ltE => "<="
  | .gt => ">"
  | .gtE => ">="
  | .is => "is"
  | .isNot => "is not"
  | .isIn => "in"
  | .notIn => "not in"

/-- The conversion that an expression in a formatted string asks for. -/
inductive Conversion where
  | none
  | str
  | repr
deriving DecidableEq, Inhabited, Repr

/-- The modules that a program can import. -/
inductive Module where
  | os
  | asyncio
  | pathlib
deriving DecidableEq, Inhabited, Repr

namespace Module

def name : Module → String
  | .os => "os"
  | .asyncio => "asyncio"
  | .pathlib => "pathlib"

/-- The module with a name. -/
def ofName? : String → Option Module
  | "os" => some .os
  | "asyncio" => some .asyncio
  | "pathlib" => some .pathlib
  | _ => Option.none

/-- The names that can be imported from a module. -/
def exports : Module → List String
  | .os => ["getenv", "environ"]
  | .asyncio => ["gather"]
  | .pathlib => ["Path", "PurePosixPath", "PosixPath"]

end Module

mutual

/-- An expression and its span. -/
inductive Expr where
  | mk (span : Span) (form : ExprForm)

/-- The forms of expressions. -/
inductive ExprForm where
  | literal (value : Literal)
  | format (parts : List FormatPart)
  | name (id : String)
  | list (items : List Expr)
  | tuple (items : List Expr)
  | dict (items : List DictItem)
  | binary (left : Expr) (op : Operator) (right : Expr)
  /-- `a and b and c`: the first operand and those that follow it. -/
  | all (first : Expr) (rest : List Expr)
  | any (first : Expr) (rest : List Expr)
  | not (operand : Expr)
  | neg (operand : Expr)
  | pos (operand : Expr)
  /-- `a < b <= c`: the first operand and the comparisons that follow it. -/
  | compare (left : Expr) (rest : List Comparison)
  | conditional (test body orElse : Expr)
  | call (callee : Expr) (args : List Expr) (keywords : List Keyword)
  | methodCall (object : Expr) (method : String) (args : List Expr) (keywords : List Keyword)
  | attribute (object : Expr) (name : String)
  | subscript (object index : Expr)
  | slice (lower upper step : Option Expr)
  | await (operand : Expr)
  /-- `*items` among the positional arguments of a call. -/
  | starred (operand : Expr)

/-- A part of a formatted string. -/
inductive FormatPart where
  | text (s : String)
  | field (value : Expr) (conversion : Conversion) (spec : Option String)

inductive DictItem where
  | mk (key value : Expr)

inductive Comparison where
  | mk (op : Comparator) (right : Expr)

inductive Keyword where
  | mk (name : String) (value : Expr)

end

instance : Inhabited Expr := ⟨.mk default (.literal .none)⟩

namespace Expr

def span : Expr → Span
  | .mk span _ => span

def form : Expr → ExprForm
  | .mk _ form => form

end Expr

/-- What an assignment or a loop binds. -/
inductive Target where
  | name (id : String)
  | subscript (object index : Expr)
  | tuple (targets : List Target)

/-- A parameter of a function. -/
structure Param where
  name : String
  default : Option Expr

mutual

/-- The statements. A span is kept where an error at run time can point at the statement. -/
inductive Stmt where
  | expr (value : Expr)
  /-- `a = b = value`: the first target and those that follow it. -/
  | assign (first : Target) (rest : List Target) (value : Expr)
  | augAssign (target : Target) (op : Operator) (value : Expr) (span : Span)
  | ifElse (test : Expr) (body orElse : List Stmt)
  | while (test : Expr) (body orElse : List Stmt)
  | for (target : Target) (iter : Expr) (body orElse : List Stmt) (span : Span)
  | break (span : Span)
  | continue (span : Span)
  | pass
  | functionDef (name : String) (params : List Param) (body : List Stmt) (span : Span)
  | return (value : Option Expr) (span : Span)
  | global (names : List String)
  | try (body : List Stmt) (handlers : List Handler) (orElse finally_ : List Stmt)
  | raise (exc : Option Expr) (span : Span)
  | assert (test : Expr) (message : Option Expr) (span : Span)
  | import (module : Module) (binding : String)
  /-- The names taken from a module, each with the name it is bound to. -/
  | importFrom (module : Module) (names : List (String × String)) (span : Span)

/-- An `except` clause; one without a type handles every exception. -/
inductive Handler where
  | mk (type : Option Expr) (name : Option String) (body : List Stmt)

end

end Resumable
