import Resumable.Builtin
import Resumable.ExceptionType
import Resumable.Program.Tree

/-!
# Code

What a program is compiled to: one code object for the module and one for every function in it.
Instructions work on a stack of operands; jump targets are indices into the instructions of the
same code object, and constants and names stand in its pool.
-/

namespace Resumable

/-- An instruction. -/
inductive Op where
  -- Loads and stores
  | loadConst (index : Nat)
  | loadLocal (slot : Nat)
  | storeLocal (slot : Nat)
  | loadGlobal (slot : Nat)
  | storeGlobal (slot : Nat)
  | loadBuiltin (function : Builtin)
  | loadExcClass (type : ExceptionType)
  -- Operands
  | pop
  | dup
  /-- Copies the two topmost operands. -/
  | dup2
  | rot2
  /-- Moves the top below the two operands under it. -/
  | rot3
  -- Operators
  | binary (op : Operator)
  | inplace (op : Operator)
  | compare (op : Comparator)
  | not
  | neg
  | pos
  -- Displays
  | buildList (count : Nat)
  | buildTuple (count : Nat)
  | buildDict (count : Nat)
  | buildString (count : Nat)
  /-- The format, if there is one, is a constant. -/
  | formatValue (conversion : Conversion) (spec : Option Nat)
  | buildSlice
  | toTuple
  | unpackSequence (count : Nat)
  -- Items and attributes
  | subscript
  | storeSubscript
  | getAttr (name : Nat)
  -- Calls: the keyword arguments stand on top of the positional ones.
  | call (args : Nat) (keywords : Option Nat)
  /-- A call whose positional arguments are packed in one tuple. -/
  | callVar (keywords : Option Nat)
  | callMethod (name args : Nat) (keywords : Option Nat)
  | callMethodVar (name : Nat) (keywords : Option Nat)
  -- Control flow
  | jump (target : Nat)
  | jumpIfFalse (target : Nat)
  | jumpIfTrue (target : Nat)
  | jumpIfFalseOrPop (target : Nat)
  | jumpIfTrueOrPop (target : Nat)
  | getIter
  | forIter (target : Nat)
  -- Functions and modules
  | makeFunction (function defaults : Nat)
  | return
  | await
  | importModule (module : Module)
  -- Exceptions
  | setupExcept (target : Nat)
  | popBlock
  | popExcept
  | raise
  | reraise
  | checkExcMatch
deriving Inhabited

/-- The name of an instruction in traces. -/
def Op.name : Op → String
  | .loadConst _ => "LoadConst"
  | .loadLocal _ => "LoadLocal"
  | .storeLocal _ => "StoreLocal"
  | .loadGlobal _ => "LoadGlobal"
  | .storeGlobal _ => "StoreGlobal"
  | .loadBuiltin _ => "LoadBuiltin"
  | .loadExcClass _ => "LoadExcClass"
  | .pop => "Pop"
  | .dup => "Dup"
  | .dup2 => "Dup2"
  | .rot2 => "Rot2"
  | .rot3 => "Rot3"
  | .binary _ => "Binary"
  | .inplace _ => "Inplace"
  | .compare _ => "Compare"
  | .not => "Not"
  | .neg => "Neg"
  | .pos => "Pos"
  | .buildList _ => "BuildList"
  | .buildTuple _ => "BuildTuple"
  | .buildDict _ => "BuildDict"
  | .buildString _ => "BuildString"
  | .formatValue .. => "FormatValue"
  | .buildSlice => "BuildSlice"
  | .toTuple => "ToTuple"
  | .unpackSequence _ => "UnpackSequence"
  | .subscript => "Subscript"
  | .storeSubscript => "StoreSubscript"
  | .getAttr _ => "GetAttr"
  | .call .. => "Call"
  | .callVar _ => "CallVar"
  | .callMethod .. => "CallMethod"
  | .callMethodVar .. => "CallMethodVar"
  | .jump _ => "Jump"
  | .jumpIfFalse _ => "JumpIfFalse"
  | .jumpIfTrue _ => "JumpIfTrue"
  | .jumpIfFalseOrPop _ => "JumpIfFalseOrPop"
  | .jumpIfTrueOrPop _ => "JumpIfTrueOrPop"
  | .getIter => "GetIter"
  | .forIter _ => "ForIter"
  | .makeFunction .. => "MakeFunction"
  | .return => "Return"
  | .await => "Await"
  | .importModule _ => "ImportModule"
  | .setupExcept _ => "SetupExcept"
  | .popBlock => "PopBlock"
  | .popExcept => "PopExcept"
  | .raise => "Raise"
  | .reraise => "Reraise"
  | .checkExcMatch => "CheckExcMatch"

/-- An instruction and the span that an error in it points at. -/
structure Instr where
  op : Op
  span : Span
deriving Inhabited

/-- The span of instructions that belong to no construct. -/
def Span.unknown : Span := ⟨⟨0, 0⟩, ⟨0, 0⟩⟩

/-- What instructions refer to by index. -/
structure Pool where
  consts : Array Literal
  /-- The names of attributes and methods. -/
  names : Array String
  /-- The names of the keyword arguments, for every call that has any. -/
  keywords : Array (List String)
deriving Inhabited

namespace Pool

/-- The pool of no instructions. -/
def empty : Pool := ⟨#[], #[], #[]⟩

/-- The constant at an index. -/
def constant (p : Pool) (index : Nat) : Literal := (p.consts[index]?).getD .none

/-- The name at an index. -/
def name (p : Pool) (index : Nat) : String := (p.names[index]?).getD ""

/-- The keyword names of a call. -/
def keywordNames (p : Pool) (index : Option Nat) : List String :=
  (index.bind fun i => p.keywords[i]?).getD []

/-- The pool with a constant, and its index. One that is there already is not added again, except
for floats, where equal ones may be told apart. -/
def addConstant (p : Pool) (value : Literal) : Nat × Pool :=
  let found := match value with
    | .float _ => none
    | value => p.consts.findIdx? (· == value)
  match found with
  | some i => (i, p)
  | none => (p.consts.size, { p with consts := p.consts.push value })

/-- The pool with a name, and its index. -/
def addName (p : Pool) (name : String) : Nat × Pool :=
  match p.names.findIdx? (· == name) with
  | some i => (i, p)
  | none => (p.names.size, { p with names := p.names.push name })

/-- The pool with the keyword names of a call, and their index; none if there are none. -/
def addKeywords (p : Pool) (names : List String) : Option Nat × Pool :=
  if names.isEmpty then (none, p)
  else (some p.keywords.size, { p with keywords := p.keywords.push names })

end Pool

/-- The code of the module or of one function. -/
structure Code where
  name : String
  instrs : Array Instr
  pool : Pool
  /-- The names of the local slots, parameters first. -/
  locals : List String
  paramCount : Nat
deriving Inhabited

namespace Code

/-- The names of the parameters. -/
def params (c : Code) : List String := c.locals.take c.paramCount

/-- The span that an error at an instruction points at. -/
def spanAt (c : Code) (index : Nat) : Span :=
  match c.instrs[index]? with
  | some i => i.span
  | none => .unknown

end Code

/-- A compiled program: its code objects, the module first, and the names of its global slots. -/
structure Bytecode where
  functions : Array Code
  globals : List String
deriving Inhabited

end Resumable
