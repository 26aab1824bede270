import Resumable.Code.Basic
import Resumable.Code.Scope
import Resumable.Program.SourceError

/-!
# Compiling programs

`compile` turns a program tree into code. The code of a construct is a list that is laid out from a
given index on, so every jump knows its target: the indices behind a part follow from its length.
Only a `break` cannot know where its loop ends; it stands as a gap that the loop fills.

Names are resolved here. A function's locals live in slots of its frame, the names that the program
binds elsewhere in global slots, and a name that nothing binds is the builtin of that name.
-/

namespace Resumable

namespace Compile

/-- What a jump out of the surrounding statements has to leave. -/
inductive Block where
  /-- The body of a `try`, for which a handler is registered. -/
  | tryBody
  /-- An `except` clause, or a `finally` clause that an exception entered. -/
  | handling
  /-- A `try` that has a `finally` clause. -/
  | guarded
deriving DecidableEq

/-- A loop around a statement. -/
structure Loop where
  /-- Where `continue` jumps to. -/
  start : Nat
  /-- The number of blocks around the loop. -/
  depth : Nat
  /-- Whether the loop keeps an iterator on the stack. -/
  isFor : Bool

/-- What surrounds a piece of program. -/
structure Env where
  /-- The names of the local slots, inside a function. -/
  locals : Option (List String)
  moduleNames : List String
  /-- The innermost loop of the same function. -/
  loop : Option Loop
  /-- The blocks of the same function, innermost first. -/
  blocks : List Block

/-- What grows while a program is compiled. -/
structure State where
  functions : Array Code
  globals : List String
  /-- The pool of the code object that is being compiled. -/
  pool : Pool
  /-- The span of the instructions to come. -/
  span : Span

abbrev Build (α : Type) := StateT State (Except SourceError) α

/-- One build behind another succeeds if both do. -/
theorem exists_of_bind {α β : Type} {b : Build α} {f : α → Build β} {s t : State} {c : β}
    (h : (b >>= f) s = .ok (c, t)) : ∃ a u, b s = .ok (a, u) ∧ f a u = .ok (c, t) := by
  change (b s >>= fun x => f x.1 x.2) = _ at h
  cases hb : b s with
  | error e => rw [hb] at h; cases h
  | ok x =>
    rw [hb] at h
    exact ⟨x.1, x.2, rfl, h⟩

/-- An instruction, or a jump to the end of a loop that is not laid out yet. -/
inductive Draft where
  | instr (i : Instr)
  | breakTo (span : Span)

/-- Fills the gaps of a loop's body with jumps to `target`. -/
def Draft.fill (target : Nat) : Draft → Draft
  | .instr i => .instr i
  | .breakTo span => .instr ⟨.jump target, span⟩

/-- The instructions of code whose gaps have been filled. -/
def Draft.instr? : Draft → Option Instr
  | .instr i => some i
  | .breakTo _ => none

/-- Sets the span of the instructions to come. -/
def at_ (span : Span) : Build Unit := modify fun s => { s with span }

/-- An instruction with the current span. -/
def one (op : Op) : Build Instr := do return ⟨op, (← get).span⟩

/-- Adds something to the pool and gives its index. -/
def pooled {ι : Type} (add : Pool → ι × Pool) : Build ι := modifyGet fun s =>
  let (index, pool) := add s.pool
  (index, { s with pool })

/-- The instruction that loads a constant. -/
def constant (value : Literal) : Build Instr := do
  one (.loadConst (← pooled (·.addConstant value)))

/-- Where a name is read from or written to. -/
inductive Place where
  | local (slot : Nat)
  | global (slot : Nat)
  | builtin (function : Builtin)
  | excClass (type : ExceptionType)

/-- The global slot of a name, a new one if it has none. -/
def globalSlot (name : String) : Build Nat := do
  let s ← get
  match s.globals.findIdx? (· == name) with
  | some slot => return slot
  | none =>
    set { s with globals := s.globals ++ [name] }
    return s.globals.length

theorem globalSlot_eq (name : String) (s : State) : globalSlot name s =
    .ok (match s.globals.findIdx? (· == name) with
      | some slot => (slot, s)
      | none => (s.globals.length, { s with globals := s.globals ++ [name] })) := by
  simp only [globalSlot, get, getThe, MonadStateOf.get, StateT.get, bind, StateT.bind, pure,
    Except.bind, Except.pure]
  cases s.globals.findIdx? (· == name) <;> rfl

/-- The place of a name. -/
def place (env : Env) (name : String) : Build Place := do
  match env.locals.bind fun names => names.findIdx? (· == name) with
  | some slot => return .local slot
  | none =>
    if env.moduleNames.contains name then return .global (← globalSlot name)
    match Builtin.ofName? name with
    | some b => return .builtin b
    | none =>
      match ExceptionType.ofName? name with
      | some t => return .excClass t
      | none => return .global (← globalSlot name)

/-- Reads a name. -/
def load (env : Env) (name : String) : Build Instr := do
  match ← place env name with
  | .local slot => one (.loadLocal slot)
  | .global slot => one (.loadGlobal slot)
  | .builtin b => one (.loadBuiltin b)
  | .excClass t => one (.loadExcClass t)

/-- Writes a name. -/
def store (env : Env) (name : String) : Build Instr := do
  match ← place env name with
  | .local slot => one (.storeLocal slot)
  | .global slot => one (.storeGlobal slot)
  | .builtin _ | .excClass _ => one (.storeGlobal (← globalSlot name))

/-- Whether an argument is to be spliced in. -/
def isStarred : Expr → Bool
  | .mk _ (.starred _) => true
  | _ => false

mutual

/-- The code that leaves the value of an expression on the stack, laid out from `pc` on. -/
def expr (env : Env) (pc : Nat) (e : Expr) : Build (List Instr) :=
  match e with
  | .mk span form => do
    at_ span
    exprForm env pc span form

def exprForm (env : Env) (pc : Nat) (span : Span) (form : ExprForm) : Build (List Instr) :=
  match form with
  | .literal value => return [← constant value]
  | .format parts => do
    let code ← formatParts env pc span parts
    return code ++ [← one (.buildString parts.length)]
  | .name id => return [← load env id]
  | .list items => do
    let code ← exprs env pc items
    at_ span
    return code ++ [← one (.buildList items.length)]
  | .tuple items => do
    let code ← exprs env pc items
    at_ span
    return code ++ [← one (.buildTuple items.length)]
  | .dict items => do
    let code ← dictItems env pc items
    at_ span
    return code ++ [← one (.buildDict items.length)]
  | .binary left op right => do
    let l ← expr env pc left
    let r ← expr env (pc + l.length) right
    at_ span
    return l ++ r ++ [← one (.binary op)]
  | .all first rest => do
    let code ← expr env pc first
    return code ++ (← boolean env .jumpIfFalseOrPop (pc + code.length) rest)
  | .any first rest => do
    let code ← expr env pc first
    return code ++ (← boolean env .jumpIfTrueOrPop (pc + code.length) rest)
  | .not operand => do
    let code ← expr env pc operand
    return code ++ [← one .not]
  | .neg operand => do
    let code ← expr env pc operand
    at_ span
    return code ++ [← one .neg]
  | .pos operand => do
    let code ← expr env pc operand
    at_ span
    return code ++ [← one .pos]
  | .compare left rest => do
    let l ← expr env pc left
    let chain ← comparisons env (pc + l.length) span rest
    if rest.length ≤ 1 then return l ++ chain
    else
      -- a false comparison in the middle still has the next operand below its result
      let skip ← one (.jump (pc + l.length + chain.length + 3))
      return l ++ chain ++ [skip, ← one .rot2, ← one .pop]
  | .conditional test body orElse => do
    let t ← expr env pc test
    let toElse := pc + t.length
    let elseSpan := (← get).span
    let b ← expr env (toElse + 1) body
    let toEnd := toElse + 1 + b.length
    let endSpan := (← get).span
    let o ← expr env (toEnd + 1) orElse
    return t ++ [⟨.jumpIfFalse (toEnd + 1), elseSpan⟩] ++ b ++
      [⟨.jump (toEnd + 1 + o.length), endSpan⟩] ++ o
  | .call callee args kws => do
    let c ← expr env pc callee
    let starred := args.any isStarred
    let a ←
      if starred then packed env (pc + c.length) 0 false args
      else exprs env (pc + c.length) args
    let k ← keywords env (pc + c.length + a.length) kws
    let names ← pooled (·.addKeywords (kws.map fun | .mk name _ => name))
    at_ span
    let op := if starred then .callVar names else .call args.length names
    return c ++ a ++ k ++ [← one op]
  | .methodCall object method args kws => do
    let c ← expr env pc object
    let starred := args.any isStarred
    let a ←
      if starred then packed env (pc + c.length) 0 false args
      else exprs env (pc + c.length) args
    let k ← keywords env (pc + c.length + a.length) kws
    let names ← pooled (·.addKeywords (kws.map fun | .mk name _ => name))
    let method ← pooled (·.addName method)
    at_ span
    let op := if starred then .callMethodVar method names else .callMethod method args.length names
    return c ++ a ++ k ++ [← one op]
  | .attribute object name => do
    let code ← expr env pc object
    let name ← pooled (·.addName name)
    at_ span
    return code ++ [← one (.getAttr name)]
  | .subscript object index => do
    let o ← expr env pc object
    let i ← expr env (pc + o.length) index
    at_ span
    return o ++ i ++ [← one .subscript]
  | .slice lower upper step => do
    let l ← sliceBound env pc lower
    let u ← sliceBound env (pc + l.length) upper
    let s ← sliceBound env (pc + l.length + u.length) step
    at_ span
    return l ++ u ++ s ++ [← one .buildSlice]
  | .await operand => do
    let code ← expr env pc operand
    at_ span
    return code ++ [← one .await]
  | .starred _ => throw (.misplacedStar span)

def exprs (env : Env) (pc : Nat) (es : List Expr) : Build (List Instr) :=
  match es with
  | [] => return []
  | e :: rest => do
    let code ← expr env pc e
    return code ++ (← exprs env (pc + code.length) rest)

def sliceBound (env : Env) (pc : Nat) (bound : Option Expr) : Build (List Instr) :=
  match bound with
  | some e => expr env pc e
  | none => return [← constant .none]

def formatParts (env : Env) (pc : Nat) (span : Span) (parts : List FormatPart) :
    Build (List Instr) :=
  match parts with
  | [] => return []
  | .text s :: rest => do
    let code := [← constant (.string s)]
    return code ++ (← formatParts env (pc + 1) span rest)
  | .field value conversion spec :: rest => do
    let code ← expr env pc value
    let spec ← match spec with
      | some spec => some <$> pooled (·.addConstant (.string spec))
      | none => pure none
    at_ span
    let code := code ++ [← one (.formatValue conversion spec)]
    return code ++ (← formatParts env (pc + code.length) span rest)

def dictItems (env : Env) (pc : Nat) (items : List DictItem) : Build (List Instr) :=
  match items with
  | [] => return []
  | .mk key value :: rest => do
    let k ← expr env pc key
    let v ← expr env (pc + k.length) value
    return k ++ v ++ (← dictItems env (pc + k.length + v.length) rest)

/-- The operands of `and` or `or` behind the first one: in front of each stands a jump behind them
all. -/
def boolean (env : Env) (jump : Nat → Op) (pc : Nat) (operands : List Expr) :
    Build (List Instr) :=
  match operands with
  | [] => return []
  | e :: rest => do
    let span := (← get).span
    let code ← expr env (pc + 1) e
    let more ← boolean env jump (pc + 1 + code.length) rest
    return ⟨jump (pc + 1 + code.length + more.length), span⟩ :: code ++ more

/-- The comparisons of a chain behind its first operand. Each but the last keeps its operand for
the next one, and a false one jumps to where the kept operand is dropped, one index behind. -/
def comparisons (env : Env) (pc : Nat) (span : Span) (cs : List Comparison) :
    Build (List Instr) :=
  match cs with
  | [] => return []
  | [.mk op right] => do
    let r ← expr env pc right
    at_ span
    return r ++ [← one (.compare op)]
  | .mk op right :: rest => do
    let r ← expr env pc right
    at_ span
    let keep := [← one .dup, ← one .rot3, ← one (.compare op)]
    let next := pc + r.length + 4
    let more ← comparisons env next span rest
    return r ++ keep ++ [⟨.jumpIfFalseOrPop (next + more.length + 1), span⟩] ++ more

/-- Arguments gathered in one tuple: `pending` values are on the stack and not in it yet, and
`started` says whether there is a tuple. -/
def packed (env : Env) (pc : Nat) (pending : Nat) (started : Bool) (args : List Expr) :
    Build (List Instr) :=
  match args with
  | [] =>
    if pending > 0 then return [← one (.buildTuple pending), ← one (.binary .add)]
    else return []
  | .mk span (.starred operand) :: rest => do
    let gather ←
      if pending > 0 || !started then do
        let build ← one (.buildTuple pending)
        if started then pure [build, ← one (.binary .add)] else pure [build]
      else pure []
    let code ← expr env (pc + gather.length) operand
    at_ span
    let code := gather ++ code ++ [← one .toTuple, ← one (.binary .add)]
    return code ++ (← packed env (pc + code.length) 0 true rest)
  | arg :: rest => do
    let code ← expr env pc arg
    return code ++ (← packed env (pc + code.length) (pending + 1) started rest)

def keywords (env : Env) (pc : Nat) (kws : List Keyword) : Build (List Instr) :=
  match kws with
  | [] => return []
  | .mk _ value :: rest => do
    let code ← expr env pc value
    return code ++ (← keywords env (pc + code.length) rest)

end

mutual

/-- The code that takes a value from the stack and binds a target to it. -/
def target (env : Env) (pc : Nat) (span : Span) (t : Target) : Build (List Instr) :=
  match t with
  | .name id => return [← store env id]
  | .subscript object index => do
    let o ← expr env pc object
    let i ← expr env (pc + o.length) index
    at_ span
    return o ++ i ++ [← one .storeSubscript]
  | .tuple ts => do
    at_ span
    let unpack ← one (.unpackSequence ts.length)
    return unpack :: (← targets env (pc + 1) span ts)

def targets (env : Env) (pc : Nat) (span : Span) (ts : List Target) : Build (List Instr) :=
  match ts with
  | [] => return []
  | t :: rest => do
    let code ← target env pc span t
    return code ++ (← targets env (pc + code.length) span rest)

end

/-- Binds the targets of an assignment, from the first to the last, to the value on the stack. -/
def assignAll (env : Env) (pc : Nat) (span : Span) (first : Target) (rest : List Target) :
    Build (List Instr) :=
  match rest with
  | [] => target env pc span first
  | next :: rest => do
    let copy ← one .dup
    let code ← target env (pc + 1) span first
    return copy :: code ++ (← assignAll env (pc + 1 + code.length) span next rest)

/-- The defaults of parameters, and how many there are. -/
def defaults (env : Env) (pc : Nat) (params : List Param) : Build (List Instr × Nat) :=
  match params with
  | [] => return ([], 0)
  | p :: rest =>
    match p.default with
    | none => defaults env pc rest
    | some e => do
      let code ← expr env pc e
      let (more, n) ← defaults env (pc + code.length) rest
      return (code ++ more, n + 1)

/-- The code that leaves the blocks inside a loop for a jump by `word`; fails if one of them has a
`finally` clause. -/
def leave (word : String) (span : Span) : List Block → Build (List Instr)
  | [] => return []
  | b :: rest => do
    let op ← match b with
      | .tryBody => one .popBlock
      | .handling => one .popExcept
      | .guarded => throw (.jumpOutOfFinally word span)
    return op :: (← leave word span rest)

/-- The blocks that a jump out of a loop's body leaves. -/
def blocksInside (env : Env) (loop : Loop) : List Block :=
  env.blocks.take (env.blocks.length - loop.depth)

def drafts (code : List Instr) : List Draft := code.map .instr

theorem drafts_append (l r : List Instr) : drafts (l ++ r) = drafts l ++ drafts r :=
  List.map_append

theorem length_drafts (l : List Instr) : (drafts l).length = l.length := List.length_map _

/-- An import of names from a module. -/
def importNames (env : Env) (module : Module) : List (String × String) → Build (List Instr)
  | [] => return []
  | (name, binding) :: rest => do
    let code := [← one (.importModule module),
      ← one (.getAttr (← pooled (·.addName name))), ← store env binding]
    return code ++ (← importNames env module rest)

/-- The layout of a `try` with `except` clauses: an exception in the body enters the clauses. -/
def layTry (env : Env) (pc : Nat) (body handlers orElse : Env → Nat → Build (List Draft)) :
    Build (List Draft) := do
  let setupSpan := (← get).span
  let b ← body { env with blocks := .tryBody :: env.blocks } (pc + 1)
  let popBlock ← one .popBlock
  let afterBody := pc + 1 + b.length + 1
  let o ← orElse env afterBody
  let endSpan := (← get).span
  let start := afterBody + o.length + 1
  let h ← handlers env start
  let again ← one .reraise
  let stop := start + h.length + 1
  return drafts [⟨.setupExcept start, setupSpan⟩] ++ b ++ drafts [popBlock] ++ o ++
    drafts [⟨.jump stop, endSpan⟩] ++ h ++ drafts [again]

/-- The layout of a `try` with a `finally` clause. The clause is laid out twice: behind the guarded
statements, and where an exception in them leads, which is raised again behind it. -/
def layFinally (env : Env) (pc : Nat) (guarded final : Env → Nat → Build (List Draft)) :
    Build (List Draft) := do
  let setupSpan := (← get).span
  let b ← guarded { env with blocks := .guarded :: env.blocks } (pc + 1)
  let popBlock ← one .popBlock
  let afterBody := pc + 1 + b.length + 1
  let normal ← final env afterBody
  let endSpan := (← get).span
  let handler := afterBody + normal.length + 1
  let drop ← one .pop
  let raised ← final { env with blocks := .handling :: env.blocks } (handler + 1)
  let again ← one .reraise
  let stop := handler + 1 + raised.length + 1
  return drafts [⟨.setupExcept handler, setupSpan⟩] ++ b ++ drafts [popBlock] ++ normal ++
    drafts [⟨.jump stop, endSpan⟩, drop] ++ raised ++ drafts [again]

/-- The code of a function, which returns `None` behind its body. -/
def functionBody (body : Build (List Draft)) : Build (List Instr) := do
  let b ← body
  return b.filterMap Draft.instr? ++ [← constant .none, ← one .return]

/-- Adds a function, whose code gets a pool of its own, and gives its index. -/
def addFunction (name : String) (locals : List String) (paramCount : Nat) (span : Span)
    (code : Build (List Instr)) : Build Nat := do
  let index := (← get).functions.size
  let outside := (← get).pool
  modify fun s => { s with functions := s.functions.push default, pool := .empty, span }
  let instrs ← code
  let function : Code := ⟨name, instrs.toArray, (← get).pool, locals, paramCount⟩
  modify fun s =>
    { s with functions := s.functions.setIfInBounds index function, pool := outside, span }
  return index

mutual

/-- The code of a statement, laid out from `pc` on. -/
def stmt (env : Env) (pc : Nat) (s : Stmt) : Build (List Draft) :=
  match s with
  | .expr value => do
    let code ← expr env pc value
    return drafts (code ++ [← one .pop])
  | .assign first rest value => do
    let code ← expr env pc value
    return drafts (code ++ (← assignAll env (pc + code.length) value.span first rest))
  | .augAssign (.name id) op value span => do
    at_ span
    let read ← load env id
    let code ← expr env (pc + 1) value
    at_ span
    return drafts (read :: code ++ [← one (.inplace op), ← store env id])
  | .augAssign (.subscript object index) op value span => do
    let o ← expr env pc object
    let i ← expr env (pc + o.length) index
    at_ span
    let read := [← one .dup2, ← one .subscript]
    let code ← expr env (pc + o.length + i.length + 2) value
    at_ span
    let write := [← one (.inplace op), ← one .rot3, ← one .storeSubscript]
    return drafts (o ++ i ++ read ++ code ++ write)
  | .augAssign (.tuple _) _ _ span => throw (.augmentedTuple span)
  | .ifElse test body orElse => do
    let t ← expr env pc test
    let toElse := pc + t.length
    let elseSpan := (← get).span
    let b ← stmts env (toElse + 1) body
    let afterBody := toElse + 1 + b.length
    if orElse.isEmpty then
      return drafts (t ++ [⟨.jumpIfFalse afterBody, elseSpan⟩]) ++ b
    else
      let endSpan := (← get).span
      let o ← stmts env (afterBody + 1) orElse
      return drafts (t ++ [⟨.jumpIfFalse (afterBody + 1), elseSpan⟩]) ++ b ++
        drafts [⟨.jump (afterBody + 1 + o.length), endSpan⟩] ++ o
  | .while test body orElse => do
    let t ← expr env pc test
    let toExit := pc + t.length
    let exitSpan := (← get).span
    let inside := { env with loop := some ⟨pc, env.blocks.length, false⟩ }
    let b ← stmts inside (toExit + 1) body
    let back ← one (.jump pc)
    let exit := toExit + 1 + b.length + 1
    let o ← stmts env exit orElse
    return drafts (t ++ [⟨.jumpIfFalse exit, exitSpan⟩]) ++ b.map (.fill (exit + o.length)) ++
      drafts [back] ++ o
  | .for t iter body orElse span => do
    let i ← expr env pc iter
    at_ span
    let getIter ← one .getIter
    let start := pc + i.length + 1
    let bind ← target env (start + 1) span t
    let inside := { env with loop := some ⟨start, env.blocks.length, true⟩ }
    let b ← stmts inside (start + 1 + bind.length) body
    let back ← one (.jump start)
    let exit := start + 1 + bind.length + b.length + 1
    let o ← stmts env exit orElse
    return drafts (i ++ [getIter, ⟨.forIter exit, span⟩] ++ bind) ++
      b.map (.fill (exit + o.length)) ++ drafts [back] ++ o
  | .break span => do
    at_ span
    match env.loop with
    | none => throw (.breakOutsideLoop span)
    | some loop =>
      let out ← leave "break" span (blocksInside env loop)
      let dropIterator ← if loop.isFor then do pure [← one .pop] else pure []
      return drafts (out ++ dropIterator) ++ [.breakTo span]
  | .continue span => do
    at_ span
    match env.loop with
    | none => throw (.continueOutsideLoop span)
    | some loop =>
      let out ← leave "continue" span (blocksInside env loop)
      return drafts (out ++ [← one (.jump loop.start)])
  | .pass => return []
  | .global _ => return []
  | .functionDef name params body span => do
    at_ span
    let (code, count) ← defaults env pc params
    let names := Scope.locals (params.map (·.name)) body
    let inside : Env := { env with locals := some names, loop := none, blocks := [] }
    let index ← addFunction name names params.length span (functionBody (stmts inside 0 body))
    return drafts (code ++ [← one (.makeFunction index count), ← store env name])
  | .return value span => do
    if env.locals.isNone then throw (.returnOutsideFunction span)
    if env.blocks.contains .guarded then throw (.jumpOutOfFinally "return" span)
    let code ← match value with
      | some e => expr env pc e
      | none => do pure [← constant .none]
    at_ span
    return drafts (code ++ [← one .return])
  | .try body hs orElse finally_ =>
    let inner (env : Env) (pc : Nat) : Build (List Draft) :=
      if hs.isEmpty then do
        let b ← stmts env pc body
        return b ++ (← stmts env (pc + b.length) orElse)
      else
        layTry env pc (fun env pc => stmts env pc body) (fun env pc => handlers env pc hs)
          (fun env pc => stmts env pc orElse)
    if finally_.isEmpty then inner env pc
    else layFinally env pc inner fun env pc => stmts env pc finally_
  | .raise exc span =>
    match exc with
    | some e => do
      let code ← expr env pc e
      at_ span
      return drafts (code ++ [← one .raise])
    | none => do
      at_ span
      return drafts [← one .reraise]
  | .assert test message span => do
    let t ← expr env pc test
    let testSpan := (← get).span
    at_ span
    let cls ← one (.loadExcClass .assertionError)
    let m ← match message with
      | some e => expr env (pc + t.length + 2) e
      | none => pure []
    at_ span
    let tail := [← one (.call (if message.isSome then 1 else 0) none), ← one .raise]
    let stop := pc + t.length + 2 + m.length + 2
    return drafts (t ++ [⟨.jumpIfTrue stop, testSpan⟩, cls] ++ m ++ tail)
  | .import module binding => do
    return drafts [← one (.importModule module), ← store env binding]
  | .importFrom module names span => do
    at_ span
    return drafts (← importNames env module names)

def stmts (env : Env) (pc : Nat) (ss : List Stmt) : Build (List Draft) :=
  match ss with
  | [] => return []
  | s :: rest => do
    let code ← stmt env pc s
    return code ++ (← stmts env (pc + code.length) rest)

/-- The `except` clauses of a `try`. An exception that none of them handles is raised again by the
instruction behind them, and a clause that ends jumps behind that one. -/
def handlers (env : Env) (pc : Nat) (hs : List Handler) : Build (List Draft) :=
  match hs with
  | [] => return []
  | .mk type name body :: rest => do
    let test ← match type with
      | some e => do
        let copy ← one .dup
        let code ← expr env (pc + 1) e
        at_ e.span
        pure (copy :: code ++ [← one .checkExcMatch])
      | none => pure []
    let nextSpan := (← get).span
    let afterTest := pc + test.length + (if type.isSome then 1 else 0)
    let bind ← match name with
      | some id => store env id
      | none => one .pop
    let b ← stmts { env with blocks := .handling :: env.blocks } (afterTest + 1) body
    let popExcept ← one .popExcept
    let endSpan := (← get).span
    let next := afterTest + 1 + b.length + 2
    let more ← handlers env next rest
    let skip : List Instr := if type.isSome then [⟨.jumpIfFalse next, nextSpan⟩] else []
    return drafts (test ++ skip ++ [bind]) ++ b ++
      drafts [popExcept, ⟨.jump (next + more.length + 1), endSpan⟩] ++ more

end

/-- The code of a module body: the value of a last expression statement is its result. -/
def moduleBody (env : Env) (pc : Nat) : List Stmt → Build (List Draft)
  | [] => return drafts [← constant .none]
  | [.expr value] => return drafts (← expr env pc value)
  | s :: rest => do
    let code ← stmt env pc s
    return code ++ (← moduleBody env (pc + code.length) rest)

end Compile

/-- Compiles a program. The names in `preset` have the first global slots, in that order. -/
def compile (preset : List String) (program : List Stmt) : Except SourceError Bytecode := do
  let globals := Scope.insertAll [] preset
  let env : Compile.Env :=
    { locals := none, moduleNames := Scope.moduleNames globals program, loop := none, blocks := [] }
  let build : Compile.Build (List Compile.Draft) := do
    let body ← Compile.moduleBody env 0 program
    return body ++ Compile.drafts [← Compile.one .return]
  let (body, s) ← build.run { functions := #[default], globals, pool := .empty, span := .unknown }
  let main : Code := ⟨"<module>", (body.filterMap Compile.Draft.instr?).toArray, s.pool, [], 0⟩
  return { functions := s.functions.setIfInBounds 0 main, globals := s.globals }

end Resumable
