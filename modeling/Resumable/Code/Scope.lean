import Resumable.Program.Tree

/-!
# Scopes

Which names a piece of program binds. A name that a function binds and does not declare `global`
is local to it; a name that the module binds, or that any function declares `global`, is global.
-/

namespace Resumable.Scope

/-- Adds a name to a list of names in order of first appearance. -/
def insert (names : List String) (name : String) : List String :=
  if names.contains name then names else names ++ [name]

/-- Adds names in order. -/
def insertAll (names : List String) (more : List String) : List String :=
  more.foldl insert names

mutual

/-- The names that a target binds. -/
def ofTarget : Target → List String
  | .name id => [id]
  | .subscript .. => []
  | .tuple ts => ofTargets ts

def ofTargets : List Target → List String
  | [] => []
  | t :: rest => ofTarget t ++ ofTargets rest

end

mutual

/-- The names that a statement binds, in order of appearance, outside the functions in it. -/
def assignedBy : Stmt → List String
  | .assign first rest _ => ofTarget first ++ ofTargets rest
  | .augAssign target .. => ofTarget target
  | .for target _ body orElse _ => ofTarget target ++ assigned body ++ assigned orElse
  | .ifElse _ body orElse => assigned body ++ assigned orElse
  | .while _ body orElse => assigned body ++ assigned orElse
  | .try body handlers orElse finally_ =>
    assigned body ++ assignedInHandlers handlers ++ assigned orElse ++ assigned finally_
  | .functionDef name .. => [name]
  | .import _ binding => [binding]
  | .importFrom _ names _ => names.map (·.2)
  | .expr _ | .break _ | .continue _ | .pass | .return .. | .global _ | .raise .. | .assert .. => []

def assigned : List Stmt → List String
  | [] => []
  | s :: rest => assignedBy s ++ assigned rest

def assignedInHandlers : List Handler → List String
  | [] => []
  | .mk _ name body :: rest => name.toList ++ assigned body ++ assignedInHandlers rest

end

mutual

/-- The names that a statement declares global, outside the functions in it. -/
def declaredBy : Stmt → List String
  | .global names => names
  | .for _ _ body orElse _ => declared body ++ declared orElse
  | .ifElse _ body orElse => declared body ++ declared orElse
  | .while _ body orElse => declared body ++ declared orElse
  | .try body handlers orElse finally_ =>
    declared body ++ declaredInHandlers handlers ++ declared orElse ++ declared finally_
  | _ => []

def declared : List Stmt → List String
  | [] => []
  | s :: rest => declaredBy s ++ declared rest

def declaredInHandlers : List Handler → List String
  | [] => []
  | .mk _ _ body :: rest => declared body ++ declaredInHandlers rest

end

mutual

/-- The names that the functions in a statement declare global, at any depth. -/
def declaredInsideBy : Stmt → List String
  | .functionDef _ _ body _ => declared body ++ declaredInside body
  | .for _ _ body orElse _ => declaredInside body ++ declaredInside orElse
  | .ifElse _ body orElse => declaredInside body ++ declaredInside orElse
  | .while _ body orElse => declaredInside body ++ declaredInside orElse
  | .try body handlers orElse finally_ =>
    declaredInside body ++ declaredInsideHandlers handlers ++ declaredInside orElse ++
      declaredInside finally_
  | _ => []

def declaredInside : List Stmt → List String
  | [] => []
  | s :: rest => declaredInsideBy s ++ declaredInside rest

def declaredInsideHandlers : List Handler → List String
  | [] => []
  | .mk _ _ body :: rest => declaredInside body ++ declaredInsideHandlers rest

end

/-- The local names of a function: its parameters, then what it binds and does not declare
global. -/
def locals (params : List String) (body : List Stmt) : List String :=
  let globals := declared body
  insertAll (insertAll [] params) ((assigned body).filter fun name => !globals.contains name)

/-- The names that are global in a program, given those that exist before it starts. -/
def moduleNames (preset : List String) (program : List Stmt) : List String :=
  preset ++ assigned program ++ declared program ++ declaredInside program

end Resumable.Scope
