import Resumable.Heap.Basic

/-!
# Arguments of calls

The evaluated arguments of a call, and the ways in which builtin functions and methods take them.
Named arguments that a function does not know are refused before the positional ones are counted.
-/

namespace Resumable

/-- The arguments of a call. -/
structure Arguments where
  positional : List Value
  named : List (String × Value)
deriving Inhabited

/-- The ending of a noun of which there are `n`. -/
def plural (n : Nat) : String := if n == 1 then "" else "s"

namespace Arguments

open Heap (Action)

/-- Takes a named argument out. -/
def take (args : Arguments) (name : String) : Option Value × Arguments :=
  match args.named.findIdx? (·.1 == name) with
  | some i => (args.named[i]?.map (·.2), { args with named := args.named.eraseIdx i })
  | none => (none, args)

/-- Refuses named arguments. -/
def noNamed (args : Arguments) (function : String) : Action Unit :=
  match args.named with
  | [] => pure ()
  | (name, _) :: _ =>
    throw (.typeError s!"{function}() got an unexpected keyword argument '{name}'")

/-- Refuses any arguments. -/
def nothing (args : Arguments) (function : String) : Action Unit := do
  args.noNamed function
  let count := args.positional.length
  if count != 0 then throw (.typeError s!"{function}() takes no arguments ({count} given)")

/-- The failure of a call with another number of arguments than `expected`. -/
def wrongCount (function : String) (expected count : Nat) : Failure :=
  let noun := "argument" ++ plural expected
  .typeError s!"{function}() takes exactly {expected} {noun} ({count} given)"

/-- Exactly one argument. -/
def one (args : Arguments) (function : String) : Action Value := do
  args.noNamed function
  match args.positional with
  | [a] => pure a
  | as => throw (wrongCount function 1 as.length)

/-- Exactly two arguments. -/
def two (args : Arguments) (function : String) : Action (Value × Value) := do
  args.noNamed function
  match args.positional with
  | [a, b] => pure (a, b)
  | as => throw (wrongCount function 2 as.length)

/-- At least `least` arguments, and at most `most` if there is such a bound. -/
def between (args : Arguments) (function : String) (least : Nat) (most : Option Nat) :
    Action (List Value) := do
  args.noNamed function
  let count := args.positional.length
  if count < least then
    let noun := "argument" ++ plural least
    throw (.typeError s!"{function}() expected at least {least} {noun}, got {count}")
  match most with
  | some most =>
    if count > most then
      let noun := "argument" ++ plural most
      throw (.typeError s!"{function}() expected at most {most} {noun}, got {count}")
  | none => pure ()
  return args.positional

/-- At most one argument. -/
def atMostOne (args : Arguments) (function : String) : Action (Option Value) := do
  return (← args.between function 0 (some 1)).head?

/-- One argument, and perhaps a second one. -/
def oneOrTwo (args : Arguments) (function : String) : Action (Value × Option Value) := do
  match ← args.between function 1 (some 2) with
  | a :: rest => pure (a, rest.head?)
  | [] => throw (.typeError s!"{function}() expected at least 1 argument, got 0")

end Arguments

/-- The failure of a value where an integer is needed. -/
def Heap.notAnInteger (h : Heap) (v : Value) : Failure :=
  .typeError ("'" ++ h.typeName v ++ "' object cannot be interpreted as an integer")

end Resumable
