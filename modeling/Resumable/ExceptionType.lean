/-!
# Exception types

The exception types of the guest language, their names, and which of them are special cases of
which.
-/

namespace Resumable

/-- The exception types that a program can raise and catch. -/
inductive ExceptionType where
  | baseException
  | exception
  | arithmeticError
  | assertionError
  | attributeError
  | fileExistsError
  | fileNotFoundError
  | importError
  | indexError
  | isADirectoryError
  | keyError
  | lookupError
  | memoryError
  | nameError
  | notADirectoryError
  | notImplementedError
  | osError
  | overflowError
  | permissionError
  | recursionError
  | runtimeError
  | syntaxError
  | timeoutError
  | typeError
  | unboundLocalError
  | unicodeDecodeError
  | valueError
  | zeroDivisionError
deriving DecidableEq, Repr, Inhabited

namespace ExceptionType

/-- All exception types. -/
def all : List ExceptionType :=
  [.baseException, .exception, .arithmeticError, .assertionError, .attributeError,
   .fileExistsError, .fileNotFoundError, .importError, .indexError, .isADirectoryError,
   .keyError, .lookupError, .memoryError, .nameError, .notADirectoryError, .notImplementedError,
   .osError, .overflowError, .permissionError, .recursionError, .runtimeError, .syntaxError,
   .timeoutError, .typeError, .unboundLocalError, .unicodeDecodeError, .valueError,
   .zeroDivisionError]

/-- The name of an exception type in programs and messages. -/
def name : ExceptionType → String
  | .baseException => "BaseException"
  | .exception => "Exception"
  | .arithmeticError => "ArithmeticError"
  | .assertionError => "AssertionError"
  | .attributeError => "AttributeError"
  | .fileExistsError => "FileExistsError"
  | .fileNotFoundError => "FileNotFoundError"
  | .importError => "ImportError"
  | .indexError => "IndexError"
  | .isADirectoryError => "IsADirectoryError"
  | .keyError => "KeyError"
  | .lookupError => "LookupError"
  | .memoryError => "MemoryError"
  | .nameError => "NameError"
  | .notADirectoryError => "NotADirectoryError"
  | .notImplementedError => "NotImplementedError"
  | .osError => "OSError"
  | .overflowError => "OverflowError"
  | .permissionError => "PermissionError"
  | .recursionError => "RecursionError"
  | .runtimeError => "RuntimeError"
  | .syntaxError => "SyntaxError"
  | .timeoutError => "TimeoutError"
  | .typeError => "TypeError"
  | .unboundLocalError => "UnboundLocalError"
  | .unicodeDecodeError => "UnicodeDecodeError"
  | .valueError => "ValueError"
  | .zeroDivisionError => "ZeroDivisionError"

/-- The exception type with a name. -/
def ofName? (name : String) : Option ExceptionType :=
  all.find? (·.name == name)

/-- Whether every exception of type `t` is also one of type `handler`. -/
def isSubclassOf (t handler : ExceptionType) : Bool :=
  t == handler ||
  match handler with
  | .baseException => true
  | .exception => t != .baseException
  | .lookupError => t == .keyError || t == .indexError
  | .arithmeticError => t == .zeroDivisionError || t == .overflowError
  | .runtimeError => t == .recursionError || t == .notImplementedError
  | .nameError => t == .unboundLocalError
  | .valueError => t == .unicodeDecodeError
  | .osError =>
    t == .fileNotFoundError || t == .fileExistsError || t == .isADirectoryError ||
      t == .notADirectoryError || t == .permissionError
  | _ => false

/-- The exception type with a name in any spelling: case and underscores do not matter. -/
def ofLooseName? (name : String) : Option ExceptionType :=
  match ofName? name with
  | some t => some t
  | none =>
    let wanted := (name.toList.filter (· != '_')).map Char.toLower
    all.find? fun t => t.name.toList.map Char.toLower == wanted

/-- Words in lower case with underscores between them. A run of capitals is one word, apart from
its last letter where a small one follows. -/
def snakeChars (previous : Option Char) : List Char → List Char
  | [] => []
  | c :: rest =>
    let separated :=
      match previous with
      | none => false
      | some p => c.isUpper && (!p.isUpper || rest.head?.any Char.isLower)
    let tail := snakeChars (some c) rest
    if separated then '_' :: c.toLower :: tail else c.toLower :: tail

/-- The name in lower case with underscores, as in `file_not_found_error`. -/
def snakeName (t : ExceptionType) : String :=
  String.ofList (snakeChars none t.name.toList)

end ExceptionType

end Resumable
