import Resumable.Location

/-!
# Tokens

The words of a program. Blanks and comments leave no trace; the layout does: the end of a logical
line, and every step in or out of an indented block, is a token. A formatted string is several
tokens, since the expressions in it are ordinary ones.
-/

namespace Resumable

/-- A word of the guest language. -/
inductive Token where
  /-- An identifier; words that are keywords only in some places are identifiers too. -/
  | name (text : String)
  | keyword (word : String)
  /-- An operator or a mark of punctuation. -/
  | symbol (text : String)
  /-- An integer, and how a message spells it. -/
  | int (value : Nat) (spelling : String)
  | float (value : Float)
  | imaginary
  | string (value : String)
  | bytes (value : List UInt8)
  /-- The opening quote of a formatted string, or of a template string. -/
  | formatStart (template : Bool)
  /-- Plain text inside a formatted string, its escapes resolved. -/
  | formatText (text : String)
  | formatStop
  /-- The end of a logical line. -/
  | newline
  | indent
  | dedent
deriving Inhabited

/-- A token and where it stands. -/
structure Lexeme where
  token : Token
  span : Span
deriving Inhabited

namespace Token

/-- The words that are never identifiers. -/
def keywords : List String :=
  ["False", "None", "True", "and", "as", "assert", "async", "await", "break", "class", "continue",
   "def", "del", "elif", "else", "except", "finally", "for", "from", "global", "if", "import",
   "in", "is", "lambda", "nonlocal", "not", "or", "pass", "raise", "return", "try", "while",
   "with", "yield"]

/-- The token of a word made of identifier characters. -/
def ofWord (word : String) : Token :=
  if keywords.contains word then .keyword word else .name word

/-- The operators and marks of three, two and one characters. A text is read as the longest. -/
def longSymbols : List (Char × Char × Char) :=
  [('*', '*', '='), ('/', '/', '='), ('>', '>', '='), ('<', '<', '='), ('.', '.', '.')]

def pairSymbols : List (Char × Char) :=
  [('*', '*'), ('/', '/'), ('>', '>'), ('<', '<'), ('<', '='), ('>', '='), ('=', '='), ('!', '='),
   ('-', '>'), ('+', '='), ('-', '='), ('*', '='), ('/', '='), ('%', '='), ('&', '='), ('|', '='),
   ('^', '='), ('@', '='), (':', '=')]

def singleSymbols : List Char :=
  ['+', '-', '*', '/', '%', '@', '&', '|', '^', '~', '<', '>', '(', ')', '[', ']', '{', '}', ',',
   ':', '.', ';', '=', '!']

/-- The longest operator or mark at the start of a text. -/
def symbolAt? (cs : List Char) : Option (List Char) :=
  match cs with
  | a :: b :: c :: _ =>
    if longSymbols.contains (a, b, c) then some [a, b, c]
    else if pairSymbols.contains (a, b) then some [a, b]
    else if singleSymbols.contains a then some [a] else none
  | [a, b] =>
    if pairSymbols.contains (a, b) then some [a, b]
    else if singleSymbols.contains a then some [a] else none
  | [a] => if singleSymbols.contains a then some [a] else none
  | [] => none

end Token

end Resumable
