import Resumable.Value.Basic

/-!
# Output

What a program prints goes to a writer of the host, piece by piece. A writer may refuse a piece; the
program then sees an exception.
-/

namespace Resumable

/-- A piece of what a program prints. -/
inductive Chunk where
  | text (s : String)
  | char (c : Char)

/-- The characters of a piece. -/
def Chunk.toString : Chunk → String
  | .text s => s
  | .char c => String.singleton c

/-- What a host does with the pieces that a program prints. -/
inductive Writer where
  /-- Takes every piece. -/
  | collector
  /-- Knows all pieces that it has been given, the last one last, and refuses that one with an
  exception or takes it. -/
  | deciding (refusal : List Chunk → Option Raised)
deriving Inhabited

namespace Writer

/-- The exception that a writer refuses a piece with. -/
def refusal (w : Writer) (c : Chunk) : Option Raised :=
  match w with
  | .collector => none
  | .deciding refusal => refusal [c]

/-- The writer after it has been given a piece. -/
def after (w : Writer) (c : Chunk) : Writer :=
  match w with
  | .collector => .collector
  | .deciding refusal => .deciding fun later => refusal (c :: later)

end Writer

end Resumable
