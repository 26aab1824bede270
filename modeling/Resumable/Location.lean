/-!
# Places in a source text

A place is a line and a column, both counted from one. Columns count characters, and only a line
feed ends a line. A span runs from the first character of a construct to just behind its last.

A reader of a text knows byte offsets. The line of an offset is found among the offsets of the line
feeds, which are collected once, and its column is counted from where that line starts.
-/

namespace Resumable

/-- A place in a source text; lines and columns start at one. -/
structure Location where
  line : Nat
  column : Nat
deriving DecidableEq, Repr, Inhabited

namespace Location

/-- The place of the first character. -/
def first : Location := ⟨1, 1⟩

end Location

/-- The extent of a construct in a source text: its first place and the place behind its last. -/
structure Span where
  start : Location
  stop : Location
deriving DecidableEq, Repr, Inhabited

/-- The lines of a text without their ends; a carriage return before the line feed is part of the
end, and a last line feed opens no further line. -/
def linesOf (text : String) : List String :=
  let pieces := splitLines [] text.toList
  pieces.map String.ofList
where
  splitLines (current : List Char) : List Char → List (List Char)
    | [] => if current.isEmpty then [] else [current.reverse]
    | '\n' :: rest =>
      let line := match current with
        | '\r' :: before => before.reverse
        | _ => current.reverse
      line :: splitLines [] rest
    | c :: rest => splitLines (c :: current) rest

/-! ## Places of byte offsets -/

/-- The number of elements in front of the first one that does not satisfy `p`, by bisection: behind
that one, there must be no element that does. -/
def partitionPoint {α : Type} (p : α → Bool) (xs : Array α) : Nat :=
  go 0 xs.size (Nat.le_refl _)
where
  /-- The same, where the elements in front of `low` satisfy `p` and those from `high` on do not. -/
  go (low high : Nat) (inside : high ≤ xs.size) : Nat :=
    if h : low < high then
      let middle := low + (high - low) / 2
      if p xs[middle] then go (middle + 1) high inside else go low middle (by omega)
    else low
  termination_by high - low

/-- A source text, and the byte offsets of its line feeds. -/
structure LineIndex where
  text : String
  ends : Array Nat

namespace LineIndex

/-- The offsets of the line feeds of a text that begins at `offset`, behind those in `found`. -/
def collect (found : Array Nat) (offset : Nat) : List Char → Array Nat
  | [] => found
  | c :: cs => collect (if c == '\n' then found.push offset else found) (offset + c.utf8Size) cs

/-- The index of a text. -/
def ofText (text : String) : LineIndex := ⟨text, collect #[] 0 text.toList⟩

/-- The byte offset of the start of a line, where lines are counted from zero. -/
def start? (index : LineIndex) : Nat → Option Nat
  | 0 => some 0
  | line + 1 => index.ends[line]?.map (· + 1)

/-- The place of a byte offset; one behind the text is taken for its end. Within a character there
is no place. -/
def locate? (index : LineIndex) (offset : Nat) : Option Location := do
  let line := partitionPoint (· < offset) index.ends
  let start ← index.text.pos? ⟨← index.start? line⟩
  let stop ← index.text.pos? ⟨min offset index.text.utf8ByteSize⟩
  if start ≤ stop then some ⟨line + 1, (index.text.extract start stop).length + 1⟩ else none

/-- The span between two byte offsets. -/
def span? (index : LineIndex) (start stop : Nat) : Option Span := do
  return ⟨← index.locate? start, ← index.locate? stop⟩

end LineIndex

end Resumable
