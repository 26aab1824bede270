/-!
# Blanks, and finding and splitting

How texts are taken apart.

## Blanks

The white space of Unicode, texts with the blanks at their ends taken away, and the fields of a
text, its longest runs of characters that are not blanks.
-/

namespace Resumable.Text

/-- Whether a character has the property `White_Space`. -/
def isBlank (c : Char) : Bool :=
  let n := c.toNat
  (9 ≤ n && n ≤ 13) || n == 0x20 || n == 0x85 || n == 0xA0 || n == 0x1680 ||
    (0x2000 ≤ n && n ≤ 0x200A) || n == 0x2028 || n == 0x2029 || n == 0x202F ||
    n == 0x205F || n == 0x3000

/-- The text without the characters of a class at its start. -/
def dropStart (p : Char → Bool) (s : List Char) : List Char :=
  s.dropWhile p

/-- The text without the characters of a class at its end. -/
def dropEnd (p : Char → Bool) (s : List Char) : List Char :=
  (s.reverse.dropWhile p).reverse

/-- The text without the characters of a class at either end. -/
def dropBoth (p : Char → Bool) (s : List Char) : List Char :=
  dropEnd p (dropStart p s)

/-- The text without blanks at either end. -/
def trim (s : String) : String :=
  String.ofList (dropBoth isBlank s.toList)

/-! ### Fields -/

theorem length_dropWhile_lt {p : Char → Bool} {c : Char} {cs : List Char} (h : p c = true) :
    ((c :: cs).dropWhile p).length < (c :: cs).length := by
  have : (c :: cs).dropWhile p = cs.dropWhile p := by simp [h]
  rw [this]
  have := (List.dropWhile_sublist p (l := cs)).length_le
  simp only [List.length_cons]
  omega

/-- The fields of a text. With a limit, the text behind the first `limit` fields stays in one
piece, which keeps the blanks at its end. -/
def fields (limit : Option Nat) (cs : List Char) : List (List Char) :=
  go [] limit cs
where
  /-- The same, behind the fields in `done`, the last of them first. -/
  go (done : List (List Char)) (limit : Option Nat) (cs : List Char) : List (List Char) :=
    match h : dropStart isBlank cs with
    | [] => done.reverse
    | c :: more =>
      if limit == some 0 then ((c :: more) :: done).reverse
      else
        let field := (c :: more).takeWhile (!isBlank ·)
        go (field :: done) (limit.map (· - 1)) ((c :: more).dropWhile (!isBlank ·))
  termination_by cs.length
  decreasing_by
    have starts : isBlank c = false := by
      have head := List.head_dropWhile_not isBlank (l := cs)
      have : cs.dropWhile isBlank = c :: more := h
      simp only [this] at head
      simpa using head (by simp)
    have shorter := @length_dropWhile_lt (!isBlank ·) c more (by simp [starts])
    have whole := (List.dropWhile_sublist isBlank (l := cs)).length_le
    have : cs.dropWhile isBlank = c :: more := h
    rw [this] at whole
    omega

/-!
## Finding and splitting

Occurrences of one sequence in another, found from the left and without overlap. The sequences are
lists, so that texts and byte strings share the definitions.
-/

variable {α : Type} [BEq α]

/-- What follows `start` in a sequence that begins with it. -/
def afterPrefix? (start : List α) (xs : List α) : Option (List α) :=
  match start, xs with
  | [], xs => some xs
  | _ :: _, [] => none
  | a :: start, x :: xs => if a == x then afterPrefix? start xs else none

theorem length_of_afterPrefix? {start xs rest : List α} (h : afterPrefix? start xs = some rest) :
    xs.length = start.length + rest.length := by
  fun_induction afterPrefix? start xs with
  | case1 xs => simp_all
  | case2 => simp at h
  | case3 a start x xs _ ih => simp [ih h]; omega
  | case4 => simp at h

/-- The parts of a sequence before and after the first occurrence of `needle`. -/
def cut? (needle : List α) (xs : List α) : Option (List α × List α) :=
  go [] xs
where
  /-- The same, behind the elements in `passed`, the last of them first. -/
  go (passed xs : List α) : Option (List α × List α) :=
    match afterPrefix? needle xs with
    | some rest => some (passed.reverse, rest)
    | none =>
      match xs with
      | [] => none
      | x :: xs => go (x :: passed) xs

theorem length_of_cut?_go {needle passed xs before rest : List α}
    (h : cut?.go needle passed xs = some (before, rest)) :
    passed.length + xs.length = before.length + needle.length + rest.length := by
  induction xs generalizing passed with
  | nil =>
    unfold cut?.go at h
    split at h
    · rename_i found
      have := length_of_afterPrefix? found
      simp only [Option.some.injEq, Prod.mk.injEq] at h
      simp only [← h.1, ← h.2, List.length_reverse]
      omega
    · simp at h
  | cons x xs ih =>
    unfold cut?.go at h
    split at h
    · rename_i found
      have := length_of_afterPrefix? found
      simp only [Option.some.injEq, Prod.mk.injEq] at h
      simp only [← h.1, ← h.2, List.length_reverse]
      omega
    · have := ih h
      simp only [List.length_cons] at this ⊢
      omega

theorem length_of_cut? {needle xs before rest : List α} (h : cut? needle xs = some (before, rest)) :
    xs.length = before.length + needle.length + rest.length := by
  have := length_of_cut?_go h
  simpa using this

/-- Whether `needle` occurs in a sequence. -/
def occursIn (needle : List α) (xs : List α) : Bool := (cut? needle xs).isSome

/-- The pieces of a sequence between the occurrences of `separator`, of which only the first
`limit` count where there is a limit. An empty separator cuts nothing. -/
def split (separator : List α) (limit : Option Nat) (xs : List α) : List (List α) :=
  go [] limit xs
where
  /-- The same, behind the pieces in `done`, the last of them first. -/
  go (done : List (List α)) (limit : Option Nat) (xs : List α) : List (List α) :=
    if limit == some 0 || separator.isEmpty then (xs :: done).reverse
    else
      match _h : cut? separator xs with
      | none => (xs :: done).reverse
      | some (before, rest) => go (before :: done) (limit.map (· - 1)) rest
  termination_by xs.length
  decreasing_by
    have := length_of_cut? _h
    have : separator.length ≠ 0 := by simp_all
    omega

/-- A sequence with `piece` in front of each of its elements and at its end, or at the first
`limit` of these places. -/
def weave (piece : List α) (limit : Option Nat) (xs : List α) : List α :=
  let places := limit.getD (xs.length + 1)
  (xs.take places).flatMap (fun x => piece ++ [x]) ++
    (if places > xs.length then piece else []) ++ xs.drop places

/-- The sequence with `new` for each occurrence of `old`, or for the first `limit` of them. An
empty `old` occurs at each end of each element. -/
def replace (old new : List α) (limit : Option Nat) (xs : List α) : List α :=
  if old.isEmpty then weave new limit xs else new.intercalate (split old limit xs)

/-- The number of occurrences of `needle`; an empty one occurs at each end of each element. -/
def count (needle : List α) (xs : List α) : Nat :=
  if needle.isEmpty then xs.length + 1 else (split needle none xs).length - 1

end Resumable.Text
