import Resumable.Path

/-!
# Full paths

The way from the root of a file system to a file or directory, as a text: each segment behind a
slash, or a single slash for the root. A text is made a full path by its letters alone: it starts at
the root whether or not it begins with a slash, and `..` leads back up, though never beyond the
root.
-/

namespace Resumable

/-- A path from the root on. -/
structure FullPath where
  text : List Char
deriving DecidableEq, Repr, Inhabited

namespace FullPath

/-- The path of the root. -/
def root : FullPath := ⟨['/']⟩

/-- The path with these segments. -/
def ofSegments (segments : List (List Char)) : FullPath :=
  if segments.isEmpty then root else ⟨segments.flatMap ('/' :: ·)⟩

/-- Follows pieces of a text from a path, whose segments are given the last one first. -/
def follow (back : List (List Char)) : List (List Char) → List (List Char)
  | [] => back
  | piece :: rest =>
    if piece == [] || piece == ['.'] then follow back rest
    else if piece == ['.', '.'] then follow back.tail rest
    else follow (piece :: back) rest

/-- The path that a text names. -/
def ofText (s : List Char) : FullPath := ofSegments (follow [] (Path.pieces s)).reverse

/-- The path that a text names. -/
def ofString (s : String) : FullPath := ofText s.toList

instance : ToString FullPath := ⟨fun p => String.ofList p.text⟩

/-- Paths are in the order of their texts. -/
instance : LT FullPath := ⟨fun p q => p.text < q.text⟩

instance (p q : FullPath) : Decidable (p < q) := inferInstanceAs (Decidable (p.text < q.text))

theorem lt_irrefl (p : FullPath) : ¬ p < p := List.lt_irrefl p.text

theorem lt_trans {p q r : FullPath} (h : p < q) (h' : q < r) : p < r := List.lt_trans h h'

theorem lt_of_not_lt {p q : FullPath} (h : ¬ p < q) (hne : p ≠ q) : q < p := by
  obtain h | h := List.le_iff_lt_or_eq.mp (List.not_lt.mp h)
  · exact h
  · exact absurd (congrArg FullPath.mk h).symm hne

/-- The part of a text in front of the last occurrence of a character. -/
def beforeLast? (c : Char) : List Char → Option (List Char)
  | [] => none
  | x :: s =>
    match beforeLast? c s with
    | some before => some (x :: before)
    | none => if x == c then some [] else none

theorem length_of_beforeLast? {c : Char} {s before : List Char}
    (h : beforeLast? c s = some before) : before.length < s.length := by
  fun_induction beforeLast? c s generalizing before with
  | case1 => cases h
  | case2 x s rest hrest ih =>
    cases h
    have := ih hrest
    simp only [List.length_cons]
    omega
  | case3 x s hrest hx =>
    cases h
    simp
  | case4 => cases h

/-- The directory that a path lies in; the root lies in none. -/
def parent? (p : FullPath) : Option FullPath :=
  if p == root then none
  else (beforeLast? '/' p.text).map fun before => if before.isEmpty then root else ⟨before⟩

theorem length_of_parent? {p dir : FullPath} (h : p.parent? = some dir) :
    dir.text.length < p.text.length := by
  obtain ⟨text⟩ := p
  unfold parent? at h
  split at h
  · cases h
  · rename_i hroot
    obtain ⟨before, hbefore, hdir⟩ := Option.map_eq_some_iff.mp h
    have hlen := length_of_beforeLast? hbefore
    split at hdir
    · -- the root is as short as a path with a slash can be
      have hmore : text.length ≠ 1 := by
        intro hone
        obtain ⟨c, rfl⟩ := List.length_eq_one_iff.mp hone
        by_cases hc : c = '/'
        · exact hroot (by simp [root, hc])
        · simp [beforeLast?, hc] at hbefore
      rw [← hdir]
      simp only [root, List.length_cons, List.length_nil] at hlen ⊢
      omega
    · rw [← hdir]
      exact hlen

/-- The directories that a path lies in, the nearest first. -/
def ancestors (p : FullPath) : List FullPath :=
  match _h : p.parent? with
  | none => []
  | some dir => dir :: ancestors dir
termination_by p.text.length
decreasing_by exact length_of_parent? _h

/-- What the texts of all paths below a directory begin with. -/
def childPrefix (dir : FullPath) : List Char := if dir == root then ['/'] else dir.text ++ ['/']

/-- Whether a path lies below `dir`, at any depth. -/
def isBelow (p dir : FullPath) : Bool := dir.childPrefix.isPrefixOf p.text

end FullPath

end Resumable
