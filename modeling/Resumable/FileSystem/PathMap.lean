import Resumable.FileSystem.FullPath

/-!
# Maps from paths

A finite map from paths is the list of its pairs in the order of the paths, each path once. The
paths behind a given one are an end of this list, and those that begin with the same letters stand
next to each other in it.
-/

namespace Resumable

/-- A finite map from paths. -/
structure PathMap (α : Type) where
  items : List (FullPath × α)
  sorted : items.Pairwise (·.1 < ·.1)

namespace PathMap

variable {α : Type}

/-- The map of nothing. -/
def empty : PathMap α := ⟨[], .nil⟩

instance : Inhabited (PathMap α) := ⟨empty⟩

/-- What a path is mapped to. -/
def get? (m : PathMap α) (p : FullPath) : Option α := m.items.lookup p

/-- Whether a path is mapped to anything. -/
def contains (m : PathMap α) (p : FullPath) : Bool := (m.get? p).isSome

/-- The pairs with one more at its place, in place of one with the same path. -/
def insertItem (p : FullPath) (a : α) : List (FullPath × α) → List (FullPath × α)
  | [] => [(p, a)]
  | (q, b) :: rest =>
    if p < q then (p, a) :: (q, b) :: rest
    else if p = q then (p, a) :: rest
    else (q, b) :: insertItem p a rest

theorem mem_insertItem {p : FullPath} {a : α} {l : List (FullPath × α)} {x : FullPath × α}
    (h : x ∈ insertItem p a l) : x = (p, a) ∨ x ∈ l := by
  fun_induction insertItem p a l with
  | case1 => simpa using h
  | case2 => simpa using h
  | case3 => grind
  | case4 q b rest hlt hne ih => grind

theorem sorted_insertItem (p : FullPath) (a : α) {l : List (FullPath × α)}
    (h : l.Pairwise (·.1 < ·.1)) : (insertItem p a l).Pairwise (·.1 < ·.1) := by
  fun_induction insertItem p a l with
  | case1 => simp
  | case2 q b rest hlt =>
    refine .cons ?_ h
    intro x hx
    obtain rfl | hx := List.mem_cons.mp hx
    · exact hlt
    · exact FullPath.lt_trans hlt (List.rel_of_pairwise_cons h hx)
  | case3 b rest hlt => exact .cons (fun x hx => List.rel_of_pairwise_cons h hx) h.of_cons
  | case4 q b rest hlt hne ih =>
    refine .cons ?_ (ih h.of_cons)
    intro x hx
    obtain rfl | hx := mem_insertItem hx
    · exact FullPath.lt_of_not_lt hlt hne
    · exact List.rel_of_pairwise_cons h hx

/-- Maps a path to something. -/
def insert (m : PathMap α) (p : FullPath) (a : α) : PathMap α :=
  ⟨insertItem p a m.items, sorted_insertItem p a m.sorted⟩

/-- Maps a path to nothing. -/
def erase (m : PathMap α) (p : FullPath) : PathMap α :=
  ⟨m.items.filter (·.1 ≠ p), m.sorted.filter _⟩

/-- The pairs with the paths behind a text. -/
def behind (m : PathMap α) (start : List Char) : List (FullPath × α) :=
  m.items.dropWhile fun x => !(start < x.1.text : Bool)

/-- The pairs with the paths below a directory, which stand next to each other. -/
def below (m : PathMap α) (dir : FullPath) : List (FullPath × α) :=
  (m.behind dir.childPrefix).takeWhile (·.1.isBelow dir)

/-- Moves what is at one path to another one. -/
def move (m : PathMap α) (source target : FullPath) : PathMap α :=
  match m.get? source with
  | some a => (m.erase source).insert target a
  | none => m

end PathMap

end Resumable
