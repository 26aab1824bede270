import Mathlib.Data.Finset.Basic
import Resumable.Proofs.Boundary

/-!
# Conversion as unfolding

`h.Unfolds path v o`: the object `o` is the value `v` written out, where `path` lists the entries
that lead to it; a reference to one of them is cut off, and every other one is written out in full,
also where the same entry has been written out before. `h.Traverses seen v o seen'`: one traversal
that keeps a single set of entries, puts an entry into it when it is entered and takes it out when
it is left, comes to `o` after finitely many calls. Main statement: `toObject_unfolds`, both
relations describe `Heap.toObject`, on heaps with cycles too.
-/

namespace Resumable

/-- A value that is written alike in all heaps. -/
def Value.isAtom : Value → Bool
  | .tuple _ | .namedTuple .. | .ref _ => false
  | _ => true

/-- What stands for an entry inside itself. -/
def Cell.cutOff : Cell → Object
  | .dict _ => .repr "\x7b...\x7d"
  | .list _ | .iter _ => .repr "[...]"

namespace Heap

/-! ## Unfoldings -/

mutual

/-- The object of a value that the entries on `path`, innermost first, lead to. -/
inductive Unfolds (h : Heap) : List Nat → Value → Object → Prop
  | atom {path v} : v.isAtom = true → Unfolds h path v (v.toObjectBy fun _ => .none)
  | tuple {path vs os} : AllUnfold h path vs os → Unfolds h path (.tuple vs) (.tuple os)
  | namedTuple (type fields) {path vs os} : AllUnfold h path vs os →
      Unfolds h path (.namedTuple type fields vs) (.namedTuple type fields os)
  | again {path x c} : x ∈ path → h.cell? x = some c → Unfolds h path (.ref x) c.cutOff
  | list {path x vs os} : x ∉ path → h.cell? x = some (.list vs) →
      AllUnfold h (x :: path) vs.toList os → Unfolds h path (.ref x) (.list os)
  | dict {path x d os} : x ∉ path → h.cell? x = some (.dict d) →
      EntriesUnfold h (x :: path) d.entries.toList os → Unfolds h path (.ref x) (.dict os)
  | iter {path x state} : x ∉ path → h.cell? x = some (.iter state) →
      Unfolds h path (.ref x) (.repr "<iterator object>")

/-- The objects of values that the same path leads to. -/
inductive AllUnfold (h : Heap) : List Nat → List Value → List Object → Prop
  | nil {path} : AllUnfold h path [] []
  | cons {path v vs o os} : Unfolds h path v o → AllUnfold h path vs os →
      AllUnfold h path (v :: vs) (o :: os)

/-- The objects of the keys and values of a dict. -/
inductive EntriesUnfold (h : Heap) : List Nat → List Entry → List (Object × Object) → Prop
  | nil {path} : EntriesUnfold h path [] []
  | cons {path e es o p os} : Unfolds h path e.name o → Unfolds h path e.value p →
      EntriesUnfold h path es os → EntriesUnfold h path (e :: es) ((o, p) :: os)

end

/-! ## Traversals -/

mutual

/-- A call of the conversion that is made with the set `seen` gives an object and leaves the set
`seen'` behind. -/
inductive Traverses (h : Heap) : Finset Nat → Value → Object → Finset Nat → Prop
  | atom {seen v} : v.isAtom = true → Traverses h seen v (v.toObjectBy fun _ => .none) seen
  | tuple {seen seen' vs os} : AllTraverse h seen vs os seen' →
      Traverses h seen (.tuple vs) (.tuple os) seen'
  | namedTuple (type fields) {seen seen' vs os} : AllTraverse h seen vs os seen' →
      Traverses h seen (.namedTuple type fields vs) (.namedTuple type fields os) seen'
  | again {seen x c} : x ∈ seen → h.cell? x = some c → Traverses h seen (.ref x) c.cutOff seen
  | list {seen seen' x vs os} : x ∉ seen → h.cell? x = some (.list vs) →
      AllTraverse h (insert x seen) vs.toList os seen' →
      Traverses h seen (.ref x) (.list os) (seen'.erase x)
  | dict {seen seen' x d os} : x ∉ seen → h.cell? x = some (.dict d) →
      EntriesTraverse h (insert x seen) d.entries.toList os seen' →
      Traverses h seen (.ref x) (.dict os) (seen'.erase x)
  | iter {seen x state} : x ∉ seen → h.cell? x = some (.iter state) →
      Traverses h seen (.ref x) (.repr "<iterator object>") ((insert x seen).erase x)

/-- Calls for values one behind the other, each with the set that the one before it has left. -/
inductive AllTraverse (h : Heap) :
    Finset Nat → List Value → List Object → Finset Nat → Prop
  | nil {seen} : AllTraverse h seen [] [] seen
  | cons {seen₀ seen₁ seen₂ v vs o os} : Traverses h seen₀ v o seen₁ →
      AllTraverse h seen₁ vs os seen₂ → AllTraverse h seen₀ (v :: vs) (o :: os) seen₂

/-- Calls for the key and the value of each entry of a dict. -/
inductive EntriesTraverse (h : Heap) :
    Finset Nat → List Entry → List (Object × Object) → Finset Nat → Prop
  | nil {seen} : EntriesTraverse h seen [] [] seen
  | cons {seen₀ seen₁ seen₂ seen₃ e es o p os} : Traverses h seen₀ e.name o seen₁ →
      Traverses h seen₁ e.value p seen₂ → EntriesTraverse h seen₂ es os seen₃ →
      EntriesTraverse h seen₀ (e :: es) ((o, p) :: os) seen₃

end

variable {h : Heap}

theorem mem_cons_iff_mem_insert {path : List Nat} {seen : Finset Nat}
    (hseen : ∀ y, y ∈ path ↔ y ∈ seen) (x y : Nat) : y ∈ x :: path ↔ y ∈ insert x seen := by
  rw [List.mem_cons, Finset.mem_insert, hseen]

mutual

/-- A traversal takes out of the set what it has put into it, so that what it finds there is the
path from the root. -/
theorem Traverses.unfolds {seen seen' : Finset Nat} {v : Value} {o : Object}
    (ht : h.Traverses seen v o seen') {path : List Nat} (hseen : ∀ y, y ∈ path ↔ y ∈ seen) :
    seen' = seen ∧ h.Unfolds path v o := by
  cases ht with
  | atom hv => exact ⟨rfl, .atom hv⟩
  | tuple hall =>
    obtain ⟨rfl, hu⟩ := hall.unfold hseen
    exact ⟨rfl, .tuple hu⟩
  | namedTuple type fields hall =>
    obtain ⟨rfl, hu⟩ := hall.unfold hseen
    exact ⟨rfl, .namedTuple type fields hu⟩
  | again hx hcell => exact ⟨rfl, .again ((hseen _).mpr hx) hcell⟩
  | list hx hcell hall =>
    obtain ⟨rfl, hu⟩ := hall.unfold (mem_cons_iff_mem_insert hseen _)
    exact ⟨Finset.erase_insert hx, .list (mt (hseen _).mp hx) hcell hu⟩
  | dict hx hcell hall =>
    obtain ⟨rfl, hu⟩ := hall.unfold (mem_cons_iff_mem_insert hseen _)
    exact ⟨Finset.erase_insert hx, .dict (mt (hseen _).mp hx) hcell hu⟩
  | iter hx hcell => exact ⟨Finset.erase_insert hx, .iter (mt (hseen _).mp hx) hcell⟩

theorem AllTraverse.unfold {seen seen' : Finset Nat} {vs : List Value} {os : List Object}
    (ht : h.AllTraverse seen vs os seen') {path : List Nat} (hseen : ∀ y, y ∈ path ↔ y ∈ seen) :
    seen' = seen ∧ h.AllUnfold path vs os := by
  cases ht with
  | nil => exact ⟨rfl, .nil⟩
  | cons ht hall =>
    obtain ⟨rfl, hu⟩ := ht.unfolds hseen
    obtain ⟨rfl, hus⟩ := hall.unfold hseen
    exact ⟨rfl, .cons hu hus⟩

theorem EntriesTraverse.unfold {seen seen' : Finset Nat} {es : List Entry}
    {os : List (Object × Object)} (ht : h.EntriesTraverse seen es os seen') {path : List Nat}
    (hseen : ∀ y, y ∈ path ↔ y ∈ seen) : seen' = seen ∧ h.EntriesUnfold path es os := by
  cases ht with
  | nil => exact ⟨rfl, .nil⟩
  | cons hname hvalue hall =>
    obtain ⟨rfl, hu⟩ := hname.unfolds hseen
    obtain ⟨rfl, hu'⟩ := hvalue.unfolds hseen
    obtain ⟨rfl, hus⟩ := hall.unfold hseen
    exact ⟨rfl, .cons hu hu' hus⟩

end

mutual

theorem Unfolds.traverses {path : List Nat} {v : Value} {o : Object} (hu : h.Unfolds path v o)
    {seen : Finset Nat} (hseen : ∀ y, y ∈ path ↔ y ∈ seen) : h.Traverses seen v o seen := by
  cases hu with
  | atom hv => exact .atom hv
  | tuple hall => exact .tuple (hall.traverse hseen)
  | namedTuple type fields hall => exact .namedTuple type fields (hall.traverse hseen)
  | again hx hcell => exact .again ((hseen _).mp hx) hcell
  | list hx hcell hall =>
    have hx := mt (hseen _).mpr hx
    have ht := Traverses.list hx hcell (hall.traverse (mem_cons_iff_mem_insert hseen _))
    rwa [Finset.erase_insert hx] at ht
  | dict hx hcell hall =>
    have hx := mt (hseen _).mpr hx
    have ht := Traverses.dict hx hcell (hall.traverse (mem_cons_iff_mem_insert hseen _))
    rwa [Finset.erase_insert hx] at ht
  | iter hx hcell =>
    have hx := mt (hseen _).mpr hx
    have ht := Traverses.iter hx hcell
    rwa [Finset.erase_insert hx] at ht

theorem AllUnfold.traverse {path : List Nat} {vs : List Value} {os : List Object}
    (hu : h.AllUnfold path vs os) {seen : Finset Nat} (hseen : ∀ y, y ∈ path ↔ y ∈ seen) :
    h.AllTraverse seen vs os seen := by
  cases hu with
  | nil => exact .nil
  | cons hu hall => exact .cons (hu.traverses hseen) (hall.traverse hseen)

theorem EntriesUnfold.traverse {path : List Nat} {es : List Entry} {os : List (Object × Object)}
    (hu : h.EntriesUnfold path es os) {seen : Finset Nat} (hseen : ∀ y, y ∈ path ↔ y ∈ seen) :
    h.EntriesTraverse seen es os seen := by
  cases hu with
  | nil => exact .nil
  | cons hname hvalue hall =>
    exact .cons (hname.traverses hseen) (hvalue.traverses hseen) (hall.traverse hseen)

end

/-- The two ways to tell whether an entry is inside itself come to the same objects. -/
theorem traverses_iff_unfolds {v : Value} {o : Object} {seen : Finset Nat} :
    h.Traverses ∅ v o seen ↔ seen = ∅ ∧ h.Unfolds [] v o := by
  refine ⟨fun ht => ht.unfolds (by simp), ?_⟩
  rintro ⟨rfl, hu⟩
  exact hu.traverses (by simp)

/-! ## The conversion unfolds -/

/-- A path that the conversion can take: it enters lists and dicts only, and fewer than `depth`
entries are left. -/
structure Path (h : Heap) (depth : Nat) (path : List Nat) : Prop
    extends Enclosing h depth path where
  entered : ∀ x ∈ path, ∀ state, h.cell? x ≠ some (.iter state)

theorem Path.nil (h : Heap) : h.Path (h.slots.size + 1) [] := ⟨.nil h, by simp⟩

theorem Path.cons {depth x : Nat} {path : List Nat} {c : Cell} (hp : h.Path (depth + 1) path)
    (hx : x ∉ path) (hcell : h.cell? x = some c) (hc : ∀ state, c ≠ .iter state) :
    h.Path depth (x :: path) where
  toEnclosing := hp.toEnclosing.cons (by simpa using hx) (by simp [hcell])
  entered y hy := by
    rcases List.mem_cons.mp hy with rfl | hy
    · simpa [hcell] using hc
    · exact hp.entered y hy

mutual

theorem Unfolds.eq_toObjectBy {path : List Nat} {v : Value} {o : Object}
    (hu : h.Unfolds path v o) {depth : Nat} (hp : h.Path depth path) :
    o = v.toObjectBy (h.cellObject depth path) := by
  cases hu with
  | @atom _ v hv => cases v <;> first | rfl | cases hv
  | tuple hall => rw [Value.toObjectBy, toObjectsBy_eq_map, hall.eq_map hp]; rfl
  | namedTuple type fields hall => rw [Value.toObjectBy, toObjectsBy_eq_map, hall.eq_map hp]; rfl
  | @again _ x c hx hcell =>
    cases depth with
    | zero => exact hp.pos.elim
    | succ depth =>
      cases c with
      | iter state => exact absurd hcell (hp.entered x hx state)
      | list vs => simp [Value.toObjectBy, cellObject, hcell, hx, Cell.cutOff]
      | dict d => simp [Value.toObjectBy, cellObject, hcell, hx, Cell.cutOff]
  | list hx hcell hall =>
    cases depth with
    | zero => exact hp.pos.elim
    | succ depth =>
      rw [hall.eq_map (hp.cons hx hcell nofun)]
      simp [Value.toObjectBy, cellObject, hcell, hx]
  | dict hx hcell hall =>
    cases depth with
    | zero => exact hp.pos.elim
    | succ depth =>
      rw [hall.eq_map (hp.cons hx hcell nofun)]
      simp [Value.toObjectBy, cellObject, hcell, hx]
  | iter hx hcell =>
    cases depth with
    | zero => exact hp.pos.elim
    | succ depth => simp [Value.toObjectBy, cellObject, hcell]

theorem AllUnfold.eq_map {path : List Nat} {vs : List Value} {os : List Object}
    (hu : h.AllUnfold path vs os) {depth : Nat} (hp : h.Path depth path) :
    os = vs.map (Value.toObjectBy (h.cellObject depth path)) := by
  cases hu with
  | nil => rfl
  | cons hu hall => rw [List.map_cons, ← hu.eq_toObjectBy hp, ← hall.eq_map hp]

theorem EntriesUnfold.eq_map {path : List Nat} {es : List Entry} {os : List (Object × Object)}
    (hu : h.EntriesUnfold path es os) {depth : Nat} (hp : h.Path depth path) :
    os = es.map fun e => (e.name.toObjectBy (h.cellObject depth path),
      e.value.toObjectBy (h.cellObject depth path)) := by
  cases hu with
  | nil => rfl
  | cons hname hvalue hall =>
    rw [List.map_cons, ← hname.eq_toObjectBy hp, ← hvalue.eq_toObjectBy hp, ← hall.eq_map hp]

end

mutual

/-- A value unfolds if the references in it do. -/
theorem unfolds_toObjectBy {path : List Nat} {cell : Nat → Object} (v : Value)
    (hcell : ∀ x, v.Mentions x → h.Unfolds path (.ref x) (cell x)) :
    h.Unfolds path v (v.toObjectBy cell) := by
  cases v with
  | tuple vs =>
    rw [Value.toObjectBy, toObjectsBy_eq_map]
    exact .tuple (allUnfold_map vs fun v hv x hx => hcell x (.tuple hv hx))
  | namedTuple type fields vs =>
    rw [Value.toObjectBy, toObjectsBy_eq_map]
    exact .namedTuple type fields
      (allUnfold_map vs fun v hv x hx => hcell x (.namedTuple _ _ hv hx))
  | ref x => exact hcell x (.ref x)
  | _ => exact .atom rfl

theorem allUnfold_map {path : List Nat} {cell : Nat → Object} (vs : List Value)
    (hcell : ∀ v ∈ vs, ∀ x, v.Mentions x → h.Unfolds path (.ref x) (cell x)) :
    h.AllUnfold path vs (vs.map (Value.toObjectBy cell)) := by
  cases vs with
  | nil => exact .nil
  | cons v vs =>
    exact .cons (unfolds_toObjectBy v (hcell v List.mem_cons_self))
      (allUnfold_map vs fun w hw => hcell w (List.mem_cons_of_mem v hw))

end

theorem entriesUnfold_map {path : List Nat} {cell : Nat → Object} (es : List Entry)
    (hname : ∀ e ∈ es, ∀ x, e.name.Mentions x → h.Unfolds path (.ref x) (cell x))
    (hvalue : ∀ e ∈ es, ∀ x, e.value.Mentions x → h.Unfolds path (.ref x) (cell x)) :
    h.EntriesUnfold path es
      (es.map fun e => (e.name.toObjectBy cell, e.value.toObjectBy cell)) := by
  induction es with
  | nil => exact .nil
  | cons e es ih =>
    simp only [List.forall_mem_cons] at hname hvalue
    exact .cons (unfolds_toObjectBy _ hname.1) (unfolds_toObjectBy _ hvalue.1)
      (ih hname.2 hvalue.2)

/-- A reference unfolds if nothing that can be reached dangles. The induction is on the number of
entries that are not on the path. -/
theorem unfolds_cellObject {held : Value → Prop} (hlive : ∀ x, h.Reaches held x → h.cell? x ≠ none)
    {depth : Nat} {path : List Nat} (hp : h.Path depth path) {x : Nat} (hx : h.Reaches held x) :
    h.Unfolds path (.ref x) (h.cellObject depth path x) := by
  induction depth generalizing path x with
  | zero => exact hp.pos.elim
  | succ depth ih =>
    obtain ⟨c, hcell⟩ := Option.ne_none_iff_exists'.mp (hlive x hx)
    by_cases hmem : x ∈ path
    · have hagain := Unfolds.again hmem hcell
      rwa [hagain.eq_toObjectBy hp] at hagain
    · have inside : ∀ y, c.Mentions y → (∀ state, c ≠ .iter state) →
          h.Unfolds (x :: path) (.ref y) (h.cellObject depth (x :: path) y) :=
        fun y hy hc => ih (hp.cons hmem hcell hc) (hx.through hcell hy)
      cases c with
      | list vs =>
        simp only [cellObject, hcell, List.contains_eq_mem, hmem, decide_false]
        exact .list hmem hcell
          (allUnfold_map _ fun v hv y hy => inside y (.item hv hy) nofun)
      | dict d =>
        simp only [cellObject, hcell, List.contains_eq_mem, hmem, decide_false]
        exact .dict hmem hcell
          (entriesUnfold_map _ (fun e he y hy => inside y (.name he hy) nofun)
            fun e he y hy => inside y (.value he hy) nofun)
      | iter state =>
        simp only [cellObject, hcell]
        exact .iter hmem hcell

/-- On a heap without dangling references, with cycles or without, the conversion of a value ends,
and it gives the unfolding of the value: a reference is cut off exactly where its entry is on the
path that leads to it. The traversal that marks the entries it is in ends with the same object, and
with no mark left. -/
theorem toObject_unfolds (h : Heap) (v : Value)
    (hlive : ∀ x, h.Reaches (· = v) x → h.cell? x ≠ none) :
    (∀ o, h.Unfolds [] v o ↔ o = h.toObject v) ∧
      ∀ o seen, h.Traverses ∅ v o seen ↔ o = h.toObject v ∧ seen = ∅ := by
  have hunfolds : ∀ o, h.Unfolds [] v o ↔ o = h.toObject v := by
    refine fun o => ⟨fun hu => hu.eq_toObjectBy (.nil h), ?_⟩
    rintro rfl
    exact unfolds_toObjectBy v fun x hx =>
      unfolds_cellObject hlive (.nil h) (.held rfl hx)
  refine ⟨hunfolds, fun o seen => ?_⟩
  rw [traverses_iff_unfolds, hunfolds, and_comm]

/-- A list that holds itself and, twice, a dict that holds the list: the dict is written out both
times. -/
theorem toObject_unfolds_shared :
    let h : Heap := ⟨#[some ⟨.list #[.ref 0, .ref 1, .ref 1], 232⟩,
      some ⟨.dict ⟨#[⟨.str "k", .str "k", .ref 0⟩]⟩, 184⟩], [], 2, .ofLimits .none⟩
    let inner : Object := .dict [(.string "k", .repr "[...]")]
    (∀ x, h.Reaches (· = .ref 0) x → h.cell? x ≠ none) ∧
      h.Unfolds [] (.ref 0) (.list [.repr "[...]", inner, inner]) ∧
      h.Traverses ∅ (.ref 0) (.list [.repr "[...]", inner, inner]) ∅ := by
  intro h inner
  have hreached : ∀ x, h.Reaches (· = .ref 0) x → x = 0 ∨ x = 1 := by
    intro x hx
    induction hx with
    | held hv hm => subst hv; cases hm; exact .inl rfl
    | through _ hcell hm ih =>
      rcases ih with rfl | rfl <;> cases hcell
      · have hy := Cell.mem_refs hm
        simp [Cell.refs, Value.allRefs, Value.refs] at hy
        omega
      · exact .inl (by simpa [Cell.refs, Value.refs] using Cell.mem_refs hm)
  have hlive : ∀ x, h.Reaches (· = .ref 0) x → h.cell? x ≠ none := fun x hx => by
    rcases hreached x hx with rfl | rfl <;> exact nofun
  have hends := toObject_unfolds h (.ref 0) hlive
  exact ⟨hlive, (hends.1 _).mpr rfl, (hends.2 _ _).mpr ⟨rfl, rfl⟩⟩

end Heap

end Resumable
