import Mathlib.Data.Finite.Prod
import Mathlib.Data.Fintype.Pigeonhole
import Mathlib.Logic.Relation
import Mathlib.Order.WellFounded
import Resumable.Proofs.Reach
import Resumable.Proofs.Walk

/-!
# Comparisons without an end

A comparison of two values has no end if no bound on the walk through the entries of the heap gives
an answer (`equal?_eq_none_iff`, `compare?_eq_endless_iff`). That takes two values that both lead to
an entry which is inside itself (`endless_cyclic`), as two lists do that hold themselves alone
(`endless_of_self`).
-/

namespace Resumable

open Relation (ReflTransGen TransGen)

/-! ## Walks of any length -/

theorem Refines.trans {β : Type} {bottom : β} {f g k : Nat → Nat → β} (hfg : Refines bottom f g)
    (hgk : Refines bottom g k) : Refines bottom f k := fun x y h => by
  rw [hgk x y (by rwa [hfg x y h]), hfg x y h]

theorem refines_of_le {β : Type} {bottom : β} {size : Nat} {F : (Nat → Nat → β) → Nat → Nat → β}
    (hF : WalkStep bottom size F) {T : Nat → Nat → Nat → β} (hT : T 0 = fun _ _ => bottom)
    (hnext : ∀ n, T (n + 1) = F (T n)) {n m : Nat} (hnm : n ≤ m) : Refines bottom (T n) (T m) := by
  induction m, hnm using Nat.le_induction with
  | base => exact fun _ _ _ => rfl
  | succ m _ ih => exact ih.trans (refines_next hF hT hnext m)

namespace Heap

theorem cellsEqual_refines (h : Heap) (n : Nat) :
    Refines none (h.cellsEqual n) (h.cellsEqual h.walkBound) := by
  rw [← h.cellsEqual_stable (Nat.le_max_right n h.walkBound)]
  exact refines_of_le h.cellsEqualBy_walkStep rfl (fun _ => rfl) (Nat.le_max_left ..)

theorem compareCells_refines (h : Heap) (n : Nat) :
    Refines (.error .endless) (h.compareCells n) (h.compareCells h.walkBound) := by
  rw [← h.compareCells_stable (Nat.le_max_right n h.walkBound)]
  exact refines_of_le h.compareCellsBy_walkStep rfl (fun _ => rfl) (Nat.le_max_left ..)

/-- The walk that `equal?` bounds comes to what one step makes of it. -/
theorem cellsEqual_fixed (h : Heap) :
    h.cellsEqual h.walkBound = h.cellsEqualBy (h.cellsEqual h.walkBound) :=
  (h.cellsEqual_stable (Nat.le_succ _)).symm

theorem compareCells_fixed (h : Heap) :
    h.compareCells h.walkBound = h.compareCellsBy (h.compareCells h.walkBound) :=
  (h.compareCells_stable (Nat.le_succ _)).symm

/-- Two values have no answer if walks of no length come to one. -/
theorem equal?_eq_none_iff {h : Heap} {a b : Value} :
    h.equal? a b = none ↔ ∀ n, Value.equalBy (h.cellsEqual n) a b = none := by
  refine ⟨fun hnone n => ?_, fun hnone => hnone h.walkBound⟩
  by_contra hsome
  exact hsome ((Value.equalBy_refines (h.cellsEqual_refines n) a b hsome).symm.trans hnone)

theorem compare?_eq_endless_iff {h : Heap} {a b : Value} : h.compare? a b = .error .endless ↔
    ∀ n, Value.compareBy h.equal? (h.compareCells n) a b = .error .endless := by
  refine ⟨fun hnone n => ?_, fun hnone => hnone h.walkBound⟩
  by_contra hsome
  exact hsome ((Value.compareBy_refines (h.compareCells_refines n) a b hsome).symm.trans hnone)

end Heap

/-! ## Answers for values -/

namespace Value

mutual

/-- Values have an answer if every two entries that they refer to have one. -/
theorem equalBy_ne_none {cells : Nat → Nat → Option Bool} (a b : Value)
    (hcells : ∀ x y, a.Mentions x → b.Mentions y → cells x y ≠ Option.none) :
    equalBy cells a b ≠ Option.none := by
  cases a <;> cases b <;> first | exact Option.some_ne_none _ | skip
  case ref.ref x y =>
    rw [equalBy]
    split
    · exact Option.some_ne_none _
    · exact hcells x y (.ref x) (.ref y)
  all_goals
    rw [equalBy]
    split
    · refine allEqualBy_ne_none _ _ fun a ha b hb x y hx hy => hcells x y ?_ ?_
      · first | exact .tuple ha hx | exact .namedTuple _ _ ha hx
      · first | exact .tuple hb hy | exact .namedTuple _ _ hb hy
    · exact Option.some_ne_none _

theorem allEqualBy_ne_none {cells : Nat → Nat → Option Bool} (as bs : List Value)
    (hcells : ∀ a ∈ as, ∀ b ∈ bs, ∀ x y, a.Mentions x → b.Mentions y → cells x y ≠ Option.none) :
    allEqualBy cells as bs ≠ Option.none := by
  cases as with
  | nil => rw [allEqualBy]; exact Option.some_ne_none _; exact nofun
  | cons a as =>
    cases bs with
    | nil => rw [allEqualBy]; exact Option.some_ne_none _; exact nofun
    | cons b bs =>
      have ha := equalBy_ne_none a b (hcells a (.head _) b (.head _))
      rw [allEqualBy]
      split
      · exact allEqualBy_ne_none as bs fun a ha b hb =>
          hcells a (.tail _ ha) b (.tail _ hb)
      · exact ha

end

theorem compareNumbers_ne_endless (a b : Value) : compareNumbers a b ≠ .error .endless := by
  unfold compareNumbers
  split
  · split
    · exact nofun
    · split
      · exact nofun
      · split <;> exact nofun
  · exact nofun

mutual

/-- Values have an order, or a reason to have none, if all parts of them can be told apart and every
two entries that they refer to have one. -/
theorem compareBy_ne_endless {equal : Value → Value → Option Bool}
    {cells : Nat → Nat → Except Unordered Ordering} (a b : Value)
    (hequal : ∀ c d, (∀ x, c.Mentions x → a.Mentions x) → (∀ y, d.Mentions y → b.Mentions y) →
      equal c d ≠ Option.none)
    (hcells : ∀ x y, a.Mentions x → b.Mentions y → cells x y ≠ .error .endless) :
    compareBy equal cells a b ≠ .error .endless := by
  have hnumbers := compareNumbers_ne_endless a b
  cases a <;> cases b <;> first | exact hnumbers | skip
  case str.str | path.path | bytes.bytes => rw [compareBy]; exact nofun
  case ref.ref x y => rw [compareBy]; exact hcells x y (.ref x) (.ref y)
  case tuple.tuple as bs =>
    rw [compareBy]
    exact compareAllBy_ne_endless as bs
      (fun a ha b hb c d hc hd => hequal c d (fun x hx => .tuple ha (hc x hx))
        fun y hy => .tuple hb (hd y hy))
      fun a ha b hb x y hx hy => hcells x y (.tuple ha hx) (.tuple hb hy)

theorem compareAllBy_ne_endless {equal : Value → Value → Option Bool}
    {cells : Nat → Nat → Except Unordered Ordering} (as bs : List Value)
    (hequal : ∀ a ∈ as, ∀ b ∈ bs, ∀ c d, (∀ x, c.Mentions x → a.Mentions x) →
      (∀ y, d.Mentions y → b.Mentions y) → equal c d ≠ Option.none)
    (hcells : ∀ a ∈ as, ∀ b ∈ bs, ∀ x y, a.Mentions x → b.Mentions y →
      cells x y ≠ .error .endless) :
    compareAllBy equal cells as bs ≠ .error .endless := by
  cases as with
  | nil => cases bs <;> (rw [compareAllBy]; exact nofun)
  | cons a as =>
    cases bs with
    | nil => rw [compareAllBy]; exact nofun
    | cons b bs =>
      have hab := hequal a (.head _) b (.head _)
      rw [compareAllBy]
      split
      · exact compareAllBy_ne_endless as bs
          (fun a ha b hb => hequal a (.tail _ ha) b (.tail _ hb))
          fun a ha b hb => hcells a (.tail _ ha) b (.tail _ hb)
      · exact compareBy_ne_endless a b hab (hcells a (.head _) b (.head _))
      · next hnone => exact absurd hnone (hab a b (fun _ => id) fun _ => id)

end

end Value

theorem allAnswer_ne_none {α : Type} {p : α → Option Bool} {as : List α}
    (h : ∀ a ∈ as, p a ≠ none) : allAnswer p as ≠ none := by
  induction as with
  | nil => exact nofun
  | cons a as ih =>
    rw [allAnswer]
    split
    · exact ih fun a ha => h a (.tail _ ha)
    · exact h a (.head _)

theorem Dict.mem_of_get? {d : Dict} {k : Key} {v : Value} (hv : d.get? k = some v) :
    ∃ e ∈ d.entries.toList, e.value = v := by
  obtain ⟨e, he, rfl⟩ := Option.map_eq_some_iff.mp hv
  exact ⟨e, Array.mem_toList_iff.mpr (Array.mem_of_find?_eq_some he), rfl⟩

/-! ## Entries inside themselves -/

namespace Heap

variable {h : Heap} {a b : Value}

/-- The list or dict `x` refers to `y`. -/
def Inside (h : Heap) (y x : Nat) : Prop :=
  ∃ c, h.cell? x = some c ∧ (∀ state, c ≠ .iter state) ∧ c.Mentions y

/-- A comparison of the entries in `q` can come to that of the entries in `p`. -/
def InsideBoth (h : Heap) (p q : Nat × Nat) : Prop := h.Inside p.1 q.1 ∧ h.Inside p.2 q.2

theorem Inside.item {x y : Nat} {vs : Array Value} {v : Value} (hx : h.cell? x = some (.list vs))
    (hv : v ∈ vs.toList) (hy : v.Mentions y) : h.Inside y x := ⟨_, hx, nofun, .item hv hy⟩

theorem Inside.value {x y : Nat} {d : Dict} {e : Entry} (hx : h.cell? x = some (.dict d))
    (he : e ∈ d.entries.toList) (hy : e.value.Mentions y) : h.Inside y x :=
  ⟨_, hx, nofun, .value he hy⟩

/-- The induction is on the pairs that the walk can come to. -/
theorem cellsEqual_ne_none {p : Nat × Nat} (hp : Acc h.InsideBoth p) :
    h.cellsEqual h.walkBound p.1 p.2 ≠ none := by
  induction hp with
  | intro p _ ih =>
    rw [cellsEqual_fixed, cellsEqualBy]
    split
    · next as bs hx hy =>
      split
      · refine allAnswer_ne_none fun q hq => Value.equalBy_ne_none q.1 q.2 fun z w hz hw => ?_
        exact ih (z, w) ⟨.item hx (List.of_mem_zip hq).1 hz, .item hy (List.of_mem_zip hq).2 hw⟩
      · exact nofun
    · next d e hx hy =>
      split
      · refine allAnswer_ne_none fun entry hentry => ?_
        cases hv : e.get? entry.key with
        | none => exact nofun
        | some v =>
          obtain ⟨other, hother, rfl⟩ := Dict.mem_of_get? hv
          exact Value.equalBy_ne_none _ _ fun z w hz hw =>
            ih (z, w) ⟨.value hx hentry hz, .value hy hother hw⟩
      · exact nofun
    · exact nofun

theorem equal?_ne_none (hacc : ∀ x y, a.Mentions x → b.Mentions y → Acc h.InsideBoth (x, y)) :
    h.equal? a b ≠ none :=
  Value.equalBy_ne_none a b fun x y hx hy => cellsEqual_ne_none (hacc x y hx hy)

theorem compareCells_ne_endless {p : Nat × Nat} (hp : Acc h.InsideBoth p) :
    h.compareCells h.walkBound p.1 p.2 ≠ .error .endless := by
  induction hp with
  | intro p hacc ih =>
    rw [compareCells_fixed, compareCellsBy]
    split
    · next as bs hx hy =>
      refine Value.compareAllBy_ne_endless _ _ (fun v hv w hw c d hc hd => ?_)
        fun v hv w hw x y hvx hwy => ih (x, y) ⟨.item hx hv hvx, .item hy hw hwy⟩
      exact equal?_ne_none fun x y hcx hdy =>
        hacc (x, y) ⟨.item hx hv (hc x hcx), .item hy hw (hd y hdy)⟩
    · exact nofun

theorem compare?_ne_endless
    (hacc : ∀ x y, a.Mentions x → b.Mentions y → Acc h.InsideBoth (x, y)) :
    h.compare? a b ≠ .error .endless :=
  Value.compareBy_ne_endless a b
    (fun _ _ hc hd => equal?_ne_none fun x y hx hy => hacc x y (hc x hx) (hd y hy))
    fun x y hx hy => compareCells_ne_endless (hacc x y hx hy)

theorem Inside.lt_size {x y : Nat} (hxy : h.Inside y x) : x < h.slots.size := by
  obtain ⟨c, hx, -⟩ := hxy
  by_contra hle
  rw [cell?, Array.getElem?_eq_none (Nat.le_of_not_lt hle)] at hx
  cases hx

/-- There are only so many pairs of entries, so a walk without an end comes back to one. -/
theorem exists_cycle {p : Nat × Nat} (hp : ¬ Acc h.InsideBoth p) :
    ∃ q, ReflTransGen h.InsideBoth q p ∧ TransGen h.InsideBoth q q := by
  obtain ⟨f, rfl, hf⟩ := not_acc_iff_exists_descending_chain.mp hp
  have hreach : ∀ i k, ReflTransGen h.InsideBoth (f (i + k)) (f i) := fun i k => by
    induction k with
    | zero => exact .refl
    | succ k ih => exact .head (hf (i + k)) ih
  let slot (n : Nat) : Fin h.slots.size × Fin h.slots.size :=
    (⟨(f n).1, (hf n).1.lt_size⟩, ⟨(f n).2, (hf n).2.lt_size⟩)
  obtain ⟨i, j, hij, hslot⟩ : ∃ i j, i < j ∧ slot i = slot j := by
    obtain ⟨i, j, hne, hslot⟩ := Finite.exists_ne_map_eq_of_infinite slot
    rcases Nat.lt_or_gt_of_ne hne with hij | hij
    · exact ⟨i, j, hij, hslot⟩
    · exact ⟨j, i, hij, hslot.symm⟩
  have hsame : f i = f j := by
    have hslot := Prod.ext_iff.mp hslot
    exact Prod.ext (congrArg Fin.val hslot.1) (congrArg Fin.val hslot.2)
  refine ⟨f i, by simpa using hreach 0 i, ?_⟩
  obtain ⟨k, rfl⟩ := Nat.exists_eq_add_of_lt hij
  have hback := hreach (i + 1) k
  rw [Nat.add_right_comm, ← hsame] at hback
  exact .tail' hback (hf i)

theorem Reaches.of_inside {held : Value → Prop} {x z : Nat} (hx : h.Reaches held x)
    (hz : ReflTransGen h.Inside z x) : h.Reaches held z := by
  induction hz using ReflTransGen.head_induction_on with
  | refl => exact hx
  | head hab _ ih =>
    obtain ⟨c, hcell, -, hmentions⟩ := hab
    exact ih.through hcell hmentions

/-- Only two values that both lead to an entry inside itself can have no answer. -/
theorem endless_cyclic (hend : h.equal? a b = none ∨ h.compare? a b = .error .endless) :
    (∃ z, h.Reaches (· = a) z ∧ TransGen h.Inside z z) ∧
      ∃ w, h.Reaches (· = b) w ∧ TransGen h.Inside w w := by
  obtain ⟨x, y, hx, hy, hacc⟩ :
      ∃ x y, a.Mentions x ∧ b.Mentions y ∧ ¬ Acc h.InsideBoth (x, y) := by
    by_contra hall
    push Not at hall
    exact hend.elim (equal?_ne_none hall) (compare?_ne_endless hall)
  obtain ⟨q, hleads, hcycle⟩ := exists_cycle hacc
  exact ⟨⟨q.1, .of_inside (.held rfl hx) (hleads.lift Prod.fst fun _ _ => And.left),
      hcycle.lift Prod.fst fun _ _ => And.left⟩,
    q.2, .of_inside (.held rfl hy) (hleads.lift Prod.snd fun _ _ => And.right),
      hcycle.lift Prod.snd fun _ _ => And.right⟩

/-- Two lists that hold themselves alone have no answer, whatever else is on the heap. -/
theorem endless_of_self {x y : Nat} (hxy : x ≠ y) (hx : h.cell? x = some (.list #[.ref x]))
    (hy : h.cell? y = some (.list #[.ref y])) :
    h.equal? (.ref x) (.ref y) = none ∧ h.compare? (.ref x) (.ref y) = .error .endless := by
  have hcells : ∀ n, h.cellsEqual n x y = none := fun n => by
    induction n with
    | zero => rfl
    | succ n ih =>
      rw [cellsEqual, cellsEqualBy, hx, hy]
      simp [allAnswer, Value.equalBy, hxy, ih]
  have hequal : h.equal? (.ref x) (.ref y) = none := by
    rw [equal?, Value.equalBy, if_neg (by simpa using hxy), hcells]
  refine ⟨hequal, ?_⟩
  rw [compare?, Value.compareBy, compareCells_fixed, compareCellsBy, hx, hy]
  simp only [Value.compareAllBy, hequal]

end Heap

end Resumable
