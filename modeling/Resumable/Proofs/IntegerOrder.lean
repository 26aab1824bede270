import Resumable.Operation.Builtins
import Resumable.Proofs.Lockstep.Comparison
import Resumable.Proofs.NearestFloat
import Resumable.Proofs.StableSort

/-!
# The order of integers

Two integers are compared after both have been converted to floats, so that they are equal, or in an
order, as their rounded values are (`Heap.comparison_ints`). Sorting, `min` and `max` follow that
order (`Heap.sorted_ints`, `BuiltinCall.extreme_ints`). Up to `2 ^ 53`, `Near`, it is the order of
the integers (`Heap.comparison_of_near`, `Heap.sorted_of_near`, `BuiltinCall.extreme_of_near`). As
keys of a dict, integers are not converted (`Key.ofValue_int_inj`).
-/

namespace Resumable

open Number (rounded rounded_mono rounded_of_le represents_toNearestFloat)

variable {i j : Int64} {is : List Int64}

/-- An integer that its nearest float is. -/
def Near (i : Int64) : Prop := i.toInt.natAbs ≤ 2 ^ 53

theorem Near.rounded_eq (h : Near i) : rounded i.toInt = i.toInt := rounded_of_le h

/-- What an operator says about two integers, if it compares values. -/
def Comparator.says? : Comparator → Int → Int → Option Bool
  | .eq, a, b => some (a == b)
  | .notEq, a, b => some (a != b)
  | .lt, a, b => some (a < b)
  | .ltE, a, b => some (a ≤ b)
  | .gt, a, b => some (b < a)
  | .gtE, a, b => some (b ≤ a)
  | _, _, _ => none

/-! ## Comparisons -/

theorem toNearestFloat_beq (i j : Int64) :
    (toNearestFloat i == toNearestFloat j) = (rounded i.toInt == rounded j.toInt) := by
  rw [Bool.eq_iff_iff, beq_iff_eq (a := rounded i.toInt)]
  exact (represents_toNearestFloat i).beq_iff (represents_toNearestFloat j)

theorem Value.compareNumbers_ints (i j : Int64) : compareNumbers (.int i) (.int j) =
    .ok (compare (rounded i.toInt) (rounded j.toInt)) := by
  have hlt := (represents_toNearestFloat i).lt_iff (represents_toNearestFloat j)
  have hgt := (represents_toNearestFloat j).lt_iff (represents_toNearestFloat i)
  simp only [compareNumbers, number?, hlt, hgt, toNearestFloat_beq]
  rcases lt_trichotomy (rounded i.toInt) (rounded j.toInt) with h | h | h
  · rw [if_pos h, compare_lt_iff_lt.mpr h]
  · rw [if_neg h.not_lt, if_neg h.not_gt, if_pos (beq_iff_eq.mpr h), compare_eq_iff_eq.mpr h]
  · rw [if_neg h.not_gt, if_pos h, compare_gt_iff_gt.mpr h]

namespace Heap

theorem equal?_ints (h : Heap) (i j : Int64) :
    h.equal? (.int i) (.int j) = some (rounded i.toInt == rounded j.toInt) := by
  rw [equal?, Value.equalBy]
  · exact congrArg some (toNearestFloat_beq i j)
  all_goals intros; contradiction

theorem compare?_ints (h : Heap) (i j : Int64) :
    h.compare? (.int i) (.int j) = .ok (Ord.compare (rounded i.toInt) (rounded j.toInt)) :=
  Value.compareNumbers_ints i j

theorem agrees_compare (a b : Int) :
    agrees .lt (Ord.compare a b) = decide (a < b) ∧
    agrees .ltE (Ord.compare a b) = decide (a ≤ b) ∧
    agrees .gt (Ord.compare a b) = decide (b < a) ∧
    agrees .gtE (Ord.compare a b) = decide (b ≤ a) := by
  rcases lt_trichotomy a b with h | h | h
  · simp [agrees, compare_lt_iff_lt.mpr h, h, h.le, h.not_gt]
  · simp [agrees, h]
  · simp [agrees, compare_gt_iff_gt.mpr h, h, h.le, h.not_gt]

theorem ordered_ints (op : Comparator) (i j : Int64) (h : Heap) : ordered op (.int i) (.int j) h =
    .ok (agrees op (Ord.compare (rounded i.toInt) (rounded j.toInt))) h := by
  simp only [ordered, compare?_ints]
  rfl

theorem equal_ints (i j : Int64) (h : Heap) :
    equal (.int i) (.int j) h = .ok (rounded i.toInt == rounded j.toInt) h := by
  simp only [equal, equal?_ints]
  rfl

/-- A comparison of two integers says what it says of the rounded integers. -/
theorem comparison_ints {op : Comparator} {answer : Bool}
    (hop : op.says? (rounded i.toInt) (rounded j.toInt) = some answer) (h : Heap) :
    comparison op (.int i) (.int j) h = .ok answer h := by
  obtain ⟨hlt, hle, hgt, hge⟩ := agrees_compare (rounded i.toInt) (rounded j.toInt)
  cases op <;> cases hop
  case eq => exact equal_ints i j h
  case notEq =>
    simp only [comparison, equal, equal?_ints]
    rfl
  case lt => exact (ordered_ints _ i j h).trans (by rw [hlt])
  case ltE => exact (ordered_ints _ i j h).trans (by rw [hle])
  case gt => exact (ordered_ints _ i j h).trans (by rw [hgt])
  case gtE => exact (ordered_ints _ i j h).trans (by rw [hge])

/-- A comparison of two integers is right if both are at most `2 ^ 53`. -/
theorem comparison_of_near {op : Comparator} {answer : Bool} (hi : Near i) (hj : Near j)
    (hop : op.says? i.toInt j.toInt = some answer) (h : Heap) :
    comparison op (.int i) (.int j) h = .ok answer h := by
  rw [← hi.rounded_eq, ← hj.rounded_eq] at hop
  exact comparison_ints hop h

/-- Beyond `2 ^ 53` two integers can be equal as values. -/
example (h : Heap) :
    comparison .eq (.int 9007199254740992) (.int 9007199254740993) h = .ok true h :=
  comparison_ints (by decide) h

end Heap

/-- As keys, integers are one only if they are the same. -/
theorem Key.ofValue_int_inj {k : Key} (hi : Key.ofValue (.int i) = .ok k) :
    Key.ofValue (.int j) = .ok k ↔ i = j := by
  rw [Key.ofValue, Except.ok.injEq] at hi ⊢
  rw [← hi, Key.int.injEq, eq_comm]

/-! ## Sorting -/

/-- What integers are sorted by. -/
def rank (descending : Bool) (i : Int64) : Int :=
  if descending then -rounded i.toInt else rounded i.toInt

theorem total_rank (descending : Bool) :
    Sorting.Total fun i j => decide (rank descending i ≤ rank descending j) where
  total i j := by
    rw [Bool.or_eq_true, decide_eq_true_iff, decide_eq_true_iff]
    exact le_total _ _
  trans i j k hij hjk := by
    rw [decide_eq_true_iff] at *
    exact hij.trans hjk

namespace Heap

theorem comesBefore_ints (h : Heap) (descending : Bool) (i j : Int64) :
    h.comesBefore descending (.int i) (.int j) =
      .ok !decide (rank descending j ≤ rank descending i) := by
  have hlt (a b : Int) : (Ord.compare a b == .lt) = !decide (b ≤ a) := by
    rw [Bool.eq_iff_iff, beq_iff_eq, compare_lt_iff_lt, Bool.not_eq_true', decide_eq_false_iff_not,
      not_le]
  rw [comesBefore, compare?_ints]
  cases descending with
  | false => exact congrArg Except.ok (hlt _ _)
  | true =>
    refine congrArg Except.ok ((congrArg (· == .lt) Std.OrientedCmp.eq_swap.symm).trans ?_)
    rw [hlt]
    simp only [rank, if_true, neg_le_neg_iff]

/-- A list of integers is sorted, and stably so, by their rounded values. -/
theorem sorted_ints (h : Heap) (descending : Bool) (is : List Int64) :
    h.sorted descending (is.map .int).toArray =
      (((is.mergeSort fun i j => decide (rank descending i ≤ rank descending j)).map
        .int).toArray, none) := by
  rw [sorted, Sorting.sort_map,
    Sorting.sort_eq_mergeSort (h.comesBefore_ints descending) (total_rank descending)]
  rfl

/-- The integers up to `2 ^ 53` are sorted. -/
theorem sorted_of_near (h : Heap) (descending : Bool) (hnear : ∀ i ∈ is, Near i) :
    ∃ js : List Int64, h.sorted descending (is.map .int).toArray = ((js.map .int).toArray, none) ∧
      js.Perm is ∧ js.Pairwise fun i j =>
        if descending then j.toInt ≤ i.toInt else i.toInt ≤ j.toInt := by
  refine ⟨_, h.sorted_ints descending is, List.mergeSort_perm is _, ?_⟩
  have hordered := List.pairwise_mergeSort (total_rank descending).trans
    (total_rank descending).total is
  refine hordered.imp_of_mem fun hi hj hij => ?_
  rw [List.mem_mergeSort] at hi hj
  rw [decide_eq_true_iff, rank, rank, (hnear _ hi).rounded_eq, (hnear _ hj).rounded_eq] at hij
  cases descending with
  | false => exact hij
  | true => exact neg_le_neg_iff.mp hij

end Heap

theorem Heap.exists_modifyList {h : Heap} {id : Nat} {items : Array Value}
    (hcell : h.cell? id = some (.list items)) (f : Array Value → Array Value) :
    ∃ k, Heap.modifyList id f h = .ok () k ∧ k.cell? id = some (.list (f items)) :=
  exists_modifyCell hcell _

theorem Heap.items_eq {v : Value} {items : Array Value} {h : Heap} (hv : h.items? v = some items) :
    Heap.items v h = .ok items h := by
  rw [Heap.items, get_bind, hv]
  rfl

/-- `sorted` gives a new list of the integers in order. -/
theorem BuiltinCall.sorted_of_near {v : Value} {h : Heap}
    (hv : h.items? v = some (is.map .int).toArray) (hnear : ∀ i ∈ is, Near i) :
    ∃ js : List Int64, BuiltinCall.sorted ⟨[v], []⟩ h = Heap.allocList (js.map .int).toArray h ∧
      js.Perm is ∧ js.Pairwise fun i j => i.toInt ≤ j.toInt := by
  obtain ⟨js, hsorted, hperm, hordered⟩ := h.sorted_of_near false hnear
  refine ⟨js, ?_, hperm, hordered⟩
  change (Heap.items v >>= _) h = _
  rw [bind_ok (Heap.items_eq hv), get_bind, Option.any_none, hsorted]

/-- The method `sort` leaves the list with its integers in order. -/
theorem ListMethod.sort_of_near {id : Nat} {h : Heap} (descending : Bool)
    (hcell : h.cell? id = some (.list (is.map .int).toArray)) (hnear : ∀ i ∈ is, Near i) :
    ∃ k, ∃ js : List Int64, ListMethod.sort id descending h = .ok .none k ∧
      k.cell? id = some (.list (js.map .int).toArray) ∧ js.Perm is ∧
      js.Pairwise fun i j => if descending then j.toInt ≤ i.toInt else i.toInt ≤ j.toInt := by
  have hitems : ListMethod.itemsOf id h = .ok (is.map .int).toArray h := by
    rw [ListMethod.itemsOf, get_bind, hcell]
    rfl
  obtain ⟨l, hempty, hcell⟩ := Heap.exists_modifyList hcell fun _ => #[]
  obtain ⟨js, hsorted, hperm, hordered⟩ := l.sorted_of_near descending hnear
  obtain ⟨k, hfill, hcell⟩ := Heap.exists_modifyList hcell fun _ => (js.map .int).toArray
  refine ⟨k, js, ?_, hcell, hperm, hordered⟩
  rw [ListMethod.sort, bind_ok hitems, bind_ok hempty, get_bind, hsorted]
  dsimp only
  rw [bind_ok hfill]
  rfl

/-! ## Extremes -/

theorem compare_ints (h : Heap) (i j : Int64) : Heap.compare (.int i) (.int j) h =
    .ok (Ord.compare (rounded i.toInt) (rounded j.toInt)) h := by
  simp only [Heap.compare, Heap.compare?_ints]
  rfl

theorem compare_ne_trans {wanted : Ordering} (hwanted : wanted ≠ .eq) {a b c : Int}
    (hab : Ord.compare a b ≠ wanted) (hbc : Ord.compare b c ≠ wanted) :
    Ord.compare a c ≠ wanted := by
  cases wanted with
  | eq => exact absurd rfl hwanted
  | lt =>
    rw [ne_eq, compare_lt_iff_lt, not_lt] at *
    exact hbc.trans hab
  | gt =>
    rw [ne_eq, compare_gt_iff_gt, not_lt] at *
    exact hab.trans hbc

theorem compare_ne_of_eq {wanted : Ordering} (hwanted : wanted ≠ .eq) {a b : Int}
    (hab : Ord.compare a b = wanted) : Ord.compare b a ≠ wanted := by
  cases wanted with
  | eq => exact absurd rfl hwanted
  | lt =>
    rw [ne_eq, compare_lt_iff_lt] at *
    exact hab.not_gt
  | gt =>
    rw [ne_eq, compare_gt_iff_gt] at *
    exact hab.not_gt

/-- The item that is kept is one of the items, and no item is better. -/
theorem extremeFrom_ints {wanted : Ordering} (hwanted : wanted ≠ .eq) (h : Heap) (i : Int64)
    (is : List Int64) : ∃ m ∈ i :: is,
      BuiltinCall.extremeFrom wanted (.int i) (is.map .int) h = .ok (.int m) h ∧
      ∀ j ∈ i :: is, Ord.compare (rounded j.toInt) (rounded m.toInt) ≠ wanted := by
  induction is generalizing i with
  | nil =>
    refine ⟨i, List.mem_singleton_self i, rfl, fun j hj => ?_⟩
    rw [List.mem_singleton.mp hj, compare_eq_iff_eq.mpr rfl]
    exact hwanted.symm
  | cons j is ih =>
    have hstep {r : EStateM.Result Failure Heap Value}
        (hr : BuiltinCall.extremeFrom wanted
          (if Ord.compare (rounded j.toInt) (rounded i.toInt) == wanted then .int j else .int i)
          (is.map .int) h = r) :
        BuiltinCall.extremeFrom wanted (.int i) ((j :: is).map .int) h = r := by
      change (Heap.compare (.int j) (.int i) >>= _) h = r
      rw [bind_ok (compare_ints h j i)]
      exact hr
    by_cases hbetter : Ord.compare (rounded j.toInt) (rounded i.toInt) = wanted
    · obtain ⟨m, hm, hrun, hbest⟩ := ih j
      refine ⟨m, List.mem_cons_of_mem i hm, hstep (by rwa [if_pos (beq_iff_eq.mpr hbetter)]),
        List.forall_mem_cons.mpr ⟨?_, hbest⟩⟩
      exact compare_ne_trans hwanted (compare_ne_of_eq hwanted hbetter)
        (hbest j List.mem_cons_self)
    · obtain ⟨m, hm, hrun, hbest⟩ := ih i
      obtain ⟨hi, his⟩ := List.forall_mem_cons.mp hbest
      refine ⟨m, ?_, hstep (by rwa [if_neg fun h => hbetter (beq_iff_eq.mp h)]),
        List.forall_mem_cons.mpr ⟨hi, List.forall_mem_cons.mpr ⟨?_, his⟩⟩⟩
      · rcases List.mem_cons.mp hm with rfl | hm
        · exact List.mem_cons_self
        · exact List.mem_cons_of_mem i (List.mem_cons_of_mem j hm)
      · exact compare_ne_trans hwanted hbetter hi

namespace BuiltinCall

/-- `min` and `max` of the items of a value choose by the rounded values. -/
theorem extreme_ints {name : String} {wanted : Ordering} (hwanted : wanted ≠ .eq) {v : Value}
    {h : Heap} (hv : h.items? v = some (is.map .int).toArray) (hne : is ≠ []) :
    ∃ m ∈ is, extreme name wanted ⟨[v], []⟩ h = .ok (.int m) h ∧
      ∀ j ∈ is, Ord.compare (rounded j.toInt) (rounded m.toInt) ≠ wanted := by
  obtain ⟨i, is, rfl⟩ := List.exists_cons_of_ne_nil hne
  obtain ⟨m, hm, hrun, hbest⟩ := extremeFrom_ints hwanted h i is
  refine ⟨m, hm, ?_, hbest⟩
  have hitems : (Heap.items v >>= fun items => pure items.toList) h =
      .ok ((i :: is).map .int) h := bind_ok (Heap.items_eq hv)
  change ((Heap.items v >>= fun items => pure items.toList) >>= _) h = _
  rw [bind_ok hitems]
  exact hrun

/-- Of integers up to `2 ^ 53`, `min` gives the least one and `max` the greatest one. -/
theorem extreme_of_near {name : String} {wanted : Ordering} (hwanted : wanted ≠ .eq) {v : Value}
    {h : Heap} (hv : h.items? v = some (is.map .int).toArray) (hne : is ≠ [])
    (hnear : ∀ i ∈ is, Near i) :
    ∃ m ∈ is, extreme name wanted ⟨[v], []⟩ h = .ok (.int m) h ∧
      ∀ j ∈ is, Ord.compare j.toInt m.toInt ≠ wanted := by
  obtain ⟨m, hm, hrun, hbest⟩ := extreme_ints hwanted hv hne
  refine ⟨m, hm, hrun, fun j hj => ?_⟩
  have := hbest j hj
  rwa [(hnear m hm).rounded_eq, (hnear j hj).rounded_eq] at this

end BuiltinCall

end Resumable
