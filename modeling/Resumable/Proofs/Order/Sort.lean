import Mathlib.Data.List.Pairwise
import Resumable.Machine.Call
import Resumable.Proofs.Lockstep.Comparison
import Resumable.Proofs.Obedience.Method
import Resumable.Proofs.Order.Tree
import Resumable.Proofs.StableSort

/-!
# The order of values without numbers, and sorts by it

Main statement: `Acyclic.order_total`. Where the order of two values without numbers is defined, it
is total: it can be reversed, it is transitive, and it leaves only equal values in one place. The
sort asks about the items that it is given and no others (`Sorting.exists_sort_eq`), so it puts them
into this order as soon as each two of them have one, whatever it is like elsewhere. A list is empty
while its items are compared; that changes no answer, because no item leads back to the list.
-/

namespace Resumable

/-! ## What a sort asks -/

namespace Sorting

variable {α β ε : Type}

/-- A list of one element is sorted without a question. -/
theorem sort_short (less : α → α → Except ε Bool) {as : List α} (has : as.length ≤ 1) :
    sort less as = (as, none) := by
  have hshort : as.length ≤ shortLength := has.trans (by decide)
  unfold sort sortFrom
  rw [if_pos hshort]
  match as, has with
  | [], _ => rfl
  | [_], _ => rfl

/-- A preorder of the elements of a list that leaves no two of them apart. -/
structure TotalOn (le : α → α → Bool) (as : List α) : Prop where
  total : ∀ a ∈ as, ∀ b ∈ as, (le a b || le b a) = true
  trans : ∀ a ∈ as, ∀ b ∈ as, ∀ c ∈ as, le a b = true → le b c = true → le a c = true

/-- The sort asks about the elements of its list only, so that the others need no order. -/
theorem exists_sort_eq {less : α → α → Except ε Bool} {le : α → α → Bool} {as : List α}
    (hless : ∀ a ∈ as, ∀ b ∈ as, less a b = .ok (!le b a)) (hle : TotalOn le as) :
    ∃ bs, sort less as = (bs, none) ∧ bs.Pairwise (le · ·) ∧
      ∀ a ∈ as, bs.filter (alike le a) = as.filter (alike le a) := by
  let le' (a b : { a // a ∈ as }) : Bool := le a b
  have hle' : Total le' := {
    total := fun a b => hle.total a a.2 b b.2
    trans := fun a b c => hle.trans a a.2 b b.2 c c.2 }
  have hless' : ∀ a b : { a // a ∈ as }, less a b = .ok (!le' b a) := fun a b =>
    hless a a.2 b b.2
  obtain ⟨bs, hrun, harranged⟩ := sortFrom_run hless' hle' as.attach
  have hsort := sort_map less Subtype.val as.attach
  rw [List.attach_map_subtype_val] at hsort
  have hrun : sort (fun a b : { a // a ∈ as } => less a b) as.attach = (bs, none) := hrun
  rw [hrun] at hsort
  refine ⟨bs.map Subtype.val, hsort, ?_, fun a ha => ?_⟩
  · rw [List.pairwise_map]
    exact harranged.ordered
  · have hstable := congrArg (List.map Subtype.val) (harranged.stable ⟨a, ha⟩)
    have hfilter : ∀ cs : List { a // a ∈ as },
        (cs.filter (alike le' ⟨a, ha⟩)).map Subtype.val =
          (cs.map Subtype.val).filter (alike le a) := fun cs => by
      rw [List.filter_map]
      rfl
    rw [hfilter, hfilter, List.attach_map_subtype_val] at hstable
    exact hstable

end Sorting

namespace Heap

variable {h : Heap} {u v w : Value} {o p : Ordering}

/-! ## The laws of the order -/

/-- The value is a tree. -/
def IsTree (h : Heap) (v : Value) : Prop := ∃ t, h.Shows v t

theorem compare?_ok {s t : Tree} (hv : h.Shows v s) (hw : h.Shows w t) :
    h.compare? v w = .ok o ↔ s.compare? t = some o := by
  rw [← hv.compare?_eq hw]
  cases h.compare? v w with
  | ok q =>
    change Except.ok q = .ok o ↔ some q = some o
    rw [Except.ok.injEq, Option.some.injEq]
  | error e =>
    change Except.error e = .ok o ↔ none = some o
    constructor <;> exact nofun

theorem compare?_swap (hv : h.IsTree v) (hw : h.IsTree w)
    (hvw : h.compare? v w = .ok o) : h.compare? w v = .ok o.swap := by
  obtain ⟨s, hs⟩ := hv
  obtain ⟨t, ht⟩ := hw
  rw [compare?_ok hs ht] at hvw
  rw [compare?_ok ht hs, Tree.compare?_swap s t, hvw]
  rfl

theorem compare?_eq_iff (hv : h.IsTree v) (hw : h.IsTree w)
    (hvw : h.compare? v w = .ok o) : o = .eq ↔ h.equal? v w = some true := by
  obtain ⟨s, hs⟩ := hv
  obtain ⟨t, ht⟩ := hw
  rw [compare?_ok hs ht] at hvw
  rw [hs.equal?_eq ht, Option.some.injEq, decide_eq_true_iff]
  constructor
  · rintro rfl
    exact Tree.eq_of_compare? hvw
  · rintro rfl
    rw [Tree.compare?_self hvw] at hvw
    exact (Option.some.inj hvw).symm

theorem compare?_le_trans (hu : h.IsTree u) (hv : h.IsTree v)
    (hw : h.IsTree w) (huv : h.compare? u v = .ok o) (hvw : h.compare? v w = .ok p)
    (ho : o ≠ .gt) (hp : p ≠ .gt) : ∃ q, h.compare? u w = .ok q ∧ q ≠ .gt := by
  obtain ⟨r, hr⟩ := hu
  obtain ⟨s, hs⟩ := hv
  obtain ⟨t, ht⟩ := hw
  rw [compare?_ok hr hs] at huv
  rw [compare?_ok hs ht] at hvw
  obtain ⟨q, hq, hne⟩ := Tree.compare?_le_trans huv hvw ho hp
  exact ⟨q, (compare?_ok hr ht).mpr hq, hne⟩

theorem compare?_trans (hu : h.IsTree u) (hv : h.IsTree v)
    (hw : h.IsTree w) (huv : h.compare? u v = .ok .lt) (hvw : h.compare? v w = .ok .lt) :
    h.compare? u w = .ok .lt := by
  obtain ⟨r, hr⟩ := hu
  obtain ⟨s, hs⟩ := hv
  obtain ⟨t, ht⟩ := hw
  rw [compare?_ok hr hs] at huv
  rw [compare?_ok hs ht] at hvw
  exact (compare?_ok hr ht).mpr (Tree.compare?_trans huv hvw)

/-! ## Sorted items -/

/-- Two values have an order. -/
def Comparable (h : Heap) (v w : Value) : Prop := ∃ o, h.compare? v w = .ok o

/-- An order, or the reverse of it. -/
def directed (descending : Bool) (o : Ordering) : Ordering := if descending then o.swap else o

/-- The items have been put into ascending or descending order, and equal ones have been left in
the order that they had. -/
structure Arranges (h : Heap) (descending : Bool) (items sorted : List Value) : Prop where
  perm : sorted.Perm items
  ordered : sorted.Pairwise fun v w =>
    ∃ o, h.compare? v w = .ok o ∧ directed descending o ≠ .gt
  stable : ∀ v ∈ items,
    sorted.filter (h.equal? v · = some true) = items.filter (h.equal? v · = some true)

/-- Whether a value may stand before another one. -/
def mayPrecede (h : Heap) (descending : Bool) (v w : Value) : Bool :=
  match h.compare? v w with
  | .ok o => directed descending o != .gt
  | .error _ => false

variable {descending : Bool} {items : List Value}

theorem mayPrecede_iff : h.mayPrecede descending v w = true ↔
    ∃ o, h.compare? v w = .ok o ∧ directed descending o ≠ .gt := by
  unfold mayPrecede
  cases h.compare? v w with
  | ok o => simp
  | error e => simp

theorem mayPrecede_trans (hu : h.IsTree u) (hv : h.IsTree v)
    (hw : h.IsTree w) (huv : h.mayPrecede descending u v = true)
    (hvw : h.mayPrecede descending v w = true) : h.mayPrecede descending u w = true := by
  rw [mayPrecede_iff] at huv hvw ⊢
  obtain ⟨o, huv, ho⟩ := huv
  obtain ⟨p, hvw, hp⟩ := hvw
  cases descending with
  | false => exact compare?_le_trans hu hv hw huv hvw ho hp
  | true =>
    have hvu := compare?_swap hu hv huv
    have hwv := compare?_swap hv hw hvw
    obtain ⟨q, hwu, hq⟩ := compare?_le_trans hw hv hu hwv hvu hp ho
    refine ⟨q.swap, compare?_swap hw hu hwu, ?_⟩
    rw [directed, if_pos rfl, Ordering.swap_swap]
    exact hq

theorem comesBefore_eq (hv : h.IsTree v) (hw : h.IsTree w)
    (hvw : h.Comparable v w) :
    h.comesBefore descending v w = .ok (!h.mayPrecede descending w v) := by
  obtain ⟨o, hvw⟩ := hvw
  rw [comesBefore, mayPrecede, hvw, compare?_swap hv hw hvw]
  cases descending <;> cases o <;> rfl

theorem mayPrecede_total (hv : h.IsTree v) (hw : h.IsTree w)
    (hvw : h.Comparable v w) :
    (h.mayPrecede descending v w || h.mayPrecede descending w v) = true := by
  obtain ⟨o, hvw⟩ := hvw
  rw [mayPrecede, mayPrecede, hvw, compare?_swap hv hw hvw]
  cases descending <;> cases o <;> rfl

/-- Values that may stand before each other are equal. -/
theorem alike_mayPrecede (hv : h.IsTree v) (hw : h.IsTree w)
    (hvw : h.Comparable v w) :
    Sorting.alike (h.mayPrecede descending) v w = decide (h.equal? v w = some true) := by
  obtain ⟨o, hvw⟩ := hvw
  have hequal : decide (o = .eq) = decide (h.equal? v w = some true) :=
    decide_eq_decide.mpr (compare?_eq_iff hv hw hvw)
  rw [Sorting.alike, mayPrecede, mayPrecede, hvw, compare?_swap hv hw hvw, ← hequal]
  cases descending <;> cases o <;> rfl

/-- Items of which each two have an order are sorted. -/
theorem sorted_arranges_of_forall {items : Array Value}
    (hitems : ∀ v ∈ items.toList, h.IsTree v)
    (hcomparable : ∀ v ∈ items.toList, ∀ w ∈ items.toList, h.Comparable v w) :
    ∃ sorted, h.sorted descending items = (sorted, none) ∧
      h.Arranges descending items.toList sorted.toList := by
  have hless : ∀ v ∈ items.toList, ∀ w ∈ items.toList,
      h.comesBefore descending v w = .ok (!h.mayPrecede descending w v) := fun v hv w hw =>
    comesBefore_eq (hitems v hv) (hitems w hw) (hcomparable v hv w hw)
  have hle : Sorting.TotalOn (h.mayPrecede descending) items.toList := {
    total := fun v hv w hw =>
      mayPrecede_total (hitems v hv) (hitems w hw) (hcomparable v hv w hw)
    trans := fun u hu v hv w hw => mayPrecede_trans (hitems u hu) (hitems v hv) (hitems w hw) }
  obtain ⟨sorted, hsort, hordered, hstable⟩ := Sorting.exists_sort_eq hless hle
  have hsorted : h.sorted descending items = (sorted.toArray, none) := by
    rw [Heap.sorted, hsort]
    rfl
  have hperm := h.perm_sorted descending items
  rw [hsorted] at hperm
  have hperm : sorted.Perm items.toList := hperm
  refine ⟨sorted.toArray, hsorted, hperm, hordered.imp fun hvw => mayPrecede_iff.mp hvw, ?_⟩
  intro v hv
  have hfilter : ∀ cs : List Value, (∀ w ∈ cs, w ∈ items.toList) →
      cs.filter (Sorting.alike (h.mayPrecede descending) v) =
        cs.filter (h.equal? v · = some true) := fun cs hcs =>
    List.filter_congr fun w hw => alike_mayPrecede (hitems v hv) (hitems w (hcs w hw))
      (hcomparable v hv w (hcs w hw))
  rw [← hfilter sorted fun w hw => hperm.mem_iff.mp hw, ← hfilter items.toList fun _ hw => hw]
  exact hstable v hv

/-- A value that has an order with another one has one with itself. -/
theorem Comparable.left (hv : h.IsTree v) (hw : h.IsTree w) (hvw : h.Comparable v w) :
    h.Comparable v v := by
  obtain ⟨s, hs⟩ := hv
  obtain ⟨t, ht⟩ := hw
  obtain ⟨o, ho⟩ := hvw
  rw [compare?_ok hs ht] at ho
  exact ⟨.eq, (compare?_ok hs hs).mpr (Tree.compare?_self ho)⟩

theorem Comparable.symm (hv : h.IsTree v) (hw : h.IsTree w) (hvw : h.Comparable v w) :
    h.Comparable w v := by
  obtain ⟨o, ho⟩ := hvw
  exact ⟨o.swap, compare?_swap hv hw ho⟩

/-- Where two items have an order that stand in different places, all do. -/
theorem comparable_of_pairwise (hitems : ∀ u ∈ v :: w :: items, h.IsTree u)
    (hpairwise : (v :: w :: items).Pairwise h.Comparable) :
    ∀ u ∈ v :: w :: items, ∀ u' ∈ v :: w :: items, h.Comparable u u' := by
  have hv := hitems v List.mem_cons_self
  have hfirst := (List.pairwise_cons.mp hpairwise).1
  have hself : ∀ u ∈ v :: w :: items, h.Comparable u u := by
    intro u hu
    rcases List.mem_cons.mp hu with rfl | hmem
    · exact (hfirst w List.mem_cons_self).left hv (hitems w (by simp))
    · exact ((hfirst u hmem).symm hv (hitems u hu)).left (hitems u hu) hv
  refine List.Pairwise.forall_of_forall_of_flip hself hpairwise ?_
  exact hpairwise.imp_of_mem fun hu hu' hcomparable =>
    hcomparable.symm (hitems _ hu) (hitems _ hu')

/-- Items that have an order with each other are sorted. A single one is not compared with
itself. -/
theorem sorted_arranges {items : Array Value} (hitems : ∀ v ∈ items.toList, h.IsTree v)
    (hpairwise : items.toList.Pairwise h.Comparable) :
    ∃ sorted, h.sorted descending items = (sorted, none) ∧
      h.Arranges descending items.toList sorted.toList := by
  by_cases hshort : items.toList.length ≤ 1
  · refine ⟨items, ?_, .refl _, ?_, fun _ _ => rfl⟩
    · rw [Heap.sorted, Sorting.sort_short _ hshort]
      rfl
    · generalize items.toList = vs at hshort
      cases vs with
      | nil => exact .nil
      | cons v rest =>
        rw [List.eq_nil_of_length_eq_zero (Nat.le_zero.mp (Nat.le_of_succ_le_succ hshort))]
        exact List.pairwise_singleton _ v
  · refine sorted_arranges_of_forall hitems ?_
    generalize items.toList = vs at hshort hitems hpairwise
    cases vs with
    | nil => exact (hshort (Nat.zero_le 1)).elim
    | cons v rest =>
      cases rest with
      | nil => exact (hshort (Nat.le_refl 1)).elim
      | cons w rest => exact comparable_of_pairwise hitems hpairwise

end Heap

/-! ## Calls -/

/-- Arguments that may say whether to sort in descending order. -/
def Arguments.reversing (positional : List Value) (reverse : Option Value) : Arguments :=
  ⟨positional, reverse.toList.map fun v => ("reverse", v)⟩

theorem Arguments.take_reversing (positional : List Value) (reverse : Option Value) :
    (reversing positional reverse).take "reverse" = (reverse, ⟨positional, []⟩) := by
  cases reverse with
  | none => rfl
  | some v => rfl

namespace Heap

open Arguments

variable {h : Heap} {items sorted : Array Value} {reverse : Option Value}

/-- What is sorted becomes a new list. -/
theorem call_sorted_eq {iterable : Value} (hitems : h.items? iterable = some items)
    (hsorted : h.sorted (reverse.any h.isTruthy) items = (sorted, none)) :
    BuiltinCall.call .sorted (reversing [iterable] reverse) h =
      (Reply.value <$> allocList sorted : Action Reply) h := by
  have hiterable : Heap.items iterable h = .ok items h := by
    unfold Heap.items
    rw [get_bind, hitems]
    rfl
  have hcall : BuiltinCall.sorted (reversing [iterable] reverse) h = allocList sorted h := by
    unfold BuiltinCall.sorted
    rw [take_reversing]
    change (Heap.items iterable >>= _) h = _
    rw [bind_ok hiterable, get_bind, hsorted]
  change (Reply.value <$> BuiltinCall.sorted (reversing [iterable] reverse)) h = _
  rw [map_eq_pure_bind, map_eq_pure_bind]
  cases halloc : allocList sorted h with
  | ok v k => rw [bind_ok halloc, bind_ok (hcall.trans halloc)]
  | error e k => rw [bind_error halloc, bind_error (hcall.trans halloc)]

/-- While the items of a list are compared, the list is empty. -/
def emptied (h : Heap) (id : Nat) : Heap := h.alter id (·.map (Cell.onList fun _ => #[]))

/-- What is sorted in place becomes the list. -/
theorem call_sort_eq {id : Nat} (hcell : h.cell? id = some (.list items))
    (hsorted : (h.emptied id).sorted (reverse.any h.isTruthy) items = (sorted, none)) :
    ∃ act, Machine.pureMethod h (.ref id) "sort" (reversing [] reverse) = some act ∧
      act h = .ok .none (h.alter id (·.map (Cell.onList fun _ => sorted))) := by
  have hmethod : Machine.pureMethod h (.ref id) "sort" (reversing [] reverse) =
      ListMethod.call id "sort" (reversing [] reverse) := by
    simp only [Machine.pureMethod, hcell]
  have hsort : ListMethod.sort id (reverse.any h.isTruthy) h =
      .ok .none (h.alter id (·.map (Cell.onList fun _ => sorted))) := by
    rw [ListMethod.sort_eq, bind_ok (ListMethod.itemsOf_eq id hcell)]
    change (do
      let h ← get
      modifyList id fun _ => (h.sorted (reverse.any _) items).1
      (h.sorted (reverse.any _) items).2.elim (pure Value.none) throw : Action Value)
        (h.emptied id) = _
    rw [get_bind, hsorted]
    have hback : (h.emptied id).alter id (·.map (Cell.onList fun _ => sorted)) =
        h.alter id (·.map (Cell.onList fun _ => sorted)) := by
      rw [emptied, alter_alter]
      congr 1
      funext s
      exact congrArg (Slot.mk · s.charged) (s.cell.onList_onList _ _)
    rw [← hback]
    rfl
  refine ⟨_, hmethod, ?_⟩
  rw [take_reversing]
  exact hsort

/-- Two heaps say the same about the order and the equality of two values. -/
structure Agree (h k : Heap) (v w : Value) : Prop where
  order : ∀ o, h.compare? v w = .ok o ↔ k.compare? v w = .ok o
  equality : h.equal? v w = k.equal? v w

theorem agree_of_shows {k : Heap} {v w : Value} {s t : Tree} (hv : h.Shows v s)
    (hw : h.Shows w t) (hv' : k.Shows v s) (hw' : k.Shows w t) : h.Agree k v w where
  order _ := (compare?_ok hv hw).trans (compare?_ok hv' hw').symm
  equality := (hv.equal?_eq hw).trans (hv'.equal?_eq hw').symm

theorem Arranges.congr {k : Heap} {descending : Bool} {items sorted : List Value}
    (hagree : ∀ v ∈ items, ∀ w ∈ items, h.Agree k v w)
    (harranges : k.Arranges descending items sorted) : h.Arranges descending items sorted where
  perm := harranges.perm
  ordered := by
    refine harranges.ordered.imp_of_mem fun hv hw hvw => ?_
    obtain ⟨o, ho, hne⟩ := hvw
    have hsame := hagree _ (harranges.perm.mem_iff.mp hv) _ (harranges.perm.mem_iff.mp hw)
    exact ⟨o, (hsame.order o).mpr ho, hne⟩
  stable v hv := by
    have hfilter : ∀ ws : List Value, (∀ w ∈ ws, w ∈ items) →
        ws.filter (h.equal? v · = some true) = ws.filter (k.equal? v · = some true) :=
      fun ws hws => List.filter_congr fun w hw => by rw [(hagree v hv w (hws w hw)).equality]
    rw [hfilter sorted fun w hw => harranges.perm.mem_iff.mp hw, hfilter items fun _ hw => hw]
    exact harranges.stable v hv

/-! ## The order -/

/-- The order of values that are built without numbers, where it says something, and what sorts
make of it. -/
structure Ordered (h : Heap) : Prop where
  swap : ∀ {v w o}, h.Numberless v → h.Numberless w → h.compare? v w = .ok o →
    h.compare? w v = .ok o.swap
  trans : ∀ {u v w}, h.Numberless u → h.Numberless v → h.Numberless w →
    h.compare? u v = .ok .lt → h.compare? v w = .ok .lt → h.compare? u w = .ok .lt
  eq_iff : ∀ {v w o}, h.Numberless v → h.Numberless w → h.compare? v w = .ok o →
    (o = .eq ↔ h.equal? v w = some true)
  /-- `sorted` makes a new list of the items in order. -/
  sorted : ∀ {iterable : Value} {items : Array Value} (reverse : Option Value),
    h.items? iterable = some items → (∀ v ∈ items.toList, h.Numberless v) →
    items.toList.Pairwise h.Comparable →
    ∃ sorted : Array Value, h.Arranges (reverse.any h.isTruthy) items.toList sorted.toList ∧
      BuiltinCall.call .sorted (reversing [iterable] reverse) h =
        (Reply.value <$> allocList sorted : Action Reply) h
  /-- `sort` puts the items of its list in order. -/
  sort : ∀ {id : Nat} {items : Array Value} (reverse : Option Value),
    h.cell? id = some (.list items) → (∀ v ∈ items.toList, h.Numberless v) →
    items.toList.Pairwise h.Comparable →
    ∃ sorted : Array Value, h.Arranges (reverse.any h.isTruthy) items.toList sorted.toList ∧
      ∃ act, Machine.pureMethod h (.ref id) "sort" (reversing [] reverse) = some act ∧
        act h = .ok .none (h.alter id (·.map (Cell.onList fun _ => sorted)))

/-- In a heap without cycles, the order of values that are built without numbers is total wherever
it is defined, and sorts put items into it. -/
theorem Acyclic.order_total (hh : h.Acyclic) : h.Ordered where
  swap hv hw := compare?_swap (hv.shows hh) (hw.shows hh)
  trans hu hv hw := compare?_trans (hu.shows hh) (hv.shows hh) (hw.shows hh)
  eq_iff hv hw := compare?_eq_iff (hv.shows hh) (hw.shows hh)
  sorted reverse hiterable hitems hpairwise := by
    obtain ⟨sorted, hsorted, harranges⟩ :=
      sorted_arranges (fun v hv => (hitems v hv).shows hh) hpairwise
    exact ⟨sorted, harranges, call_sorted_eq hiterable hsorted⟩
  sort {id items} reverse hcell hitems hpairwise := by
    have hshows : ∀ v ∈ items.toList, ∃ t, h.Shows v t ∧ (h.emptied id).Shows v t := by
      intro v hv
      obtain ⟨t, ht⟩ := (hitems v hv).shows hh
      exact ⟨t, ht, ht.alter (hh.not_reaches hcell hv)⟩
    have hagree : ∀ v ∈ items.toList, ∀ w ∈ items.toList, h.Agree (h.emptied id) v w := by
      intro v hv w hw
      obtain ⟨s, hs, hs'⟩ := hshows v hv
      obtain ⟨t, ht, ht'⟩ := hshows w hw
      exact agree_of_shows hs ht hs' ht'
    have htrees : ∀ v ∈ items.toList, (h.emptied id).IsTree v := by
      intro v hv
      obtain ⟨t, -, ht⟩ := hshows v hv
      exact ⟨t, ht⟩
    have hcomparable : items.toList.Pairwise (h.emptied id).Comparable := by
      refine hpairwise.imp_of_mem fun hv hw hvw => ?_
      obtain ⟨o, ho⟩ := hvw
      exact ⟨o, ((hagree _ hv _ hw).order o).mp ho⟩
    obtain ⟨sorted, hsorted, harranges⟩ := sorted_arranges htrees hcomparable
    exact ⟨sorted, harranges.congr hagree, call_sort_eq hcell hsorted⟩

/-- A heap of a list of `None` and of an empty list. -/
def noneAndEmpty : Heap :=
  let slot (c : Cell) : Slot := ⟨c, c.bytes⟩
  { Heap.ofBudget .free with slots := #[some (slot (.list #[.none])), some (slot (.list #[]))] }

theorem noneAndEmpty_cells {x : Nat} {c : Cell} (hcell : noneAndEmpty.cell? x = some c) :
    ∃ items, c = .list items ∧ ∀ v ∈ items.toList, v = .none := by
  match x, hcell with
  | 0, hcell =>
    cases hcell
    exact ⟨_, rfl, fun v hv => List.mem_singleton.mp hv⟩
  | 1, hcell =>
    cases hcell
    exact ⟨_, rfl, nofun⟩
  | _ + 2, hcell => cases hcell

theorem noneAndEmpty_not_refers (x y : Nat) : ¬ noneAndEmpty.Refers x y := by
  rintro ⟨c, hcell, hc⟩
  obtain ⟨items, rfl, hitems⟩ := noneAndEmpty_cells hcell
  cases hc with
  | item hv hy =>
    rw [hitems _ hv] at hy
    cases hy

theorem noneAndEmpty_acyclic : noneAndEmpty.Acyclic := by
  intro x hx
  obtain ⟨y, hxy, -⟩ := Relation.TransGen.head'_iff.mp hx
  exact noneAndEmpty_not_refers x y hxy

theorem noneAndEmpty_numberless {x : Nat} {c : Cell} (hcell : noneAndEmpty.cell? x = some c) :
    noneAndEmpty.Numberless (.ref x) where
  value := .ref x
  list y hy := by
    cases hy with
    | held hv hy =>
      subst hv
      cases hy
      obtain ⟨items, rfl, hitems⟩ := noneAndEmpty_cells hcell
      refine ⟨items, hcell, fun v hv => ?_⟩
      rw [hitems v hv]
      exact .none
    | through _ hc hy => exact (noneAndEmpty_not_refers _ y ⟨_, hc, hy⟩).elim

/-- The empty list comes before the other one, although `None` has no order. -/
theorem order_total_noneAndEmpty :
    noneAndEmpty.Acyclic ∧
      ∃ sorted, noneAndEmpty.Arranges false [.ref 0, .ref 1] sorted ∧
        BuiltinCall.call .sorted (reversing [.tuple [.ref 0, .ref 1]] none) noneAndEmpty =
          (Reply.value <$> allocList sorted.toArray : Action Reply) noneAndEmpty := by
  have hpairwise : [Value.ref 0, .ref 1].Pairwise noneAndEmpty.Comparable := by
    refine .cons (fun w hw => ?_) (List.pairwise_singleton _ _)
    rw [List.mem_singleton.mp hw]
    exact ⟨.gt, rfl⟩
  have hitems : ∀ v ∈ [Value.ref 0, .ref 1], noneAndEmpty.Numberless v := by
    intro v hv
    rcases List.mem_cons.mp hv with rfl | hv
    · exact noneAndEmpty_numberless rfl
    · rw [List.mem_singleton.mp hv]
      exact noneAndEmpty_numberless rfl
  have hiterable : noneAndEmpty.items? (.tuple [.ref 0, .ref 1]) = some #[.ref 0, .ref 1] := rfl
  obtain ⟨sorted, harranges, hcall⟩ :=
    (Acyclic.order_total noneAndEmpty_acyclic).sorted none hiterable hitems hpairwise
  exact ⟨noneAndEmpty_acyclic, sorted.toList, harranges, hcall⟩

end Heap

end Resumable
