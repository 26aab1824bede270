import Resumable.Operation.Builtins
import Resumable.Proofs.Obedience.Operation

/-!
# Methods of containers and builtin functions obey their budget

A sort takes the items out of its list and puts as many back. Where a comparison fails, the order of
the items is left open: all that is used of it is `Sorting.Leaves`. A new key of a dict is charged
after it has been put in; a refusal then ends the call as any other.
-/

namespace Resumable

/-! ## Sorts and sizes -/

namespace Sorting

variable {α β γ ε : Type}

section
variable (less : α → α → Except ε Bool) (items : List α)

/-- A comparison of two items fails in this way. -/
def Fails (e : ε) : Prop := ∃ a ∈ items, ∃ b ∈ items, less a b = .error e

/-- Whether comparisons fail or not, the result has a property, and a failure that was not there
before is one of a comparison of items. -/
def Gives (x : Attempt ε β) (P : β → Prop) : Prop :=
  ∀ failed, P (x.run failed).1 ∧ ∀ e ∈ (x.run failed).2, e ∈ failed ∨ Fails less items e

/-- What may be relied on where a comparison fails: the items are in some order, and the failure is
that of a comparison of two of them. -/
structure Leaves (result : List α × Option ε) : Prop where
  perm : result.1.Perm items
  failed : ∀ e ∈ result.2, Fails less items e

end

variable {less : α → α → Except ε Bool} {items : List α} {a b : α} {as bs done : List α}

theorem Gives.ret {P : β → Prop} {b : β} (h : P b) :
    Gives less items (pure b : Attempt ε β) P := fun _ => ⟨h, fun _ he => .inl he⟩

theorem Gives.bind {P : β → Prop} {Q : γ → Prop} {x : Attempt ε β} {f : β → Attempt ε γ}
    (h : Gives less items x P) (hf : ∀ b, P b → Gives less items (f b) Q) :
    Gives less items (x >>= f) Q := by
  intro failed
  obtain ⟨hb, hfails⟩ := h failed
  obtain ⟨hc, hfails'⟩ := hf _ hb (x.run failed).2
  exact ⟨hc, fun e he => (hfails' e he).elim (hfails e) .inr⟩

theorem Gives.mono {P Q : β → Prop} {x : Attempt ε β} (h : Gives less items x P)
    (hPQ : ∀ b, P b → Q b) : Gives less items x Q := fun failed =>
  ⟨hPQ _ (h failed).1, (h failed).2⟩

theorem ask_gives (ha : a ∈ items) (hb : b ∈ items) :
    Gives less items (ask less a b) fun _ => True := by
  refine fun failed => ⟨trivial, fun e he => ?_⟩
  cases failed with
  | some first => exact .inl he
  | none =>
    cases hless : less a b with
    | ok answer =>
      have hrun : (ask less a b).run none = (answer, none) := by simp only [ask, hless]; rfl
      rw [hrun] at he
      cases he
    | error first =>
      have hrun : (ask less a b).run none = (false, some first) := by simp only [ask, hless]; rfl
      rw [hrun] at he
      cases he
      exact .inr ⟨a, ha, b, hb, hless⟩

theorem insert_gives (ha : a ∈ items) (has : as ⊆ items) :
    Gives less items (insert less a as) fun bs => bs.Perm (a :: as) := by
  induction as with
  | nil => exact .ret (.refl [a])
  | cons b rest ih =>
    obtain ⟨hb, hrest⟩ := List.cons_subset.mp has
    refine (ask_gives ha hb).bind fun answer _ => ?_
    cases answer with
    | true => exact (ih hrest).bind fun bs hbs => .ret ((hbs.cons b).trans (.swap a b rest))
    | false => exact .ret (.refl _)

theorem insertAll_gives (hdone : done ⊆ items) (has : as ⊆ items) :
    Gives less items (insertAll less done as) fun bs => bs.Perm (done ++ as) := by
  induction as generalizing done with
  | nil =>
    rw [List.append_nil]
    exact .ret (List.reverse_perm done)
  | cons a rest ih =>
    obtain ⟨ha, hrest⟩ := List.cons_subset.mp has
    refine (insert_gives ha hdone).bind fun bs hbs => ?_
    have hbs' : bs ⊆ items := List.Subset.trans hbs.subset (List.cons_subset.mpr ⟨ha, hdone⟩)
    exact (ih hbs' hrest).mono fun cs hcs =>
      hcs.trans ((hbs.append_right rest).trans List.perm_middle.symm)

theorem merge_gives (has : as ⊆ items) (hbs : bs ⊆ items) :
    Gives less items (merge less done as bs) fun cs => cs.Perm (done ++ as ++ bs) := by
  induction done, as, bs using merge.induct with
  | case1 done bs =>
    rw [merge, List.append_nil]
    exact .ret ((List.reverse_perm done).append_right bs)
  | case2 done as hne =>
    cases as with
    | nil => exact (hne rfl).elim
    | cons a as =>
      rw [merge, List.append_nil]
      · exact .ret ((List.reverse_perm done).append_right (a :: as))
      · simp
  | case3 done a as b bs ih ih' =>
    rw [merge]
    obtain ⟨ha, has'⟩ := List.cons_subset.mp has
    obtain ⟨hb, hbs'⟩ := List.cons_subset.mp hbs
    refine (ask_gives hb ha).bind fun answer _ => ?_
    cases answer with
    | true => exact (ih has hbs').mono fun cs hcs => hcs.trans List.perm_middle.symm
    | false =>
      exact (ih' has' hbs).mono fun cs hcs =>
        hcs.trans (List.perm_middle.append_right (b :: bs)).symm

theorem sortFrom_gives (has : as ⊆ items) :
    Gives less items (sortFrom less as) fun bs => bs.Perm as := by
  induction as using sortFrom.induct with
  | case1 as hshort =>
    unfold sortFrom
    rw [if_pos hshort]
    exact insertAll_gives (List.nil_subset _) has
  | case2 as hlong ih ih' =>
    unfold sortFrom
    rw [if_neg hlong]
    have htake := List.Subset.trans (List.take_subset (as.length / 2) as) has
    have hdrop := List.Subset.trans (List.drop_subset (as.length / 2) as) has
    refine (ih htake).bind fun left hleft => (ih' hdrop).bind fun right hright => ?_
    have hmerge : Gives less items (merge less [] left right) _ :=
      merge_gives (List.Subset.trans hleft.subset htake) (List.Subset.trans hright.subset hdrop)
    refine hmerge.mono fun cs hcs => ?_
    have hhalves := List.take_append_drop (as.length / 2) as
    exact hhalves ▸ hcs.trans (hleft.append hright)

theorem sort_leaves (less : α → α → Except ε Bool) (as : List α) :
    Leaves less as (sort less as) := by
  have hgives : Gives less as (sortFrom less as) _ := sortFrom_gives (List.Subset.refl as)
  obtain ⟨hperm, hfailed⟩ := hgives none
  exact ⟨hperm, fun e he => (hfailed e he).resolve_left nofun⟩

end Sorting

/-- Where comparisons fail, the items still are all there. -/
theorem Heap.perm_sorted (h : Heap) (descending : Bool) (items : Array Value) :
    (h.sorted descending items).1.toList.Perm items.toList :=
  (Sorting.sort_leaves (h.comesBefore descending) items.toList).perm

theorem Heap.size_sorted (h : Heap) (descending : Bool) (items : Array Value) :
    (h.sorted descending items).1.size = items.size :=
  (h.perm_sorted descending items).length_eq

theorem Array.size_insertIdxIfInBounds_le {α : Type} (items : Array α) (i : Nat) (item : α) :
    (items.insertIdxIfInBounds i item).size ≤ items.size + 1 := by
  unfold Array.insertIdxIfInBounds
  split
  · exact Nat.le_of_eq (Array.size_insertIdx _)
  · exact Nat.le_succ _

theorem Array.size_eraseIdxIfInBounds_le {α : Type} (items : Array α) (i : Nat) :
    (items.eraseIdxIfInBounds i).size ≤ items.size := by
  unfold Array.eraseIdxIfInBounds
  split
  · exact (Nat.le_of_eq (Array.size_eraseIdx _ _)).trans (Nat.sub_le _ _)
  · exact Nat.le_refl _

theorem Heap.isOwn_of_sorted {h : Heap} {descending : Bool} {items : Array Value} {e : Failure}
    (he : (h.sorted descending items).2 = some e) : e.IsOwn := by
  obtain ⟨e, -, rfl⟩ := Option.map_eq_some_iff.mp he
  exact isOwn_unordered h e

namespace Dict

theorem size_insert (d : Dict) (key : Key) (name value : Value) :
    (d.insert key name value).size = if d.contains key then d.size else d.size + 1 := by
  unfold insert contains
  cases d.find? key with
  | none => exact Array.size_push _
  | some i => exact Array.size_modify

theorem size_insert_le (d : Dict) (key : Key) (name value : Value) :
    (d.insert key name value).size ≤ d.size + 1 := by
  rw [size_insert]
  split <;> omega

theorem size_erase_le (d : Dict) (key : Key) : (d.erase key).size ≤ d.size := by
  unfold erase
  cases d.find? key with
  | none => exact Nat.le_refl _
  | some i => exact Array.size_eraseIdxIfInBounds_le d.entries i

end Dict

open Heap Arguments

/-! ## Lists -/

namespace ListMethod

variable (id : Nat)

/-- The items of the list in a slot; none if there is no list. -/
def itemsAt (h : Heap) : Array Value :=
  match h.cell? id with
  | some (.list items) => items
  | _ => #[]

theorem itemsOf_course (h : Heap) : Course h (itemsOf id) [] (.ok (itemsAt id h) h) := by
  refine Course.read (fun _ => rfl) ?_
  unfold itemsAt
  cases h.cell? id with
  | none => exact .ret h _
  | some c => cases c <;> exact .ret h _

theorem itemsOf_eq {h : Heap} {items : Array Value} (hcell : h.cell? id = some (.list items)) :
    itemsOf id h = .ok items h := by
  have hitems : itemsOf id h = .ok (itemsAt id h) h :=
    (itemsOf_course id h).granted (b := h.budget) rfl
  rw [hitems, itemsAt, hcell]

theorem itemsOf_plain : Plain (itemsOf id) := by
  refine .read (fun _ _ => rfl) fun h => ?_
  cases h.cell? id with
  | none => exact .ret _
  | some c => cases c <;> exact .ret _

theorem extend_obedient (iterable : Value) : ObedientOn id (extend id iterable) := by
  refine .bind (.of (items_plain iterable).obedient) fun more => ?_
  rw [← bind_assoc]
  exact (addAll_obedient id more).bind fun _ => .ret Value.none

theorem insert_obedient (index item : Value) : ObedientOn id (insert id index item) := by
  unfold insert
  split
  · rw [← bind_assoc]
    refine (addOne_obedient id fun items => ?_).bind fun _ => .ret Value.none
    exact Array.size_insertIdxIfInBounds_le _ _ _
  · exact .of (.refuse (fun _ _ => rfl) fun _ => rfl)

theorem popPosition_plain (size : Nat) (index : Option Value) :
    Plain (popPosition size index) := by
  unfold popPosition
  split
  · exact .ret _
  · exact .ret _
  · exact .fail rfl

theorem erase_obedient (i : Nat) : Obedient (modifyList id (·.eraseIdxIfInBounds i)) :=
  modifyList_obedient id fun items => Array.size_eraseIdxIfInBounds_le items i

theorem pop_obedient (index : Option Value) : Obedient (pop id index) := by
  refine (itemsOf_plain id).obedient.bind fun items => .fork (fun _ => .fail rfl) fun _ => ?_
  refine (popPosition_plain _ _).obedient.bind fun i => .fork (fun _ => .fail rfl) fun _ => ?_
  split
  · exact .fail rfl
  · exact (erase_obedient id _).bind fun _ => .ret _

theorem positionOf_plain (needle : Value) (index : Nat) (vs : List Value) :
    Plain (positionOf needle index vs) := by
  induction vs generalizing index with
  | nil => exact .ret _
  | cons v vs ih =>
    exact (equal_plain v needle).bind fun _ => .fork (fun _ => .ret _) fun _ => ih _

theorem countOf_plain (needle : Value) (found : Nat) (vs : List Value) :
    Plain (countOf needle found vs) := by
  induction vs generalizing found with
  | nil => exact .ret _
  | cons v vs ih => exact (equal_plain v needle).bind fun _ => ih _

theorem sort_eq (descending : Bool) : sort id descending = (do
    let items ← itemsOf id
    modifyList id fun _ => #[]
    let h ← get
    modifyList id fun _ => (h.sorted descending items).1
    (h.sorted descending items).2.elim (pure Value.none) throw) := by
  refine bind_congr fun items => bind_congr fun _ => bind_congr fun h => ?_
  generalize h.sorted descending items = outcome
  obtain ⟨sorted, failed⟩ := outcome
  exact bind_congr fun _ => by cases failed <;> rfl

/-- The items are taken out, and put back in order. -/
theorem sort_obedient (descending : Bool) : Obedient (sort id descending) := by
  intro h
  rw [sort_eq]
  have hout := modifyList_notes id (fun _ => #[]) h
  generalize hi : h.alter id _ = i at hout
  have hback := modifyList_notes id (fun _ => (i.sorted descending (itemsAt id h)).1) i
  generalize hk : i.alter id _ = k at hback
  have hend : ∃ r, Notes k ((i.sorted descending (itemsAt id h)).2.elim (pure Value.none)
      throw : Action Value) [] r ∧ endState r = k ∧ EndsOwn r := by
    cases hfailed : (i.sorted descending (itemsAt id h)).2 with
    | none => exact ⟨_, .of_silent (.ret k _) (.refl k), rfl, trivial⟩
    | some e =>
      have he := isOwn_of_sorted hfailed
      exact ⟨_, .of_silent (.fail k he.ne_overrun) (.refl k), rfl, fun _ => he⟩
  obtain ⟨r, hr, hrk, hown⟩ := hend
  have hitems : Notes h (itemsOf id) [] (.ok (itemsAt id h) h) :=
    .of_silent (itemsOf_course id h) (.refl h)
  rw [← hk, ← hi, alter_alter] at hrk
  refine pays_alter (n := 0) (hitems.bind (hout.bind (.read (fun b => ?_) (hback.bind hr)))) hrk
    rfl rfl (fun s hs => ?_) (fun _ => rfl) hown
  · simp only [sorted_under, Funded.under]
  · change s.cell.Gains 0 ((s.cell.onList _).onList _)
    rw [Cell.onList_onList]
    refine s.cell.gains_onList fun items hcell => ?_
    rw [Function.comp, size_sorted, itemsAt, cell?_eq_slot?, hs, Option.map_some, hcell]
    exact Nat.le_refl _

theorem call_obedient {h : Heap} (hid : (h.cell? id).isSome) (name : String) (args : Arguments) :
    ObedientMethod h (call id name args) := by
  unfold call
  split
  · refine .on hid (.bind (.of (one_plain args _).obedient) fun item => ?_)
    rw [← bind_assoc]
    exact (addOne_obedient id fun items => Nat.le_of_eq (Array.size_push item)).bind
      fun _ => .ret Value.none
  · exact .on hid (.bind (.of (one_plain args _).obedient) fun _ => extend_obedient id _)
  · exact .on hid (.bind (.of (two_plain args _).obedient) fun _ => insert_obedient id _ _)
  · exact .of ((atMostOne_plain args _).obedient.bind fun _ => pop_obedient id _)
  · refine .plain ((one_plain args _).bind fun needle => (itemsOf_plain id).bind fun _ => ?_)
    refine (positionOf_plain _ _ _).bind fun p => ?_
    split
    · exact .ret _
    · refine .refuse (fun h b => ?_) fun _ => rfl
      exact congrArg (fun s => Failure.valueError (s ++ " is not in list"))
        (literal_under h b needle)
  · refine .plain ((one_plain args _).bind fun _ => (itemsOf_plain id).bind fun _ => ?_)
    exact (countOf_plain _ _ _).bind fun _ => .ret _
  · refine .of ((one_plain args _).obedient.bind fun needle => ?_)
    refine (itemsOf_plain id).obedient.bind fun _ => ?_
    refine (positionOf_plain _ _ _).obedient.bind fun p => ?_
    split
    · exact (erase_obedient id _).bind fun _ => .ret _
    · exact .fail rfl
  · refine .plain ((nothing_plain args _).bind fun _ => ?_)
    exact (itemsOf_plain id).bind fun _ => allocList_plain _
  · refine .of ((nothing_plain args _).obedient.bind fun _ => ?_)
    refine (modifyList_obedient id fun items => ?_).bind fun _ => .ret _
    exact Nat.le_of_eq Array.size_reverse
  · refine .of ((nothing_plain args _).obedient.bind fun _ => ?_)
    exact (modifyList_obedient id fun _ => Nat.zero_le _).bind fun _ => .ret _
  · refine .of (.read (fun _ _ => rfl) fun h => .fork (fun _ => .fail rfl) fun _ => ?_)
    exact (nothing_plain _ _).obedient.bind fun _ => sort_obedient id _
  · exact .none

end ListMethod

/-! ## Dicts -/

/-- A dict that gets one more entry, which has been charged. -/
theorem Heap.addEntry_obedient (id : Nat) (key : Key) (name value : Value) :
    ObedientOn id (do chargeInsert id; modifyDict id (·.insert key name value)) := fun h hid => by
  have hnotes := (chargeInsert_notes hid).bind
    (f := fun _ => modifyDict id (·.insert key name value)) (modifyDict_notes id _ _)
  rw [alter_alter] at hnotes
  exact pays_alter (n := 1) hnotes rfl rfl rfl
    (fun s _ => s.cell.gains_onDict fun d _ => d.size_insert_le key name value) (fun _ => rfl)
    trivial

/-- A dict that gets an entry, which is charged afterwards if its key is new. -/
theorem Heap.putEntry_obedient {id : Nat} {d : Dict} {h : Heap} (hid : (h.cell? id).isSome)
    (hd : ∀ e, h.cell? id = some (.dict e) → e = d) (key : Key) (name value : Value) :
    ObedientAt h (do
      modifyDict id (·.insert key name value)
      if !d.contains key then chargeInsert id) := by
  have hput := modifyDict_notes id (·.insert key name value) h
  cases hnew : d.contains key with
  | true =>
    refine pays_alter (n := 0) (hput.bind (f := fun _ => pure ())
      (.of_silent (.ret _ ()) (.refl _))) rfl rfl rfl (fun s hs => ?_) (fun _ => rfl) trivial
    refine s.cell.gains_onDict fun e he => ?_
    rw [cell?_eq_slot?, hs] at hd
    rw [Dict.size_insert, hd e (congrArg some he), hnew]
    exact Nat.le_refl _
  | false =>
    have hnotes := hput.bind (f := fun _ => chargeInsert id)
      (chargeInsert_notes (hput.noted.inUse id hid))
    rw [alter_alter] at hnotes
    exact pays_alter (n := 1) hnotes rfl rfl rfl
      (fun s _ => s.cell.gains_onDict fun e _ => e.size_insert_le key name value) (fun _ => rfl)
      trivial

namespace DictMethod

variable (id : Nat)

/-- The dict in a slot; an empty one if there is none. -/
def dictAt (h : Heap) : Dict :=
  match h.cell? id with
  | some (.dict d) => d
  | _ => .empty

theorem dictOf_course (h : Heap) : Course h (dictOf id) [] (.ok (dictAt id h) h) := by
  refine Course.read (fun _ => rfl) ?_
  unfold dictAt
  cases h.cell? id with
  | none => exact .ret h _
  | some c => cases c <;> exact .ret h _

theorem dictOf_eq {h : Heap} {d : Dict} (hcell : h.cell? id = some (.dict d)) :
    dictOf id h = .ok d h := by
  have hdict : dictOf id h = .ok (dictAt id h) h :=
    (dictOf_course id h).granted (b := h.budget) rfl
  rw [hdict, dictAt, hcell]

theorem dictOf_plain : Plain (dictOf id) := by
  refine .read (fun _ _ => rfl) fun h => ?_
  cases h.cell? id with
  | none => exact .ret _
  | some c => cases c <;> exact .ret _

theorem pairOf_plain (index : Nat) (item : Value) : Plain (pairOf index item) := by
  refine (items_plain item).bind fun parts => ?_
  split
  · exact .ret _
  · exact .fail rfl

theorem pairsOf_plain (done : List (Value × Value)) (index : Nat) (vs : List Value) :
    Plain (pairsOf done index vs) := by
  induction vs generalizing done index with
  | nil => exact .ret _
  | cons v vs ih => exact (pairOf_plain index v).bind fun _ => ih _ _

theorem entriesOf_plain (source : Value) : Plain (entriesOf source) := by
  have pairs : Plain (do pairsOf [] 0 (← Heap.items source).toList) :=
    (items_plain source).bind fun _ => pairsOf_plain _ _ _
  cases source with
  | ref id =>
    refine .read (fun _ _ => rfl) fun h => ?_
    split
    · exact .ret _
    · exact pairs
  | _ => exact pairs

theorem entriesOfCall_plain (function : String) (args : Arguments) :
    Plain (entriesOfCall function args) := by
  unfold entriesOfCall
  split
  · exact .ret _
  · exact (entriesOf_plain _).bind fun _ => .ret _
  · exact .fail rfl

theorem put_obedient (name value : Value) : ObedientOn id (put id name value) := by
  refine .bind (.of (key_plain name).obedient) fun key h hid => ?_
  have hdict : Pays h (dictOf id) [] (.ok (dictAt id h) h) :=
    .of_idle (dictOf_course id h) rfl trivial
  obtain ⟨qs, r, hput⟩ := putEntry_obedient (d := dictAt id h) hid (fun e he => by rw [dictAt, he])
    key name value
  exact ⟨_, r, hdict.bind hput⟩

theorem call_obedient {h : Heap} (hid : (h.cell? id).isSome) (name : String) (args : Arguments) :
    ObedientMethod h (call id name args) := by
  unfold call
  split
  · refine .plain ((oneOrTwo_plain args _).bind fun _ => (key_plain _).bind fun _ => ?_)
    exact (dictOf_plain id).bind fun _ => .ret _
  · refine .plain ((nothing_plain args _).bind fun _ => ?_)
    exact (dictOf_plain id).bind fun _ => allocList_plain _
  · refine .plain ((nothing_plain args _).bind fun _ => ?_)
    exact (dictOf_plain id).bind fun _ => allocList_plain _
  · refine .plain ((nothing_plain args _).bind fun _ => ?_)
    exact (dictOf_plain id).bind fun _ => allocList_plain _
  · refine .of ((oneOrTwo_plain args _).obedient.bind fun k => ?_)
    refine (key_plain _).obedient.bind fun key => (dictOf_plain id).obedient.bind fun d => ?_
    split
    · exact (modifyDict_obedient id fun d => d.size_erase_le key).bind fun _ => .ret _
    · exact .ret _
    · refine .refuse (fun h b => ?_) fun _ => rfl
      exact congrArg (Failure.exception .keyError) (literal_under h b _)
  · refine .on hid (.bind (.of (oneOrTwo_plain args _).obedient) fun k => ?_)
    refine .bind (.of (key_plain _).obedient) fun key => ?_
    refine .bind (.of (dictOf_plain id).obedient) fun d => ?_
    split
    · exact .ret _
    · rw [← bind_assoc]
      exact (addEntry_obedient id key _ _).bind fun _ => .ret _
  · refine .on hid (.bind (.of (entriesOfCall_plain _ args).obedient) fun entries => ?_)
    exact (ObedientOn.forM (fun e => put_obedient id e.1 e.2) entries).bind fun _ => .ret _
  · refine .of ((nothing_plain args _).obedient.bind fun _ => ?_)
    exact (dictOf_plain id).obedient.bind fun _ => alloc_obedient _
  · refine .of ((nothing_plain args _).obedient.bind fun _ => ?_)
    exact (modifyDict_obedient id fun _ => Nat.zero_le _).bind fun _ => .ret _
  · exact .none

end DictMethod

theorem Index.set_obedient (object index value : Value) : Obedient (set object index value) := by
  unfold set
  split
  · next id =>
    refine .readAt (fun _ _ => rfl) fun h => ?_
    split
    · refine (?_ : Obedient _) h
      split
      · refine (position_plain _ _ _).obedient.bind fun p => modifyList_obedient id fun items => ?_
        exact Nat.le_of_eq Array.size_setIfInBounds
      · exact .refuse (fun _ _ => rfl) fun _ => rfl
    · next d hd =>
      refine key_at index h fun key => ?_
      refine putEntry_obedient (Option.isSome_of_eq_some hd) (fun e he => ?_) key index value
      rw [hd] at he
      cases he
      rfl
    · exact Obedient.refuse (fun _ _ => rfl) (fun _ => Failure.isOwn_exception _ _) h
  · exact .refuse (fun _ _ => rfl) fun _ => rfl

/-! ## Builtin functions -/

namespace BuiltinCall

theorem textOption_plain (name : String) (v : Option Value) : Plain (textOption name v) := by
  unfold textOption
  split
  · exact .ret _
  · exact .ret _
  · exact .ret _
  · exact .refuse (fun _ _ => rfl) fun _ => rfl

theorem print_plain (args : Arguments) : Plain (print args) := by
  refine (textOption_plain _ _).bind fun _ => (textOption_plain _ _).bind fun _ => ?_
  refine (noNamed_plain _ _).bind fun _ => .read (fun h b => ?_) fun _ => .ret _
  simp only [Funded.under, funext (text_under h b)]

theorem len_plain (v : Value) : Plain (len v) := by
  refine .read (fun _ _ => rfl) fun h => ?_
  cases v with
  | ref id =>
    simp only
    split
    · exact .ret _
    · exact .ret _
    · exact .fail rfl
  | str s => exact .ret _
  | bytes data => exact .ret _
  | tuple items => exact .ret _
  | namedTuple type fields items => exact .ret _
  | range start stop step => exact .ret _
  | _ => exact .fail rfl

theorem range_plain (args : Arguments) : Plain (range args) := by
  refine (between_plain _ _ _ _).bind fun vs => ?_
  refine (Plain.mapM (fun v => ?_) vs).bind fun bounds => ?_
  · split
    · exact .ret _
    · exact .fail rfl
  · exact .fork (fun _ => .fail rfl) fun _ => .ret _

theorem sorted_plain (args : Arguments) : Plain (sorted args) := by
  refine .read (fun _ _ => rfl) fun h => .fork (fun _ => .fail rfl) fun _ => ?_
  refine (one_plain _ _).bind fun v => (items_plain v).bind fun items => ?_
  refine .read (fun h b => ?_) fun k => ?_
  · simp only [sorted_under, Funded.under]
  · split
    next failed hsorted =>
      cases failed with
      | none => exact allocList_plain _
      | some e => exact .fail (isOwn_of_sorted (congrArg Prod.snd hsorted))

theorem sumFrom_plain (total : Value) (vs : List Value) : Plain (sumFrom total vs) := by
  induction vs generalizing total with
  | nil => exact .ret _
  | cons v vs ih => exact (binary_plain .add total v).bind fun _ => ih _

theorem sum_plain (args : Arguments) : Plain (sum args) := by
  refine (oneOrTwo_plain _ _).bind fun (iterable, start) => ?_
  refine .fork (fun _ => .fail rfl) fun _ => ?_
  exact (items_plain iterable).bind fun _ => sumFrom_plain _ _

theorem extremeFrom_plain (wanted : Ordering) (best : Value) (vs : List Value) :
    Plain (extremeFrom wanted best vs) := by
  induction vs generalizing best with
  | nil => exact .ret _
  | cons v vs ih => exact (compare_plain v best).bind fun _ => ih _

theorem candidates_plain (name : String) (hasDefault : Bool) (vs : List Value) :
    Plain (candidates name hasDefault vs) := by
  unfold candidates
  split
  · exact .fail rfl
  · exact (items_plain _).bind fun _ => .ret _
  · exact .fork (fun _ => .fail rfl) fun _ => .ret _

theorem extreme_plain (name : String) (wanted : Ordering) (args : Arguments) :
    Plain (extreme name wanted args) := by
  refine (noNamed_plain _ _).bind fun _ => (candidates_plain _ _ _).bind fun vs => ?_
  split
  · exact extremeFrom_plain _ _ _
  · exact .ret _
  · exact .fail rfl

section
variable (h : Heap) (b : Budget) (v : Value)

mutual

theorem isInstance_under :
    (c : Value) → isInstance { h with budget := b } v c = isInstance h v c
  | .tuple classes => isInstanceOfAny_under classes
  | .excClass _ => rfl
  | .builtin _ => rfl
  | .undefined | .none | .ellipsis | .bool _ | .int _ | .float _ | .str _ | .bytes _ | .path _
  | .exception _ | .namedTuple .. | .ref _ | .function .. | .external _ | .module _ | .future _
  | .gather _ | .range .. | .slice .. => rfl

theorem isInstanceOfAny_under : (cs : List Value) →
    isInstanceOfAny { h with budget := b } v cs = isInstanceOfAny h v cs
  | [] => rfl
  | c :: rest => by
    rw [isInstanceOfAny, isInstanceOfAny, isInstance_under c, isInstanceOfAny_under rest]

end

end

theorem isinstance_plain (args : Arguments) : Plain (isinstance args) := by
  refine (two_plain _ _).bind fun (v, classes) => .read (fun h b => ?_) fun h => ?_
  · simp only [isInstance_under, Funded.under]
  · split
    · exact .ret _
    · exact .fail rfl

theorem iteratorOf_plain (vs : List Value) : Plain (iteratorOf vs) := .alloc trivial

theorem enumerateStart_plain (v : Option Value) : Plain (enumerateStart v) := by
  unfold enumerateStart
  split
  · exact .ret _
  · exact .ret _
  · exact .refuse (fun _ _ => rfl) fun _ => rfl

theorem enumerateFrom_plain (start : Option Value) (args : Arguments) :
    Plain (enumerateFrom start args) := by
  refine (enumerateStart_plain _).bind fun _ => (one_plain _ _).bind fun _ => ?_
  exact (items_plain _).bind fun _ => iteratorOf_plain _

theorem enumerate_plain (args : Arguments) : Plain (enumerate args) := by
  unfold enumerate
  simp only
  split
  · exact enumerateFrom_plain _ _
  · exact enumerateFrom_plain _ _

theorem zip_plain (args : Arguments) : Plain (zip args) := by
  refine (noNamed_plain _ _).bind fun _ => ?_
  exact (Plain.mapM items_plain _).bind fun _ => iteratorOf_plain _

theorem getenv_plain (args : Arguments) : Plain (getenv args) := by
  refine (between_plain _ _ _ _).bind fun vs => ?_
  split
  · simp only
    split
    · exact .ret _
    · exact .refuse (fun _ _ => rfl) fun _ => rfl
  · exact .ret _

/-- What comes behind the pairs may count on a lawful dict. -/
theorem insertAll_plain {d : Dict} (hd : d.Lawful) (entries : List (Value × Value))
    {f : Dict → Action Value} (hf : ∀ d : Dict, d.Lawful → Plain (f d)) :
    Plain (entries.foldlM (fun d e => do return d.insert (← Heap.key e.1) e.1 e.2) d >>= f) := by
  induction entries generalizing d with
  | nil => exact hf d hd
  | cons e entries ih =>
    simp only [List.foldlM_cons, bind_assoc, pure_bind]
    exact key_bind_plain e.1 fun key hkey => ih (hd.insert hkey e.2)

theorem call_plain (function : Builtin) (args : Arguments) :
    Plain (call function args) := by
  cases function with
  | print => exact print_plain args
  | getenv => exact getenv_plain args
  | dict =>
    refine ((DictMethod.entriesOfCall_plain _ args).bind fun entries => ?_).map
    exact insertAll_plain Dict.lawful_empty entries fun _ hd => .alloc (c := .dict _) hd
  | len => exact ((one_plain args _).bind fun v => len_plain v).map
  | str =>
    refine ((atMostOne_plain args _).bind fun v => ?_).map
    cases v with
    | none => exact .ret _
    | some v =>
      refine .read (fun h b => ?_) fun _ => .ret _
      simp only [text_under, Funded.under]
  | repr =>
    refine ((one_plain args _).bind fun v => .read (fun h b => ?_) fun _ => .ret _).map
    simp only [literal_under, Funded.under]
  | int => exact (Numeral.int_plain args).map
  | float => exact (Numeral.float_plain args).map
  | bool =>
    exact ((atMostOne_plain args _).bind fun v => .read (fun _ _ => rfl) fun _ => .ret _).map
  | list =>
    refine ((atMostOne_plain args _).bind fun v => ?_).map
    cases v with
    | none => exact allocList_plain _
    | some v => exact (items_plain v).bind fun _ => allocList_plain _
  | tuple =>
    refine ((atMostOne_plain args _).bind fun v => ?_).map
    cases v with
    | none => exact .ret _
    | some v => exact (items_plain v).bind fun _ => .ret _
  | range => exact (range_plain args).map
  | sorted => exact (sorted_plain args).map
  | sum => exact (sum_plain args).map
  | min => exact (extreme_plain _ _ args).map
  | max => exact (extreme_plain _ _ args).map
  | abs => exact ((one_plain args _).bind fun v => Numeral.magnitude_plain v).map
  | round => exact (Numeral.round_plain args).map
  | isinstance => exact (isinstance_plain args).map
  | any =>
    exact ((one_plain args _).bind fun v => (items_plain v).bind fun _ =>
      .read (fun _ _ => rfl) fun _ => .ret _).map
  | all =>
    exact ((one_plain args _).bind fun v => (items_plain v).bind fun _ =>
      .read (fun _ _ => rfl) fun _ => .ret _).map
  | enumerate => exact (enumerate_plain args).map
  | zip => exact (zip_plain args).map
  | reversed =>
    exact ((one_plain args _).bind fun v => (items_plain v).bind fun _ =>
      iteratorOf_plain _).map
  | path =>
    exact ((noNamed_plain args _).bind fun _ =>
      (PathMethod.joinAll_plain _ _).bind fun _ => .ret _).map
  | gather => exact ((noNamed_plain args _).bind fun _ => .ret _).map

end BuiltinCall

end Resumable
