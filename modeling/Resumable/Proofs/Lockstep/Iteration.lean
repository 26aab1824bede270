import Resumable.Heap.Iteration
import Resumable.Operation.Index
import Resumable.Proofs.Lockstep.Arguments
import Resumable.Proofs.Lockstep.Conversion
import Resumable.Proofs.Lockstep.Heap

/-!
# Iteration and indexing in lockstep

The items of values that are alike are alike, one by one and position by position.

## Iteration in lockstep

Values that are alike give items that are alike, one by one, and so do iterators in the same state.
-/

namespace Resumable

open List (Forall₂)

variable {κ : World} {p : Pairing}

theorem rangeItems_alike (start stop step : Int64) :
    AllAlike κ p (rangeItems start stop step) (rangeItems start stop step) := by
  refine List.forall₂_same.mpr fun v hv => ?_
  obtain ⟨i, -, rfl⟩ := List.mem_map.mp hv
  exact .int _

namespace ItemsAlike

variable {vs ws : Array Value} (h : ItemsAlike κ p vs ws)
include h

theorem getElem? (i : Nat) : MaybeAlike κ p vs[i]? ws[i]? := by
  rw [← Array.getElem?_toList, ← Array.getElem?_toList]
  exact List.Forall₂.getElem? h i

theorem extract (position : Nat) :
    ItemsAlike κ p (vs.extract position vs.size) (ws.extract position ws.size) := by
  simp only [ItemsAlike, Array.toList_extract, List.extract_eq_take_drop, h.size_eq]
  exact List.forall₂_take _ (List.forall₂_drop _ h)

omit h in
theorem insertIdx (h : ItemsAlike κ p vs ws) (i : Nat) {v w : Value} (hvw : v.Alike κ p w) :
    ItemsAlike κ p (vs.insertIdxIfInBounds i v) (ws.insertIdxIfInBounds i w) := by
  have toList : ∀ (xs : Array Value) (x : Value),
      (xs.insertIdxIfInBounds i x).toList = xs.toList.insertIdx i x := fun xs x => by
    unfold Array.insertIdxIfInBounds
    split
    · rw [Array.toList_insertIdx]
    · next hi => rw [List.insertIdx_of_length_lt (Nat.lt_of_not_le hi)]
  simp only [ItemsAlike, toList]
  exact List.Forall₂.insertIdx h i hvw

end ItemsAlike

namespace Heap

section
variable {h k : Heap} (hl : Linked κ p h k)
include hl

theorem remaining_alike {s t : Iter} (hst : s.Alike κ p t) :
    ItemsAlike κ p (h.remaining s) (k.remaining t) := by
  cases hst with
  | range next stop step => simpa only [remaining, ItemsAlike] using rangeItems_alike next stop step
  | items position hvs => exact hvs.extract position
  | list position hxy =>
    obtain ⟨c, d, hc, hd, hcd⟩ := hl.cells hxy
    rw [remaining, remaining, hc, hd]
    cases hcd with
    | list hvs => exact hvs.extract position
    | dict _ => exact .nil
    | iter _ => exact .nil

theorem items?_alike {v w : Value} (hvw : v.Alike κ p w) :
    Option.Rel (ItemsAlike κ p) (h.items? v) (k.items? w) := by
  cases hvw with
  | tuple hvs => exact .some hvs
  | namedTuple type fields hvs => exact .some hvs
  | str s =>
    refine .some (List.forall₂_same.mpr fun v hv => ?_)
    obtain ⟨c, -, rfl⟩ := List.mem_map.mp hv
    exact .str _
  | bytes data =>
    refine .some (List.forall₂_same.mpr fun v hv => ?_)
    obtain ⟨c, -, rfl⟩ := List.mem_map.mp hv
    exact .int _
  | range start stop step => exact .some (rangeItems_alike start stop step)
  | ref hxy =>
    obtain ⟨c, d, hc, hd, hcd⟩ := hl.cells hxy
    rw [items?, items?, hc, hd]
    cases hcd with
    | list hvs => exact .some hvs
    | dict hde => exact .some hde.names
    | iter hst => exact .some (remaining_alike hl hst)
  | _ => exact .none

theorem advance_alike {s t : Iter} (hst : s.Alike κ p t) :
    Option.Rel (fun a b => a.1.Alike κ p b.1 ∧ a.2.Alike κ p b.2) (h.advance s) (k.advance t) := by
  -- the item at the position, if there is one, and the state behind it
  have item : ∀ {vs ws : Array Value} {s' t' : Iter} (position : Nat), ItemsAlike κ p vs ws →
      s'.Alike κ p t' → Option.Rel (fun a b => a.1.Alike κ p b.1 ∧ a.2.Alike κ p b.2)
        (vs[position]?.map (·, s')) (ws[position]?.map (·, t')) := by
    intro vs ws s' t' position hvs hst
    obtain ⟨hv, hw⟩ | ⟨v, w, hv, hw, hvw⟩ := (hvs.getElem? position).elim <;> rw [hv, hw]
    · exact .none
    · exact .some ⟨hvw, hst⟩
  cases hst with
  | range next stop step =>
    simp only [advance]
    by_cases hend : if step > 0 then next ≥ stop else next ≤ stop
    · rw [if_pos hend]; exact .none
    · rw [if_neg hend]; exact .some ⟨.int _, .range _ _ _⟩
  | items position hvs => exact item position hvs (.items _ hvs)
  | list position hxy =>
    obtain ⟨c, d, hc, hd, hcd⟩ := hl.cells hxy
    rw [advance, advance, hc, hd]
    cases hcd with
    | list hvs => exact item position hvs (.list _ hxy)
    | dict _ => exact .none
    | iter _ => exact .none

end

/-! ### Iteration as actions -/

theorem items_agrees {v w : Value} (hvw : v.Alike κ p w) :
    Agrees κ p (ItemsAlike κ) (items v) (items w) := by
  refine .read fun h k hp => ?_
  obtain ⟨hv, hw⟩ | ⟨vs, ws, hv, hw, hvs⟩ := (items?_alike hp.toLinked hvw).elim <;> rw [hv, hw]
  · rw [typeName_eq hp.toLinked hvw]; exact .fail _
  · exact .ret hvs

theorem iterate_agrees {v w : Value} (hvw : v.Alike κ p w) :
    Agrees κ p (Value.Alike κ) (iterate v) (iterate w) := by
  -- all but ranges, lists and iterators give their items at once
  have atOnce : ∀ {v w : Value}, v.Alike κ p w → Agrees κ p (Value.Alike κ)
      (items v >>= fun vs => alloc (.iter (.items vs 0)))
      (items w >>= fun ws => alloc (.iter (.items ws 0))) := fun hvw =>
    (items_agrees hvw).bind fun q _ _ _ hvs => alloc_agrees (.iter (.items 0 hvs))
  cases hvw with
  | range start stop step => exact alloc_agrees (.iter (.range start stop step))
  | ref hxy =>
    refine .read fun h k hp => ?_
    obtain ⟨c, d, hc, hd, hcd⟩ := hp.cells hxy
    rw [hc, hd]
    cases hcd with
    | list hvs => exact alloc_agrees (.iter (.list 0 hxy))
    | iter hst => exact .ret (.ref hxy)
    | dict hde => exact atOnce (.ref hxy)
  | tuple hvs => exact atOnce (.tuple hvs)
  | namedTuple type fields hvs => exact atOnce (.namedTuple type fields hvs)
  | function code hvs => exact atOnce (.function code hvs)
  | gather hvs => exact atOnce (.gather hvs)
  | external hi => exact atOnce (.external hi)
  | _ => exact atOnce (by constructor)

theorem next_agrees {x y : Nat} (hxy : p.rel x y) :
    Agrees κ p (MaybeAlike κ) (next x) (next y) := by
  refine .read fun h k hp => ?_
  obtain ⟨c, d, hc, hd, hcd⟩ := hp.cells hxy
  rw [hc, hd]
  cases hcd with
  | list _ => exact .ret .none
  | dict _ => exact .ret .none
  | iter hst =>
    simp only
    obtain ⟨ha, hb⟩ | ⟨a, b, ha, hb, hab⟩ := (advance_alike hp.toLinked hst).elim <;> rw [ha, hb]
    · exact .ret .none
    · refine (modifyCell_agrees hxy fun _ _ _ => .iter hab.2).bind fun q hq _ _ _ => ?_
      exact .ret (.some (hab.1.mono hq))

end Heap

end Resumable

/-!
## Indexing in lockstep

An index or a slice takes items at the same positions of values that are alike.
-/

namespace Resumable

open List (Forall₂)
open Heap (Agrees)

namespace Index

variable {κ : World} {p q : Pairing}

theorem position_agrees (kind : String) (length : Nat) {v w : Value} (hvw : v.Alike κ p w) :
    Agrees κ p Same (position kind length v) (position kind length w) := by
  unfold position
  rw [hvw.int?_eq]
  split
  · exact .fail _
  · split
    · exact .ret rfl
    · exact .fail _

section
variable {α β : Type} {T : Pairing → α → β → Prop}

theorem slice_agrees {xs : Array α} {ys : Array β} (h : Forall₂ (T p) xs.toList ys.toList)
    (start stop step : Option Int64) :
    Agrees κ p (fun _ => Forall₂ (T p)) (slice xs start stop step)
      (slice ys start stop step) := by
  have hsize : xs.size = ys.size := h.length_eq
  unfold slice
  rw [hsize]
  split
  · next positions _ =>
    refine .ret (List.rel_filterMap (R := Eq) ?_ (List.forall₂_eq_eq_eq ▸ rfl))
    rintro i _ rfl
    simp only [← Array.getElem?_toList]
    exact h.getElem? i
  · exact .fail _
  · exact .fail _

theorem sequence_agrees (kind : String) {xs : Array α} {ys : Array β}
    (h : Forall₂ (T p) xs.toList ys.toList) {one : α → Value} {one' : β → Value}
    (hone : ∀ x y, T p x y → (one x).Alike κ p (one' y)) {many : List α → Value}
    {many' : List β → Value}
    (hmany : ∀ xs ys, Forall₂ (T p) xs ys → (many xs).Alike κ p (many' ys)) {v w : Value}
    (hvw : v.Alike κ p w) :
    Agrees κ p (Value.Alike κ) (sequence kind xs one many v) (sequence kind ys one' many' w) := by
  have refuse : Agrees κ p (Value.Alike κ) _ _ := Heap.failWithType hvw fun other =>
    .typeError s!"{kind} indices must be integers or slices, not {other}"
  have at_ : Agrees κ p (Value.Alike κ)
      (do return ((xs[← position kind xs.size v]?).elim .none one))
      (do return ((ys[← position kind ys.size w]?).elim .none one')) := by
    have hsize : xs.size = ys.size := h.length_eq
    rw [hsize]
    refine (position_agrees kind _ hvw).bind fun q hq i j hij => ?_
    subst hij
    refine .ret ?_
    rw [← Array.getElem?_toList, ← Array.getElem?_toList]
    obtain ⟨hx, hy⟩ | ⟨x, y, hx, hy, hxy⟩ := (h.getElem? i).elim <;> rw [hx, hy]
    · exact .none
    · exact (hone x y hxy).mono hq
  cases hvw with
  | slice start stop step =>
    refine (slice_agrees h start stop step).bind fun q hq _ _ hs => ?_
    exact .ret ((hmany _ _ hs).mono hq)
  | int i => exact at_
  | bool b => exact at_
  | _ => exact refuse

end

theorem notSubscriptable_agrees {α β : Type} {R : Pairing → α → β → Prop} {v w : Value}
    (hvw : v.Alike κ p w) :
    Agrees κ p R (do throw (notSubscriptable (← MonadState.get) v))
      (do throw (notSubscriptable (← MonadState.get) w)) := by
  refine .read fun h k hp => ?_
  rw [notSubscriptable, notSubscriptable, Heap.typeName_eq hp.toLinked hvw]
  exact .fail _

theorem getRange_agrees (start stop step : Int64) {v w : Value} (hvw : v.Alike κ p w) :
    Agrees κ p (Value.Alike κ) (get (.range start stop step) v)
      (get (.range start stop step) w) := by
  have at_ : ∀ length, Agrees κ p (Value.Alike κ)
      (do return .int (start + Int64.ofNat (← position "range object" length v) * step))
      (do return .int (start + Int64.ofNat (← position "range object" length w) * step)) :=
    fun length => (position_agrees _ length hvw).bind fun q hq i j hij => hij ▸ .ret (.int _)
  cases hvw with
  | slice first bound stride =>
    refine (slice_agrees (T := Same) (List.forall₂_eq_eq_eq ▸ rfl) first bound stride).bind ?_
    intro q hq items items' hitems
    obtain rfl : items = items' := List.forall₂_eq_eq_eq ▸ hitems
    refine .ret ?_
    rcases items with _ | ⟨_, _ | ⟨_, _⟩⟩ <;> exact .range _ _ _
  | _ => exact at_ _

theorem get_agrees {v w a b : Value} (hvw : v.Alike κ p w) (hab : a.Alike κ p b) :
    Agrees κ p (Value.Alike κ) (get v a) (get w b) := by
  have refuse := notSubscriptable_agrees (R := Value.Alike κ) hvw
  cases hvw with
  | tuple hvs =>
    exact sequence_agrees (T := Value.Alike κ) "tuple" hvs (fun _ _ h => h)
      (fun _ _ h => .tuple h) hab
  | namedTuple type fields hvs =>
    exact sequence_agrees (T := Value.Alike κ) "tuple" hvs (fun _ _ h => h)
      (fun _ _ h => .tuple h) hab
  | str s =>
    refine sequence_agrees (T := Same) "string" (List.forall₂_eq_eq_eq ▸ rfl) ?_ ?_ hab
    · rintro c _ rfl; exact .str _
    · intro cs cs' h
      obtain rfl : cs = cs' := List.forall₂_eq_eq_eq ▸ h
      exact .str _
  | bytes data =>
    refine sequence_agrees (T := Same) "bytes" (List.forall₂_eq_eq_eq ▸ rfl) ?_ ?_ hab
    · rintro c _ rfl; exact .int _
    · intro cs cs' h
      obtain rfl : cs = cs' := List.forall₂_eq_eq_eq ▸ h
      exact .bytes _
  | range start stop step => exact getRange_agrees start stop step hab
  | ref hxy =>
    refine .read fun h k hp => ?_
    obtain ⟨c, d, hc, hd, hcd⟩ := hp.cells hxy
    rw [hc, hd]
    cases hcd with
    | list hvs =>
      have item := sequence_agrees (T := Value.Alike κ) "list" hvs (fun _ _ h => h)
        (fun _ _ h => .tuple h) hab
      cases hab with
      | slice start stop step =>
        refine (slice_agrees (T := Value.Alike κ) hvs start stop step).bind fun q hq _ _ hs => ?_
        exact Heap.allocList_agrees (AllAlike.mono hs hq)
      | _ => exact item
    | dict hde =>
      refine (Heap.key_agrees hab).bind fun q hq key _ hkey => ?_
      subst hkey
      obtain ⟨hx, hy⟩ | ⟨x, y, hx, hy, hxy⟩ := (hde.get? key).elim <;> rw [hx, hy]
      · refine .read fun h k hp => ?_
        rw [Heap.literal_eq hp.toLinked (hab.mono hq)]
        exact .fail _
      · exact .ret (hxy.mono hq)
    | iter _ => exact refuse
  | _ => exact refuse

theorem set_agrees {v w a b x y : Value} (hvw : v.Alike κ p w) (hab : a.Alike κ p b)
    (hxy : x.Alike κ p y) : Agrees κ p Same (set v a x) (set w b y) := by
  have refuse : Agrees κ p (Same (α := Unit)) _ _ := Heap.failWithType hvw fun kind =>
    .typeError ("'" ++ kind ++ "' object does not support item assignment")
  have refuseIndex : Agrees κ p (Same (α := Unit)) _ _ := Heap.failWithType hab fun other =>
    .typeError s!"list indices must be integers or slices, not {other}"
  cases hvw with
  | ref hrel =>
    refine .read fun h k hp => ?_
    obtain ⟨c, d, hc, hd, hcd⟩ := hp.cells hrel
    rw [hc, hd]
    cases hcd with
    | list hvs =>
      simp only [hab.int?_eq]
      split
      · rw [hvs.size_eq]
        refine (position_agrees _ _ hab).bind fun q hq i j hij => ?_
        subst hij
        refine Heap.modifyList_agrees (hq hrel) fun vs ws h => ?_
        simp only [ItemsAlike, Array.toList_setIfInBounds]
        exact h.set i (hxy.mono hq)
      · exact refuseIndex
    | dict hde =>
      refine (Heap.key_agrees hab).bind fun q hq key _ hkey => ?_
      subst hkey
      rw [hde.contains_eq key]
      refine (Heap.modifyDict_agrees (hq hrel) fun d e h =>
        h.insert key (hab.mono hq) (hxy.mono hq)).bind fun r hr _ _ _ => ?_
      exact .fork Iff.rfl (fun _ => Heap.chargeInsert_agrees (hr (hq hrel))) fun _ => .ret rfl
    | iter _ => exact refuse
  | _ => exact refuse

theorem unpack_agrees {v w : Value} (hvw : v.Alike κ p w) (n : Nat) :
    Agrees κ p (AllAlike κ) (unpack v n) (unpack w n) := by
  refine .read fun h k hp => ?_
  rw [Heap.typeName_eq hp.toLinked hvw]
  obtain ⟨hx, hy⟩ | ⟨vs, ws, hx, hy, hvs⟩ := (Heap.items?_alike hp.toLinked hvw).elim
  · rw [hx, hy]
    exact .fail _
  · rw [hx, hy]
    simp only [hvs.size_eq]
    exact .fork Iff.rfl (fun _ => .fail _) fun _ =>
      .fork Iff.rfl (fun _ => .fail _) fun _ => .ret hvs

end Index

end Resumable
