import Resumable.Operation.ContainerMethods
import Resumable.Proofs.Lockstep.Comparison
import Resumable.Proofs.Lockstep.Operator
import Resumable.Proofs.Lockstep.Text

/-!
# Methods of lists and dicts in lockstep
-/

namespace Resumable

open List (Forall₂)
open Heap (Agrees)

variable {κ : World} {p q : Pairing}

/-- Pairs of values that are alike. -/
abbrev BothAlike (κ : World) (p : Pairing) (a b : Value × Value) : Prop :=
  a.1.Alike κ p b.1 ∧ a.2.Alike κ p b.2

theorem BothAlike.mono {a b : Value × Value} (hpq : p ≤ q) (h : BothAlike κ p a b) :
    BothAlike κ q a b := ⟨h.1.mono hpq, h.2.mono hpq⟩

/-! ## Lists -/

namespace ListMethod

variable {x y : Nat} (hxy : p.rel x y)
include hxy

theorem itemsOf_agrees : Agrees κ p (ItemsAlike κ) (itemsOf x) (itemsOf y) := by
  refine .read fun h k hp => ?_
  obtain ⟨c, d, hc, hd, hcd⟩ := hp.cells hxy
  rw [hc, hd]
  cases hcd with
  | list hvs => exact .ret hvs
  | dict _ => exact .ret .nil
  | iter _ => exact .ret .nil

theorem extend_agrees {v w : Value} (hvw : v.Alike κ p w) :
    Agrees κ p (Value.Alike κ) (extend x v) (extend y w) := by
  refine (Heap.items_agrees hvw).bind fun q hq _ _ hvs => ?_
  refine (Heap.chargeAll_agrees (hq hxy) hvs).bind fun r hr _ _ _ => ?_
  refine (Heap.append_agrees (hr (hq hxy)) (hvs.mono hr)).bind fun _ _ _ _ _ => ?_
  exact .ret .none

theorem insert_agrees {v w a b : Value} (hvw : v.Alike κ p w) (hab : a.Alike κ p b) :
    Agrees κ p (Value.Alike κ) (insert x v a) (insert y w b) := by
  have refuse : Agrees κ p (Value.Alike κ) _ _ := Heap.notAnInteger_agrees hvw
  cases hvw with
  | int i =>
    refine (Heap.chargeInsert_agrees hxy).bind fun q hq _ _ _ => ?_
    refine (Heap.modifyList_agrees (hq hxy) fun vs ws h => ?_).bind fun _ _ _ _ _ => .ret .none
    simp only [h.size_eq]
    exact h.insertIdx _ (hab.mono hq)
  | _ => exact refuse

theorem erase_agrees (i : Nat) : Agrees κ p Same (Heap.modifyList x (·.eraseIdxIfInBounds i))
    (Heap.modifyList y (·.eraseIdxIfInBounds i)) :=
  Heap.modifyList_agrees hxy fun vs ws h => by
    simp only [ItemsAlike, Array.toList_eraseIdxIfInBounds]
    exact h.eraseIdx i

theorem pop_agrees {v w : Option Value} (hvw : MaybeAlike κ p v w) :
    Agrees κ p (Value.Alike κ) (pop x v) (pop y w) := by
  refine (itemsOf_agrees hxy).bind fun q hq vs ws hvs => ?_
  rw [hvs.isEmpty_eq, hvs.size_eq]
  refine .fork Iff.rfl (fun _ => .fail _) fun _ => ?_
  have position : Agrees κ q Same (popPosition ws.size v) (popPosition ws.size w) := by
    cases hvw with
    | none => exact .ret rfl
    | some hvw => cases hvw with
      | int i => exact .ret rfl
      | _ => exact .fail _
  refine position.bind fun r hr i _ h => ?_
  subst h
  refine .fork Iff.rfl (fun _ => .fail _) fun _ => ?_
  obtain ⟨ha, hb⟩ | ⟨a, b, ha, hb, hab⟩ := (hvs.getElem? i.toNat).elim <;> rw [ha, hb]
  · exact .fail _
  · refine (erase_agrees (hr (hq hxy)) _).bind fun s hs _ _ _ => ?_
    exact .ret (hab.mono (hr.trans hs))

omit hxy in
theorem positionOf_agrees {v w : Value} (hvw : v.Alike κ p w) (index : Nat) {vs ws : List Value}
    (h : AllAlike κ p vs ws) :
    Agrees κ p Same (positionOf v index vs) (positionOf w index ws) := by
  induction vs generalizing p index ws with
  | nil => cases h; exact .ret rfl
  | cons a vs ih =>
    cases h with
    | cons ha hs =>
      refine (Heap.equal_agrees ha hvw).bind fun q hq _ _ h => ?_
      subst h
      exact .fork Iff.rfl (fun _ => .ret rfl) fun _ => ih (hvw.mono hq) _ (AllAlike.mono hs hq)

omit hxy in
theorem countOf_agrees {v w : Value} (hvw : v.Alike κ p w) (found : Nat) {vs ws : List Value}
    (h : AllAlike κ p vs ws) :
    Agrees κ p Same (countOf v found vs) (countOf w found ws) := by
  induction vs generalizing p found ws with
  | nil => cases h; exact .ret rfl
  | cons a vs ih =>
    cases h with
    | cons ha hs =>
      refine (Heap.equal_agrees ha hvw).bind fun q hq _ _ h => ?_
      subst h
      exact ih (hvw.mono hq) _ (AllAlike.mono hs hq)

theorem sort_agrees (descending : Bool) :
    Agrees κ p (Value.Alike κ) (sort x descending) (sort y descending) := by
  refine (itemsOf_agrees hxy).bind fun q hq _ _ hvs => ?_
  refine (Heap.modifyList_agrees (hq hxy) fun _ _ _ => .nil).bind fun r hr _ _ _ => ?_
  refine .read fun h k hp => ?_
  obtain ⟨as, bs, failed, ha, hb, hs⟩ :=
    Heap.sorted_alike hp.toLinked descending (hvs.mono hr)
  rw [ha, hb]
  refine (Heap.modifyList_agrees (hr (hq hxy)) fun _ _ _ => hs).bind fun _ _ _ _ _ => ?_
  cases failed with
  | none => exact .ret .none
  | some e => exact .fail _

theorem call_agrees (name : String) {a b : Arguments} (hab : a.Alike κ p b) :
    MethodsAgree κ p (call x name a) (call y name b) := by
  unfold call
  split
  · refine .some ((Arguments.one_agrees hab _).bind fun q hq _ _ hvw => ?_)
    refine (Heap.chargeInsert_agrees (hq hxy)).bind fun r hr _ _ _ => ?_
    refine (Heap.modifyList_agrees (hr (hq hxy)) fun vs ws h => ?_).bind
      fun _ _ _ _ _ => .ret .none
    simp only [ItemsAlike, Array.toList_push]
    exact h.append (.cons (hvw.mono hr) .nil)
  · exact .some ((Arguments.one_agrees hab _).bind fun q hq _ _ hvw =>
      extend_agrees (hq hxy) hvw)
  · exact .some ((Arguments.two_agrees hab _).bind fun q hq _ _ h =>
      insert_agrees (hq hxy) h.1 h.2)
  · exact .some ((Arguments.atMostOne_agrees hab _).bind fun q hq _ _ hvw =>
      pop_agrees (hq hxy) hvw)
  · refine .some ((Arguments.one_agrees hab _).bind fun q hq _ _ hvw => ?_)
    refine (itemsOf_agrees (hq hxy)).bind fun r hr _ _ hvs => ?_
    refine (positionOf_agrees (hvw.mono hr) 0 hvs).bind fun s hs i _ h => ?_
    subst h
    split
    · exact .ret (.int _)
    · refine .read fun h k hp => ?_
      rw [Heap.literal_eq hp.toLinked (hvw.mono (hr.trans hs))]
      exact .fail _
  · refine .some ((Arguments.one_agrees hab _).bind fun q hq _ _ hvw => ?_)
    refine (itemsOf_agrees (hq hxy)).bind fun r hr _ _ hvs => ?_
    exact (countOf_agrees (hvw.mono hr) 0 hvs).bind fun _ _ _ _ h => h ▸ .ret (.int _)
  · refine .some ((Arguments.one_agrees hab _).bind fun q hq _ _ hvw => ?_)
    refine (itemsOf_agrees (hq hxy)).bind fun r hr _ _ hvs => ?_
    refine (positionOf_agrees (hvw.mono hr) 0 hvs).bind fun s hs i _ h => ?_
    subst h
    split
    · exact (erase_agrees (hs (hr (hq hxy))) _).bind fun _ _ _ _ _ => .ret .none
    · exact .fail _
  · refine .some ((Arguments.nothing_agrees hab _).bind fun q hq _ _ _ => ?_)
    exact (itemsOf_agrees (hq hxy)).bind fun _ _ _ _ hvs => Heap.allocList_agrees hvs
  · refine .some ((Arguments.nothing_agrees hab _).bind fun q hq _ _ _ => ?_)
    refine (Heap.modifyList_agrees (hq hxy) fun vs ws h => ?_).bind fun _ _ _ _ _ => .ret .none
    simp only [ItemsAlike, Array.toList_reverse]
    exact List.rel_reverse h
  · refine .some ((Arguments.nothing_agrees hab _).bind fun q hq _ _ _ => ?_)
    exact (Heap.modifyList_agrees (hq hxy) fun _ _ _ => .nil).bind fun _ _ _ _ _ => .ret .none
  · obtain ⟨v, a', w, b', ha, hb, hreverse, hab⟩ := hab.take "reverse"
    obtain ⟨v', a'', w', b'', ha', hb', hkey, hab⟩ := hab.take "key"
    simp only [ha, hb, ha', hb', hkey.isSome_eq]
    refine .some (.read fun h k hp => ?_)
    have hdescending : v.any h.isTruthy = w.any k.isTruthy := by
      cases hreverse with
      | none => rfl
      | some h => exact Heap.isTruthy_eq hp.toLinked h
    rw [hdescending]
    refine .fork Iff.rfl (fun _ => .fail _) fun _ => ?_
    exact (Arguments.nothing_agrees hab _).bind fun q hq _ _ _ => sort_agrees (hq hxy) _
  · exact .none

end ListMethod

/-! ## Dicts -/

namespace DictMethod

theorem dictOf_agrees {x y : Nat} (hxy : p.rel x y) :
    Agrees κ p (Dict.Alike κ) (dictOf x) (dictOf y) := by
  refine .read fun h k hp => ?_
  obtain ⟨c, d, hc, hd, hcd⟩ := hp.cells hxy
  rw [hc, hd]
  cases hcd with
  | list _ => exact .ret .empty
  | dict h => exact .ret h
  | iter _ => exact .ret .empty

theorem pairOf_agrees (index : Nat) {v w : Value} (hvw : v.Alike κ p w) :
    Agrees κ p (BothAlike κ) (pairOf index v) (pairOf index w) := by
  refine (Heap.items_agrees hvw).bind fun q _ vs ws hvs => ?_
  revert hvs
  unfold ItemsAlike
  generalize vs.toList = as
  generalize ws.toList = bs
  intro hvs
  rcases hvs with _ | ⟨ha, _ | ⟨hb, _ | ⟨hc, hs⟩⟩⟩
  · exact .fail _
  · exact .fail _
  · exact .ret ⟨ha, hb⟩
  · simp only [List.length_cons, hs.length_eq]
    exact .fail _

theorem pairsOf_agrees {done done' : List (Value × Value)}
    (hdone : Forall₂ (BothAlike κ p) done done') (index : Nat) {vs ws : List Value}
    (h : AllAlike κ p vs ws) :
    Agrees κ p (fun q => Forall₂ (BothAlike κ q)) (pairsOf done index vs)
      (pairsOf done' index ws) := by
  induction vs generalizing p done done' index ws with
  | nil => cases h; exact .ret (List.rel_reverse hdone)
  | cons v vs ih =>
    cases h with
    | cons hv hs =>
      refine (pairOf_agrees index hv).bind fun q hq _ _ hpair => ?_
      exact ih (.cons hpair (hdone.imp fun _ _ h => h.mono hq)) _ (AllAlike.mono hs hq)

theorem entriesOf_agrees {v w : Value} (hvw : v.Alike κ p w) :
    Agrees κ p (fun q => Forall₂ (BothAlike κ q)) (entriesOf v) (entriesOf w) := by
  have pairs : Agrees κ p (fun q => Forall₂ (BothAlike κ q))
      (do pairsOf [] 0 (← Heap.items v).toList) (do pairsOf [] 0 (← Heap.items w).toList) :=
    (Heap.items_agrees hvw).bind fun _ _ _ _ hvs => pairsOf_agrees .nil 0 hvs
  cases hvw with
  | ref hxy =>
    refine .read fun h k hp => ?_
    obtain ⟨c, d, hc, hd, hcd⟩ := hp.cells hxy
    rw [hc, hd]
    cases hcd with
    | dict h => exact .ret h.pairs
    | _ => exact pairs
  | _ => exact pairs

theorem namedEntries_alike {xs ys : List (String × Value)}
    (h : Forall₂ (NamedAlike κ p) xs ys) :
    Forall₂ (BothAlike κ p) (namedEntries xs) (namedEntries ys) := by
  induction h with
  | nil => exact .nil
  | @cons x y _ _ h _ ih =>
    obtain ⟨name, v⟩ := x
    obtain ⟨name', w⟩ := y
    obtain ⟨rfl : name = name', hvw⟩ := h
    exact .cons ⟨.str name, hvw⟩ ih

theorem entriesOfCall_agrees (function : String) {a b : Arguments} (hab : a.Alike κ p b) :
    Agrees κ p (fun q => Forall₂ (BothAlike κ q)) (entriesOfCall function a)
      (entriesOfCall function b) := by
  obtain ⟨positional, named⟩ := a
  obtain ⟨positional', named'⟩ := b
  obtain ⟨hpos, hnamed⟩ := hab
  simp only at hpos hnamed
  rcases hpos with _ | ⟨hv, _ | ⟨hw, hs⟩⟩
  · exact .ret (namedEntries_alike hnamed)
  · refine (entriesOf_agrees hv).bind fun q hq _ _ h => .ret ?_
    exact h.append (namedEntries_alike (hnamed.imp fun _ _ h => h.mono hq))
  · simp only [entriesOfCall, List.length_cons, hs.length_eq]
    exact .fail _

theorem put_agrees {x y : Nat} (hxy : p.rel x y) {a b v w : Value} (hab : a.Alike κ p b)
    (hvw : v.Alike κ p w) : Agrees κ p Same (put x a v) (put y b w) := by
  refine (Heap.key_agrees hab).bind fun q hq key _ h => ?_
  subst h
  refine (dictOf_agrees (hq hxy)).bind fun r hr d e hde => ?_
  rw [hde.contains_eq]
  have hqr := hq.trans hr
  refine (Heap.modifyDict_agrees (hqr hxy) fun d e h =>
    h.insert key (hab.mono hqr) (hvw.mono hqr)).bind fun s hs _ _ _ => ?_
  exact .fork Iff.rfl (fun _ => Heap.chargeInsert_agrees (hs (hqr hxy))) fun _ => .ret rfl

theorem call_agrees {x y : Nat} (hxy : p.rel x y) (name : String) {a b : Arguments}
    (hab : a.Alike κ p b) : MethodsAgree κ p (call x name a) (call y name b) := by
  unfold call
  split
  · refine .some ((Arguments.oneOrTwo_agrees hab _).bind fun q hq v w hvw => ?_)
    obtain ⟨v, v'⟩ := v
    obtain ⟨w, w'⟩ := w
    refine (Heap.key_agrees hvw.1).bind fun r hr key _ h => ?_
    subst h
    refine (dictOf_agrees (hr (hq hxy))).bind fun s hs d e hde => .ret ?_
    exact ((hde.get? key).or (hvw.2.mono (hr.trans hs))).getD .none
  · refine .some ((Arguments.nothing_agrees hab _).bind fun q hq _ _ _ => ?_)
    exact (dictOf_agrees (hq hxy)).bind fun _ _ _ _ hde => Heap.allocList_agrees hde.names
  · refine .some ((Arguments.nothing_agrees hab _).bind fun q hq _ _ _ => ?_)
    exact (dictOf_agrees (hq hxy)).bind fun _ _ _ _ hde => Heap.allocList_agrees hde.values
  · refine .some ((Arguments.nothing_agrees hab _).bind fun q hq _ _ _ => ?_)
    refine (dictOf_agrees (hq hxy)).bind fun r _ _ _ hde => Heap.allocList_agrees ?_
    simp only [ItemsAlike, List.forall₂_map_left_iff, List.forall₂_map_right_iff]
    exact hde.pairs.imp fun _ _ h => .tuple (.cons h.1 (.cons h.2 .nil))
  · refine .some ((Arguments.oneOrTwo_agrees hab _).bind fun q hq v w hvw => ?_)
    obtain ⟨v, v'⟩ := v
    obtain ⟨w, w'⟩ := w
    refine (Heap.key_agrees hvw.1).bind fun r hr key _ h => ?_
    subst h
    refine (dictOf_agrees (hr (hq hxy))).bind fun s hs d e hde => ?_
    have hqs := hr.trans hs
    obtain ⟨ha, hb⟩ | ⟨a, b, ha, hb, hab⟩ := (hde.get? key).elim <;> rw [ha, hb]
    · obtain ⟨ha, hb⟩ | ⟨a, b, ha, hb, hab⟩ := hvw.2.elim
      · subst ha hb
        refine .read fun h k hp => ?_
        rw [Heap.literal_eq hp.toLinked (hvw.1.mono hqs)]
        exact .fail _
      · subst ha hb
        exact .ret (hab.mono hqs)
    · refine (Heap.modifyDict_agrees (hqs (hq hxy)) fun d e h => h.erase key).bind ?_
      exact fun t ht _ _ _ => .ret (hab.mono ht)
  · refine .some ((Arguments.oneOrTwo_agrees hab _).bind fun q hq v w hvw => ?_)
    obtain ⟨v, v'⟩ := v
    obtain ⟨w, w'⟩ := w
    refine (Heap.key_agrees hvw.1).bind fun r hr key _ h => ?_
    subst h
    refine (dictOf_agrees (hr (hq hxy))).bind fun s hs d e hde => ?_
    have hqs := hr.trans hs
    obtain ⟨ha, hb⟩ | ⟨a, b, ha, hb, hab⟩ := (hde.get? key).elim <;> rw [ha, hb]
    · refine (Heap.chargeInsert_agrees (hqs (hq hxy))).bind fun t ht _ _ _ => ?_
      have hqt := hqs.trans ht
      have hdefault := (hvw.2.mono hqt).getD .none
      refine (Heap.modifyDict_agrees (hqt (hq hxy)) fun d e h =>
        h.insert key (hvw.1.mono hqt) hdefault).bind fun u hu _ _ _ => ?_
      exact .ret (hdefault.mono hu)
    · exact .ret hab
  · refine .some ((entriesOfCall_agrees _ hab).bind fun q hq _ _ hes => ?_)
    refine (Agree.forM (T := BothAlike κ) BothAlike.mono hes fun r hr _ _ h => ?_).bind
      fun _ _ _ _ _ => .ret .none
    exact put_agrees (hr (hq hxy)) h.1 h.2
  · refine .some ((Arguments.nothing_agrees hab _).bind fun q hq _ _ _ => ?_)
    exact (dictOf_agrees (hq hxy)).bind fun _ _ _ _ hde => Heap.alloc_agrees (.dict hde)
  · refine .some ((Arguments.nothing_agrees hab _).bind fun q hq _ _ _ => ?_)
    exact (Heap.modifyDict_agrees (hq hxy) fun _ _ _ => .empty).bind fun _ _ _ _ _ => .ret .none
  · exact .none

end DictMethod

end Resumable
