import Resumable.Operation.Sorting
import Resumable.Proofs.Lockstep.Heap
import Resumable.Proofs.Walk

/-!
# Comparing and sorting in lockstep

Values that are alike compare alike, so lists that are alike are sorted alike.

## Comparisons in lockstep

Values that are alike are equal to the same values, and have the same order. The bounds on the walks
through the two heaps differ, as one heap may have more slots, so the walks are first made equally
long.
-/

namespace Resumable

open List (Forall₂)

variable {κ : World} {p : Pairing}

/-! ### Equality -/

theorem allAnswer_congr {α β : Type} {R : α → β → Prop} {f : α → Option Bool}
    {g : β → Option Bool} {as : List α} {bs : List β} (h : Forall₂ R as bs)
    (hfg : ∀ a b, R a b → f a = g b) : allAnswer f as = allAnswer g bs := by
  induction h with
  | nil => rfl
  | cons h _ ih => rw [allAnswer, allAnswer, hfg _ _ h, ih]

theorem anyAnswer_congr {α β : Type} {R : α → β → Prop} {f : α → Option Bool}
    {g : β → Option Bool} {as : List α} {bs : List β} (h : Forall₂ R as bs)
    (hfg : ∀ a b, R a b → f a = g b) : anyAnswer f as = anyAnswer g bs := by
  induction h with
  | nil => rfl
  | cons h _ ih => rw [anyAnswer, anyAnswer, hfg _ _ h, ih]

/-- Comparisons of slots that give one answer for the slots of a pair of pairs. -/
def CellsAgree (p : Pairing) (f g : Nat → Nat → Option Bool) : Prop :=
  ∀ {x y x' y'}, p.rel x x' → p.rel y y' → f x y = g x' y'

mutual

theorem Value.Alike.equalBy_eq {f g : Nat → Nat → Option Bool} (hfg : CellsAgree p f g)
    {a b a' b' : Value} (ha : a.Alike κ p a') (hb : b.Alike κ p b') :
    Value.equalBy f a b = Value.equalBy g a' b' := by
  have hsame := ha.same_eq hb
  cases ha with
  | ref h => cases hb with
    | ref h' => simp only [Value.equalBy, Pairing.beq_eq h h', hfg h h']
    | _ => rfl
  | tuple h => cases hb with
    | tuple h' | namedTuple type fields h' =>
      simp only [Value.equalBy, h.length_eq, h'.length_eq, allEqualBy_eq hfg h h']
    | _ => rfl
  | namedTuple type fields h => cases hb with
    | tuple h' | namedTuple type fields h' =>
      simp only [Value.equalBy, h.length_eq, h'.length_eq, allEqualBy_eq hfg h h']
    | _ => rfl
  | function code h => cases hb with
    | function code' h' => exact congrArg some hsame
    | _ => rfl
  | gather h => cases hb with
    | gather h' => exact congrArg some hsame
    | _ => rfl
  | _ => cases hb <;> rfl

theorem allEqualBy_eq {f g : Nat → Nat → Option Bool} (hfg : CellsAgree p f g)
    {as bs as' bs' : List Value} (ha : AllAlike κ p as as') (hb : AllAlike κ p bs bs') :
    Value.allEqualBy f as bs = Value.allEqualBy g as' bs' := by
  cases ha with
  | nil => simp only [Value.allEqualBy]
  | cons h hs =>
    cases hb with
    | nil => simp only [Value.allEqualBy]
    | cons h' hs' =>
      rw [Value.allEqualBy, Value.allEqualBy, Value.Alike.equalBy_eq hfg h h',
        allEqualBy_eq hfg hs hs']

end

namespace Heap

section
variable {h k : Heap} (hl : Linked κ p h k)
include hl

theorem cellsEqualBy_agree {f g : Nat → Nat → Option Bool} (hfg : CellsAgree p f g) :
    CellsAgree p (h.cellsEqualBy f) (k.cellsEqualBy g) := by
  intro x y x' y' hx hy
  obtain ⟨c, d, hc, hd, hcd⟩ := hl.cells hx
  obtain ⟨c', d', hc', hd', hcd'⟩ := hl.cells hy
  unfold cellsEqualBy
  rw [hc, hc', hd, hd']
  cases hcd with
  | list ha => cases hcd' with
    | list hb =>
      simp only [ha.size_eq, hb.size_eq]
      rw [allAnswer_congr (ha.zip hb) fun a b hab => hab.1.equalBy_eq hfg hab.2]
    | _ => rfl
  | dict ha => cases hcd' with
    | dict hb =>
      simp only [ha.size_eq, hb.size_eq]
      rw [allAnswer_congr ha fun a b hab => ?_]
      rw [hab.key]
      have hget := hb.get? b.key
      revert hget
      generalize Dict.get? _ b.key = v
      generalize Dict.get? _ b.key = w
      intro hget
      cases hget with
      | none => rfl
      | some hvw => exact hab.value.equalBy_eq hfg hvw
    | _ => rfl
  | iter _ => rfl

theorem cellsEqual_agree (n : Nat) : CellsAgree p (h.cellsEqual n) (k.cellsEqual n) := by
  induction n with
  | zero => exact fun _ _ => rfl
  | succ n ih => exact cellsEqualBy_agree hl ih

theorem equal?_eq {a b a' b' : Value} (ha : a.Alike κ p a') (hb : b.Alike κ p b') :
    h.equal? a b = k.equal? a' b' := by
  unfold equal?
  rw [← h.cellsEqual_stable (Nat.le_max_left h.walkBound k.walkBound),
    ← k.cellsEqual_stable (Nat.le_max_right h.walkBound k.walkBound)]
  exact ha.equalBy_eq (cellsEqual_agree hl _) hb

end

end Heap

/-! ### Order -/

/-- Reasons why values have no order that read the same. -/
inductive Unordered.Alike (κ : World) (p : Pairing) : Unordered → Unordered → Prop
  | nan : Alike κ p .nan .nan
  | types {a b a' b'} : a.Alike κ p a' → b.Alike κ p b' → Alike κ p (.types a b) (.types a' b')
  | endless : Alike κ p .endless .endless

/-- Ends of comparisons that read the same. -/
abbrev OrderAlike (κ : World) (p : Pairing) :
    Except Unordered Ordering → Except Unordered Ordering → Prop :=
  SameEnd (Unordered.Alike κ p) Eq

theorem Value.Alike.compareNumbers {a b a' b' : Value} (ha : a.Alike κ p a')
    (hb : b.Alike κ p b') :
    OrderAlike κ p (Value.compareNumbers a b) (Value.compareNumbers a' b') := by
  unfold Value.compareNumbers
  rw [ha.number?_eq, hb.number?_eq]
  split
  · split
    · exact .ok rfl
    · split
      · exact .ok rfl
      · split
        · exact .ok rfl
        · exact .error .nan
  · exact .error (.types ha hb)

mutual

theorem Value.Alike.compareBy {equal equal' : Value → Value → Option Bool}
    {f g : Nat → Nat → Except Unordered Ordering}
    (heq : ∀ {a b a' b'}, a.Alike κ p a' → b.Alike κ p b' → equal a b = equal' a' b')
    (hfg : ∀ {x y x' y'}, p.rel x x' → p.rel y y' → OrderAlike κ p (f x y) (g x' y'))
    {a b a' b' : Value} (ha : a.Alike κ p a') (hb : b.Alike κ p b') :
    OrderAlike κ p (Value.compareBy equal f a b) (Value.compareBy equal' g a' b') := by
  have hn := ha.compareNumbers hb
  cases ha with
  | ref h => cases hb with
    | ref h' => simpa only [Value.compareBy] using hfg h h'
    | _ => exact hn
  | tuple h => cases hb with
    | tuple h' => simpa only [Value.compareBy] using compareAllBy_alike heq hfg h h'
    | _ => exact hn
  | str s => cases hb with
    | str t => exact .ok rfl
    | _ => exact hn
  | path s => cases hb with
    | path t => exact .ok rfl
    | _ => exact hn
  | bytes s => cases hb with
    | bytes t => exact .ok rfl
    | _ => exact hn
  | _ => cases hb <;> exact hn

theorem compareAllBy_alike {equal equal' : Value → Value → Option Bool}
    {f g : Nat → Nat → Except Unordered Ordering}
    (heq : ∀ {a b a' b'}, a.Alike κ p a' → b.Alike κ p b' → equal a b = equal' a' b')
    (hfg : ∀ {x y x' y'}, p.rel x x' → p.rel y y' → OrderAlike κ p (f x y) (g x' y'))
    {as bs as' bs' : List Value} (ha : AllAlike κ p as as') (hb : AllAlike κ p bs bs') :
    OrderAlike κ p (Value.compareAllBy equal f as bs) (Value.compareAllBy equal' g as' bs') := by
  cases ha with
  | nil =>
    cases hb with
    | nil => exact .ok rfl
    | cons _ _ => exact .ok rfl
  | cons h hs =>
    cases hb with
    | nil => exact .ok rfl
    | cons h' hs' =>
      rw [Value.compareAllBy, Value.compareAllBy, heq h h']
      split
      · exact compareAllBy_alike heq hfg hs hs'
      · exact h.compareBy heq hfg h'
      · exact .error .endless

end

namespace Heap

section
variable {h k : Heap} (hl : Linked κ p h k)
include hl

theorem compareCells_alike (n : Nat) {x y x' y' : Nat} (hx : p.rel x x') (hy : p.rel y y') :
    OrderAlike κ p (h.compareCells n x y) (k.compareCells n x' y') := by
  induction n generalizing x y x' y' with
  | zero => exact .error .endless
  | succ n ih =>
    obtain ⟨c, d, hc, hd, hcd⟩ := hl.cells hx
    obtain ⟨c', d', hc', hd', hcd'⟩ := hl.cells hy
    have hn : OrderAlike κ p (.error (.types (.ref x) (.ref y)))
        (.error (.types (.ref x') (.ref y'))) := .error (.types (.ref hx) (.ref hy))
    simp only [compareCells, compareCellsBy]
    rw [hc, hc', hd, hd']
    cases hcd with
    | list ha => cases hcd' with
      | list hb => exact compareAllBy_alike (equal?_eq hl) ih ha hb
      | _ => exact hn
    | _ => exact hn

theorem compare?_alike {a b a' b' : Value} (ha : a.Alike κ p a') (hb : b.Alike κ p b') :
    OrderAlike κ p (h.compare? a b) (k.compare? a' b') := by
  unfold compare?
  rw [← h.compareCells_stable (Nat.le_max_left h.walkBound k.walkBound),
    ← k.compareCells_stable (Nat.le_max_right h.walkBound k.walkBound)]
  exact ha.compareBy (equal?_eq hl) (compareCells_alike hl _) hb

theorem unordered_eq {e d : Unordered} (hed : e.Alike κ p d) : h.unordered e = k.unordered d := by
  cases hed with
  | nan => rfl
  | types ha hb => rw [unordered, unordered, typeName_eq hl ha, typeName_eq hl hb]
  | endless => rfl

end

/-! ### Comparisons as actions -/

theorem equal_agrees {a b a' b' : Value} (ha : a.Alike κ p a') (hb : b.Alike κ p b') :
    Agrees κ p Same (equal a b) (equal a' b') := by
  refine .read fun h k hp => ?_
  rw [equal?_eq hp.toLinked ha hb]
  cases k.equal? a' b' with
  | none => exact .fail _
  | some answer => exact .ret rfl

theorem compare_agrees {a b a' b' : Value} (ha : a.Alike κ p a') (hb : b.Alike κ p b') :
    Agrees κ p Same (compare a b) (compare a' b') := by
  refine .read fun h k hp => ?_
  obtain ⟨r, s, hr, hs, rfl⟩ | ⟨e, d, he, hd, hed⟩ := (compare?_alike hp.toLinked ha hb).elim
  · rw [hr, hs]; exact .ret rfl
  · rw [he, hd]
    simp only [unordered_eq hp.toLinked hed]
    exact .fail _

theorem isAmong_agrees {a a' : Value} {vs ws : List Value} (ha : a.Alike κ p a')
    (hvs : AllAlike κ p vs ws) : Agrees κ p Same (isAmong a vs) (isAmong a' ws) := by
  refine .read fun h k hp => ?_
  rw [anyAnswer_congr hvs fun v w hvw => equal?_eq hp.toLinked hvw ha]
  split
  · exact .ret rfl
  · exact .fail _

end Heap

end Resumable

/-!
## Sorting in lockstep

The sort asks its comparisons in an order that depends on the answers only. So lists that are alike
item by item are sorted into lists that are alike, and fail with failures that are alike.
-/

namespace Resumable

open List (Forall₂)

namespace Sorting

variable {α β ε δ : Type} {E : ε → δ → Prop} {R : α → β → Prop}

/-- Attempts with results in `S`, which keep failures in `E`. -/
def Alike {γ γ' : Type} (E : ε → δ → Prop) (S : γ → γ' → Prop) (x : Attempt ε γ)
    (y : Attempt δ γ') : Prop :=
  ∀ s t, Option.Rel E s t → S (x.run s).1 (y.run t).1 ∧ Option.Rel E (x.run s).2 (y.run t).2

theorem Alike.ret {γ γ' : Type} {S : γ → γ' → Prop} {a : γ} {b : γ'} (h : S a b) :
    Alike E S (pure a) (pure b) := fun _ _ hst => ⟨h, hst⟩

theorem Alike.bind {γ γ' ζ ζ' : Type} {S : γ → γ' → Prop} {S' : ζ → ζ' → Prop}
    {x : Attempt ε γ} {y : Attempt δ γ'} {f : γ → Attempt ε ζ} {g : γ' → Attempt δ ζ'}
    (h : Alike E S x y) (hfg : ∀ a b, S a b → Alike E S' (f a) (g b)) :
    Alike E S' (x >>= f) (y >>= g) := fun s t hst =>
  let ⟨hr, hs⟩ := h s t hst
  hfg _ _ hr _ _ hs

variable {less : α → α → Except ε Bool} {less' : β → β → Except δ Bool}
  (hless : ∀ a b a' b', R a a' → R b b' → SameEnd E Eq (less a b) (less' a' b'))
include hless

theorem ask_alike {a b : α} {a' b' : β} (ha : R a a') (hb : R b b') :
    Alike E Eq (ask less a b) (ask less' a' b') := by
  intro s t hst
  cases hst with
  | some hst => exact ⟨rfl, .some hst⟩
  | none =>
    obtain ⟨x, y, hx, hy, rfl⟩ | ⟨e, d, he, hd, hed⟩ := (hless _ _ _ _ ha hb).elim
    · simp only [ask, hx, hy]; exact ⟨rfl, .none⟩
    · simp only [ask, he, hd]; exact ⟨rfl, .some hed⟩

theorem insert_alike {a : α} {b : β} (hab : R a b) {as : List α} {bs : List β}
    (h : Forall₂ R as bs) : Alike E (Forall₂ R) (insert less a as) (insert less' b bs) := by
  induction h with
  | nil => exact .ret (.cons hab .nil)
  | cons h hs ih =>
    rw [insert, insert]
    refine (ask_alike hless hab h).bind fun x y hxy => ?_
    subst hxy
    cases x with
    | true => exact ih.bind fun _ _ hr => .ret (.cons h hr)
    | false => exact .ret (.cons hab (.cons h hs))

theorem insertAll_alike {done as : List α} {done' bs : List β} (hd : Forall₂ R done done')
    (h : Forall₂ R as bs) :
    Alike E (Forall₂ R) (insertAll less done as) (insertAll less' done' bs) := by
  induction h generalizing done done' with
  | nil => exact .ret (List.rel_reverse hd)
  | cons h _ ih =>
    rw [insertAll, insertAll]
    exact (insert_alike hless h hd).bind fun _ _ hr => ih hr

theorem merge_alike {done as bs : List α} {done' as' bs' : List β} (hd : Forall₂ R done done')
    (ha : Forall₂ R as as') (hb : Forall₂ R bs bs') :
    Alike E (Forall₂ R) (merge less done as bs) (merge less' done' as' bs') := by
  induction done, as, bs using merge.induct generalizing done' as' bs' with
  | case1 done bs =>
    cases ha
    rw [merge, merge]
    exact .ret ((List.rel_reverse hd).append hb)
  | case2 done as hne =>
    cases hb
    cases ha with
    | nil => exact (hne rfl).elim
    | cons h hs =>
      rw [merge, merge]
      · exact .ret ((List.rel_reverse hd).append (.cons h hs))
      all_goals simp
  | case3 done a as b bs ih ih' =>
    cases ha with
    | cons h hs => cases hb with
      | cons h' hs' =>
        rw [merge, merge]
        refine (ask_alike hless h' h).bind fun x y hxy => ?_
        subst hxy
        cases x with
        | true => exact ih (.cons h' hd) (.cons h hs) hs'
        | false => exact ih' (.cons h hd) hs (.cons h' hs')

theorem sortFrom_alike {as : List α} {bs : List β} (h : Forall₂ R as bs) :
    Alike E (Forall₂ R) (sortFrom less as) (sortFrom less' bs) := by
  induction as using sortFrom.induct generalizing bs with
  | case1 as hshort =>
    unfold sortFrom
    rw [if_pos hshort, if_pos (h.length_eq ▸ hshort)]
    exact insertAll_alike hless .nil h
  | case2 as hlong ih ih' =>
    unfold sortFrom
    rw [if_neg hlong, if_neg (h.length_eq ▸ hlong), h.length_eq]
    rw [h.length_eq] at ih ih'
    refine (ih (List.forall₂_take _ h)).bind fun _ _ hl => ?_
    refine (ih' (List.forall₂_drop _ h)).bind fun _ _ hr => ?_
    exact merge_alike hless .nil hl hr

theorem sort_alike {as : List α} {bs : List β} (h : Forall₂ R as bs) :
    Forall₂ R (sort less as).1 (sort less' bs).1 ∧
      Option.Rel E (sort less as).2 (sort less' bs).2 :=
  sortFrom_alike hless h _ _ .none

end Sorting

/-- A sort of images is one of what they are images of. -/
theorem Sorting.sort_map {α β ε : Type} (less : β → β → Except ε Bool) (f : α → β) (as : List α) :
    sort less (as.map f) =
      ((sort (fun a b => less (f a) (f b)) as).1.map f,
        (sort (fun a b => less (f a) (f b)) as).2) := by
  have hless (a b : β) (a' b' : α) (ha : a = f a') (hb : b = f b') :
      SameEnd Eq Eq (less a b) (less (f a') (f b')) := by
    rw [ha, hb]
    cases less (f a') (f b') with
    | ok r => exact .ok rfl
    | error e => exact .error rfl
  have himages : List.Forall₂ (fun b a => b = f a) (as.map f) as :=
    List.forall₂_map_left_iff.mpr (List.forall₂_same.mpr fun _ _ => rfl)
  obtain ⟨hitems, hfailed⟩ := sort_alike hless himages
  refine Prod.ext ?_ ?_
  · rwa [← List.forall₂_eq_eq_eq, List.forall₂_map_right_iff]
  · obtain ⟨he, hd⟩ | ⟨e, d, he, hd, rfl⟩ := hfailed.elim <;> exact he.trans hd.symm

variable {κ : World} {p : Pairing} {h k : Heap}

theorem Heap.comesBefore_alike (hl : Heap.Linked κ p h k) (descending : Bool) {a b a' b' : Value}
    (ha : a.Alike κ p a') (hb : b.Alike κ p b') :
    SameEnd (Unordered.Alike κ p) Eq (h.comesBefore descending a b)
      (k.comesBefore descending a' b') := by
  unfold comesBefore
  obtain ⟨r, s, hr, hs, rfl⟩ | ⟨e, d, he, hd, hed⟩ := (compare?_alike hl ha hb).elim
  · rw [hr, hs]; exact .ok rfl
  · rw [he, hd]; exact .error hed

theorem Heap.sorted_alike (hl : Heap.Linked κ p h k) (descending : Bool) {vs ws : Array Value}
    (hvs : ItemsAlike κ p vs ws) :
    ∃ as bs failed, h.sorted descending vs = (as, failed) ∧
      k.sorted descending ws = (bs, failed) ∧ ItemsAlike κ p as bs := by
  obtain ⟨hs, he⟩ := Sorting.sort_alike (R := Value.Alike κ p)
    (fun _ _ _ _ => comesBefore_alike hl descending) hvs
  have hfailed : (h.sorted descending vs).2 = (k.sorted descending ws).2 := by
    simp only [sorted]
    obtain ⟨he, hd⟩ | ⟨e, d, he, hd, hed⟩ := he.elim
    · rw [he, hd]
      rfl
    · rw [he, hd]
      exact congrArg some (unordered_eq hl hed)
  exact ⟨(h.sorted descending vs).1, (k.sorted descending ws).1, (h.sorted descending vs).2, rfl,
    Prod.ext rfl hfailed.symm, hs⟩

end Resumable
