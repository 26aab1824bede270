import Mathlib.Data.List.Nodup
import Mathlib.Data.Fintype.Card
import Resumable.Heap.Conversion
import Resumable.Proofs.Lockstep.Heap

/-!
# Conversion in lockstep

Values that are alike become the same object. The conversion stops at an entry inside itself, and
otherwise goes on at most once for every slot: the bounds on its depth, which differ between the two
heaps, are never what ends it. An object becomes values that are alike.
-/

namespace Resumable

open List (Forall₂)

variable {κ : World} {p : Pairing}

/-! ## Values as objects -/

mutual

theorem Value.Alike.toObjectBy_eq {f g : Nat → Object} (hfg : ∀ {x y}, p.rel x y → f x = g y)
    {v w : Value} (h : v.Alike κ p w) : v.toObjectBy f = w.toObjectBy g := by
  cases h with
  | ref h => simpa only [Value.toObjectBy] using hfg h
  | tuple h => simp only [Value.toObjectBy, toObjectsBy_eq hfg [] h]
  | namedTuple type fields h => simp only [Value.toObjectBy, toObjectsBy_eq hfg [] h]
  | _ => simp only [Value.toObjectBy]

theorem toObjectsBy_eq {f g : Nat → Object} (hfg : ∀ {x y}, p.rel x y → f x = g y)
    (done : List Object) {vs ws : List Value} (h : AllAlike κ p vs ws) :
    Value.toObjectsBy f done vs = Value.toObjectsBy g done ws := by
  cases h with
  | nil => simp only [Value.toObjectsBy]
  | cons h hs =>
    rw [Value.toObjectsBy, Value.toObjectsBy, h.toObjectBy_eq hfg, toObjectsBy_eq hfg _ hs]

end

namespace Heap

/-- Distinct slots of a heap are no more than it has. -/
theorem length_le_of_live {h : Heap} {xs : List Nat} (hn : xs.Nodup)
    (hlive : ∀ x ∈ xs, h.cell? x ≠ none) : xs.length ≤ h.slots.size := by
  have hsub : xs ⊆ List.range h.slots.size := fun x hx => by
    rw [List.mem_range]
    by_contra hle
    exact hlive x hx (by rw [cell?, Array.getElem?_eq_none (Nat.le_of_not_lt hle)])
  simpa using (List.subperm_of_subset hn hsub).length_le

/-- The entries that enclose another one are distinct, and there are fewer than `depth` others. -/
structure Enclosing (h : Heap) (depth : Nat) (around : List Nat) : Prop where
  nodup : around.Nodup
  live : ∀ x ∈ around, h.cell? x ≠ none
  depth : h.slots.size < depth + around.length

theorem Enclosing.nil (h : Heap) : Enclosing h (h.slots.size + 1) [] :=
  ⟨.nil, by simp, by simp⟩

theorem Enclosing.pos {h : Heap} {xs : List Nat} (he : Enclosing h 0 xs) : False := by
  have := length_le_of_live he.nodup he.live
  have := he.depth
  omega

theorem Enclosing.cons {h : Heap} {n : Nat} {xs : List Nat} (he : Enclosing h (n + 1) xs)
    {x : Nat} (hx : xs.contains x = false) (hlive : h.cell? x ≠ none) :
    Enclosing h n (x :: xs) := by
  refine ⟨List.nodup_cons.mpr ⟨by simpa using hx, he.nodup⟩, ?_, ?_⟩
  · simpa using ⟨hlive, he.live⟩
  · have := he.depth
    simp only [List.length_cons]
    omega

theorem contains_eq {xs ys : List Nat} (hxs : Forall₂ p.rel xs ys) {x y : Nat}
    (hxy : p.rel x y) : xs.contains x = ys.contains y := by
  induction hxs with
  | nil => rfl
  | cons h _ ih => rw [List.contains_cons, List.contains_cons, Pairing.beq_eq hxy h, ih]

section
variable {h k : Heap} (hl : Linked κ p h k)
include hl

theorem cellObject_eq {n m : Nat} {xs ys : List Nat} (hxs : Forall₂ p.rel xs ys)
    (hx : Enclosing h n xs) (hy : Enclosing k m ys) {x y : Nat} (hxy : p.rel x y) :
    h.cellObject n xs x = k.cellObject m ys y := by
  induction n generalizing m xs ys x y with
  | zero => exact hx.pos.elim
  | succ n ih =>
    cases m with
    | zero => exact hy.pos.elim
    | succ m =>
      obtain ⟨c, d, hc, hd, hcd⟩ := hl.cells hxy
      have hin := contains_eq hxs hxy
      -- what the entry holds is converted with the entry itself around it
      have inside : xs.contains x = false → ∀ {v w : Value}, v.Alike κ p w →
          v.toObjectBy (h.cellObject n (x :: xs)) = w.toObjectBy (k.cellObject m (y :: ys)) :=
        fun hnot _ _ hvw => hvw.toObjectBy_eq fun hab => ih (.cons hxy hxs)
          (hx.cons hnot (by simp [hc])) (hy.cons (hin ▸ hnot) (by simp [hd])) hab
      simp only [cellObject, hc, hd, hin]
      rw [hin] at inside
      cases hcd with
      | iter => rfl
      | list hvs =>
        simp only
        by_cases hnot : ys.contains y = true
        · rw [if_pos hnot, if_pos hnot]
        · rw [if_neg hnot, if_neg hnot]
          exact congrArg _ (hvs.map_congr fun _ _ => inside (by simpa using hnot))
      | dict hes =>
        simp only
        by_cases hnot : ys.contains y = true
        · rw [if_pos hnot, if_pos hnot]
        · rw [if_neg hnot, if_neg hnot]
          refine congrArg _ (List.Forall₂.map_congr hes fun e f hef => ?_)
          rw [inside (by simpa using hnot) hef.name, inside (by simpa using hnot) hef.value]

theorem toObject_eq {v w : Value} (hvw : v.Alike κ p w) : h.toObject v = k.toObject w :=
  hvw.toObjectBy_eq fun hxy => cellObject_eq hl .nil (.nil h) (.nil k) hxy

theorem literal_eq {v w : Value} (hvw : v.Alike κ p w) : h.literal v = k.literal w :=
  congrArg Object.literal (toObject_eq hl hvw)

theorem text_eq {v w : Value} (hvw : v.Alike κ p w) : h.text v = k.text w := by
  have ht := congrArg Object.text (toObject_eq hl hvw)
  cases hvw <;> first | rfl | exact ht

end

/-! ## Objects as values -/

mutual

theorem ofObject_agrees (p : Pairing) (o : Object) :
    Agrees κ p (Value.Alike κ) (ofObject o) (ofObject o) := by
  cases o with
  | tuple items =>
    rw [ofObject]
    exact (ofObjects_agrees .nil items).bind fun q _ _ _ h => .ret (.tuple h)
  | namedTuple type fields items =>
    rw [ofObject]
    exact (ofObjects_agrees .nil items).bind fun q _ _ _ h => .ret (.namedTuple type fields h)
  | list items =>
    rw [ofObject]
    exact (ofObjects_agrees .nil items).bind fun q _ _ _ h => allocList_agrees h
  | dict entries =>
    rw [ofObject]
    exact (ofEntries_agrees .empty entries).bind fun q _ _ _ h => alloc_agrees (.dict h)
  | repr shown => rw [ofObject]; exact .fail _
  | _ => rw [ofObject]; exact .ret (by constructor)

theorem ofObjects_agrees {p : Pairing} {vs ws : List Value} (h : AllAlike κ p vs ws)
    (os : List Object) : Agrees κ p (AllAlike κ) (ofObjects vs os) (ofObjects ws os) := by
  cases os with
  | nil =>
    rw [ofObjects, ofObjects]
    exact .ret (List.rel_reverse h)
  | cons o os =>
    rw [ofObjects, ofObjects]
    exact (ofObject_agrees p o).bind fun q hq _ _ hvw => ofObjects_agrees (.cons hvw (h.mono hq)) os

theorem ofEntries_agrees {p : Pairing} {d e : Dict} (h : d.Alike κ p e)
    (entries : List (Object × Object)) :
    Agrees κ p (Dict.Alike κ) (ofEntries d entries) (ofEntries e entries) := by
  rcases entries with _ | ⟨⟨o, o'⟩, rest⟩
  · rw [ofEntries, ofEntries]
    exact .ret h
  · rw [ofEntries, ofEntries]
    refine (ofObject_agrees p o).bind fun q hq _ _ hn => ?_
    refine (ofObject_agrees q o').bind fun r hr _ _ hv => ?_
    refine (key_agrees (hn.mono hr)).bind fun s hs _ _ hkey => ?_
    subst hkey
    exact ofEntries_agrees ((h.mono (hq.trans (hr.trans hs))).insert _ (hn.mono (hr.trans hs))
      (hv.mono hs)) rest

end

end Heap

end Resumable
