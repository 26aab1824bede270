import Resumable.Proofs.Lockstep.Value

/-!
# Heaps in lockstep

`Heap.Linked κ p h k`: slots that `p` pairs are in use in both heaps and hold cells that are alike,
the second heap keeps what the world says, and the free lists are exact. Allocations, insertions and
changes of cells keep heaps linked, under a pairing that grows with every allocation.
-/

namespace Resumable

open List (Forall₂)

variable {κ : World} {p q : Pairing}

/-- Iterators in the same state. -/
inductive Iter.Alike (κ : World) (p : Pairing) : Iter → Iter → Prop
  | list {x y} (position) : p.rel x y → Alike κ p (.list x position) (.list y position)
  | items {vs ws} (position) : ItemsAlike κ p vs ws →
      Alike κ p (.items vs position) (.items ws position)
  | range (next stop step) : Alike κ p (.range next stop step) (.range next stop step)

/-- Cells whose contents are alike. -/
inductive Cell.Alike (κ : World) (p : Pairing) : Cell → Cell → Prop
  | list {vs ws} : ItemsAlike κ p vs ws → Alike κ p (.list vs) (.list ws)
  | dict {d e} : Dict.Alike κ p d e → Alike κ p (.dict d) (.dict e)
  | iter {s t} : Iter.Alike κ p s t → Alike κ p (.iter s) (.iter t)

theorem ItemsAlike.size_eq {vs ws : Array Value} (h : ItemsAlike κ p vs ws) :
    vs.size = ws.size := h.length_eq

theorem ItemsAlike.isEmpty_eq {vs ws : Array Value} (h : ItemsAlike κ p vs ws) :
    vs.isEmpty = ws.isEmpty := by
  rw [← Array.isEmpty_toList, ← Array.isEmpty_toList]
  exact List.Forall₂.isEmpty_eq h

theorem Iter.Alike.mono {s t : Iter} (h : s.Alike κ p t) (hpq : p ≤ q) : s.Alike κ q t := by
  cases h with
  | list position h => exact .list position (hpq h)
  | items position h => exact .items position (h.mono hpq)
  | range next stop step => exact .range next stop step

theorem Cell.Alike.mono {c d : Cell} (h : c.Alike κ p d) (hpq : p ≤ q) : c.Alike κ q d := by
  cases h with
  | list h => exact .list (h.mono hpq)
  | dict h => exact .dict (h.mono hpq)
  | iter h => exact .iter (h.mono hpq)

theorem Cell.Alike.eq {c d : Cell} (h : c.Alike κ p d) (hp : ∀ x y, p.rel x y → x = y) : c = d := by
  cases h with
  | list h => rw [h.eq hp]
  | dict h => rw [h.eq hp]
  | iter h =>
    cases h with
    | list position h => rw [hp _ _ h]
    | items position h => rw [h.eq hp]
    | range next stop step => rfl

theorem Cell.Alike.bytes_eq {c d : Cell} (h : c.Alike κ p d) : c.bytes = d.bytes := by
  cases h with
  | list h => simp only [Cell.bytes, h.size_eq]
  | dict h => simp only [Cell.bytes, h.size_eq]
  | iter h =>
    cases h with
    | items position h => simp only [Cell.bytes, h.size_eq]
    | list position h => rfl
    | range next stop step => rfl

namespace Heap

/-! ## Slots -/

/-- The free list holds the empty slots, each once. -/
structure Exact (h : Heap) : Prop where
  nodup : h.free.Nodup
  mem_free : ∀ x, x ∈ h.free ↔ h.slots[x]? = some none

theorem exact_ofBudget (b : Budget) : (ofBudget b).Exact := ⟨List.nodup_nil, by simp [ofBudget]⟩

theorem cell?_eq_none {h : Heap} {x : Nat} (hx : h.slots[x]? = some none) : h.cell? x = none := by
  rw [cell?, hx]

/-- The slot that the next allocation takes. -/
def nextSlot (h : Heap) : Nat := h.free.head?.getD h.slots.size

theorem cell?_nextSlot {h : Heap} (hh : h.Exact) : h.cell? h.nextSlot = none := by
  unfold nextSlot
  cases hf : h.free with
  | nil => simp [cell?]
  | cons x free => exact cell?_eq_none ((hh.mem_free x).mp (by simp [hf]))

theorem place_fst (h : Heap) (s : Slot) : (h.place s).1 = h.nextSlot := by
  unfold place nextSlot
  cases h.free <;> rfl

theorem place_budget (h : Heap) (s : Slot) : (h.place s).2.budget = h.budget := by
  unfold place
  cases h.free <;> rfl

theorem place_under (h : Heap) (b : Budget) (s : Slot) :
    { h with budget := b }.place s = ((h.place s).1, { (h.place s).2 with budget := b }) := by
  unfold place
  cases h.free <;> rfl

theorem cell?_place {h : Heap} (hh : h.Exact) (s : Slot) (x : Nat) :
    (h.place s).2.cell? x = if x = h.nextSlot then some s.cell else h.cell? x := by
  unfold place nextSlot
  cases hf : h.free with
  | nil =>
    by_cases hx : x = h.slots.size
    · simp [cell?, hx]
    · simp [cell?, hx, Array.getElem?_push]
  | cons y free =>
    have hy := (hh.mem_free y).mp (by simp [hf])
    by_cases hx : x = y
    · have hlt : y < h.slots.size := (Array.getElem?_eq_some_iff.mp hy).1
      simp [cell?, hx, hlt]
    · simp [cell?, hx, Ne.symm hx]

theorem Exact.place {h : Heap} (hh : h.Exact) (s : Slot) : (h.place s).2.Exact := by
  unfold Heap.place
  cases hf : h.free with
  | nil =>
    refine ⟨by simp, fun x => ?_⟩
    have := hh.mem_free x
    simp only [hf, Array.getElem?_push] at this ⊢
    split <;> simp_all
  | cons y free =>
    have hn := hh.nodup
    rw [hf, List.nodup_cons] at hn
    refine ⟨hn.2, fun x => ?_⟩
    have := hh.mem_free x
    simp only [hf, List.mem_cons, Array.getElem?_setIfInBounds] at this ⊢
    split
    · next hxy =>
      subst hxy
      simp [hn.1]
    · next hxy => simpa [Ne.symm hxy] using this

theorem alloc_eq (c : Cell) (h : Heap) :
    alloc c h = match h.budget.allocate c.bytes with
      | .ok budget =>
        let placed := { h with budget, recent := h.recent + 1 }.place ⟨c, c.bytes⟩
        .ok (.ref placed.1) placed.2
      | .error e => .error (.ofLimit e) h := by
  have hread : ∀ f : Heap → Action Value, (get >>= f) h = f h h := fun _ => rfl
  simp only [alloc, charge, bind_assoc]
  rw [hread]
  cases h.budget.allocate c.bytes <;> rfl

theorem cell?_eq_map (h : Heap) (x : Nat) : h.cell? x = h.slots[x]?.join.map (·.cell) := by
  unfold cell?
  cases h.slots[x]? with
  | none => rfl
  | some s => cases s <;> rfl

theorem cell?_modify (h : Heap) (x y : Nat) (f : Slot → Slot) :
    ({ h with slots := h.slots.modify x (Option.map f) } : Heap).cell? y =
      if x = y then h.slots[y]?.join.map fun s => (f s).cell else h.cell? y := by
  simp only [cell?_eq_map, Array.getElem?_modify]
  by_cases hxy : x = y
  · rw [if_pos hxy, if_pos hxy]
    rcases h.slots[y]? with _ | _ | s <;> rfl
  · rw [if_neg hxy, if_neg hxy]

theorem exists_modifyCell {h : Heap} {x : Nat} {c : Cell} (hcell : h.cell? x = some c)
    (f : Cell → Cell) : ∃ k, modifyCell x f h = .ok () k ∧ k.cell? x = some (f c) := by
  refine ⟨_, rfl, ?_⟩
  rw [cell?_modify, if_pos rfl]
  rw [cell?_eq_map] at hcell
  obtain ⟨s, hs, rfl⟩ := Option.map_eq_some_iff.mp hcell
  rw [hs, Option.map_some]

theorem Exact.modify {h : Heap} (hh : h.Exact) (x : Nat) (f : Slot → Slot) :
    ({ h with slots := h.slots.modify x (Option.map f) } : Heap).Exact := by
  refine ⟨hh.nodup, fun y => (hh.mem_free y).trans ?_⟩
  simp only [Array.getElem?_modify]
  split
  · cases h.slots[y]? with
    | none => simp
    | some s => simp
  · rfl

/-! ## Heaps whose paired slots hold the same -/

/-- Paired slots hold cells that are alike, and the free lists are exact. -/
structure Linked (κ : World) (p : Pairing) (h k : Heap) : Prop where
  cells : ∀ {x y}, p.rel x y →
    ∃ c d, h.cell? x = some c ∧ k.cell? y = some d ∧ c.Alike κ p d
  kept : ∀ {y c}, κ.kept y c → k.cell? y = some c ∧ ∀ x, ¬ p.rel x y
  left : h.Exact
  right : k.Exact

/-- Linked heaps with budgets that refuse the same things, which are all that is different in them
if the world says so. -/
structure Paired (κ : World) (p : Pairing) (h k : Heap) : Prop extends Linked κ p h k where
  budget : κ.budget h.budget k.budget
  fixed : κ.fixed → (∃ budget, k = { h with budget }) ∧ ∀ x y, p.rel x y → x = y

namespace Linked

variable {h k : Heap}

theorem symm_cells {κ : World} (hl : Linked κ p h k) {x y : Nat} (hxy : p.rel x y) :
    h.cell? x ≠ none ∧ k.cell? y ≠ none := by
  obtain ⟨c, d, hc, hd, -⟩ := hl.cells hxy
  simp [hc, hd]

theorem of_cells {h' k' : Heap} (hl : Linked κ p h k) (hh : ∀ x, h'.cell? x = h.cell? x)
    (hk : ∀ x, k'.cell? x = k.cell? x) (left : h'.Exact) (right : k'.Exact) :
    Linked κ p h' k' := by
  refine ⟨fun hxy => ?_, fun hc => ?_, left, right⟩
  · rw [hh, hk]
    exact hl.cells hxy
  · rw [hk]
    exact hl.kept hc

/-- A change that keeps paired cells alike. -/
theorem modify (hl : Linked κ p h k) {x y : Nat} (hxy : p.rel x y) {f g : Cell → Cell}
    (hfg : ∀ c d, c.Alike κ p d → (f c).Alike κ p (g d)) :
    Linked κ p
      { h with slots := h.slots.modify x (Option.map fun s => { s with cell := f s.cell }) }
      { k with slots := k.slots.modify y (Option.map fun s => { s with cell := g s.cell }) } := by
  refine ⟨fun {a b} hab => ?_, fun {b c} hc => ?_, hl.left.modify _ _, hl.right.modify _ _⟩
  · obtain ⟨c, d, hc, hd, hcd⟩ := hl.cells hab
    simp only [cell?_modify]
    by_cases hax : x = a
    · subst hax
      obtain rfl := p.unique_right hxy hab
      rw [cell?_eq_map] at hc hd
      refine ⟨f c, g d, ?_, ?_, hfg c d hcd⟩
      · simpa using congrArg (Option.map f) hc
      · simpa using congrArg (Option.map g) hd
    · have hby : y ≠ b := fun hyb => hax (p.unique_left hxy (hyb ▸ hab))
      rw [if_neg hax, if_neg hby]
      exact ⟨c, d, hc, hd, hcd⟩
  · obtain ⟨hb, hunpaired⟩ := hl.kept hc
    have hyb : y ≠ b := fun hyb => hunpaired x (hyb ▸ hxy)
    rw [cell?_modify, if_neg hyb]
    exact ⟨hb, hunpaired⟩

theorem unpaired_left (hl : Linked κ p h k) : ∀ z, ¬ p.rel h.nextSlot z :=
  fun _ hz => (hl.symm_cells hz).1 (cell?_nextSlot hl.left)

theorem unpaired_right (hl : Linked κ p h k) : ∀ z, ¬ p.rel z k.nextSlot :=
  fun _ hz => (hl.symm_cells hz).2 (cell?_nextSlot hl.right)

/-- Allocations of cells that are alike keep heaps linked, with their slots as a new pair. -/
theorem place (hl : Linked κ p h k) {s t : Slot} (hst : s.cell.Alike κ p t.cell) :
    Linked κ (p.extend _ _ hl.unpaired_left hl.unpaired_right) (h.place s).2 (k.place t).2 := by
  refine ⟨fun {x y} hxy => ?_, fun {y c} hc => ?_, hl.left.place s, hl.right.place t⟩
  · rw [cell?_place hl.left, cell?_place hl.right]
    rcases hxy with ⟨rfl, rfl⟩ | hxy
    · rw [if_pos rfl, if_pos rfl]
      exact ⟨_, _, rfl, rfl, hst.mono Pairing.le_extend⟩
    · obtain ⟨c, d, hc, hd, hcd⟩ := hl.cells hxy
      have hx : x ≠ h.nextSlot := fun hx => hl.unpaired_left _ (hx ▸ hxy)
      have hy : y ≠ k.nextSlot := fun hy => hl.unpaired_right _ (hy ▸ hxy)
      rw [if_neg hx, if_neg hy]
      exact ⟨c, d, hc, hd, hcd.mono Pairing.le_extend⟩
  · obtain ⟨hy, hunpaired⟩ := hl.kept hc
    have hne : y ≠ k.nextSlot := by
      rintro rfl
      rw [cell?_nextSlot hl.right] at hy
      cases hy
    rw [cell?_place hl.right, if_neg hne]
    exact ⟨hy, fun x => not_or.mpr ⟨fun h => hne h.2, hunpaired x⟩⟩

end Linked

/-! ## Actions -/

/-- The actions on heaps end alike. -/
abbrev Agrees (κ : World) {α β : Type} (p : Pairing) (R : Pairing → α → β → Prop)
    (a : Action α) (b : Action β) : Prop := Agree (Paired κ) (Paired κ) p R a b

/-- A change that keeps paired cells alike. -/
theorem Paired.modify {h k : Heap} (hp : Paired κ p h k) {x y : Nat} (hxy : p.rel x y)
    {f g : Cell → Cell} (hfg : ∀ c d, c.Alike κ p d → (f c).Alike κ p (g d)) :
    Paired κ p
      { h with slots := h.slots.modify x (Option.map fun s => { s with cell := f s.cell }) }
      { k with slots := k.slots.modify y (Option.map fun s => { s with cell := g s.cell }) } := by
  refine ⟨hp.toLinked.modify hxy hfg, hp.budget, fun hκ => ?_⟩
  obtain ⟨⟨budget, rfl⟩, hid⟩ := hp.fixed hκ
  obtain rfl := hid x y hxy
  refine ⟨⟨budget, ?_⟩, hid⟩
  obtain ⟨c, d, hc, hd, hcd⟩ := hp.cells hxy
  obtain rfl := Option.some.inj (hc.symm.trans hd)
  have hslots : h.slots.modify x (Option.map fun s => { s with cell := f s.cell }) =
      h.slots.modify x (Option.map fun s => { s with cell := g s.cell }) := by
    refine Array.ext_getElem? fun i => ?_
    rw [Array.getElem?_modify, Array.getElem?_modify]
    split
    · next hi =>
      subst hi
      rw [cell?] at hc
      rcases hs : h.slots[x]? with _ | _ | s
      · rfl
      · rfl
      · rw [hs] at hc
        obtain rfl := Option.some.inj hc
        simp only [Option.map_some, (hfg _ _ hcd).eq hid]
    · rfl
  rw [hslots]

theorem withinLimit_agrees {α β : Type} {R : Pairing → α → β → Prop} {x : Except LimitError α}
    {y : Except LimitError β} (h : SameEnd Eq (R p) x y) :
    Agrees κ p R (withinLimit x) (withinLimit y) := by
  cases h with
  | ok h => exact .ret h
  | error h => exact h ▸ .fail _

theorem charge_agrees (bytes : Nat) : Agrees κ p Same (charge bytes) (charge bytes) := by
  refine .read fun h k hp => ?_
  refine Agree.bind (withinLimit_agrees (R := fun _ => κ.budget) (κ.allocate hp.budget bytes))
    fun q _ a b hab => .change fun h k hp => ⟨q, le_rfl, ⟨?_, hab, fun hκ => ?_⟩, rfl⟩
  · exact hp.of_cells (fun _ => rfl) (fun _ => rfl) ⟨hp.left.nodup, hp.left.mem_free⟩
      ⟨hp.right.nodup, hp.right.mem_free⟩
  · obtain ⟨⟨budget, rfl⟩, hid⟩ := hp.fixed hκ
    exact ⟨⟨b, rfl⟩, hid⟩

/-- The slots that two allocations take are paired from then on. -/
theorem Paired.place {h k : Heap} (hp : Paired κ p h k) {s t : Slot}
    (hst : s.cell.Alike κ p t.cell) (hcharged : s.charged = t.charged) :
    ∃ q, p ≤ q ∧ q.rel (h.place s).1 (k.place t).1 ∧ Paired κ q (h.place s).2 (k.place t).2 := by
  have hl := hp.toLinked
  refine ⟨p.extend _ _ hl.unpaired_left hl.unpaired_right, Pairing.le_extend,
    .inl ⟨place_fst h s, place_fst k t⟩, hl.place hst, ?_, fun hκ => ?_⟩
  · rw [place_budget, place_budget]; exact hp.budget
  · obtain ⟨⟨budget, rfl⟩, hid⟩ := hp.fixed hκ
    obtain ⟨c, charged⟩ := s
    obtain ⟨d, charged'⟩ := t
    obtain rfl : c = d := hst.eq hid
    obtain rfl : charged = charged' := hcharged
    have hplace := place_under h budget ⟨c, charged⟩
    refine ⟨⟨budget, congrArg Prod.snd hplace⟩, ?_⟩
    rintro x y (⟨rfl, rfl⟩ | hxy)
    · rfl
    · exact hid x y hxy

theorem alloc_agrees {c d : Cell} (hcd : c.Alike κ p d) :
    Agrees κ p (Value.Alike κ) (alloc c) (alloc d) := by
  unfold alloc
  rw [hcd.bytes_eq]
  refine (charge_agrees d.bytes).bind fun q hq _ _ _ => .change fun h k hp => ?_
  have hp' : Paired κ q { h with recent := h.recent + 1 } { k with recent := k.recent + 1 } := by
    refine ⟨hp.of_cells (fun _ => rfl) (fun _ => rfl) ⟨hp.left.nodup, hp.left.mem_free⟩
      ⟨hp.right.nodup, hp.right.mem_free⟩, hp.budget, fun hκ => ?_⟩
    obtain ⟨⟨budget, rfl⟩, hid⟩ := hp.fixed hκ
    exact ⟨⟨budget, rfl⟩, hid⟩
  obtain ⟨r, hr, hxy, hl⟩ :=
    hp'.place (s := ⟨c, d.bytes⟩) (t := ⟨d, d.bytes⟩) (hcd.mono hq) rfl
  exact ⟨r, hr, hl, .ref hxy⟩

theorem allocList_agrees {vs ws : Array Value} (h : ItemsAlike κ p vs ws) :
    Agrees κ p (Value.Alike κ) (allocList vs) (allocList ws) := alloc_agrees (.list h)

theorem modifyCell_agrees {x y : Nat} (hxy : p.rel x y) {f g : Cell → Cell}
    (hfg : ∀ c d, c.Alike κ p d → (f c).Alike κ p (g d)) :
    Agrees κ p Same (modifyCell x f) (modifyCell y g) :=
  .change fun _ _ hp => ⟨p, le_rfl, hp.modify hxy hfg, rfl⟩

theorem modifyList_agrees {x y : Nat} (hxy : p.rel x y) {f g : Array Value → Array Value}
    (hfg : ∀ vs ws, ItemsAlike κ p vs ws → ItemsAlike κ p (f vs) (g ws)) :
    Agrees κ p Same (modifyList x f) (modifyList y g) := by
  refine modifyCell_agrees hxy fun c d h => ?_
  cases h with
  | list h => exact .list (hfg _ _ h)
  | dict h => exact .dict h
  | iter h => exact .iter h

theorem modifyDict_agrees {x y : Nat} (hxy : p.rel x y) {f g : Dict → Dict}
    (hfg : ∀ d e, d.Alike κ p e → (f d).Alike κ p (g e)) :
    Agrees κ p Same (modifyDict x f) (modifyDict y g) := by
  refine modifyCell_agrees hxy fun c d h => ?_
  cases h with
  | list h => exact .list h
  | dict h => exact .dict (hfg _ _ h)
  | iter h => exact .iter h

theorem chargeInsert_agrees {x y : Nat} (hxy : p.rel x y) :
    Agrees κ p Same (chargeInsert x) (chargeInsert y) := by
  refine (charge_agrees Cell.valueBytes).bind fun q hq _ _ _ => .change fun h k hp => ?_
  refine ⟨q, le_rfl, ⟨?_, hp.budget, fun hκ => ?_⟩, rfl⟩
  · refine hp.of_cells (fun z => ?_) (fun z => ?_) (hp.left.modify _ _) (hp.right.modify _ _)
    all_goals
      rw [cell?_modify, cell?_eq_map]
      exact ite_self _
  · obtain ⟨⟨budget, rfl⟩, hid⟩ := hp.fixed hκ
    obtain rfl := hid x y (hq hxy)
    exact ⟨⟨budget, rfl⟩, hid⟩

theorem checkResult_agrees (bytes : Nat) :
    Agrees κ p Same (checkResult bytes) (checkResult bytes) := by
  refine .read fun h k hp => ?_
  rw [κ.checkResult hp.budget]
  cases k.budget.checkResult bytes with
  | ok => exact .ret rfl
  | error e => exact .fail _

theorem checkLarge_agrees (bytes : Nat) :
    Agrees κ p Same (checkLarge bytes) (checkLarge bytes) := by
  unfold checkLarge
  exact .fork Iff.rfl (fun _ => checkResult_agrees bytes) fun _ => .ret rfl

/-! ## What is read from values and heaps -/

section
variable {h k : Heap} (hl : Linked κ p h k)
include hl

theorem typeName_eq {v w : Value} (hvw : v.Alike κ p w) : h.typeName v = k.typeName w := by
  cases hvw with
  | ref hxy =>
    obtain ⟨c, d, hc, hd, hcd⟩ := hl.cells hxy
    rw [typeName, typeName, hc, hd]
    cases hcd <;> rfl
  | _ => rfl

theorem isTruthy_eq {v w : Value} (hvw : v.Alike κ p w) : h.isTruthy v = k.isTruthy w := by
  cases hvw with
  | ref hxy =>
    obtain ⟨c, d, hc, hd, hcd⟩ := hl.cells hxy
    rw [isTruthy, isTruthy, hc, hd]
    cases hcd with
    | list h => simp only [h.isEmpty_eq]
    | dict h => simp only [h.size_eq]
    | iter h => rfl
  | tuple h => rw [isTruthy, isTruthy, h.isEmpty_eq]
  | namedTuple type fields h => rw [isTruthy, isTruthy, h.isEmpty_eq]
  | _ => rfl

end

theorem key_agrees {v w : Value} (hvw : v.Alike κ p w) : Agrees κ p Same (key v) (key w) := by
  unfold key
  obtain ⟨a, b, ha, hb, rfl⟩ | ⟨e, d, he, hd, hed⟩ := hvw.key.elim
  · rw [ha, hb]; exact .ret rfl
  · rw [he, hd]
    refine .read fun h k hp => ?_
    rw [typeName_eq hp.toLinked hed]
    exact .fail _

end Heap

end Resumable
