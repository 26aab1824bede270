import Mathlib.Algebra.BigOperators.Group.Finset.Piecewise
import Mathlib.Algebra.Order.BigOperators.Group.Finset
import Resumable.Proofs.Lockstep.Heap

/-!
# How heaps grow and what slots are charged for

`h.growth k` counts what a heap `k` has more than an earlier heap `h`: each slot that has been taken
into use, and each entry that a container has gained. `h.Grows n k`: that is at most `n`, and every
slot of `h` that was in use still is.

`h.charged` is the sum of what has been charged for the slots in use. `Noted n h k`: a heap `k`
comes of `h` by changes that have noted another `n` bytes at slots in use. `h.Covered`: each slot
has been charged for the bytes of its cell, where an entry of a dict counts as one value.
-/

namespace Resumable

/-! ## Growth -/

/-- The number of entries of a container. -/
def Cell.entries : Cell → Nat
  | .list items => items.size
  | .dict d => d.size
  | .iter _ => 0

/-- What a slot has gained: it has been taken into use, or has more entries than before. -/
def slotGain : Option Cell → Option Cell → Nat
  | none, some _ => 1
  | some c, some d => d.entries - c.entries
  | _, none => 0

namespace Heap

/-- What the second heap has more than the first one. -/
def growth (h k : Heap) : Nat :=
  ∑ x ∈ Finset.range k.slots.size, slotGain (h.cell? x) (k.cell? x)

/-- A heap has grown by at most `n` slots and entries, and no slot has been freed. -/
structure Grows (n : Nat) (h k : Heap) : Prop where
  size : h.slots.size ≤ k.slots.size
  inUse : ∀ x, (h.cell? x).isSome → (k.cell? x).isSome
  growth : h.growth k ≤ n

variable {h i k : Heap} {n m : Nat}

theorem slotGain_self (c : Option Cell) : slotGain c c = 0 := by
  cases c with
  | none => rfl
  | some c => exact Nat.sub_self _

theorem slotGain_trans {a b c : Option Cell} (hab : a.isSome → b.isSome) :
    slotGain a c ≤ slotGain a b + slotGain b c := by
  cases a <;> cases b <;> cases c <;> simp_all [slotGain]; omega

theorem cell?_eq_none_of_size_le {x : Nat} (hx : h.slots.size ≤ x) : h.cell? x = none := by
  rw [cell?, Array.getElem?_eq_none hx]

/-- Slots beyond the heap gain nothing. -/
theorem growth_eq_sum {size : Nat} (hsize : k.slots.size ≤ size) :
    h.growth k = ∑ x ∈ Finset.range size, slotGain (h.cell? x) (k.cell? x) := by
  refine Finset.sum_subset (Finset.range_mono hsize) fun x _ hx => ?_
  rw [cell?_eq_none_of_size_le (Nat.le_of_not_lt fun h => hx (Finset.mem_range.mpr h))]
  cases h.cell? x <;> rfl

namespace Grows

theorem refl (h : Heap) : h.Grows 0 h where
  size := le_rfl
  inUse _ hx := hx
  growth := by simp [Heap.growth, slotGain_self]

theorem trans (hi : h.Grows n i) (hk : i.Grows m k) : h.Grows (n + m) k where
  size := hi.size.trans hk.size
  inUse x hx := hk.inUse x (hi.inUse x hx)
  growth := by
    calc h.growth k
        ≤ ∑ x ∈ Finset.range k.slots.size,
            (slotGain (h.cell? x) (i.cell? x) + slotGain (i.cell? x) (k.cell? x)) :=
          Finset.sum_le_sum fun x _ => slotGain_trans (hi.inUse x)
      _ = h.growth i + i.growth k := by
          rw [Finset.sum_add_distrib, ← growth_eq_sum hk.size, ← growth_eq_sum le_rfl]
      _ ≤ n + m := Nat.add_le_add hi.growth hk.growth

theorem mono (hk : h.Grows n k) (hnm : n ≤ m) : h.Grows m k :=
  { hk with growth := hk.growth.trans hnm }

/-- Heaps with the same slots. -/
theorem of_slots_eq (hk : k.slots = h.slots) : h.Grows 0 k where
  size := hk.symm ▸ le_rfl
  inUse x hx := by rwa [cell?, hk]
  growth := by simp [Heap.growth, cell?, hk, slotGain_self]

/-- Only one slot has gained something. -/
theorem of_slot (x : Nat) (hsize : h.slots.size ≤ k.slots.size)
    (hother : ∀ y, y ≠ x → k.cell? y = h.cell? y) (hx : (h.cell? x).isSome → (k.cell? x).isSome)
    (hgain : slotGain (h.cell? x) (k.cell? x) ≤ n) : h.Grows n k where
  size := hsize
  inUse y hy := by
    by_cases hyx : y = x
    · subst hyx; exact hx hy
    · rwa [hother y hyx]
  growth := by
    calc h.growth k ≤ ∑ y ∈ Finset.range k.slots.size, if y = x then n else 0 := by
          refine Finset.sum_le_sum fun y _ => ?_
          split
          · next hyx => subst hyx; exact hgain
          · next hyx => rw [hother y hyx, slotGain_self]
      _ ≤ n := by rw [Finset.sum_ite_eq']; split <;> omega

end Grows

/-- A cell that gets at most `n` more entries. -/
theorem grows_modify (h : Heap) (x : Nat) {f : Slot → Slot}
    (hf : ∀ s, h.slots[x]? = some (some s) → (f s).cell.entries ≤ s.cell.entries + n) :
    h.Grows n { h with slots := h.slots.modify x (Option.map f) } := by
  have hx : ∀ k : Heap, k = { h with slots := h.slots.modify x (Option.map f) } →
      k.cell? x = h.slots[x]?.join.map fun s => (f s).cell := by
    rintro _ rfl
    rw [cell?_modify, if_pos rfl]
  refine .of_slot x (by simp) (fun y hy => ?_) ?_ ?_
  · rw [cell?_modify, if_neg (Ne.symm hy)]
  · rw [hx _ rfl, cell?_eq_map]
    cases h.slots[x]?.join <;> simp
  · rw [hx _ rfl, cell?_eq_map]
    rcases hs : h.slots[x]? with _ | _ | s
    · exact Nat.zero_le _
    · exact Nat.zero_le _
    · exact Nat.sub_le_iff_le_add'.mpr (hf s hs)

theorem grows_place (hh : h.Exact) (s : Slot) : h.Grows 1 (h.place s).2 := by
  have hcell := cell?_place hh s
  refine .of_slot h.nextSlot ?_ (fun y hy => ?_) ?_ ?_
  · unfold place
    cases h.free <;> simp
  · rw [hcell, if_neg hy]
  · rw [hcell, if_pos rfl]
    exact fun _ => rfl
  · rw [hcell, if_pos rfl, cell?_nextSlot hh]
    exact le_rfl

end Heap

/-! ## Bytes of cells -/

/-- The bytes of a cell if an entry of a dict counts as one value. -/
def Cell.leastBytes : Cell → Nat
  | .dict d => slotBytes + d.size * valueBytes
  | c => c.bytes

theorem Cell.leastBytes_le_bytes (c : Cell) : c.leastBytes ≤ c.bytes := by
  cases c with
  | dict d =>
    simp only [leastBytes, bytes, Nat.add_le_add_iff_left]
    exact Nat.mul_le_mul_right _ (by omega)
  | _ => exact Nat.le_refl _

/-- A cell that has gained at most `n` items or entries, and counts for no more than these. -/
structure Cell.Gains (n : Nat) (c d : Cell) : Prop where
  entries : d.entries ≤ c.entries + n
  leastBytes : d.leastBytes ≤ c.leastBytes + n * valueBytes

theorem Cell.Gains.refl (n : Nat) (c : Cell) : c.Gains n c :=
  ⟨Nat.le_add_right _ _, Nat.le_add_right _ _⟩

theorem Cell.Gains.of_list {n : Nat} {items more : Array Value} (h : more.size ≤ items.size + n) :
    Gains n (.list items) (.list more) where
  entries := h
  leastBytes := by
    simp only [Cell.leastBytes, bytes, Nat.add_assoc, ← Nat.add_mul]
    exact Nat.add_le_add_left (Nat.mul_le_mul_right _ h) _

theorem Cell.Gains.of_dict {n : Nat} {d e : Dict} (h : e.size ≤ d.size + n) :
    Gains n (.dict d) (.dict e) where
  entries := h
  leastBytes := by
    simp only [Cell.leastBytes, Nat.add_assoc, ← Nat.add_mul]
    exact Nat.add_le_add_left (Nat.mul_le_mul_right _ h) _

/-- A change of the items of a cell that is a list. -/
def Cell.onList (f : Array Value → Array Value) : Cell → Cell
  | .list items => .list (f items)
  | c => c

/-- A change of the entries of a cell that is a dict. -/
def Cell.onDict (f : Dict → Dict) : Cell → Cell
  | .dict d => .dict (f d)
  | c => c

theorem Cell.onList_onList (f g : Array Value → Array Value) (c : Cell) :
    (c.onList f).onList g = c.onList (g ∘ f) := by
  cases c <;> rfl

theorem Cell.gains_onList {n : Nat} {f : Array Value → Array Value} (c : Cell)
    (hf : ∀ items, c = .list items → (f items).size ≤ items.size + n) :
    c.Gains n (c.onList f) := by
  cases c with
  | list items => exact .of_list (hf items rfl)
  | dict _ => exact .refl n _
  | iter _ => exact .refl n _

theorem Cell.gains_onDict {n : Nat} {f : Dict → Dict} (c : Cell)
    (hf : ∀ d, c = .dict d → (f d).size ≤ d.size + n) : c.Gains n (c.onDict f) := by
  cases c with
  | list _ => exact .refl n _
  | dict d => exact .of_dict (hf d rfl)
  | iter _ => exact .refl n _

/-- A slot that has been charged for more bytes. -/
def Slot.charge (s : Slot) (bytes : Nat) : Slot := { s with charged := s.charged + bytes }

/-- A slot whose cell has been changed. -/
def Slot.map (s : Slot) (f : Cell → Cell) : Slot := { s with cell := f s.cell }

/-- A slot has been charged for its cell. -/
def Slot.Covered (s : Slot) : Prop := s.cell.leastBytes ≤ s.charged

namespace Heap

variable {h i k : Heap} {n m : Nat}

/-- The slot with a number, if it is in use. -/
def slot? (h : Heap) (x : Nat) : Option Slot := h.slots[x]?.join

/-- The bytes that have been charged for a slot. -/
def chargedAt (h : Heap) (x : Nat) : Nat := (h.slot? x).elim 0 (·.charged)

/-- The bytes that have been charged for the slots in use. -/
def charged (h : Heap) : Nat := ∑ x ∈ Finset.range h.slots.size, h.chargedAt x

/-- All slots in use have been charged for their cells. -/
def Covered (h : Heap) : Prop := ∀ x s, h.slot? x = some s → s.Covered

/-- The heap with a slot changed, if it is in use. -/
def alter (h : Heap) (x : Nat) (f : Slot → Slot) : Heap :=
  { h with slots := h.slots.modify x (Option.map f) }

/-! ## Slots -/

theorem cell?_eq_slot? (h : Heap) (x : Nat) : h.cell? x = (h.slot? x).map (·.cell) :=
  cell?_eq_map h x

theorem cell?_of_slot? {x : Nat} {s : Slot} (hs : h.slot? x = some s) :
    h.cell? x = some s.cell := by
  rw [cell?_eq_slot?, hs, Option.map_some]

theorem isSome_slot? (h : Heap) (x : Nat) : (h.slot? x).isSome = (h.cell? x).isSome := by
  rw [cell?_eq_slot?, Option.isSome_map]

theorem slot?_eq_none_of_size_le {x : Nat} (hx : h.slots.size ≤ x) : h.slot? x = none := by
  rw [slot?, Array.getElem?_eq_none hx]
  rfl

theorem slot?_alter (h : Heap) (x y : Nat) (f : Slot → Slot) :
    (h.alter x f).slot? y = if x = y then (h.slot? y).map f else h.slot? y := by
  simp only [slot?, alter, Array.getElem?_modify]
  split
  · rcases h.slots[y]? with _ | _ | s <;> rfl
  · rfl

theorem alter_eq_self (h : Heap) (x : Nat) {f : Slot → Slot} (hf : ∀ s, f s = s) :
    h.alter x f = h := by
  obtain rfl : f = id := funext hf
  simp only [alter, Option.map_id]
  congr 1
  refine Array.ext_getElem? fun y => ?_
  rw [Array.getElem?_modify]
  split
  · exact Option.map_id_apply
  · rfl

theorem alter_alter (h : Heap) (x : Nat) (f g : Slot → Slot) :
    (h.alter x f).alter x g = h.alter x (g ∘ f) := by
  simp only [alter, mk.injEq, and_self, and_true]
  refine Array.ext_getElem? fun y => ?_
  simp only [Array.getElem?_modify]
  split
  · rw [Option.map_map, Option.map_comp_map]
  · rfl

theorem isSome_cell?_alter (h : Heap) (x y : Nat) (f : Slot → Slot) :
    ((h.alter x f).cell? y).isSome = (h.cell? y).isSome := by
  rw [← isSome_slot?, ← isSome_slot?, slot?_alter]
  split
  · exact Option.isSome_map
  · rfl

theorem slot?_place_nil (hf : h.free = []) (s : Slot) (x : Nat) :
    (h.place s).2.slot? x = if x = h.slots.size then some s else h.slot? x := by
  simp only [place, hf, slot?, Array.getElem?_push]
  split <;> rfl

theorem slot?_place_cons {y : Nat} {free : List Nat} (hf : h.free = y :: free) (s : Slot)
    (x : Nat) :
    (h.place s).2.slot? x =
      if x = y then (if y < h.slots.size then some s else none) else h.slot? x := by
  simp only [place, hf, slot?, Array.getElem?_setIfInBounds]
  by_cases hxy : x = y
  · subst hxy
    rw [if_pos rfl, if_pos rfl]
    split <;> rfl
  · rw [if_neg (Ne.symm hxy), if_neg hxy]

/-- The slot that an allocation takes. -/
theorem slot?_place_fst {s t : Slot} (ht : (h.place s).2.slot? (h.place s).1 = some t) : t = s := by
  cases hf : h.free with
  | nil =>
    rw [slot?_place_nil hf, place, hf, if_pos rfl] at ht
    exact (Option.some.inj ht).symm
  | cons y free =>
    rw [slot?_place_cons hf, place, hf, if_pos rfl] at ht
    split at ht
    · exact (Option.some.inj ht).symm
    · cases ht

/-- Where a slot in use is found after an allocation, it was in use before or is the new one. -/
theorem slot?_place_cases {s t : Slot} {x : Nat} (ht : (h.place s).2.slot? x = some t) :
    t = s ∨ h.slot? x = some t := by
  cases hf : h.free with
  | nil =>
    rw [slot?_place_nil hf] at ht
    split at ht
    · exact .inl (Option.some.inj ht).symm
    · exact .inr ht
  | cons y free =>
    rw [slot?_place_cons hf] at ht
    split at ht
    · split at ht
      · exact .inl (Option.some.inj ht).symm
      · cases ht
    · exact .inr ht

theorem isSome_cell?_place (s : Slot) {x : Nat} (hx : (h.cell? x).isSome) :
    ((h.place s).2.cell? x).isSome := by
  rw [← isSome_slot?] at hx ⊢
  cases hf : h.free with
  | nil =>
    rw [slot?_place_nil hf]
    split
    · rfl
    · exact hx
  | cons y free =>
    rw [slot?_place_cons hf]
    split
    · next hxy =>
      subst hxy
      split
      · rfl
      · next hsize =>
        rw [slot?_eq_none_of_size_le (Nat.le_of_not_lt hsize)] at hx
        cases hx
    · exact hx

theorem slot?_place (hh : h.Exact) (s : Slot) (x : Nat) :
    (h.place s).2.slot? x = if x = h.nextSlot then some s else h.slot? x := by
  cases hf : h.free with
  | nil => rw [slot?_place_nil hf, nextSlot, hf]; rfl
  | cons y free =>
    have hy := (hh.mem_free y).mp (by simp [hf])
    rw [slot?_place_cons hf, if_pos (Array.getElem?_eq_some_iff.mp hy).1, nextSlot, hf]
    rfl

theorem slot?_nextSlot (hh : h.Exact) : h.slot? h.nextSlot = none := by
  have hnone := cell?_nextSlot hh
  rw [cell?_eq_slot?] at hnone
  exact Option.map_eq_none_iff.mp hnone

/-! ## The sum of the charges -/

/-- Slots beyond the heap have not been charged for. -/
theorem charged_eq_sum {size : Nat} (hsize : h.slots.size ≤ size) :
    h.charged = ∑ x ∈ Finset.range size, h.chargedAt x := by
  refine Finset.sum_subset (Finset.range_mono hsize) fun x _ hx => ?_
  rw [chargedAt, slot?_eq_none_of_size_le (Nat.le_of_not_lt fun h => hx (Finset.mem_range.mpr h))]
  rfl

theorem charged_congr (hk : ∀ x, k.slot? x = h.slot? x) : k.charged = h.charged := by
  rw [charged_eq_sum (le_max_left k.slots.size h.slots.size),
    charged_eq_sum (le_max_right k.slots.size h.slots.size)]
  exact Finset.sum_congr rfl fun x _ => by rw [chargedAt, hk, chargedAt]

/-- Where one slot differs, the sums differ by what that slot has been charged for. -/
theorem charged_of_slot (x : Nat) (hother : ∀ y, y ≠ x → k.slot? y = h.slot? y) :
    k.charged + h.chargedAt x = h.charged + k.chargedAt x := by
  let slots := Finset.range (h.slots.size + k.slots.size + (x + 1))
  have hx : x ∈ slots := Finset.mem_range.mpr (by omega)
  have hh : h.charged = ∑ y ∈ slots, h.chargedAt y := charged_eq_sum (by omega)
  have hk : k.charged = ∑ y ∈ slots, k.chargedAt y := charged_eq_sum (by omega)
  have hrest : ∑ y ∈ slots.erase x, k.chargedAt y = ∑ y ∈ slots.erase x, h.chargedAt y :=
    Finset.sum_congr rfl fun y hy => by
      rw [chargedAt, hother y (Finset.ne_of_mem_erase hy), chargedAt]
  rw [hh, hk, ← Finset.add_sum_erase _ _ hx, ← Finset.add_sum_erase _ _ hx, hrest]
  omega

theorem chargedAt_le (h : Heap) (x : Nat) : h.chargedAt x ≤ h.charged := by
  by_cases hx : x < h.slots.size
  · exact Finset.single_le_sum (f := h.chargedAt) (fun _ _ => Nat.zero_le _)
      (Finset.mem_range.mpr hx)
  · rw [chargedAt, slot?_eq_none_of_size_le (Nat.le_of_not_lt hx)]
    exact Nat.zero_le _

theorem charged_place (hh : h.Exact) (s : Slot) :
    (h.place s).2.charged = h.charged + s.charged := by
  have hslot := slot?_place hh s
  have hsum := charged_of_slot (h := h) (k := (h.place s).2) h.nextSlot fun y hy => by
    rw [hslot, if_neg hy]
  rwa [chargedAt, slot?_nextSlot hh, chargedAt, hslot, if_pos rfl] at hsum

/-- A slot in use that has been charged for `n` more bytes. -/
theorem charged_alter {x : Nat} {f : Slot → Slot} (hx : (h.cell? x).isSome)
    (hf : ∀ s, h.slot? x = some s → (f s).charged = s.charged + n) :
    (h.alter x f).charged = h.charged + n := by
  rw [← isSome_slot?] at hx
  obtain ⟨s, hs⟩ := Option.isSome_iff_exists.mp hx
  have hsum := charged_of_slot (h := h) (k := h.alter x f) x fun y hy => by
    rw [slot?_alter, if_neg (Ne.symm hy)]
  rw [chargedAt, hs, chargedAt, slot?_alter, if_pos rfl, hs] at hsum
  simp only [Option.map_some, Option.elim_some, hf s hs] at hsum
  omega

/-- A change that charges nothing. -/
theorem charged_alter_zero {x : Nat} {f : Slot → Slot} (hf : ∀ s, (f s).charged = s.charged) :
    (h.alter x f).charged = h.charged := by
  cases hx : (h.cell? x).isSome with
  | true => exact charged_alter (n := 0) hx fun s _ => hf s
  | false =>
    rw [← isSome_slot?, Option.isSome_eq_false_iff, Option.isNone_iff_eq_none] at hx
    refine charged_congr fun y => ?_
    rw [slot?_alter]
    split
    · next hxy => rw [← hxy, hx]; rfl
    · rfl

/-! ## Heaps that have noted charges -/

/-- Another `n` bytes have been noted at slots in use, and no slot has been freed. -/
structure Noted (n : Nat) (h k : Heap) : Prop where
  inUse : ∀ x, (h.cell? x).isSome → (k.cell? x).isSome
  ledger : h.Exact → k.Exact ∧ k.charged = h.charged + n

theorem Noted.refl (h : Heap) : Noted 0 h h := ⟨fun _ hx => hx, fun hh => ⟨hh, rfl⟩⟩

theorem Noted.trans (hi : Noted n h i) (hk : Noted m i k) : Noted (n + m) h k where
  inUse x hx := hk.inUse x (hi.inUse x hx)
  ledger hh := by
    obtain ⟨hi, hn⟩ := hi.ledger hh
    obtain ⟨hk, hm⟩ := hk.ledger hi
    exact ⟨hk, by rw [hm, hn, Nat.add_assoc]⟩

theorem noted_under (h : Heap) (budget : Budget) : h.Noted 0 { h with budget } :=
  ⟨fun _ hx => hx, fun hh => ⟨⟨hh.nodup, hh.mem_free⟩, rfl⟩⟩

theorem noted_place (h : Heap) (s : Slot) : Noted s.charged h (h.place s).2 where
  inUse _ hx := isSome_cell?_place s hx
  ledger hh := ⟨hh.place s, charged_place hh s⟩

theorem noted_alter {x : Nat} {f : Slot → Slot} (hx : (h.cell? x).isSome)
    (hf : ∀ s, h.slot? x = some s → (f s).charged = s.charged + n) : Noted n h (h.alter x f) where
  inUse y hy := by rwa [isSome_cell?_alter]
  ledger hh := ⟨hh.modify x f, charged_alter hx hf⟩

theorem noted_alter_zero {x : Nat} {f : Slot → Slot} (hf : ∀ s, (f s).charged = s.charged) :
    Noted 0 h (h.alter x f) where
  inUse y hy := by rwa [isSome_cell?_alter]
  ledger hh := ⟨hh.modify x f, charged_alter_zero hf⟩

/-! ## Covered slots -/

theorem Covered.place (hh : h.Covered) {s : Slot} (hs : s.Covered) : (h.place s).2.Covered := by
  intro x t ht
  rcases slot?_place_cases ht with rfl | ht
  · exact hs
  · exact hh x t ht

theorem Covered.alter (hh : h.Covered) {x : Nat} {f : Slot → Slot}
    (hf : ∀ s, h.slot? x = some s → s.Covered → (f s).Covered) : (h.alter x f).Covered := by
  intro y t ht
  rw [slot?_alter] at ht
  split at ht
  · next hxy =>
    subst hxy
    obtain ⟨s, hs, rfl⟩ := Option.map_eq_some_iff.mp ht
    exact hf s hs (hh x s hs)
  · exact hh y t ht

/-- A slot that has gained at most `n` items or entries, and has been charged for each. -/
theorem Covered.alter_of_gains (hh : h.Covered) {x : Nat} {f : Slot → Slot}
    (hf : ∀ s, h.slot? x = some s → s.cell.Gains n (f s).cell)
    (hcharged : ∀ s, (f s).charged = s.charged + n * Cell.valueBytes) : (h.alter x f).Covered :=
  hh.alter fun s hs hcovered => by
    calc (f s).cell.leastBytes
        ≤ s.cell.leastBytes + n * Cell.valueBytes := (hf s hs).leastBytes
      _ ≤ s.charged + n * Cell.valueBytes := Nat.add_le_add_right hcovered _
      _ = (f s).charged := (hcharged s).symm

theorem grows_alter {x : Nat} {f : Slot → Slot}
    (hf : ∀ s, h.slot? x = some s → s.cell.Gains n (f s).cell) : h.Grows n (h.alter x f) :=
  grows_modify h x fun s hs => (hf s (Option.join_eq_some_iff.mpr hs)).entries

end Heap

end Resumable
