import Mathlib.Data.List.Basic
import Resumable.FileSystem.PathMap
import Resumable.Proofs.Pointwise

/-!
# Maps from paths

What a change of a map does is said by `get?`. A map is in the order of its paths, so that the paths
below a directory, which are found by their place in it, are all of them (`mem_below`).
-/

namespace Resumable.PathMap

variable {α : Type} {m : PathMap α} {p q : FullPath}

/-! ## Single changes -/

@[simp] theorem get?_empty : (empty : PathMap α).get? p = none := rfl

theorem lookup_insertItem (a : α) (l : List (FullPath × α)) :
    (insertItem p a l).lookup q = if q = p then some a else l.lookup q := by
  fun_induction insertItem p a l with
  | case1 => rw [List.lookup_cons_if]
  | case2 => rw [List.lookup_cons_if]
  | case3 b rest =>
    rw [List.lookup_cons_if, List.lookup_cons_if]
    by_cases h : q = p <;> simp [h]
  | case4 r b rest hlt hne ih =>
    rw [List.lookup_cons_if, List.lookup_cons_if, ih]
    by_cases h : q = r <;> simp [h, Ne.symm hne]

@[simp] theorem get?_insert (a : α) :
    (m.insert p a).get? q = if q = p then some a else m.get? q := lookup_insertItem a m.items

theorem lookup_filter_ne (l : List (FullPath × α)) :
    (l.filter (·.1 ≠ p)).lookup q = if q = p then none else l.lookup q := by
  induction l with
  | nil => simp
  | cons x l ih =>
    by_cases hx : x.1 = p
    · rw [List.filter_cons_of_neg (by simp [hx]), ih, List.lookup_cons_if, hx]
      by_cases hq : q = p <;> simp [hq]
    · rw [List.filter_cons_of_pos (by simp [hx]), List.lookup_cons_if, List.lookup_cons_if, ih]
      by_cases hq : q = x.1 <;> simp [hq, hx]

@[simp] theorem get?_erase : (m.erase p).get? q = if q = p then none else m.get? q :=
  lookup_filter_ne m.items

theorem contains_iff : m.contains p ↔ ∃ a, m.get? p = some a := Option.isSome_iff_exists

theorem contains_insert (a : α) : (m.insert p a).contains q ↔ q = p ∨ m.contains q := by
  by_cases hq : q = p <;> simp [contains_iff, hq]

theorem contains_erase : (m.erase p).contains q ↔ q ≠ p ∧ m.contains q := by
  by_cases hq : q = p <;> simp [contains_iff, hq]

/-- What is moved is at its new place, and nowhere else. -/
theorem get?_move {source target : FullPath} (h : m.contains source) :
    (m.move source target).get? p =
      if p = target then m.get? source else if p = source then none else m.get? p := by
  obtain ⟨a, ha⟩ := contains_iff.mp h
  simp [move, ha]

theorem contains_move {source target : FullPath} (h : m.contains source) :
    (m.move source target).contains p ↔ p = target ∨ (p ≠ source ∧ m.contains p) := by
  obtain ⟨a, ha⟩ := contains_iff.mp h
  simp only [contains_iff, get?_move h]
  by_cases ht : p = target <;> by_cases hs : p = source <;> simp [ht, hs, ha]

/-! ## The order of a map -/

theorem mem_items_iff {a : α} : (p, a) ∈ m.items ↔ m.get? p = some a := by
  obtain ⟨l, hl⟩ := m
  unfold get?
  dsimp only
  induction l with
  | nil => simp
  | cons x l ih =>
    obtain ⟨q, b⟩ := x
    have ih := ih hl.of_cons
    by_cases hpq : p = q
    · -- a path occurs once
      subst hpq
      have hnot : (p, a) ∉ l := fun hmem =>
        FullPath.lt_irrefl p (List.rel_of_pairwise_cons hl hmem)
      rw [List.lookup_cons_if]
      simp [hnot, eq_comm]
    · rw [List.lookup_cons_if, if_neg hpq, ← ih]
      simp [hpq]

theorem nodup_keys (m : PathMap α) : (m.items.map (·.1)).Nodup := by
  refine List.pairwise_map.mpr (m.sorted.imp ?_)
  intro x y hxy heq
  exact FullPath.lt_irrefl x.1 (heq ▸ hxy)

/-- In an ordered list, what a condition holds of from some place on is what it holds of. -/
theorem dropWhile_eq_filter {β : Type} {R : β → β → Prop} {P : β → Bool} {l : List β}
    (h : l.Pairwise R) (hP : ∀ x y, R x y → P x = false → P y = false) :
    l.dropWhile P = l.filter fun x => !P x := by
  induction l with
  | nil => rfl
  | cons x l ih =>
    cases hx : P x with
    | true => simp [hx, ih h.of_cons]
    | false =>
      have hall : ∀ y ∈ l, P y = false := fun y hy => hP x y (List.rel_of_pairwise_cons h hy) hx
      rw [List.dropWhile_cons_of_neg (by simp [hx]), List.filter_eq_self.mpr]
      simpa [hx] using hall

/-- In an ordered list, what a condition holds of up to some place is what it holds of. -/
theorem takeWhile_eq_filter {β : Type} {R : β → β → Prop} {P : β → Bool} {l : List β}
    (h : l.Pairwise R) (hP : ∀ x ∈ l, ∀ y, R x y → P x = false → P y = false) :
    l.takeWhile P = l.filter P := by
  induction l with
  | nil => rfl
  | cons x l ih =>
    cases hx : P x with
    | true => simp [hx, ih h.of_cons fun y hy => hP y (by simp [hy])]
    | false =>
      have hall : ∀ y ∈ l, P y = false :=
        fun y hy => hP x (by simp) y (List.rel_of_pairwise_cons h hy) hx
      rw [List.takeWhile_cons_of_neg (by simp [hx]), eq_comm, List.filter_eq_nil_iff]
      simpa [hx] using hall

/-- Texts that begin with `start` stand next to each other, right behind it. -/
theorem not_prefix_of_lt {start a b : List Char} (ha : start < a) (hne : ¬ start <+: a)
    (hab : a < b) : ¬ start <+: b := by
  induction start generalizing a b with
  | nil => exact absurd (List.nil_prefix) hne
  | cons c start ih =>
    cases a with
    | nil => exact absurd ha (List.not_lt_nil _)
    | cons x a =>
      cases b with
      | nil => exact absurd hab (List.not_lt_nil _)
      | cons y b =>
        rw [List.cons_prefix_cons] at hne ⊢
        rw [List.cons_lt_cons_iff] at ha hab
        rintro ⟨rfl, hb⟩
        obtain hcx | ⟨rfl, ha⟩ := ha
        · obtain hxc | ⟨rfl, -⟩ := hab
          · exact Char.lt_asymm hcx hxc
          · exact Char.lt_irrefl _ hcx
        · obtain hlt | ⟨-, hab⟩ := hab
          · exact Char.lt_irrefl _ hlt
          · exact ih ha (fun h => hne ⟨rfl, h⟩) hab hb

theorem behind_eq (start : List Char) :
    m.behind start = m.items.filter fun x => start < x.1.text := by
  unfold behind
  rw [dropWhile_eq_filter m.sorted]
  · simp
  · intro x y hxy hx
    simp only [Bool.not_eq_eq_eq_not, Bool.not_false, decide_eq_true_eq] at hx ⊢
    exact List.lt_trans hx hxy

theorem below_eq (dir : FullPath) :
    m.below dir = (m.behind dir.childPrefix).filter (·.1.isBelow dir) := by
  unfold below
  rw [behind_eq]
  refine takeWhile_eq_filter (m.sorted.filter _) ?_
  intro x hx y hxy hnot
  have hstart : dir.childPrefix < x.1.text := by simpa using (List.mem_filter.mp hx).2
  simp only [FullPath.isBelow, ← Bool.not_eq_true, List.isPrefixOf_iff_prefix] at hnot ⊢
  exact not_prefix_of_lt hstart hnot hxy

theorem lt_of_prefix {start a : List Char} (h : start <+: a) (hne : start ≠ a) : start < a := by
  induction start generalizing a with
  | nil =>
    cases a with
    | nil => exact absurd rfl hne
    | cons x a => exact List.nil_lt_cons x a
  | cons c start ih =>
    obtain ⟨t, rfl⟩ := h
    rw [List.cons_append, List.cons_lt_cons_iff]
    exact .inr ⟨rfl, ih (List.prefix_append _ _) fun h => hne (by rw [List.cons_append, ← h])⟩

/-- The pairs below a directory are all those whose paths lie below it. -/
theorem mem_below {dir : FullPath} {a : α} : (p, a) ∈ m.below dir ↔
    m.get? p = some a ∧ p.isBelow dir ∧ p.text ≠ dir.childPrefix := by
  rw [below_eq, behind_eq, List.mem_filter, List.mem_filter, mem_items_iff]
  simp only [decide_eq_true_eq, FullPath.isBelow, List.isPrefixOf_iff_prefix]
  constructor
  · rintro ⟨⟨hget, hlt⟩, hpre⟩
    exact ⟨hget, hpre, fun heq => List.lt_irrefl _ (heq ▸ hlt)⟩
  · rintro ⟨hget, hpre, hne⟩
    exact ⟨⟨hget, lt_of_prefix hpre (Ne.symm hne)⟩, hpre⟩

theorem mem_keys_below {dir : FullPath} : p ∈ (m.below dir).map (·.1) ↔
    m.contains p ∧ p.isBelow dir ∧ p.text ≠ dir.childPrefix := by
  simp only [List.mem_map, Prod.exists, exists_and_right, exists_eq_right, mem_below, contains_iff]

theorem nodup_keys_below (dir : FullPath) : ((m.below dir).map (·.1)).Nodup := by
  rw [below_eq, behind_eq]
  exact ((List.filter_sublist.trans List.filter_sublist).map _).nodup m.nodup_keys

/-! ## Changes one after another -/

theorem get?_foldl_erase (l : List FullPath) :
    (l.foldl erase m).get? p = if p ∈ l then none else m.get? p := by
  induction l generalizing m with
  | nil => simp
  | cons q l ih =>
    rw [List.foldl_cons, ih, get?_erase]
    by_cases h : p ∈ l <;> by_cases hq : p = q <;> simp [h, hq]

theorem get?_foldl_insert (a : α) (l : List FullPath) :
    (l.foldl (·.insert · a) m).get? p = if p ∈ l then some a else m.get? p := by
  induction l generalizing m with
  | nil => simp
  | cons q l ih =>
    rw [List.foldl_cons, ih, get?_insert]
    by_cases h : p ∈ l <;> by_cases hq : p = q <;> simp [h, hq]

theorem contains_foldl_erase (l : List FullPath) :
    (l.foldl erase m).contains p ↔ p ∉ l ∧ m.contains p := by
  simp only [contains_iff, get?_foldl_erase]
  by_cases h : p ∈ l <;> simp [h]

theorem contains_foldl_insert (a : α) (l : List FullPath) :
    (l.foldl (·.insert · a) m).contains p ↔ p ∈ l ∨ m.contains p := by
  simp only [contains_iff, get?_foldl_insert]
  by_cases h : p ∈ l <;> simp [h]

/-- What is left when a directory goes with everything below it. -/
theorem contains_erase_below {dir : FullPath} :
    (((m.below dir).map (·.1)).foldl erase (m.erase dir)).contains p ↔
      m.contains p ∧ p ≠ dir ∧ ¬ (p.isBelow dir ∧ p.text ≠ dir.childPrefix) := by
  rw [contains_foldl_erase, contains_erase, mem_keys_below]
  grind

section
variable {f : PathMap α → FullPath → PathMap α} {new : FullPath → FullPath}
  (hf : ∀ m a, m.contains a → ∀ p, (f m a).get? p =
    if p = new a then m.get? a else if p = a then none else m.get? p)
include hf

/-- Moves of several paths, of which none is moved to where another one was: each ends at its new
place, and nothing is left at the old ones. -/
theorem get?_foldl_moves {l : List FullPath} (hl : l.Nodup) (hm : ∀ a ∈ l, m.contains a)
    (hnew : ∀ a ∈ l, new a ∉ l) (hinj : ∀ a ∈ l, ∀ b ∈ l, new a = new b → a = b) :
    (∀ a ∈ l, (l.foldl f m).get? (new a) = m.get? a) ∧
    ∀ p, (∀ a ∈ l, new a ≠ p) → (l.foldl f m).get? p = if p ∈ l then none else m.get? p := by
  induction l generalizing m with
  | nil => simp
  | cons x l ih =>
    obtain ⟨hx, hl⟩ := List.nodup_cons.mp hl
    have hstep := hf m x (hm x (by simp))
    have hold : ∀ a ∈ l, (f m x).get? a = m.get? a := by
      intro a ha
      have hne : a ≠ new x := fun h => hnew x (by simp) (by simp [← h, ha])
      have hne' : a ≠ x := fun h => hx (h ▸ ha)
      rw [hstep, if_neg hne, if_neg hne']
    obtain ⟨hmoved, hother⟩ := ih (m := f m x) hl
      (fun a ha => by rw [contains_iff, hold a ha]; exact contains_iff.mp (hm a (by simp [ha])))
      (fun a ha h => hnew a (by simp [ha]) (by simp [h]))
      (fun a ha b hb => hinj a (by simp [ha]) b (by simp [hb]))
    refine ⟨fun a ha => ?_, fun p hp => ?_⟩
    · obtain rfl | ha := List.mem_cons.mp ha
      · have hapart : ∀ b ∈ l, new b ≠ new a := fun b hb h =>
          hx (hinj b (by simp [hb]) a (by simp) h ▸ hb)
        have hnot : new a ∉ l := fun h => hnew a (by simp) (by simp [h])
        rw [List.foldl_cons, hother _ hapart, if_neg hnot, hstep, if_pos rfl]
      · rw [List.foldl_cons, hmoved a ha, hold a ha]
    · rw [List.foldl_cons, hother p fun a ha => hp a (by simp [ha])]
      have hne : p ≠ new x := fun h => hp x (by simp) h.symm
      rw [hstep p, if_neg hne]
      by_cases hpx : p = x <;> by_cases hpl : p ∈ l <;> simp [hpx, hpl]

end

end Resumable.PathMap
