import Mathlib.Data.List.Forall2
import Mathlib.Data.Option.Basic

/-!
# Lists that are related item by item, and tables

`List.Forall₂` in terms of the items at each index, and what changes of one item, insertions and
removals do to it. Items that are mapped one after the other by a function that may fail are related
to their images (`mapM_eq_ok_iff`), up to the first one that fails (`mapM_eq_error_iff`). A table of
different keys is read as it is listed (`lookup_eq_some_iff_mem`).
-/

theorem Option.Rel.elim {α β : Type} {R : α → β → Prop} {x : Option α} {y : Option β}
    (h : Option.Rel R x y) :
    (x = .none ∧ y = .none) ∨ ∃ a b, x = .some a ∧ y = .some b ∧ R a b := by
  cases h with
  | none => exact .inl ⟨rfl, rfl⟩
  | some h => exact .inr ⟨_, _, rfl, rfl, h⟩

theorem Option.Rel.isSome_eq {α β : Type} {R : α → β → Prop} {x : Option α} {y : Option β}
    (h : Option.Rel R x y) : x.isSome = y.isSome := by
  cases h <;> rfl

theorem Option.Rel.or {α β : Type} {R : α → β → Prop} {x x' : Option α} {y y' : Option β}
    (h : Option.Rel R x y) (h' : Option.Rel R x' y') : Option.Rel R (x.or x') (y.or y') := by
  cases h with
  | none => exact h'
  | some h => exact .some h

theorem Option.Rel.getD {α β : Type} {R : α → β → Prop} {x : Option α} {y : Option β} {a : α}
    {b : β} (h : Option.Rel R x y) (hab : R a b) : R (x.getD a) (y.getD b) := by
  cases h with
  | none => exact hab
  | some h => exact h

namespace List

variable {α β : Type} {R : α → β → Prop} {xs : List α} {ys : List β}

theorem Forall₂.getElem? (h : Forall₂ R xs ys) (i : Nat) : Option.Rel R xs[i]? ys[i]? := by
  induction h generalizing i with
  | nil => exact .none
  | cons h _ ih =>
    cases i with
    | zero => exact .some h
    | succ i => exact ih i

namespace Forall₂

theorem exists_of_mem (h : Forall₂ R xs ys) {x : α} (hx : x ∈ xs) : ∃ y ∈ ys, R x y := by
  induction h with
  | nil => cases hx
  | cons hxy _ ih =>
    rcases List.mem_cons.mp hx with rfl | hx
    · exact ⟨_, List.mem_cons_self, hxy⟩
    · exact (ih hx).imp fun y hy => ⟨List.mem_cons_of_mem _ hy.1, hy.2⟩

theorem imp_mem {S : α → β → Prop} (h : Forall₂ R xs ys)
    (hRS : ∀ x ∈ xs, ∀ y ∈ ys, R x y → S x y) : Forall₂ S xs ys := by
  induction h with
  | nil => exact .nil
  | cons h _ ih =>
    exact .cons (hRS _ List.mem_cons_self _ List.mem_cons_self h)
      (ih fun x hx y hy => hRS x (List.mem_cons_of_mem _ hx) y (List.mem_cons_of_mem _ hy))

theorem isEmpty_eq (h : Forall₂ R xs ys) : xs.isEmpty = ys.isEmpty := by
  cases h <;> rfl

theorem map_congr {γ : Type} {f : α → γ} {g : β → γ} (h : Forall₂ R xs ys)
    (hfg : ∀ x y, R x y → f x = g y) : xs.map f = ys.map g := by
  induction h with
  | nil => rfl
  | cons h _ ih => rw [List.map_cons, List.map_cons, hfg _ _ h, ih]

theorem modify (h : Forall₂ R xs ys) (i : Nat) {f : α → α} {g : β → β}
    (hfg : ∀ x y, R x y → R (f x) (g y)) : Forall₂ R (xs.modify i f) (ys.modify i g) := by
  induction h generalizing i with
  | nil => rw [List.modify_nil, List.modify_nil]; exact .nil
  | cons h hs ih =>
    cases i with
    | zero => exact .cons (hfg _ _ h) hs
    | succ i => exact .cons h (ih i)

theorem set (h : Forall₂ R xs ys) (i : Nat) {x : α} {y : β} (hxy : R x y) :
    Forall₂ R (xs.set i x) (ys.set i y) := by
  induction h generalizing i with
  | nil => exact .nil
  | cons h hs ih =>
    cases i with
    | zero => exact .cons hxy hs
    | succ i => exact .cons h (ih i)

theorem eraseIdx (h : Forall₂ R xs ys) (i : Nat) :
    Forall₂ R (xs.eraseIdx i) (ys.eraseIdx i) := by
  induction h generalizing i with
  | nil => exact .nil
  | cons h hs ih =>
    cases i with
    | zero => exact hs
    | succ i => exact .cons h (ih i)

theorem insertIdx (h : Forall₂ R xs ys) (i : Nat) {x : α} {y : β} (hxy : R x y) :
    Forall₂ R (xs.insertIdx i x) (ys.insertIdx i y) := by
  induction i generalizing xs ys with
  | zero => exact .cons hxy h
  | succ i ih =>
    cases h with
    | nil => exact .nil
    | cons h hs => exact .cons h (ih hs)

theorem append {xs' : List α} {ys' : List β} (h : Forall₂ R xs ys) (h' : Forall₂ R xs' ys') :
    Forall₂ R (xs ++ xs') (ys ++ ys') := rel_append h h'

theorem mapIdx {γ δ : Type} {S : γ → δ → Prop} {f : Nat → α → γ} {g : Nat → β → δ}
    (h : Forall₂ R xs ys) (hfg : ∀ i x y, R x y → S (f i x) (g i y)) :
    Forall₂ S (xs.mapIdx f) (ys.mapIdx g) := by
  induction h generalizing f g with
  | nil => exact .nil
  | cons h _ ih =>
    rw [List.mapIdx_cons, List.mapIdx_cons]
    exact .cons (hfg 0 _ _ h) (ih fun i => hfg (i + 1))

theorem zip {γ δ : Type} {S : γ → δ → Prop} {as : List γ} {bs : List δ} (h : Forall₂ R xs ys)
    (h' : Forall₂ S as bs) :
    Forall₂ (fun a b => R a.1 b.1 ∧ S a.2 b.2) (xs.zip as) (ys.zip bs) := by
  induction h generalizing as bs with
  | nil => exact .nil
  | cons h _ ih =>
    cases h' with
    | nil => exact .nil
    | cons h' hs' => exact .cons ⟨h, h'⟩ (ih hs')

theorem replicate {x : α} {y : β} (h : R x y) (n : Nat) :
    Forall₂ R (List.replicate n x) (List.replicate n y) := by
  induction n with
  | zero => exact .nil
  | succ n ih => exact .cons h ih

end Forall₂

/-! ## Tables -/

section
variable [BEq α] [LawfulBEq α] {l : List (α × β)} {key : α} {value : β}

theorem lookup_cons_if [DecidableEq α] (x : α × β) (l : List (α × β)) :
    (x :: l).lookup key = if key = x.1 then some x.2 else l.lookup key := by
  by_cases h : key = x.1
  · rw [List.lookup_cons, if_pos h, beq_iff_eq.mpr h]
  · rw [List.lookup_cons, if_neg h, beq_eq_false_iff_ne.mpr h]

theorem mem_of_lookup (h : l.lookup key = some value) : (key, value) ∈ l := by
  obtain ⟨before, after, rfl, -⟩ := lookup_eq_some_iff.mp h
  simp

theorem lookup_eq_some_iff_mem (hl : (l.map (·.1)).Nodup) :
    l.lookup key = some value ↔ (key, value) ∈ l := by
  refine ⟨mem_of_lookup, fun h => ?_⟩
  obtain ⟨before, after, rfl⟩ := append_of_mem h
  refine lookup_eq_some_iff.mpr ⟨before, after, rfl, fun x hx => ?_⟩
  rw [map_append, nodup_append] at hl
  have hne := hl.2.2 x.1 (mem_map_of_mem hx) key (by simp)
  simpa using hne.symm

end

/-! ## Functions that may fail -/

section
variable {ε : Type} {f : α → Except ε β} {e : ε}

theorem mapM_cons_except (f : α → Except ε β) (x : α) (xs : List α) :
    (x :: xs).mapM f = match f x, xs.mapM f with
      | .error e, _ => .error e
      | .ok _, .error e => .error e
      | .ok y, .ok ys => .ok (y :: ys) := by
  rw [List.mapM_cons]
  cases f x with
  | error e => rfl
  | ok y => cases xs.mapM f <;> rfl

theorem mapM_eq_ok_iff : xs.mapM f = .ok ys ↔ Forall₂ (fun x y => f x = .ok y) xs ys := by
  induction xs generalizing ys with
  | nil =>
    rw [forall₂_nil_left_iff]
    exact ⟨fun h => (Except.ok.inj h).symm, fun h => congrArg Except.ok h.symm⟩
  | cons x xs ih =>
    rw [mapM_cons_except, forall₂_cons_left_iff]
    cases hx : f x with
    | error e => simp
    | ok y =>
      cases hxs : xs.mapM f with
      | error e =>
        -- were there images of the rest, there would be no failure
        have hnone : ∀ ys', ¬ Forall₂ (fun x y => f x = .ok y) xs ys' := by
          intro ys' hys'
          rw [ih.mpr hys'] at hxs
          cases hxs
        simp [hnone]
      | ok ys' =>
        constructor
        · intro h
          obtain rfl := Except.ok.inj h
          exact ⟨y, ys', rfl, ih.mp hxs, rfl⟩
        · rintro ⟨y', ys'', hy', hys'', rfl⟩
          obtain rfl := Except.ok.inj hy'
          rw [ih.mpr hys''] at hxs
          rw [← Except.ok.inj hxs]

theorem mapM_eq_error_iff : xs.mapM f = .error e ↔ ∃ before x after, xs = before ++ x :: after ∧
    (∃ ys, before.mapM f = .ok ys) ∧ f x = .error e := by
  induction xs with
  | nil =>
    constructor
    · intro h
      cases h
    · rintro ⟨before, x, after, h, -⟩
      simp at h
  | cons x xs ih =>
    rw [mapM_cons_except]
    constructor
    · intro h
      cases hx : f x with
      | error e' =>
        rw [hx] at h
        obtain rfl := Except.error.inj h
        exact ⟨[], x, xs, rfl, ⟨[], rfl⟩, hx⟩
      | ok y =>
        cases hxs : xs.mapM f with
        | ok ys => rw [hx, hxs] at h; cases h
        | error e' =>
          rw [hx, hxs] at h
          obtain ⟨before, z, after, rfl, ⟨ys, hys⟩, hz⟩ := ih.mp (hxs.trans h)
          exact ⟨x :: before, z, after, rfl, ⟨y :: ys, by rw [mapM_cons_except, hx, hys]⟩, hz⟩
    · rintro ⟨before, z, after, heq, ⟨ys, hys⟩, hz⟩
      cases before with
      | nil =>
        obtain ⟨rfl, rfl⟩ := List.cons.inj heq
        rw [hz]
      | cons b before =>
        obtain ⟨rfl, rfl⟩ := List.cons.inj heq
        rw [mapM_cons_except] at hys
        cases hx : f x with
        | error e' => rw [hx] at hys; cases hys
        | ok y =>
          cases hbefore : before.mapM f with
          | error e' => rw [hx, hbefore] at hys; cases hys
          | ok ys' => rw [ih.mpr ⟨before, z, after, rfl, ⟨ys', hbefore⟩, hz⟩]

end

end List
