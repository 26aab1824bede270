import Mathlib.Data.List.Forall2
import Mathlib.Data.Option.Basic
import Mathlib.Order.Basic
import Resumable.Heap.Basic

/-!
# Actions in lockstep

Two runs of one program may keep their lists and dicts in different slots. A `Pairing` says which
slot of the one stands for which slot of the other. `Agree I J p R a b`: from states that the
invariant `I` relates under `p`, the actions `a` and `b` end alike, with results in `R` and states
that `I` relates, or with one failure and states that `J` relates, under a pairing above `p`.
-/

namespace Resumable

/-- Which slots of two heaps stand for one another. -/
structure Pairing where
  rel : Nat → Nat → Prop
  unique_right : ∀ {x y z}, rel x y → rel x z → y = z
  unique_left : ∀ {x y z}, rel x z → rel y z → x = y

namespace Pairing

instance : Preorder Pairing where
  le p q := ∀ ⦃x y⦄, p.rel x y → q.rel x y
  le_refl _ _ _ h := h
  le_trans _ _ _ hpq hqr _ _ h := hqr (hpq h)

variable {p : Pairing}

/-- The pairing of no slots. -/
def empty : Pairing := ⟨fun _ _ => False, fun h => h.elim, fun h => h.elim⟩

/-- The pairs of slots that both have a property. -/
def restrict (p : Pairing) (left right : Nat → Prop) : Pairing where
  rel x y := left x ∧ right y ∧ p.rel x y
  unique_right h h' := p.unique_right h.2.2 h'.2.2
  unique_left h h' := p.unique_left h.2.2 h'.2.2

/-- The pairing with one more pair, of slots that have no partner yet. -/
def extend (p : Pairing) (x y : Nat) (hx : ∀ z, ¬ p.rel x z) (hy : ∀ z, ¬ p.rel z y) :
    Pairing where
  rel a b := (a = x ∧ b = y) ∨ p.rel a b
  unique_right := by
    rintro a b c (⟨rfl, rfl⟩ | h) (⟨h', rfl⟩ | h')
    · rfl
    · exact (hx _ h').elim
    · exact (hx _ (h' ▸ h)).elim
    · exact p.unique_right h h'
  unique_left := by
    rintro a b c (⟨rfl, rfl⟩ | h) (⟨rfl, h'⟩ | h')
    · rfl
    · exact (hy _ h').elim
    · exact (hy _ (h' ▸ h)).elim
    · exact p.unique_left h h'

theorem le_extend {x y : Nat} {hx : ∀ z, ¬ p.rel x z} {hy : ∀ z, ¬ p.rel z y} :
    p ≤ p.extend x y hx hy := fun _ _ h => .inr h

/-- A slot is the same as another one exactly if their partners are. -/
theorem beq_eq {x y a b : Nat} (hx : p.rel x a) (hy : p.rel y b) : (x == y) = (a == b) := by
  rw [Bool.eq_iff_iff, beq_iff_eq, beq_iff_eq]
  constructor
  · rintro rfl; exact p.unique_right hx hy
  · rintro rfl; exact p.unique_left hx hy

end Pairing

/-! ## Ends that are alike -/

/-- Two computations end alike: with results in `R` or with errors in `E`. -/
inductive SameEnd {ε δ α β : Type} (E : ε → δ → Prop) (R : α → β → Prop) :
    Except ε α → Except δ β → Prop
  | ok {a b} : R a b → SameEnd E R (.ok a) (.ok b)
  | error {e d} : E e d → SameEnd E R (.error e) (.error d)

theorem SameEnd.elim {ε δ α β : Type} {E : ε → δ → Prop} {R : α → β → Prop} {x : Except ε α}
    {y : Except δ β} (h : SameEnd E R x y) :
    (∃ a b, x = .ok a ∧ y = .ok b ∧ R a b) ∨ (∃ e d, x = .error e ∧ y = .error d ∧ E e d) := by
  cases h with
  | ok h => exact .inl ⟨_, _, rfl, rfl, h⟩
  | error h => exact .inr ⟨_, _, rfl, rfl, h⟩

/-- Results that are the same under any pairing. -/
abbrev Same {α : Type} : Pairing → α → α → Prop := fun _ => Eq

section
variable {ε σ α β γ δ : Type} {I J : Pairing → σ → σ → Prop} {p q : Pairing}

/-- Two actions end alike, in states that an invariant relates under a pairing above `p`. -/
inductive Outcome (I J : Pairing → σ → σ → Prop) (p : Pairing) (R : Pairing → α → β → Prop) :
    EStateM.Result ε σ α → EStateM.Result ε σ β → Prop
  | ok {q s t a b} : p ≤ q → I q s t → R q a b → Outcome I J p R (.ok a s) (.ok b t)
  | error {q s t} (e : ε) : p ≤ q → J q s t → Outcome I J p R (.error e s) (.error e t)

theorem Outcome.weaken {R : Pairing → α → β → Prop} {x : EStateM.Result ε σ α}
    {y : EStateM.Result ε σ β} (h : Outcome I J q R x y) (hpq : p ≤ q) : Outcome I J p R x y := by
  cases h with
  | ok hq hs hr => exact .ok (hpq.trans hq) hs hr
  | error e hq hs => exact .error e (hpq.trans hq) hs

/-- Two actions end alike from states that an invariant relates. -/
def Agree (I J : Pairing → σ → σ → Prop) (p : Pairing) (R : Pairing → α → β → Prop)
    (a : EStateM ε σ α) (b : EStateM ε σ β) : Prop :=
  ∀ s t, I p s t → Outcome I J p R (a s) (b t)

/-- What a failure may leave asks no more than what a result does. -/
class Weaker (I J : Pairing → σ → σ → Prop) : Prop where
  weaker : ∀ {p s t}, I p s t → J p s t

instance : Weaker I I := ⟨id⟩

namespace Agree

variable {R : Pairing → α → β → Prop} {S : Pairing → γ → δ → Prop}
  {a a' : EStateM ε σ α} {b b' : EStateM ε σ β}

theorem ret {x : α} {y : β} (h : R p x y) : Agree (ε := ε) I J p R (pure x) (pure y) :=
  fun _ _ hs => .ok le_rfl hs h

theorem fail [Weaker I J] (e : ε) :
    Agree I J p R (throw e : EStateM ε σ α) (throw e : EStateM ε σ β) :=
  fun _ _ hs => .error e le_rfl (Weaker.weaker hs)

theorem bind {f : α → EStateM ε σ γ} {g : β → EStateM ε σ δ} (h : Agree I J p R a b)
    (hfg : ∀ q, p ≤ q → ∀ x y, R q x y → Agree I J q S (f x) (g y)) :
    Agree I J p S (a >>= f) (b >>= g) := by
  intro s t hs
  change Outcome I J p S (EStateM.bind a f s) (EStateM.bind b g t)
  have h := h s t hs
  unfold EStateM.bind
  generalize a s = x at h ⊢
  generalize b t = y at h ⊢
  cases h with
  | error e hq hs' => exact .error e hq hs'
  | ok hq hs' hr => exact (hfg _ hq _ _ hr _ _ hs').weaken hq

/-- Actions that look at the state first. -/
theorem read {f : σ → EStateM ε σ α} {g : σ → EStateM ε σ β}
    (h : ∀ s t, I p s t → Agree I J p R (f s) (g t)) : Agree I J p R (get >>= f) (get >>= g) :=
  fun s t hs => h s t hs s t hs

/-- Changes of the state that give something out. -/
theorem change {f : σ → α × σ} {g : σ → β × σ}
    (h : ∀ s t, I p s t → ∃ q, p ≤ q ∧ I q (f s).2 (g t).2 ∧ R q (f s).1 (g t).1) :
    Agree (ε := ε) I J p R (modifyGet f) (modifyGet g) := by
  intro s t hs
  obtain ⟨q, hq, hs', hr⟩ := h s t hs
  exact .ok hq hs' hr

theorem map {f : α → γ} {g : β → δ} (h : Agree I J p R a b)
    (hfg : ∀ q, p ≤ q → ∀ x y, R q x y → S q (f x) (g y)) : Agree I J p S (f <$> a) (g <$> b) := by
  rw [map_eq_pure_bind, map_eq_pure_bind]
  exact h.bind fun q hq x y hr => .ret (hfg q hq x y hr)

/-- Actions that fork on one condition. -/
theorem fork {c d : Prop} [Decidable c] [Decidable d] (hcd : c ↔ d) (h : c → Agree I J p R a b)
    (h' : ¬ c → Agree I J p R a' b') :
    Agree I J p R (if c then a else a') (if d then b else b') := by
  by_cases hc : c
  · rw [if_pos hc, if_pos (hcd.mp hc)]; exact h hc
  · rw [if_neg hc, if_neg (hcd.not.mp hc)]; exact h' hc

end Agree

/-- What fails goes no further. -/
@[simp] theorem fail_bind (e : ε) (f : α → EStateM ε σ β) :
    (throw e >>= f) = (throw e : EStateM ε σ β) := rfl

theorem get_bind (f : σ → EStateM ε σ β) (s : σ) : (get >>= f) s = f s s := rfl

theorem bind_ok {x : EStateM ε σ α} {f : α → EStateM ε σ β} {s t : σ} {a : α}
    (h : x s = .ok a t) : (x >>= f) s = f a t := by
  change EStateM.bind x f s = _
  rw [EStateM.bind, h]

theorem bind_error {x : EStateM ε σ α} {f : α → EStateM ε σ β} {s t : σ} {e : ε}
    (h : x s = .error e t) : (x >>= f) s = .error e t := by
  change EStateM.bind x f s = _
  rw [EStateM.bind, h]

/-- What ends with a result has come to one before. -/
theorem ok_of_bind {x : EStateM ε σ α} {f : α → EStateM ε σ γ} {s t : σ} {c : γ}
    (h : (x >>= f) s = .ok c t) : ∃ a u, x s = .ok a u ∧ f a u = .ok c t := by
  change EStateM.bind x f s = _ at h
  unfold EStateM.bind at h
  split at h
  · next a u ha => exact ⟨a, u, ha, h⟩
  · cases h

/-! ## Actions on all items of a list -/

section
variable {τ υ : Type} {T : Pairing → τ → υ → Prop}
  (hT : ∀ {p q : Pairing} {x y}, p ≤ q → T p x y → T q x y)
include hT

theorem Agree.forM {f : τ → EStateM ε σ Unit} {g : υ → EStateM ε σ Unit} {xs : List τ}
    {ys : List υ} (h : List.Forall₂ (T p) xs ys)
    (hfg : ∀ q, p ≤ q → ∀ x y, T q x y → Agree I J q Same (f x) (g y)) :
    Agree I J p Same (xs.forM f) (ys.forM g) := by
  induction xs generalizing p ys with
  | nil => cases h; exact .ret rfl
  | cons x xs ih =>
    cases h with
    | cons hxy hs =>
      change Agree I J p _ (f x >>= fun _ => xs.forM f) (g _ >>= fun _ => List.forM _ g)
      refine (hfg p le_rfl _ _ hxy).bind fun q hq _ _ _ => ?_
      exact ih (hs.imp fun _ _ => hT hq) fun r hr => hfg r (hq.trans hr)

theorem Agree.mapM {R : Pairing → γ → δ → Prop}
    (hR : ∀ {p q : Pairing} {x y}, p ≤ q → R p x y → R q x y) {f : τ → EStateM ε σ γ}
    {g : υ → EStateM ε σ δ} {xs : List τ} {ys : List υ} (h : List.Forall₂ (T p) xs ys)
    (hfg : ∀ q, p ≤ q → ∀ x y, T q x y → Agree I J q R (f x) (g y)) :
    Agree I J p (fun q => List.Forall₂ (R q)) (xs.mapM f) (ys.mapM g) := by
  induction xs generalizing p ys with
  | nil => cases h; exact .ret .nil
  | cons x xs ih =>
    cases h with
    | cons hxy hs =>
      rw [List.mapM_cons, List.mapM_cons]
      refine (hfg p le_rfl _ _ hxy).bind fun q hq _ _ hr => ?_
      refine (ih (hs.imp fun _ _ => hT hq) fun r hr => hfg r (hq.trans hr)).bind ?_
      exact fun q' hq' _ _ hrs => .ret (.cons (hR hq' hr) hrs)

theorem Agree.foldlM {R : Pairing → γ → δ → Prop} {f : γ → τ → EStateM ε σ γ}
    {g : δ → υ → EStateM ε σ δ} {xs : List τ} {ys : List υ} {a : γ} {b : δ} (hab : R p a b)
    (h : List.Forall₂ (T p) xs ys)
    (hfg : ∀ q, p ≤ q → ∀ a b x y, R q a b → T q x y → Agree I J q R (f a x) (g b y)) :
    Agree I J p R (xs.foldlM f a) (ys.foldlM g b) := by
  induction xs generalizing p ys a b with
  | nil => cases h; exact .ret hab
  | cons x xs ih =>
    cases h with
    | cons hxy hs =>
      rw [List.foldlM_cons, List.foldlM_cons]
      refine (hfg p le_rfl _ _ _ _ hab hxy).bind fun q hq _ _ hr => ?_
      exact ih hr (hs.imp fun _ _ => hT hq) fun r hr => hfg r (hq.trans hr)

end

end

end Resumable
