import Resumable.Operation.Binary
import Resumable.Proofs.Obedience.Ledger

/-!
# How large the results of operators are

A text, a byte string, a tuple or a list that an operator makes has at most as many bytes as
`Limits.resultCeiling`, whatever the budget (`binary_le_ceiling`). The exception are two tuples or
two lists that are put together, for which no operator asks: `exists_binary_gt_ceiling`.
-/

namespace Resumable.Heap

variable {h k : Heap} {op : Operator} {a b v w : Value} {n m : Nat}

/-- The operator puts two tuples or two lists together, and the result has so many bytes. -/
inductive Joins (h : Heap) : Operator → Value → Value → Nat → Prop
  | tuples (x y : List Value) :
      h.Joins .add (.tuple x) (.tuple y) ((x.length + y.length) * Cell.valueBytes)
  | lists {x y l r} : h.cell? x = some (.list l) → h.cell? y = some (.list r) →
      h.Joins .add (.ref x) (.ref y) ((l.size + r.size) * Cell.valueBytes)

/-! ## Checks -/

theorem ok_of_checkLarge {u : Unit} (hc : checkLarge n h = .ok u k) :
    n ≤ Limits.resultCeiling ∧ h = k := by
  unfold checkLarge at hc
  split at hc
  · change withinLimit (h.budget.checkResult n) h = _ at hc
    unfold Budget.checkResult at hc
    split at hc
    · cases hc
    · next hle =>
      refine ⟨Nat.le_of_not_gt hle, ?_⟩
      generalize (if h.budget.unlimited = true then _ else _ : Except LimitError Unit) = x at hc
      cases x with
      | ok _ => cases hc; rfl
      | error e => cases hc
  · next hle =>
    cases hc
    exact ⟨(Nat.le_of_not_gt hle).trans (by decide), rfl⟩

/-! ## Sizes -/

theorem utf8Size_append (x y : String) :
    Text.utf8Size (x ++ y) = Text.utf8Size x + Text.utf8Size y := String.utf8ByteSize_append

theorem copies_eq {α : Type} (n : Nat) (items : List α) :
    copies n items = (List.replicate n items).flatten := by
  unfold copies
  split
  · next hempty => simp [List.isEmpty_iff.mp hempty]
  · rfl

theorem length_copies {α : Type} (n : Nat) (items : List α) :
    (copies n items).length = items.length * n := by
  simp [copies_eq, Nat.mul_comm]

theorem utf8Size_copies (n : Nat) (s : String) :
    Text.utf8Size (String.ofList (copies n s.toList)) = Text.utf8Size s * n := by
  rw [copies_eq]
  induction n with
  | zero => rfl
  | succ n ih =>
    rw [List.replicate_succ, List.flatten_cons, String.ofList_append, utf8Size_append, ih,
      String.ofList_toList, Nat.mul_succ, Nat.add_comm]

theorem unitBytes_of_allocList {items : Array Value} (hv : allocList items h = .ok v k)
    (hn : k.unitBytes v = some n) : n = items.size * Cell.valueBytes := by
  obtain ⟨_, l, -, hput⟩ := ok_of_bind hv
  let placed := place { l with recent := l.recent + 1 } ⟨.list items, (Cell.list items).bytes⟩
  have hend : EStateM.Result.ok (Value.ref placed.1) placed.2 = .ok v k := hput
  injection hend with hv hk
  subst hv hk
  simp only [unitBytes, cell?_eq_slot?] at hn
  cases hslot : placed.2.slot? placed.1 with
  | none => rw [hslot] at hn; cases hn
  | some t => rw [hslot, slot?_place_fst hslot] at hn; exact (Option.some.inj hn).symm

theorem unitBytes_of_onIntegers {x y : Int64} (hv : Number.onIntegers op x y = .ok v) :
    h.unitBytes v = none := by
  have int {z : Except NumberError Int64} (hz : Value.int <$> z = .ok v) :
      h.unitBytes v = none := by
    cases z <;> cases hz
    rfl
  cases op <;> simp only [Number.onIntegers] at hv
  case add | sub | mult => exact int hv
  case div => split at hv <;> cases hv; rfl
  case floorDiv =>
    split at hv
    · cases hv
    · exact int hv
  case mod =>
    split at hv
    · cases hv
    · split at hv <;> cases hv; rfl
  case pow =>
    split at hv
    · split at hv <;> cases hv; rfl
    · exact int hv

theorem unitBytes_of_onFloats {x y : Float} (hv : Number.onFloats op x y = .ok v) :
    h.unitBytes v = none := by
  cases op <;> simp only [Number.onFloats] at hv
  case add | sub | mult => cases hv; rfl
  all_goals split at hv <;> cases hv; rfl

/-! ## Operators -/

/-- A repeated sequence has been checked. -/
theorem le_ceiling_of_repeated (hw : repeated v n h = .ok (some w) k)
    (hm : k.unitBytes w = some m) : m ≤ Limits.resultCeiling := by
  obtain ⟨_, _, hget, hread⟩ := ok_of_bind hw
  cases hget
  cases hunit : h.unitBytes v with
  | none => simp only [hunit] at hread; cases hread
  | some unit =>
    simp only [hunit] at hread
    split at hread
    · obtain ⟨_, _, hthrow, -⟩ := ok_of_bind hread
      cases hthrow
    obtain ⟨_, _, hcheck, hmade⟩ := ok_of_bind hread
    obtain ⟨hle, rfl⟩ := ok_of_checkLarge hcheck
    suffices hm' : m = unit * n from hm' ▸ hle
    cases v with
    | str s =>
      cases hmade
      cases hunit
      cases hm
      exact utf8Size_copies n s
    | bytes data =>
      cases hmade
      cases hunit
      cases hm
      exact length_copies n data
    | tuple items =>
      cases hmade
      cases hunit
      cases hm
      rw [length_copies, Nat.mul_right_comm]
    | ref id =>
      obtain ⟨items, hcell⟩ : ∃ items, h.cell? id = some (.list items) := by
        simp only [unitBytes] at hunit
        split at hunit
        · next items hcell => exact ⟨items, hcell⟩
        · cases hunit
      simp only [unitBytes, hcell] at hunit
      simp only [hcell] at hmade
      cases hunit
      obtain ⟨r, l, halloc, hret⟩ := ok_of_bind hmade
      cases hret
      rw [unitBytes_of_allocList halloc hm, List.size_toArray, length_copies,
        Array.length_toList, Nat.mul_right_comm]
    | _ => cases hunit

/-- From a heap, what an action gives has a size as `P` says, if it has one. -/
def Sized (h : Heap) (P : Nat → Prop) (act : Action Value) : Prop :=
  ∀ v k n, act h = .ok v k → k.unitBytes v = some n → P n

namespace Sized

variable {P : Nat → Prop}

theorem ret (hv : ∀ n, h.unitBytes v = some n → P n) : h.Sized P (pure v) := fun _ _ n hr hn => by
  cases hr
  exact hv n hn

theorem fail (e : Failure) : h.Sized P (throw e) := fun _ _ _ hr => by cases hr

theorem read {f : Heap → Action Value} (hf : h.Sized P (f h)) : h.Sized P (get >>= f) := hf

/-- A result that is made after it has been checked. -/
theorem checked (hv : h.unitBytes v = some n) (hP : n ≤ Limits.resultCeiling → P n) :
    h.Sized P (do checkLarge n; pure v) := by
  intro w k m hr hm
  obtain ⟨_, _, hcheck, hret⟩ := ok_of_bind hr
  obtain ⟨hle, rfl⟩ := ok_of_checkLarge hcheck
  cases hret
  rw [hv] at hm
  cases hm
  exact hP hle

theorem numbers {x : Except NumberError Value} (hx : ∀ k w, x = .ok w → unitBytes k w = none) :
    h.Sized P (withinNumbers x) := by
  intro w k n hr hn
  cases x with
  | error e => cases hr
  | ok w =>
    cases hr
    rw [hx h w rfl] at hn
    cases hn

end Sized

/-- A product, if there is one, has been checked. -/
theorem product_sized {P : Nat → Prop} (hP : ∀ n, n ≤ Limits.resultCeiling → P n) (op : Operator)
    (a b v : Value) (n : Nat) : h.Sized P (do
      match ← repeated v n with
      | some w => pure w
      | none => do throw ((← get).unsupported op a b)) := by
  intro w k m hr hm
  obtain ⟨product?, l, hproduct, hret⟩ := ok_of_bind hr
  cases product? with
  | none => cases hret
  | some w => cases hret; exact hP m (le_ceiling_of_repeated hproduct hm)

theorem combine_sized (h : Heap) (op : Operator) (a b : Value) :
    h.Sized (fun n => n ≤ Limits.resultCeiling ∨ h.Joins op a b n) (combine op a b) := by
  unfold combine
  split
  · exact .checked (by rw [unitBytes, utf8Size_append]) .inl
  · exact .checked (by rw [unitBytes, List.length_append]) .inl
  · refine .ret fun n hn => .inr ?_
    cases hn
    rw [List.length_append]
    exact .tuples _ _
  · refine .read ?_
    split
    · next l r hl hr =>
      refine fun v k n hsum hn => .inr ?_
      rw [unitBytes_of_allocList hsum hn, Array.size_append]
      exact .lists hl hr
    · exact .fail _
  · split
    · exact product_sized (fun _ => .inl) _ _ _ _ _
    · exact product_sized (fun _ => .inl) _ _ _ _ _
    · exact fun _ _ _ hr => by cases hr
  · exact .ret nofun
  · exact .ret nofun
  · exact .ret nofun
  · exact .read (.fail _)

/-- Whatever the budget, the result of an operator is within the ceiling, unless it is of two tuples
or lists that have been put together. -/
theorem binary_le_ceiling (hv : binary op a b h = .ok v k) (hn : k.unitBytes v = some n) :
    n ≤ Limits.resultCeiling ∨ h.Joins op a b n := by
  refine (?_ : h.Sized (fun n => n ≤ _ ∨ h.Joins op a b n) (binary op a b)) v k n hv hn
  unfold binary
  split
  · exact .numbers fun _ _ => unitBytes_of_onIntegers
  · exact .numbers fun _ _ => unitBytes_of_onFloats
  · exact combine_sized h op a b

/-- Two tuples that are each within the ceiling have a sum that is not, from every heap. -/
theorem exists_binary_gt_ceiling (h : Heap) : ∃ a b v n m,
    h.unitBytes a = some m ∧ h.unitBytes b = some m ∧ m ≤ Limits.resultCeiling ∧
    binary .add a b h = .ok v h ∧ h.unitBytes v = some n ∧ Limits.resultCeiling < n := by
  let half := List.replicate 11184811 Value.none
  have hhalf : half.length = 11184811 := List.length_replicate
  refine ⟨.tuple half, .tuple half, .tuple (half ++ half), 22369622 * Cell.valueBytes,
    11184811 * Cell.valueBytes, ?_, ?_, by decide, rfl, ?_, by decide⟩
  · rw [unitBytes, hhalf]
  · rw [unitBytes, hhalf]
  · rw [unitBytes, List.length_append, hhalf]

end Resumable.Heap
