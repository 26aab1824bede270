import Resumable.Operation.Binary
import Resumable.Proofs.Lockstep.Arguments
import Resumable.Proofs.Lockstep.Comparison
import Resumable.Proofs.Lockstep.Iteration

/-!
# Operators in lockstep

Operators on values that are alike give values that are alike, or fail with one failure.
-/

namespace Resumable

open List (Forall₂)

variable {κ : World} {p q : Pairing}

/-! ## Numbers -/

theorem mapInt_alike (x : Except NumberError Int64) :
    SameEnd Eq (Value.Alike κ p) (Value.int <$> x) (Value.int <$> x) := by
  cases x with
  | ok i => exact .ok (.int i)
  | error e => exact .error rfl

theorem onIntegers_alike (op : Operator) (x y : Int64) :
    SameEnd Eq (Value.Alike κ p) (Number.onIntegers op x y) (Number.onIntegers op x y) := by
  cases op <;> simp only [Number.onIntegers]
  case add | sub | mult => exact mapInt_alike _
  case div =>
    split
    · exact .error rfl
    · exact .ok (.float _)
  case floorDiv =>
    split
    · exact .error rfl
    · exact mapInt_alike _
  case mod =>
    split
    · exact .error rfl
    · split
      · exact .error rfl
      · exact .ok (.int _)
  case pow =>
    split
    · split
      · exact .error rfl
      · exact .ok (.float _)
    · exact mapInt_alike _

theorem onFloats_alike (op : Operator) (x y : Float) :
    SameEnd Eq (Value.Alike κ p) (Number.onFloats op x y) (Number.onFloats op x y) := by
  cases op <;> simp only [Number.onFloats]
  case add | sub | mult => exact .ok (.float _)
  all_goals
    split
    · exact .error rfl
    · exact .ok (.float _)

/-! ## Arithmetic and sequences -/

namespace Heap

theorem withinNumbers_agrees {α : Type} {R : Pairing → α → α → Prop} {x : Except NumberError α}
    (h : SameEnd Eq (R p) x x) : Agrees κ p R (withinNumbers x) (withinNumbers x) := by
  cases h with
  | ok h => exact .ret h
  | error h => exact .fail _

theorem unsupported_eq {h k : Heap} (hl : Linked κ p h k) (op : Operator) {a b a' b' : Value}
    (ha : a.Alike κ p a') (hb : b.Alike κ p b') :
    h.unsupported op a b = k.unsupported op a' b' := by
  rw [unsupported, unsupported, typeName_eq hl ha, typeName_eq hl hb]

theorem unsupported_agrees {α β : Type} {R : Pairing → α → β → Prop} (op : Operator)
    {a b a' b' : Value} (ha : a.Alike κ p a') (hb : b.Alike κ p b') :
    Agrees κ p R (do throw ((← get).unsupported op a b))
      (do throw ((← get).unsupported op a' b')) := by
  refine .read fun h k hp => ?_
  rw [unsupported_eq hp.toLinked op ha hb]
  exact .fail _

theorem copies_alike {vs ws : List Value} (h : AllAlike κ p vs ws) (n : Nat) :
    AllAlike κ p (copies n vs) (copies n ws) := by
  unfold copies
  rw [h.isEmpty_eq]
  split
  · exact .nil
  · exact List.rel_flatten (List.Forall₂.replicate h n)

theorem unitBytes_eq {h k : Heap} (hl : Linked κ p h k) {v w : Value} (hvw : v.Alike κ p w) :
    h.unitBytes v = k.unitBytes w := by
  cases hvw with
  | tuple hvs => simp only [unitBytes, hvs.length_eq]
  | ref hxy =>
    obtain ⟨c, d, hc, hd, hcd⟩ := hl.cells hxy
    simp only [unitBytes, hc, hd]
    cases hcd with
    | list hvs => simp only [hvs.size_eq]
    | dict _ => rfl
    | iter _ => rfl
  | _ => rfl

theorem repeated_agrees {v w : Value} (hvw : v.Alike κ p w) (n : Nat) :
    Agrees κ p (MaybeAlike κ) (repeated v n) (repeated w n) := by
  refine .read fun h k hp => ?_
  rw [unitBytes_eq hp.toLinked hvw]
  cases k.unitBytes w with
  | none => exact .ret .none
  | some unit =>
    refine .fork Iff.rfl (fun _ => .fail _) fun _ => ?_
    refine (checkLarge_agrees _).bind fun q hq _ _ _ => ?_
    cases hvw with
    | str s => exact .ret (.some (.str _))
    | bytes data => exact .ret (.some (.bytes _))
    | tuple hvs => exact .ret (.some (.tuple ((copies_alike hvs n).mono hq)))
    | ref hxy =>
      obtain ⟨c, d, hc, hd, hcd⟩ := hp.cells hxy
      simp only [hc, hd]
      cases hcd with
      | list hvs =>
        refine (allocList_agrees ((copies_alike hvs n).mono hq)).bind fun r _ _ _ h => ?_
        exact .ret (.some h)
      | dict _ => exact .ret .none
      | iter _ => exact .ret .none
    | _ => exact .ret .none

/-- A product, if there is one. -/
theorem product_agrees {a b a' b' : Value} (ha : a.Alike κ p a') (hb : b.Alike κ p b')
    {x y : Option Value} : MaybeAlike κ p x y → Agrees κ p (Value.Alike κ)
      (match x with
        | some v => pure v
        | none => do throw ((← get).unsupported .mult a b))
      (match y with
        | some v => pure v
        | none => do throw ((← get).unsupported .mult a' b')) := by
  intro hxy
  cases hxy with
  | some h => exact .ret h
  | none => exact unsupported_agrees .mult ha hb

theorem combine_agrees (op : Operator) {a b a' b' : Value} (ha : a.Alike κ p a')
    (hb : b.Alike κ p b') : Agrees κ p (Value.Alike κ) (combine op a b) (combine op a' b') := by
  have refuse : Agrees κ p (Value.Alike κ) (do throw ((← get).unsupported op a b))
      (do throw ((← get).unsupported op a' b')) := unsupported_agrees op ha hb
  cases op with
  | add =>
    cases ha with
    | str s => cases hb with
      | str t => exact (checkLarge_agrees _).bind fun q _ _ _ _ => .ret (.str _)
      | _ => exact refuse
    | bytes s => cases hb with
      | bytes t => exact (checkLarge_agrees _).bind fun q _ _ _ _ => .ret (.bytes _)
      | _ => exact refuse
    | tuple h => cases hb with
      | tuple h' => exact .ret (.tuple (h.append h'))
      | _ => exact refuse
    | ref hx => cases hb with
      | ref hy =>
        refine .read fun h k hp => ?_
        obtain ⟨c, d, hc, hd, hcd⟩ := hp.cells hx
        obtain ⟨c', d', hc', hd', hcd'⟩ := hp.cells hy
        rw [hc, hd, hc', hd', unsupported_eq hp.toLinked .add (.ref hx) (.ref hy)]
        cases hcd with
        | list hvs => cases hcd' with
          | list hws =>
            refine allocList_agrees ?_
            simp only [ItemsAlike, Array.toList_append]
            exact List.Forall₂.append hvs hws
          | _ => exact .fail _
        | _ => exact .fail _
      | _ => exact refuse
    | _ => exact refuse
  | mult =>
    simp only [combine]
    rw [hb.int?_eq, ha.int?_eq]
    cases b'.int? with
    | some n =>
      exact (repeated_agrees ha _).bind fun q hq _ _ h =>
        product_agrees (ha.mono hq) (hb.mono hq) h
    | none =>
      cases a'.int? with
      | some n =>
        exact (repeated_agrees hb _).bind fun q hq _ _ h =>
          product_agrees (ha.mono hq) (hb.mono hq) h
      | none => exact product_agrees ha hb .none
  | div =>
    cases ha with
    | path s => cases hb with
      | path t => exact .ret (.path _)
      | str t => exact .ret (.path _)
      | _ => exact refuse
    | str s => cases hb with
      | path t => exact .ret (.path _)
      | _ => exact refuse
    | _ => exact refuse
  | _ => exact refuse

theorem binary_agrees (op : Operator) {a b a' b' : Value} (ha : a.Alike κ p a')
    (hb : b.Alike κ p b') : Agrees κ p (Value.Alike κ) (binary op a b) (binary op a' b') := by
  unfold binary
  rw [ha.int?_eq, hb.int?_eq, ha.number?_eq, hb.number?_eq]
  split
  · exact withinNumbers_agrees (onIntegers_alike op _ _)
  · exact withinNumbers_agrees (onFloats_alike op _ _)
  · exact combine_agrees op ha hb

theorem chargeAll_agrees {x y : Nat} (hxy : p.rel x y) {vs ws : Array Value}
    (h : ItemsAlike κ p vs ws) :
    Agrees κ p Same (vs.forM fun _ => chargeInsert x) (ws.forM fun _ => chargeInsert y) := by
  obtain ⟨vs⟩ := vs
  obtain ⟨ws⟩ := ws
  rw [List.forM_toArray' _ _ rfl, List.forM_toArray' _ _ rfl]
  exact .forM (T := Value.Alike κ) (fun hpq h => h.mono hpq) h
    fun q hq _ _ _ => chargeInsert_agrees (hq hxy)

theorem append_agrees {x y : Nat} (hxy : p.rel x y) {vs ws : Array Value}
    (h : ItemsAlike κ p vs ws) :
    Agrees κ p Same (modifyList x (· ++ vs)) (modifyList y (· ++ ws)) := by
  refine modifyList_agrees hxy fun as bs hab => ?_
  simp only [ItemsAlike, Array.toList_append]
  exact List.Forall₂.append hab h

theorem inplace_agrees (op : Operator) {a b a' b' : Value} (ha : a.Alike κ p a')
    (hb : b.Alike κ p b') : Agrees κ p (Value.Alike κ) (inplace op a b) (inplace op a' b') := by
  have plain := binary_agrees op ha hb
  cases op with
  | add =>
    cases ha with
    | ref hxy =>
      refine .read fun h k hp => ?_
      obtain ⟨c, d, hc, hd, hcd⟩ := hp.cells hxy
      rw [hc, hd]
      cases hcd with
      | list _ =>
        refine (items_agrees hb).bind fun q hq vs ws hvs => ?_
        refine (chargeAll_agrees (hq hxy) hvs).bind fun r hr _ _ _ => ?_
        refine (append_agrees (hr (hq hxy)) (hvs.mono hr)).bind fun s hs _ _ _ => ?_
        exact .ret (.ref (hs (hr (hq hxy))))
      | _ => exact plain
    | _ => exact plain
  | _ => exact plain

theorem negate_agrees {v w : Value} (hvw : v.Alike κ p w) :
    Agrees κ p (Value.Alike κ) (negate v) (negate w) := by
  have refuse : Agrees κ p (Value.Alike κ) _ _ :=
    failWithType hvw fun kind => .typeError s!"bad operand type for unary -: '{kind}'"
  have integer : ∀ i : Int64, Agrees κ p (Value.Alike κ)
      (do return .int (← withinNumbers (Number.negate i)))
      (do return .int (← withinNumbers (Number.negate i))) := fun i =>
    (withinNumbers_agrees (R := Same) (by cases Number.negate i <;> constructor <;> rfl)).bind
      fun q _ _ _ h => h ▸ .ret (.int _)
  cases hvw with
  | float x => exact .ret (.float _)
  | int i => exact integer i
  | bool b => exact integer _
  | _ => exact refuse

theorem positive_agrees {v w : Value} (hvw : v.Alike κ p w) :
    Agrees κ p (Value.Alike κ) (positive v) (positive w) := by
  have refuse : Agrees κ p (Value.Alike κ) _ _ :=
    failWithType hvw fun kind => .typeError s!"bad operand type for unary +: '{kind}'"
  cases hvw with
  | float x => exact .ret (.float _)
  | int i => exact .ret (.int _)
  | bool b => exact .ret (.int _)
  | _ => exact refuse

/-! ## Membership and order -/

theorem holds_agrees {v w a b : Value} (hvw : v.Alike κ p w) (hab : a.Alike κ p b) :
    Agrees κ p Same (holds v a) (holds w b) := by
  have refuse : Agrees κ p (Same (α := Bool)) _ _ :=
    failWithType hvw fun kind => .typeError s!"argument of type '{kind}' is not iterable"
  have refuseItem : Agrees κ p (Same (α := Bool)) _ _ := failWithType hab fun kind =>
    .typeError s!"'in <string>' requires string as left operand, not {kind}"
  cases hvw with
  | str s => cases hab with
    | str t => exact .ret rfl
    | _ => exact refuseItem
  | bytes data => cases hab with
    | bytes needle => exact .ret rfl
    | int i => exact .ret rfl
    | bool b => exact .ret rfl
    | _ => exact .fail _
  | tuple hvs => exact isAmong_agrees hab hvs
  | namedTuple type fields hvs => exact isAmong_agrees hab hvs
  | range start stop step =>
    simp only [holds]
    rw [hab.int?_eq]
    split
    · split
      · exact .ret rfl
      · exact .fail _
    · exact .ret rfl
  | ref hxy =>
    refine .read fun h k hp => ?_
    obtain ⟨c, d, hc, hd, hcd⟩ := hp.cells hxy
    rw [hc, hd]
    cases hcd with
    | dict hde =>
      refine (key_agrees hab).bind fun q _ key _ hkey => ?_
      subst hkey
      exact .ret (hde.contains_eq key)
    | _ =>
      refine (items_agrees (.ref hxy)).bind fun q hq _ _ hvs => ?_
      exact isAmong_agrees (hab.mono hq) hvs
  | _ => exact refuse

theorem ordered_agrees (op : Comparator) {a b a' b' : Value} (ha : a.Alike κ p a')
    (hb : b.Alike κ p b') : Agrees κ p Same (ordered op a b) (ordered op a' b') := by
  refine .read fun h k hp => ?_
  rw [ha.number?_eq, hb.number?_eq, typeName_eq hp.toLinked ha, typeName_eq hp.toLinked hb]
  obtain ⟨r, s, hr, hs, rfl⟩ | ⟨e, d, he, hd, hed⟩ := (compare?_alike hp.toLinked ha hb).elim
  · rw [hr, hs]
    cases a'.number? <;> cases b'.number? <;> exact .ret rfl
  · rw [he, hd]
    cases hed with
    | nan =>
      cases a'.number? <;> cases b'.number?
      case some.some => exact .ret rfl
      all_goals exact .fail _
    | types _ _ => cases a'.number? <;> cases b'.number? <;> exact .fail _
    | endless => cases a'.number? <;> cases b'.number? <;> exact .fail _

theorem comparison_agrees (op : Comparator) {a b a' b' : Value} (ha : a.Alike κ p a')
    (hb : b.Alike κ p b') : Agrees κ p Same (comparison op a b) (comparison op a' b') := by
  cases op with
  | eq => exact equal_agrees ha hb
  | notEq => exact (equal_agrees ha hb).map fun q _ _ _ h => h ▸ rfl
  | is => exact .ret (ha.same_eq hb)
  | isNot => exact .ret (congrArg not (ha.same_eq hb))
  | isIn => exact holds_agrees hb ha
  | notIn => exact (holds_agrees hb ha).map fun q _ _ _ h => h ▸ rfl
  | _ => exact ordered_agrees _ ha hb

end Heap

end Resumable
