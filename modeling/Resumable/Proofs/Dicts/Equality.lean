import Resumable.Proofs.Dicts.Basic
import Resumable.Proofs.Endless
import Resumable.Proofs.Order.Tree

/-!
# Equality is an equivalence

Dicts are equal if they have as many entries and the second one has an equal value for each key of
the first one. That looks at the keys of one side only; but lawful dicts have no key twice, so that
as many keys are the same keys (`Dict.match_of_match`).

`h.Built u`: the value is built without numbers, in finitely many steps, so that nothing in it
contains itself. Main statement: `Built.regular`, comparisons with such a value have an answer, the
same in both orders, and what is equal to something equal is equal.
-/

namespace Resumable

theorem allAnswer_eq_true {α : Type} {p : α → Option Bool} {as : List α} :
    allAnswer p as = some true ↔ ∀ a ∈ as, p a = some true := by
  induction as with
  | nil => simp [allAnswer]
  | cons a as ih =>
    rw [allAnswer, List.forall_mem_cons, ← ih]
    split
    · next h => simp [h]
    · next h => exact ⟨fun heq => (h heq).elim, fun heq => (h heq.1).elim⟩

/-! ## Dicts -/

namespace Dict

variable {as bs : Dict}

/-- If each entry of a dict has its match in another one that is as large, then so has each entry of
the other one: the keys are the same. -/
theorem match_of_match (R : Value → Value → Prop) (has : as.Lawful) (hbs : bs.Lawful)
    (hsize : as.size = bs.size)
    (hall : ∀ e ∈ as.entries.toList,
      ∃ e' ∈ bs.entries.toList, e'.key = e.key ∧ R e.value e'.value) :
    ∀ e' ∈ bs.entries.toList, ∃ e ∈ as.entries.toList, e.key = e'.key ∧ R e.value e'.value := by
  have hsubset : as.keys ⊆ bs.keys := fun k hk => by
    obtain ⟨e, he, rfl⟩ := mem_keys.mp hk
    obtain ⟨e', he', hkey, -⟩ := hall e he
    exact mem_keys.mpr ⟨e', he', hkey⟩
  have hlength : bs.keys.length ≤ as.keys.length := by
    rw [keys, keys, List.length_map, List.length_map, Array.length_toList, Array.length_toList]
    exact hsize.ge
  have hperm := (has.nodup.subperm hsubset).perm_of_length_le hlength
  intro e' he'
  obtain ⟨e, he, hkey⟩ := mem_keys.mp (hperm.symm.subset (mem_keys.mpr ⟨e', he', rfl⟩))
  obtain ⟨e'', he'', hkey', hR⟩ := hall e he
  obtain rfl := List.inj_on_of_nodup_map hbs.nodup he'' he' (hkey'.trans hkey)
  exact ⟨e, he, hkey, hR⟩

end Dict

/-- The items of a tuple, named or not. -/
def Value.tupled? : Value → Option (List Value)
  | .tuple vs | .namedTuple _ _ vs => some vs
  | _ => Option.none

namespace Heap

variable {h : Heap} {u v w : Value} {x y z : Nat} {vs ws us : List Value} {as bs cs : Dict}

/-! ## Sequences and entries -/

/-- Whether two sequences are equal. -/
def equalAll? (h : Heap) (vs ws : List Value) : Option Bool :=
  if vs.length == ws.length then Value.allEqualBy (h.cellsEqual h.walkBound) vs ws else some false

/-- Whether two dicts are equal. -/
def equalDicts? (h : Heap) (as bs : Dict) : Option Bool :=
  if as.size == bs.size then
    allAnswer (fun e => (bs.get? e.key).elim (some false) (h.equal? e.value)) as.entries.toList
  else some false

/-- Whether two cells are equal. -/
def equalCells? (h : Heap) : Option Cell → Option Cell → Option Bool
  | some (.list as), some (.list bs) => h.equalAll? as.toList bs.toList
  | some (.dict as), some (.dict bs) => h.equalDicts? as bs
  | _, _ => some false

theorem equal?_self (h : Heap) (x : Nat) : h.equal? (.ref x) (.ref x) = some true := by
  simp [equal?, Value.equalBy]

theorem equal?_refs (hne : x ≠ y) :
    h.equal? (.ref x) (.ref y) = h.equalCells? (h.cell? x) (h.cell? y) := by
  rw [equal?, Value.equalBy, if_neg (by simpa using hne), cellsEqual_fixed, cellsEqualBy]
  split
  · next as bs hx hy =>
    rw [hx, hy]
    exact congrArg (fun answer => if as.size == bs.size then answer else some false)
      (Value.allAnswer_zip _ _)
  · next as bs hx hy =>
    rw [hx, hy]
    rfl
  · next hlist hdict =>
    unfold equalCells?
    split
    · next hx hy => exact (hlist _ _ hx hy).elim
    · next hx hy => exact (hdict _ _ hx hy).elim
    · rfl

/-! ## Values whose comparisons are regular -/

/-- Comparisons with the value have an answer, the same in both orders, and go through what is
equal to it. -/
structure Regular (h : Heap) (u : Value) : Prop where
  answers : ∀ v, h.equal? u v ≠ none
  symm : ∀ v, h.equal? v u = h.equal? u v
  trans : ∀ v w, h.equal? u v = some true → h.equal? v w = some true → h.equal? u w = some true

/-! ### Sequences -/

section
variable (hvs : ∀ v ∈ vs, h.Regular v)
include hvs

theorem equalAll?_ne_none (ws : List Value) : h.equalAll? vs ws ≠ none := by
  unfold equalAll?
  split
  · clear * - hvs
    induction vs generalizing ws with
    | nil => simp [Value.allEqualBy]
    | cons v vs ih =>
      cases ws with
      | nil => simp [Value.allEqualBy]
      | cons w ws =>
        rw [Value.allEqualBy]
        split
        · exact ih (fun v hv => hvs v (.tail _ hv)) ws
        · exact (hvs v (.head _)).answers w
  · exact Option.some_ne_none _

theorem equalAll?_symm (ws : List Value) : h.equalAll? ws vs = h.equalAll? vs ws := by
  unfold equalAll?
  rw [BEq.comm (a := ws.length)]
  split
  · clear * - hvs
    induction vs generalizing ws with
    | nil => cases ws <;> simp [Value.allEqualBy]
    | cons v vs ih =>
      cases ws with
      | nil => simp [Value.allEqualBy]
      | cons w ws =>
        have hv : Value.equalBy _ w v = Value.equalBy _ v w := (hvs v (.head _)).symm w
        rw [Value.allEqualBy, Value.allEqualBy, hv, ih fun v hv => hvs v (.tail _ hv)]
  · rfl

end

theorem equalAll?_eq_true :
    h.equalAll? vs ws = some true ↔ List.Forall₂ (fun v w => h.equal? v w = some true) vs ws := by
  unfold equalAll?
  induction vs generalizing ws with
  | nil => cases ws <;> simp [Value.allEqualBy]
  | cons v vs ih =>
    cases ws with
    | nil => simp
    | cons w ws =>
      rw [List.forall₂_cons, ← ih, Value.allEqualBy]
      simp only [List.length_cons, Nat.add_right_cancel_iff, beq_iff_eq]
      change _ ↔ Value.equalBy _ v w = some true ∧ _
      split
      · split
        · next hvw => simp [hvw]
        · next hvw => exact ⟨fun heq => (hvw heq).elim, fun heq => (hvw heq.1).elim⟩
      · simp

theorem equalAll?_trans (hvs : ∀ v ∈ vs, h.Regular v) (hvw : h.equalAll? vs ws = some true)
    (hwu : h.equalAll? ws us = some true) : h.equalAll? vs us = some true := by
  rw [equalAll?_eq_true] at hvw hwu ⊢
  induction hvw generalizing us with
  | nil => exact hwu
  | cons hv _ ih =>
    cases hwu with
    | cons hw hrest =>
      refine .cons ((hvs _ (.head _)).trans _ _ hv hw) (ih (fun v hv => hvs v (.tail _ hv)) hrest)

/-! ### Dicts -/

theorem equalDicts?_eq_true (hbs : bs.Lawful) :
    h.equalDicts? as bs = some true ↔ as.size = bs.size ∧ ∀ e ∈ as.entries.toList,
      ∃ e' ∈ bs.entries.toList, e'.key = e.key ∧ h.equal? e.value e'.value = some true := by
  have hentry : ∀ e : Entry, (bs.get? e.key).elim (some false) (h.equal? e.value) = some true ↔
      ∃ e' ∈ bs.entries.toList, e'.key = e.key ∧ h.equal? e.value e'.value = some true := by
    intro e
    calc (bs.get? e.key).elim (some false) (h.equal? e.value) = some true
        ↔ ∃ v, bs.get? e.key = some v ∧ h.equal? e.value v = some true := by
          cases bs.get? e.key <;> simp
      _ ↔ _ := by
          simp only [hbs.get?_eq_some_iff]
          grind
  unfold equalDicts?
  by_cases hsize : as.size = bs.size
  · rw [if_pos (beq_iff_eq.mpr hsize), allAnswer_eq_true]
    simp only [hentry, hsize, true_and]
  · rw [if_neg (mt beq_iff_eq.mp hsize)]
    simp [hsize]

section
variable (hvalues : ∀ e ∈ as.entries.toList, h.Regular e.value)
include hvalues

theorem equalDicts?_ne_none (bs : Dict) : h.equalDicts? as bs ≠ none := by
  unfold equalDicts?
  split
  · refine allAnswer_ne_none fun e he => ?_
    cases bs.get? e.key with
    | none => exact Option.some_ne_none _
    | some v => exact (hvalues e he).answers v
  · exact Option.some_ne_none _

theorem equalDicts?_swap_ne_none (bs : Dict) : h.equalDicts? bs as ≠ none := by
  unfold equalDicts?
  split
  · refine allAnswer_ne_none fun e' _ => ?_
    cases hv : as.get? e'.key with
    | none => exact Option.some_ne_none _
    | some v =>
      obtain ⟨e, he, rfl⟩ := Dict.mem_of_get? hv
      change h.equal? e'.value e.value ≠ none
      rw [(hvalues e he).symm]
      exact (hvalues e he).answers _
  · exact Option.some_ne_none _

/-- Each way, the entries of the left dict have their match in the right one. -/
theorem equalDicts?_symm (has : as.Lawful) (hbs : bs.Lawful) :
    h.equalDicts? bs as = h.equalDicts? as bs := by
  have htrue : h.equalDicts? bs as = some true ↔ h.equalDicts? as bs = some true := by
    rw [equalDicts?_eq_true has, equalDicts?_eq_true hbs]
    refine ⟨fun ⟨hsize, hall⟩ => ⟨hsize.symm, ?_⟩, fun ⟨hsize, hall⟩ => ⟨hsize.symm, ?_⟩⟩
    · intro e he
      obtain ⟨e', he', hkey, heq⟩ :=
        Dict.match_of_match (h.equal? · · = some true) hbs has hsize hall e he
      exact ⟨e', he', hkey, (hvalues e he).symm _ ▸ heq⟩
    · intro e' he'
      obtain ⟨e, he, hkey, heq⟩ :=
        Dict.match_of_match (h.equal? · · = some true) has hbs hsize hall e' he'
      exact ⟨e, he, hkey, ((hvalues e he).symm _).trans heq⟩
  obtain ⟨b, hb⟩ := Option.ne_none_iff_exists'.mp (equalDicts?_swap_ne_none hvalues bs)
  obtain ⟨c, hc⟩ := Option.ne_none_iff_exists'.mp (equalDicts?_ne_none hvalues bs)
  rw [hb, hc, Option.some_inj, Option.some_inj, ← Bool.eq_iff_iff] at htrue
  rw [hb, hc, htrue]

theorem equalDicts?_trans (hbs : bs.Lawful) (hcs : cs.Lawful)
    (hab : h.equalDicts? as bs = some true) (hbc : h.equalDicts? bs cs = some true) :
    h.equalDicts? as cs = some true := by
  rw [equalDicts?_eq_true hbs] at hab
  rw [equalDicts?_eq_true hcs] at hbc ⊢
  refine ⟨hab.1.trans hbc.1, fun e he => ?_⟩
  obtain ⟨e', he', hkey, heq⟩ := hab.2 e he
  obtain ⟨e'', he'', hkey', heq'⟩ := hbc.2 e' he'
  exact ⟨e'', he'', hkey'.trans hkey, (hvalues e he).trans _ _ heq heq'⟩

end

/-! ### One kind of value after the other -/

theorem equal?_leaf {a : Leaf} (hu : u.leaf? = some a) (v : Value) :
    h.equal? u v = some (v.leaf? == some a) ∧ h.equal? v u = some (v.leaf? == some a) := by
  cases u <;> cases hu <;> cases v <;>
    simp [equal?, Value.equalBy, Value.leaf?, Value.number?, Value.same, beq_eq_decide, eq_comm]

theorem regular_leaf {a : Leaf} (hu : u.leaf? = some a) : h.Regular u where
  answers v := (equal?_leaf hu v).1 ▸ Option.some_ne_none _
  symm v := (equal?_leaf hu v).2.trans (equal?_leaf hu v).1.symm
  trans v w huv hvw := by
    rw [(equal?_leaf hu v).1, Option.some_inj, beq_iff_eq] at huv
    rw [(equal?_leaf huv w).1] at hvw
    rw [(equal?_leaf hu w).1, hvw]

/-- Exceptions are equal if their types and messages are. -/
theorem equal?_exception (e : Raised) (v : Value) :
    h.equal? (.exception e) v = some (match v with
      | .exception f => e.type == f.type && e.message == f.message
      | _ => false) ∧
    h.equal? v (.exception e) = some (match v with
      | .exception f => e.type == f.type && e.message == f.message
      | _ => false) := by
  cases v <;> simp [equal?, Value.equalBy, Value.number?, Value.same, beq_eq_decide, eq_comm]

theorem regular_exception (e : Raised) : h.Regular (.exception e) where
  answers v := (equal?_exception e v).1 ▸ Option.some_ne_none _
  symm v := (equal?_exception e v).2.trans (equal?_exception e v).1.symm
  trans v w hev hvw := by
    rw [(equal?_exception e v).1] at hev
    cases v with
    | exception f =>
      rw [(equal?_exception f w).1] at hvw
      rw [(equal?_exception e w).1]
      cases w <;> simp_all
    | _ => cases hev

theorem equal?_tupled (hu : u.tupled? = some vs) (v : Value) :
    h.equal? u v = v.tupled?.elim (some false) (h.equalAll? vs) ∧
      h.equal? v u = v.tupled?.elim (some false) (h.equalAll? · vs) := by
  cases u <;> cases hu <;> cases v <;>
    simp [equal?, Value.equalBy, Value.tupled?, Value.number?, Value.same, equalAll?]

theorem regular_tupled (hu : u.tupled? = some vs) (hvs : ∀ v ∈ vs, h.Regular v) : h.Regular u where
  answers v := by
    rw [(equal?_tupled hu v).1]
    cases v.tupled? with
    | none => exact Option.some_ne_none _
    | some ws => exact equalAll?_ne_none hvs ws
  symm v := by
    rw [(equal?_tupled hu v).1, (equal?_tupled hu v).2]
    cases v.tupled? with
    | none => rfl
    | some ws => exact equalAll?_symm hvs ws
  trans v w huv hvw := by
    rw [(equal?_tupled hu v).1] at huv
    rw [(equal?_tupled hu w).1]
    cases hv : v.tupled? with
    | none =>
      rw [hv] at huv
      cases huv
    | some ws =>
      rw [hv] at huv
      rw [(equal?_tupled hv w).1] at hvw
      cases hw : w.tupled? with
      | none =>
        rw [hw] at hvw
        cases hvw
      | some us =>
        rw [hw] at hvw
        exact equalAll?_trans hvs huv hvw

/-- Only references are equal to references. -/
theorem equal?_ref_cases (h : Heap) (x : Nat) (v : Value) :
    (∃ y, v = .ref y) ∨ h.equal? (.ref x) v = some false ∧ h.equal? v (.ref x) = some false := by
  cases v <;> simp [equal?, Value.equalBy, Value.number?, Value.same]

/-- Comparisons of the cell with lawful ones have an answer, the same in both orders, and go through
what is equal to it. -/
structure RegularCell (h : Heap) (c : Cell) : Prop where
  answers : ∀ d, h.equalCells? (some c) d ≠ none
  symm : ∀ d, (∀ c ∈ d, c.Lawful) → h.equalCells? d (some c) = h.equalCells? (some c) d
  trans : ∀ d e, (∀ c ∈ d, c.Lawful) → (∀ c ∈ e, c.Lawful) →
    h.equalCells? (some c) d = some true → h.equalCells? d e = some true →
    h.equalCells? (some c) e = some true

theorem regular_ref {c : Cell} (hh : ∀ x, ∀ c ∈ h.cell? x, c.Lawful) (hx : h.cell? x = some c)
    (hc : h.RegularCell c) : h.Regular (.ref x) where
  answers v := by
    rcases equal?_ref_cases h x v with ⟨y, rfl⟩ | ⟨hfalse, -⟩
    · by_cases hxy : x = y
      · rw [hxy, equal?_self]
        exact Option.some_ne_none _
      · rw [equal?_refs hxy, hx]
        exact hc.answers _
    · rw [hfalse]
      exact Option.some_ne_none _
  symm v := by
    rcases equal?_ref_cases h x v with ⟨y, rfl⟩ | ⟨hfalse, hfalse'⟩
    · by_cases hxy : x = y
      · rw [hxy]
      · rw [equal?_refs hxy, equal?_refs (Ne.symm hxy), hx]
        exact hc.symm _ (hh y)
    · rw [hfalse, hfalse']
  trans v w huv hvw := by
    rcases equal?_ref_cases h x v with ⟨y, rfl⟩ | ⟨hfalse, -⟩
    · rcases equal?_ref_cases h y w with ⟨z, rfl⟩ | ⟨hfalse, -⟩
      · by_cases hxy : x = y
        · rwa [hxy]
        by_cases hyz : y = z
        · rwa [← hyz]
        by_cases hxz : x = z
        · rw [hxz, equal?_self]
        rw [equal?_refs hxy, hx] at huv
        rw [equal?_refs hyz] at hvw
        rw [equal?_refs hxz, hx]
        exact hc.trans _ _ (hh y) (hh z) huv hvw
      · rw [hfalse] at hvw
        cases hvw
    · rw [hfalse] at huv
      cases huv

theorem regular_list {as : Array Value} (has : ∀ v ∈ as.toList, h.Regular v) :
    h.RegularCell (.list as) where
  answers d := by
    rcases d with _ | bs | _ | _
    · exact Option.some_ne_none _
    · exact equalAll?_ne_none has _
    · exact Option.some_ne_none _
    · exact Option.some_ne_none _
  symm d _ := by
    rcases d with _ | bs | _ | _
    · rfl
    · exact equalAll?_symm has _
    · rfl
    · rfl
  trans d e _ _ hd he := by
    rcases d with _ | bs | _ | _
    · cases hd
    · rcases e with _ | cs | _ | _
      · cases he
      · exact equalAll?_trans has hd he
      · cases he
      · cases he
    · cases hd
    · cases hd

theorem regular_dict {as : Dict} (has : as.Lawful)
    (hvalues : ∀ e ∈ as.entries.toList, h.Regular e.value) : h.RegularCell (.dict as) where
  answers d := by
    rcases d with _ | _ | bs | _
    · exact Option.some_ne_none _
    · exact Option.some_ne_none _
    · exact equalDicts?_ne_none hvalues bs
    · exact Option.some_ne_none _
  symm d hlawful := by
    rcases d with _ | _ | bs | _
    · rfl
    · rfl
    · exact equalDicts?_symm hvalues has (hlawful (.dict bs) rfl)
    · rfl
  trans d e hlawful hlawful' hd he := by
    rcases d with _ | _ | bs | _
    · cases hd
    · cases hd
    · rcases e with _ | _ | cs | _
      · cases he
      · cases he
      · exact equalDicts?_trans hvalues (hlawful (.dict bs) rfl) (hlawful' (.dict cs) rfl) hd he
      · cases he
    · cases hd

/-! ## Built values -/

/-- A value that is built without numbers in finitely many steps, of `None`, `...`, strings, bytes,
paths, exceptions, tuples, lists and dicts. The keys of dicts are free. -/
inductive Built (h : Heap) : Value → Prop
  | leaf {u : Value} {a : Leaf} : u.leaf? = some a → Built h u
  | exception (e) : Built h (.exception e)
  | tupled {u : Value} {vs : List Value} : u.tupled? = some vs → (∀ v ∈ vs, Built h v) → Built h u
  | list {x : Nat} {items : Array Value} : h.cell? x = some (.list items) →
      (∀ v ∈ items.toList, Built h v) → Built h (.ref x)
  | dict {x : Nat} {d : Dict} : h.cell? x = some (.dict d) →
      (∀ e ∈ d.entries.toList, Built h e.value) → Built h (.ref x)

/-- The induction is on how the value is built. -/
theorem Built.regular (hh : ∀ x, ∀ c ∈ h.cell? x, c.Lawful) (hu : h.Built u) : h.Regular u := by
  induction hu with
  | leaf ha => exact regular_leaf ha
  | exception e => exact regular_exception e
  | tupled hvs _ ih => exact regular_tupled hvs ih
  | list hx _ ih => exact regular_ref hh hx (regular_list ih)
  | dict hx _ ih => exact regular_ref hh hx (regular_dict (hh _ _ hx) ih)

theorem Built.equal?_self (hu : h.Built u) : h.equal? u u = some true := by
  induction hu with
  | leaf ha => rw [(equal?_leaf ha _).1, ha, beq_self_eq_true]
  | exception e => rw [(equal?_exception e _).1]; simp
  | @tupled u vs hvs _ ih =>
    rw [(equal?_tupled hvs _).1, hvs]
    exact equalAll?_eq_true.mpr (List.forall₂_same.mpr ih)
  | list => exact Heap.equal?_self h _
  | dict => exact Heap.equal?_self h _

end Heap

end Resumable
