import Resumable.Machine.Call
import Resumable.Operation.Binary
import Resumable.Proofs.Obedience.Heap
import Resumable.Proofs.Obedience.Method

/-!
# Changes that fail

Where a change of a list or a dict raises an exception, what was there is left as it was, but for
three changes that can fail when they have begun. Main statement: `Change.leaves_of_raised`.

## Actions that spare what is there

A plain action leaves every slot in use as it is, however it ends (`Plain.keeps`). An action that
spares (`Spares`) does so where it raises an exception. Behind a plain action it may change the heap
as soon as nothing can raise any more (`NeverRaises`), because an exceeded budget ends the run.
-/

namespace Resumable.Heap

/-- All slots in use of one heap are the same in the other one. -/
def Keeps (h k : Heap) : Prop := ∀ x s, h.slot? x = some s → k.slot? x = some s

theorem Keeps.refl (h : Heap) : h.Keeps h := fun _ _ hs => hs

theorem Keeps.trans {h i k : Heap} (hi : h.Keeps i) (hk : i.Keeps k) : h.Keeps k :=
  fun x s hs => hk x s (hi x s hs)

/-- An allocation takes a slot that is not in use. -/
theorem keeps_place {h : Heap} (hh : h.Exact) (s : Slot) : h.Keeps (h.place s).2 := by
  intro x t ht
  rw [slot?_place hh, if_neg]
  · exact ht
  · rintro rfl
    rw [slot?_nextSlot hh] at ht
    cases ht

variable {α β : Type} {x y : Action α} {f : α → Action β}

/-- However a plain action ends, all that was there is left. -/
theorem Plain.keeps (hx : Plain x) {h : Heap} (hh : h.Exact) :
    (endState (x h)).Exact ∧ h.Keeps (endState (x h)) := by
  induction hx generalizing h with
  | ret a => exact ⟨hh, .refl h⟩
  | fail he => exact ⟨hh, .refl h⟩
  | @bind _ _ x f _ _ ihx ihf =>
    obtain ⟨hexact, hkeeps⟩ := ihx hh
    cases hxh : x h with
    | error e k =>
      rw [hxh] at hexact hkeeps
      rw [bind_error hxh]
      exact ⟨hexact, hkeeps⟩
    | ok a k =>
      rw [hxh] at hexact hkeeps
      rw [bind_ok hxh]
      obtain ⟨hexact', hkeeps'⟩ := ihf a hexact
      exact ⟨hexact', hkeeps.trans hkeeps'⟩
  | read _ _ ih => exact ih h hh
  | checkResult bytes =>
    have hread : Heap.checkResult bytes h = withinLimit (h.budget.checkResult bytes) h := rfl
    rw [hread]
    cases h.budget.checkResult bytes with
    | ok _ => exact ⟨hh, .refl h⟩
    | error e => exact ⟨hh, .refl h⟩
  | @alloc c _ =>
    rw [alloc_eq]
    cases h.budget.allocate c.bytes with
    | error e => exact ⟨hh, .refl h⟩
    | ok budget =>
      let counted : Heap := { h with budget, recent := h.recent + 1 }
      have hcounted : counted.Exact := ⟨hh.nodup, hh.mem_free⟩
      exact ⟨hcounted.place _, keeps_place hcounted _⟩

/-- Either a plain action raises the exception, or what comes behind it. -/
theorem Plain.raised_of_bind {h k : Heap} {e : Raised} (hx : Plain x) (hh : h.Exact)
    (heq : (x >>= f) h = .error (.raised e) k) :
    h.Keeps k ∨
      ∃ a i, x h = .ok a i ∧ i.Exact ∧ h.Keeps i ∧ f a i = .error (.raised e) k := by
  obtain ⟨hexact, hkeeps⟩ := hx.keeps hh
  cases hxh : x h with
  | error e' i =>
    rw [hxh] at hkeeps
    rw [bind_error hxh] at heq
    cases heq
    exact .inl hkeeps
  | ok a i =>
    rw [hxh] at hexact hkeeps
    rw [bind_ok hxh] at heq
    exact .inr ⟨a, i, rfl, hexact, hkeeps, heq⟩

/-! ### Actions that raise nothing -/

/-- No exception is raised. -/
def NeverRaises (x : Action α) : Prop := ∀ (h : Heap) e k, x h ≠ .error (.raised e) k

namespace NeverRaises

theorem ret (a : α) : NeverRaises (pure a) := by
  intro h e k heq
  cases heq

theorem bind (hx : NeverRaises x) (hf : ∀ a, NeverRaises (f a)) : NeverRaises (x >>= f) := by
  intro h e k heq
  cases hxh : x h with
  | error e' k' =>
    rw [bind_error hxh] at heq
    cases heq
    exact hx h e k hxh
  | ok a k' =>
    rw [bind_ok hxh] at heq
    exact hf a k' e k heq

/-- A change of the heap. -/
theorem change (g : Heap → Heap) : NeverRaises (modify g : Action Unit) := by
  intro h e k heq
  cases heq

theorem forM {τ : Type} {g : τ → Action Unit} (hg : ∀ a, NeverRaises (g a)) (xs : List τ) :
    NeverRaises (xs.forM g) := by
  induction xs with
  | nil => exact .ret ()
  | cons a xs ih => exact (hg a).bind fun _ => ih

/-- What raises an exception in front of it. -/
theorem raised_of_bind {h k : Heap} {e : Raised} (hf : ∀ a, NeverRaises (f a))
    (heq : (x >>= f) h = .error (.raised e) k) : x h = .error (.raised e) k := by
  cases hxh : x h with
  | error e' k' =>
    rw [bind_error hxh] at heq
    cases heq
    rfl
  | ok a k' =>
    rw [bind_ok hxh] at heq
    exact (hf a k' e k heq).elim

end NeverRaises

/-- A budget that refuses to give raises nothing. -/
theorem charge_neverRaises (bytes : Nat) : NeverRaises (charge bytes) := by
  intro h e k heq
  have hcharge : charge bytes h = (withinLimit (h.budget.allocate bytes) >>= fun budget =>
      modify fun h => { h with budget }) h := rfl
  rw [hcharge] at heq
  cases hbudget : h.budget.allocate bytes with
  | ok budget =>
    rw [hbudget] at heq
    cases heq
  | error l =>
    have hl := Budget.not_isCatchable_allocate hbudget
    rw [hbudget] at heq
    change EStateM.Result.error (Failure.ofLimit l) h = _ at heq
    rw [Failure.ofLimit, if_neg (by rw [hl]; exact Bool.false_ne_true)] at heq
    cases heq

theorem chargeInsert_neverRaises (id : Nat) : NeverRaises (chargeInsert id) :=
  (charge_neverRaises _).bind fun _ => .change _

theorem alloc_neverRaises (c : Cell) : NeverRaises (alloc c) :=
  (charge_neverRaises _).bind fun _ _ _ _ heq => nomatch heq

theorem modifyList_neverRaises (id : Nat) (f : Array Value → Array Value) :
    NeverRaises (modifyList id f) := .change _

theorem modifyDict_neverRaises (id : Nat) (f : Dict → Dict) : NeverRaises (modifyDict id f) :=
  .change _

/-! ### Actions that spare -/

/-- If the action raises an exception, all that was there is left. -/
def Spares (x : Action α) : Prop :=
  ∀ (h : Heap) e k, h.Exact → x h = .error (.raised e) k → h.Keeps k

theorem Plain.spares (hx : Plain x) : Spares x := by
  intro h e k hh heq
  have hend := (hx.keeps hh).2
  rw [heq] at hend
  exact hend

theorem NeverRaises.spares (hx : NeverRaises x) : Spares x :=
  fun h e k _ heq => (hx h e k heq).elim

namespace Spares

theorem ret (a : α) : Spares (pure a) := (Plain.ret a).spares

theorem fail (e : Failure) : Spares (throw e : Action α) := by
  intro h e' k hh heq
  cases heq
  exact .refl h

/-- Behind a plain action, an action that spares. -/
theorem bind (hx : Plain x) (hf : ∀ a, Spares (f a)) : Spares (x >>= f) := by
  intro h e k hh heq
  rcases hx.raised_of_bind hh heq with hkeeps | ⟨a, i, -, hi, hkeeps, hrest⟩
  · exact hkeeps
  · exact hkeeps.trans (hf a i e k hi hrest)

theorem andThen (hx : Spares x) (hf : ∀ a, NeverRaises (f a)) : Spares (x >>= f) :=
  fun h e k hh heq => hx h e k hh (NeverRaises.raised_of_bind hf heq)

theorem read {f : Heap → Action α} (hf : ∀ h, Spares (f h)) : Spares (get >>= f) :=
  fun h => hf h h

/-- A failure that says something about the heap. -/
theorem refuse {f : Heap → Failure} : Spares (do throw (f (← get)) : Action α) :=
  .read fun _ => .fail _

theorem fork {c : Prop} [Decidable c] (hx : Spares x) (hy : Spares y) :
    Spares (if c then x else y) := by
  by_cases hc : c
  · rw [if_pos hc]
    exact hx
  · rw [if_neg hc]
    exact hy

end Spares

end Resumable.Heap

/-!
## A change that fails spares what was there

Methods of lists and dicts, assignments to items, augmented assignments and calls of builtin
functions check their arguments first. Three changes can fail when they have begun: a sort leaves
its list in another order, an update of a dict leaves the pairs in it that come before the one whose
key is refused, and an augmented assignment leaves the list extended that the item has been if the
assignment to the item is refused.
-/

namespace Resumable

namespace Heap

/-! ### One slot is changed -/

/-- All slots in use but one are the same in the other heap, and that one has become `s` there. -/
structure KeepsBut (h : Heap) (id : Nat) (s : Slot) (k : Heap) : Prop where
  changed : k.slot? id = some s
  others : ∀ x t, x ≠ id → h.slot? x = some t → k.slot? x = some t

section
variable {h i k : Heap} {id : Nat} {s t : Slot}

theorem Keeps.keepsBut (hi : h.Keeps i) (hk : i.KeepsBut id s k) : h.KeepsBut id s k where
  changed := hk.changed
  others x t hx ht := hk.others x t hx (hi x t ht)

theorem KeepsBut.keeps (hi : h.KeepsBut id s i) (hk : i.Keeps k) : h.KeepsBut id s k where
  changed := hk id s hi.changed
  others x t hx ht := hk x t (hi.others x t hx ht)

theorem KeepsBut.trans (hi : h.KeepsBut id s i) (hk : i.KeepsBut id t k) : h.KeepsBut id t k where
  changed := hk.changed
  others x u hx hu := hk.others x u hx (hi.others x u hx hu)

theorem KeepsBut.self (hs : h.slot? id = some s) : h.KeepsBut id s h where
  changed := hs
  others _ _ _ ht := ht

theorem keepsBut_alter (hs : h.slot? id = some s) (f : Slot → Slot) :
    h.KeepsBut id (f s) (h.alter id f) where
  changed := by rw [slot?_alter, if_pos rfl, hs, Option.map_some]
  others x t hx ht := by rw [slot?_alter, if_neg (Ne.symm hx), ht]

end

/-- An action with a course comes to the end of its course, but for the budget. -/
theorem ok_of_course {α : Type} {h t k : Heap} {x : Action α} {qs : List Query} {a b : α}
    (hx : Course h x qs (.ok a t)) (heq : x h = .ok b k) :
    b = a ∧ ∃ budget, k = { t with budget } := by
  cases hask : h.budget.askAll qs with
  | ok budget =>
    have hend : x h = .ok a { t with budget } := hx.granted hask
    rw [heq] at hend
    cases hend
    exact ⟨rfl, budget, rfl⟩
  | error refusal =>
    obtain ⟨u, hu⟩ := hx.refused hask
    have hend : x h = .error (.ofLimit refusal.1) _ := hu
    rw [heq] at hend
    cases hend

end Heap

open Heap Arguments

/-! ### Lists -/

namespace ListMethod

variable {h k : Heap} {id : Nat} {items : Array Value} {charged : Nat} {e : Raised}

/-- A sort that fails has put the items back in some order. -/
theorem sort_raised {descending : Bool} (hslot : h.slot? id = some ⟨.list items, charged⟩)
    (heq : sort id descending h = .error (.raised e) k) :
    ∃ sorted : Array Value, sorted.toList.Perm items.toList ∧
      h.KeepsBut id ⟨.list sorted, charged⟩ k := by
  have hout := keepsBut_alter hslot (·.map (Cell.onList fun _ => #[]))
  let i := h.alter id (·.map (Cell.onList fun _ => #[]))
  let outcome := i.sorted descending items
  have hback := keepsBut_alter hout.changed (·.map (Cell.onList fun _ => outcome.1))
  have hsort : sort id descending h = (outcome.2.elim (pure Value.none) throw : Action Value)
      (i.alter id (·.map (Cell.onList fun _ => outcome.1))) := by
    rw [sort_eq, bind_ok (itemsOf_eq id (cell?_of_slot? hslot))]
    rfl
  have hk : k = i.alter id (·.map (Cell.onList fun _ => outcome.1)) := by
    rw [hsort] at heq
    cases hfailed : outcome.2 with
    | none =>
      rw [hfailed] at heq
      cases heq
    | some failure =>
      rw [hfailed] at heq
      cases heq
      rfl
  rw [hk]
  exact ⟨outcome.1, i.perm_sorted descending items, hout.trans hback⟩

theorem pop_spares (id : Nat) (index : Option Value) : Spares (pop id index) := by
  refine .bind (itemsOf_plain id) fun items => .fork (.fail _) ?_
  refine .bind (popPosition_plain _ _) fun i => .fork (.fail _) ?_
  split
  · exact .fail _
  · exact ((modifyList_neverRaises id _).bind fun _ => .ret _).spares

theorem extend_spares (id : Nat) (iterable : Value) : Spares (extend id iterable) := by
  refine .bind (items_plain iterable) fun more => NeverRaises.spares ?_
  rw [List.forM_toArray' more.toList _ rfl]
  refine .bind (.forM (fun _ => chargeInsert_neverRaises id) _) fun _ => ?_
  exact (modifyList_neverRaises id _).bind fun _ => .ret _

theorem insert_spares (id : Nat) (index item : Value) : Spares (insert id index item) := by
  unfold insert
  split
  · refine NeverRaises.spares (.bind (chargeInsert_neverRaises id) fun _ => ?_)
    exact (modifyList_neverRaises id _).bind fun _ => .ret _
  · exact .refuse

/-- All methods but the sort. -/
theorem call_spares {name : String} {args : Arguments} {act : Action Value} (hname : name ≠ "sort")
    (hact : act ∈ call id name args) : Spares act := by
  unfold call at hact
  split at hact
  · cases hact
    refine .bind (one_plain args _) fun item => NeverRaises.spares ?_
    refine .bind (chargeInsert_neverRaises id) fun _ => ?_
    exact (modifyList_neverRaises id _).bind fun _ => .ret _
  · cases hact
    exact .bind (one_plain args _) fun _ => extend_spares id _
  · cases hact
    exact .bind (two_plain args _) fun _ => insert_spares id _ _
  · cases hact
    exact .bind (atMostOne_plain args _) fun _ => pop_spares id _
  · cases hact
    refine .bind (one_plain args _) fun needle => .bind (itemsOf_plain id) fun _ => ?_
    refine .bind (positionOf_plain _ _ _) fun p => ?_
    split
    · exact .ret _
    · exact .refuse
  · cases hact
    refine .bind (one_plain args _) fun _ => .bind (itemsOf_plain id) fun _ => ?_
    exact .bind (countOf_plain _ _ _) fun _ => .ret _
  · cases hact
    refine .bind (one_plain args _) fun needle => .bind (itemsOf_plain id) fun _ => ?_
    refine .bind (positionOf_plain _ _ _) fun p => ?_
    split
    · exact ((modifyList_neverRaises id _).bind fun _ => .ret _).spares
    · exact .fail _
  · cases hact
    refine .bind (nothing_plain args _) fun _ => .bind (itemsOf_plain id) fun _ => ?_
    exact (allocList_plain _).spares
  · cases hact
    refine .bind (nothing_plain args _) fun _ => NeverRaises.spares ?_
    exact (modifyList_neverRaises id _).bind fun _ => .ret _
  · cases hact
    refine .bind (nothing_plain args _) fun _ => NeverRaises.spares ?_
    exact (modifyList_neverRaises id _).bind fun _ => .ret _
  · exact (hname rfl).elim
  · cases hact

/-- A sort that is refused leaves everything as it was, and one that fails permutes its list. -/
theorem call_sort_raised {args : Arguments} {act : Action Value} (hh : h.Exact)
    (hslot : h.slot? id = some ⟨.list items, charged⟩) (hact : act ∈ call id "sort" args)
    (heq : act h = .error (.raised e) k) :
    h.Keeps k ∨ ∃ sorted : Array Value, sorted.toList.Perm items.toList ∧
      h.KeepsBut id ⟨.list sorted, charged⟩ k := by
  cases hact
  let reverse := args.take "reverse"
  let key := reverse.2.take "key"
  change (if key.1.isSome then do
      let _ ← throw (.exception .notImplementedError "list.sort() key= is not supported")
      key.2.nothing "sort"
      sort id (reverse.1.any h.isTruthy)
    else do
      key.2.nothing "sort"
      sort id (reverse.1.any h.isTruthy) : Action Value) h = _ at heq
  split at heq
  · cases heq
    exact .inl (.refl h)
  · rcases (nothing_plain key.2 "sort").raised_of_bind hh heq with
      hkeeps | ⟨_, i, -, -, hkeeps, hsort⟩
    · exact .inl hkeeps
    · obtain ⟨sorted, hperm, hk⟩ := sort_raised (hkeeps id _ hslot) hsort
      exact .inr ⟨sorted, hperm, hkeeps.keepsBut hk⟩

end ListMethod

/-! ### Dicts -/

namespace Dict

variable {d d' : Dict} {pairs : List (Value × Value)}

theorem size_le_insert (d : Dict) (key : Key) (name v : Value) :
    d.size ≤ (d.insert key name v).size := by
  rw [size_insert]
  split
  · exact Nat.le_refl _
  · exact Nat.le_succ _

theorem size_le_putAll (h : d.putAll pairs = .ok d') : d.size ≤ d'.size := by
  induction pairs generalizing d with
  | nil =>
    cases h
    exact Nat.le_refl _
  | cons pair pairs ih =>
    obtain ⟨key, -, hrest⟩ := exists_of_putAll_cons h
    exact (d.size_le_insert key pair.1 pair.2).trans (ih hrest)

end Dict

namespace DictMethod

variable {h k : Heap} {id : Nat} {d : Dict} {charged : Nat} {name v : Value} {e : Raised}

/-- An entry is put into a dict, and charged afterwards if its key is new. -/
theorem putEntry_neverRaises (id : Nat) (d : Dict) (key : Key) (name v : Value) :
    NeverRaises (do
      modifyDict id (·.insert key name v)
      if !d.contains key then chargeInsert id) := by
  refine .bind (modifyDict_neverRaises id _) fun _ => ?_
  cases d.contains key with
  | true => exact .ret ()
  | false => exact chargeInsert_neverRaises id

theorem putEntry_ok {key : Key} (hslot : h.slot? id = some ⟨.dict d, charged⟩)
    (heq : (do
      modifyDict id (·.insert key name v)
      if !d.contains key then chargeInsert id : Action Unit) h = .ok () k) :
    h.KeepsBut id ⟨.dict (d.insert key name v),
      charged + ((d.insert key name v).size - d.size) * Cell.valueBytes⟩ k := by
  have hput := keepsBut_alter hslot (·.map (Cell.onDict (·.insert key name v)))
  let i := h.alter id (·.map (Cell.onDict (·.insert key name v)))
  have hput : h.KeepsBut id ⟨.dict (d.insert key name v), charged⟩ i := hput
  change (if !d.contains key then chargeInsert id else pure () : Action Unit) i = _ at heq
  rw [Dict.size_insert]
  cases hnew : d.contains key with
  | true =>
    have hk : k = i := by
      rw [hnew] at heq
      exact (EStateM.Result.ok.inj heq).2.symm
    rw [if_pos rfl, Nat.sub_self, Nat.zero_mul, hk]
    exact hput
  | false =>
    rw [hnew] at heq
    have hid : (i.cell? id).isSome := Option.isSome_of_eq_some (cell?_of_slot? hput.changed)
    obtain ⟨-, budget, rfl⟩ := ok_of_course (chargeInsert_notes hid).toCourse heq
    rw [if_neg Bool.false_ne_true, Nat.add_sub_cancel_left, Nat.one_mul]
    have hcharge := keepsBut_alter hput.changed (·.charge Cell.valueBytes)
    exact hput.trans ⟨hcharge.changed, hcharge.others⟩

theorem put_eq {key : Key} (hslot : h.slot? id = some ⟨.dict d, charged⟩)
    (hkey : Key.ofValue name = .ok key) :
    put id name v h = (do
      modifyDict id (·.insert key name v)
      if !d.contains key then chargeInsert id : Action Unit) h := by
  have hname : Heap.key name = pure key := by
    unfold Heap.key
    rw [hkey]
  rw [put, hname, pure_bind, bind_ok (dictOf_eq id (cell?_of_slot? hslot))]

/-- Only a refused key makes an update fail, before the dict is changed. -/
theorem put_raised (hslot : h.slot? id = some ⟨.dict d, charged⟩)
    (heq : put id name v h = .error (.raised e) k) :
    k = h ∧ ∃ part, Key.ofValue name = .error part := by
  cases hkey : Key.ofValue name with
  | ok key =>
    rw [put_eq hslot hkey] at heq
    exact (putEntry_neverRaises id d key name v h e k heq).elim
  | error part =>
    have hname : Heap.key name = (do
        let kind := (← get).typeName part
        throw (.typeError s!"unhashable type: '{kind}'") : Action Key) := by
      unfold Heap.key
      rw [hkey]
    rw [put, hname] at heq
    cases heq
    exact ⟨rfl, part, rfl⟩

/-- An update that fails has put the pairs into the dict that come before the one whose key is
refused. -/
theorem puts_raised {entries : List (Value × Value)}
    (hslot : h.slot? id = some ⟨.dict d, charged⟩)
    (heq : (entries.forM fun entry => put id entry.1 entry.2) h = .error (.raised e) k) :
    ∃ done name v rest part d', entries = done ++ (name, v) :: rest ∧
      Key.ofValue name = .error part ∧ d.putAll done = .ok d' ∧
      h.KeepsBut id ⟨.dict d', charged + (d'.size - d.size) * Cell.valueBytes⟩ k := by
  induction entries generalizing h d charged with
  | nil => cases heq
  | cons entry entries ih =>
    obtain ⟨name, v⟩ := entry
    let puts := entries.forM fun entry => put id entry.1 entry.2
    change (put id name v >>= fun _ => puts) h = _ at heq
    cases hput : put id name v h with
    | error e' k' =>
      rw [bind_error hput] at heq
      cases heq
      obtain ⟨rfl, part, hpart⟩ := put_raised hslot hput
      refine ⟨[], name, v, entries, part, d, rfl, hpart, rfl, ?_⟩
      rw [Nat.sub_self, Nat.zero_mul]
      exact .self hslot
    | ok _ i =>
      rw [bind_ok hput] at heq
      cases hkey : Key.ofValue name with
      | error part =>
        rw [put, Heap.key, hkey] at hput
        cases hput
      | ok key =>
        rw [put_eq hslot hkey] at hput
        have hentry := putEntry_ok hslot hput
        obtain ⟨done, name', v', rest, part, d', rfl, hpart, hdone, hrest⟩ :=
          ih hentry.changed heq
        refine ⟨(name, v) :: done, name', v', rest, part, d', rfl, hpart, ?_, ?_⟩
        · rw [Dict.putAll_cons hkey]
          exact hdone
        · have hfirst := d.size_le_insert key name v
          have hothers := Dict.size_le_putAll hdone
          have hsum : d'.size - d.size =
              (d.insert key name v).size - d.size + (d'.size - (d.insert key name v).size) := by
            omega
          rw [hsum, Nat.add_mul, ← Nat.add_assoc]
          exact hentry.trans hrest

/-- All methods but the update. -/
theorem call_spares {name : String} {args : Arguments} {act : Action Value}
    (hname : name ≠ "update") (hact : act ∈ call id name args) : Spares act := by
  unfold call at hact
  split at hact
  · cases hact
    refine .bind (oneOrTwo_plain args _) fun _ => .bind (key_plain _) fun _ => ?_
    exact .bind (dictOf_plain id) fun _ => .ret _
  · cases hact
    refine .bind (nothing_plain args _) fun _ => .bind (dictOf_plain id) fun _ => ?_
    exact (allocList_plain _).spares
  · cases hact
    refine .bind (nothing_plain args _) fun _ => .bind (dictOf_plain id) fun _ => ?_
    exact (allocList_plain _).spares
  · cases hact
    refine .bind (nothing_plain args _) fun _ => .bind (dictOf_plain id) fun _ => ?_
    exact (allocList_plain _).spares
  · cases hact
    refine .bind (oneOrTwo_plain args _) fun k => .bind (key_plain _) fun key => ?_
    refine .bind (dictOf_plain id) fun d => ?_
    split
    · exact ((modifyDict_neverRaises id _).bind fun _ => .ret _).spares
    · exact .ret _
    · exact .refuse
  · cases hact
    refine .bind (oneOrTwo_plain args _) fun k => .bind (key_plain _) fun key => ?_
    refine .bind (dictOf_plain id) fun d => ?_
    split
    · exact .ret _
    · refine NeverRaises.spares (.bind (chargeInsert_neverRaises id) fun _ => ?_)
      exact (modifyDict_neverRaises id _).bind fun _ => .ret _
  · exact (hname rfl).elim
  · cases hact
    refine .bind (nothing_plain args _) fun _ => .bind (dictOf_plain id) fun _ => ?_
    exact (alloc_neverRaises _).spares
  · cases hact
    refine .bind (nothing_plain args _) fun _ => NeverRaises.spares ?_
    exact (modifyDict_neverRaises id _).bind fun _ => .ret _
  · cases hact

/-- An update that is refused leaves everything as it was, and one that fails has put pairs into
its dict. -/
theorem call_update_raised {args : Arguments} {act : Action Value} (hh : h.Exact)
    (hslot : h.slot? id = some ⟨.dict d, charged⟩) (hact : act ∈ call id "update" args)
    (heq : act h = .error (.raised e) k) :
    h.Keeps k ∨ ∃ done name v rest part d' i,
      entriesOfCall "update" args h = .ok (done ++ (name, v) :: rest) i ∧
        Key.ofValue name = .error part ∧ d.putAll done = .ok d' ∧
        h.KeepsBut id ⟨.dict d', charged + (d'.size - d.size) * Cell.valueBytes⟩ k := by
  cases hact
  rcases (entriesOfCall_plain _ args).raised_of_bind hh heq with
    hkeeps | ⟨entries, i, hentries, -, hkeeps, hrest⟩
  · exact .inl hkeeps
  · have hputs := NeverRaises.raised_of_bind (fun _ => .ret _) hrest
    obtain ⟨done, name, v, rest, part, d', rfl, hpart, hdone, hk⟩ :=
      puts_raised (hkeeps id _ hslot) hputs
    exact .inr ⟨done, name, v, rest, part, d', i, hentries, hpart, hdone, hkeeps.keepsBut hk⟩

end DictMethod

/-! ### Items and operators -/

theorem Index.set_spares (object index value : Value) : Spares (set object index value) := by
  unfold set
  split
  · next id =>
    refine .read fun h => ?_
    split
    · split
      · exact .bind (position_plain _ _ _) fun p => (modifyList_neverRaises id _).spares
      · exact .refuse
    · next d _ =>
      refine .bind (key_plain index) fun key => ?_
      exact (DictMethod.putEntry_neverRaises id d key index value).spares
    · exact .refuse
  · exact .refuse

namespace Heap

variable {h k : Heap} {op : Operator} {target operand : Value} {e : Raised}

/-- An assignment with an operator extends a list in place, or is the operation itself. -/
theorem inplace_cases (op : Operator) (target operand : Value) (h : Heap) :
    inplace op target operand h = binary op target operand h ∨
      ∃ id items charged, op = .add ∧ target = .ref id ∧
        h.slot? id = some ⟨.list items, charged⟩ ∧
        inplace op target operand h = (do
          let more ← Heap.items operand
          more.forM fun _ => chargeInsert id
          modifyList id (· ++ more)
          pure target : Action Value) h := by
  unfold inplace
  split
  · next id =>
    rw [get_bind]
    cases hcell : h.cell? id with
    | none => exact .inl rfl
    | some c =>
      cases c with
      | list items =>
        rw [cell?_eq_slot?] at hcell
        obtain ⟨⟨_, charged⟩, hslot, rfl⟩ := Option.map_eq_some_iff.mp hcell
        exact .inr ⟨id, items, charged, rfl, rfl, hslot, rfl⟩
      | _ => exact .inl rfl
  · exact .inl rfl

theorem inplace_spares (op : Operator) (target operand : Value) :
    Spares (inplace op target operand) := by
  intro h e k hh heq
  rcases inplace_cases op target operand h with hbinary | ⟨id, _, _, -, -, -, hextend⟩
  · rw [hbinary] at heq
    exact (binary_plain op target operand).spares h e k hh heq
  · rw [hextend] at heq
    refine Spares.bind (items_plain operand) (fun more => NeverRaises.spares ?_) h e k hh heq
    rw [List.forM_toArray' more.toList _ rfl]
    refine .bind (.forM (fun _ => chargeInsert_neverRaises id) _) fun _ => ?_
    exact (modifyList_neverRaises id _).bind fun _ => .ret _

theorem items_ok {v : Value} {items : Array Value} (heq : Heap.items v h = .ok items k) :
    h.items? v = some items ∧ k = h := by
  unfold Heap.items at heq
  rw [get_bind] at heq
  cases hitems : h.items? v with
  | none =>
    rw [hitems] at heq
    cases heq
  | some items =>
    rw [hitems] at heq
    cases heq
    exact ⟨rfl, rfl⟩

/-- What becomes of a list that is extended in place. -/
theorem extend_ok {id : Nat} {items : Array Value} {charged : Nat} {v w : Value} (hh : h.Exact)
    (hslot : h.slot? id = some ⟨.list items, charged⟩)
    (heq : (do
      let more ← Heap.items operand
      more.forM fun _ => chargeInsert id
      modifyList id (· ++ more)
      pure v : Action Value) h = .ok w k) :
    k.Exact ∧ ∃ more, h.items? operand = some more ∧
      h.KeepsBut id ⟨.list (items ++ more), charged + more.size * Cell.valueBytes⟩ k := by
  obtain ⟨more, i, hmore, hrest⟩ := ok_of_bind heq
  obtain ⟨hmore, hi⟩ := items_ok hmore
  rw [hi] at hrest
  obtain ⟨_, i, hcharges, hrest⟩ := ok_of_bind hrest
  have hid : (h.cell? id).isSome := Option.isSome_of_eq_some (cell?_of_slot? hslot)
  obtain ⟨qs, hnotes, -, -⟩ := chargeAll_notes more.toList hid
  rw [List.forM_toArray' more.toList _ rfl] at hcharges
  obtain ⟨-, budget, rfl⟩ := ok_of_course hnotes.toCourse hcharges
  have hcharged := keepsBut_alter hslot (·.charge (more.toList.length * Cell.valueBytes))
  have hlist := keepsBut_alter hcharged.changed (·.map (Cell.onList (· ++ more)))
  obtain ⟨-, hend⟩ := EStateM.Result.ok.inj hrest
  rw [← hend]
  have hboth := hcharged.trans hlist
  have hcharged : (h.alter id (·.charge (more.toList.length * Cell.valueBytes))).Exact :=
    hh.modify id _
  have hbudget : ({ h.alter id (·.charge (more.toList.length * Cell.valueBytes)) with
      budget } : Heap).Exact := ⟨hcharged.nodup, hcharged.mem_free⟩
  exact ⟨hbudget.modify id _, more, hmore, hboth.changed, hboth.others⟩

end Heap

/-! ### Changes -/

/-- What may change a list or a dict, or be called, with its arguments. -/
inductive Change
  | method (id : Nat) (name : String) (args : Arguments)
  | setItem (object index value : Value)
  | augment (op : Operator) (target operand : Value)
  /-- An augmented assignment to an item, which has been read before the operand. -/
  | augmentItem (op : Operator) (object index item operand : Value)
  | builtin (function : Builtin) (args : Arguments)

namespace Change

/-- The action of a change, without its value. -/
def act : Change → Action Unit
  | .method id name args => do
    match Machine.pureMethod (← get) (.ref id) name args with
    | some act => discard act
    | none => throw (Machine.noAttribute (← get) (.ref id) name)
  | .setItem object index value => Index.set object index value
  | .augment op target operand => discard (Heap.inplace op target operand)
  | .augmentItem op object index item operand => do
    Index.set object index (← Heap.inplace op item operand)
  | .builtin function args => discard (BuiltinCall.call function args)

/-- What a change leaves when it raises an exception: everything as it was, with three
exceptions. -/
inductive Leaves (h k : Heap) : Change → Prop
  | everything {c : Change} (hk : h.Keeps k) : Leaves h k c
  /-- The list is in another order. -/
  | permuted {id : Nat} {args : Arguments} {items sorted : Array Value} {charged : Nat}
      (hslot : h.slot? id = some ⟨.list items, charged⟩) (hsorted : sorted.toList.Perm items.toList)
      (hk : h.KeepsBut id ⟨.list sorted, charged⟩ k) : Leaves h k (.method id "sort" args)
  /-- The pairs are in the dict that come before the first one whose key is refused. -/
  | updated {id : Nat} {args : Arguments} {d d' : Dict} {charged : Nat} {i : Heap}
      {done rest : List (Value × Value)} {name v part : Value}
      (hslot : h.slot? id = some ⟨.dict d, charged⟩)
      (hpairs : DictMethod.entriesOfCall "update" args h = .ok (done ++ (name, v) :: rest) i)
      (hrefused : Key.ofValue name = .error part) (hdone : d.putAll done = .ok d')
      (hk : h.KeepsBut id ⟨.dict d', charged + (d'.size - d.size) * Cell.valueBytes⟩ k) :
      Leaves h k (.method id "update" args)
  /-- The list that the item was has been extended. -/
  | extended {object index operand : Value} {id : Nat} {items more : Array Value} {charged : Nat}
      (hslot : h.slot? id = some ⟨.list items, charged⟩) (hmore : h.items? operand = some more)
      (hk : h.KeepsBut id ⟨.list (items ++ more), charged + more.size * Cell.valueBytes⟩ k) :
      Leaves h k (.augmentItem .add object index (.ref id) operand)

variable {h k : Heap} {e : Raised}

theorem method_leaves {id : Nat} {name : String} {args : Arguments} (hh : h.Exact)
    (heq : (method id name args).act h = .error (.raised e) k) :
    Leaves h k (.method id name args) := by
  rw [act, get_bind] at heq
  cases hmethod : Machine.pureMethod h (.ref id) name args with
  | none =>
    rw [hmethod] at heq
    cases heq
    exact .everything (.refl h)
  | some act =>
    rw [hmethod] at heq
    have hact : act h = .error (.raised e) k := NeverRaises.raised_of_bind (fun _ => .ret ()) heq
    simp only [Machine.pureMethod, cell?_eq_slot?] at hmethod
    cases hslot : h.slot? id with
    | none =>
      rw [hslot] at hmethod
      cases hmethod
    | some s =>
      rw [hslot] at hmethod
      obtain ⟨c, charged⟩ := s
      cases c with
      | list items =>
        by_cases hname : name = "sort"
        · subst hname
          rcases ListMethod.call_sort_raised hh hslot hmethod hact with
            hkeeps | ⟨sorted, hsorted, hk⟩
          · exact .everything hkeeps
          · exact .permuted hslot hsorted hk
        · exact .everything (ListMethod.call_spares hname hmethod h e k hh hact)
      | dict d =>
        by_cases hname : name = "update"
        · subst hname
          rcases DictMethod.call_update_raised hh hslot hmethod hact with
            hkeeps | ⟨done, name, v, rest, part, d', i, hpairs, hrefused, hdone, hk⟩
          · exact .everything hkeeps
          · exact .updated hslot hpairs hrefused hdone hk
        · exact .everything (DictMethod.call_spares hname hmethod h e k hh hact)
      | iter _ => cases hmethod

theorem augmentItem_leaves {op : Operator} {object index item operand : Value} (hh : h.Exact)
    (heq : (augmentItem op object index item operand).act h = .error (.raised e) k) :
    Leaves h k (.augmentItem op object index item operand) := by
  change (Heap.inplace op item operand >>= fun v => Index.set object index v) h = _ at heq
  cases hinplace : Heap.inplace op item operand h with
  | error e' k' =>
    rw [bind_error hinplace] at heq
    cases heq
    exact .everything (inplace_spares op item operand h e k hh hinplace)
  | ok v i =>
    rw [bind_ok hinplace] at heq
    rcases inplace_cases op item operand h with
      hbinary | ⟨id, items, charged, rfl, rfl, hslot, hextend⟩
    · rw [hbinary] at hinplace
      obtain ⟨hi, hkeeps⟩ := (binary_plain op item operand).keeps hh
      rw [hinplace] at hi hkeeps
      exact .everything (hkeeps.trans (Index.set_spares object index v i e k hi heq))
    · rw [hextend] at hinplace
      obtain ⟨hi, more, hmore, hlist⟩ := extend_ok hh hslot hinplace
      exact .extended hslot hmore (hlist.keeps (Index.set_spares object index v i e k hi heq))

/-- A change that raises an exception leaves everything as it was. A sort may leave its list in
another order, an update leaves the dict with the pairs before the refused one, and an augmented
assignment to an item leaves the list extended that the item is. -/
theorem leaves_of_raised (c : Change) (hh : h.Exact) (heq : c.act h = .error (.raised e) k) :
    c.Leaves h k := by
  cases c with
  | method id name args => exact method_leaves hh heq
  | setItem object index value =>
    exact .everything (Index.set_spares object index value h e k hh heq)
  | augment op target operand =>
    have hspares := (inplace_spares op target operand).andThen fun _ => NeverRaises.ret ()
    exact .everything (hspares h e k hh heq)
  | augmentItem op object index item operand => exact augmentItem_leaves hh heq
  | builtin function args =>
    have hcall := (BuiltinCall.call_plain function args).spares
    have hspares := hcall.andThen fun _ => NeverRaises.ret ()
    exact .everything (hspares h e k hh heq)

/-- A heap of an empty list and of a list of one item. -/
def twoLists : Heap :=
  let slot (c : Cell) : Slot := ⟨c, c.bytes⟩
  { Heap.ofBudget .free with slots := #[some (slot (.list #[])), some (slot (.list #[.int 1]))] }

theorem exact_twoLists : twoLists.Exact where
  nodup := List.nodup_nil
  mem_free x := by
    match x with
    | 0 => simp [twoLists, ofBudget]
    | 1 => simp [twoLists, ofBudget]
    | _ + 2 => simp [twoLists, ofBudget]

/-- A tuple refuses the assignment to its item, but the list in it has been extended before. -/
theorem augmentItem_leaves_extended :
    ∃ k e, (augmentItem .add (.tuple [.ref 0]) (.int 0) (.ref 0) (.ref 1)).act twoLists =
        .error (.raised e) k ∧
      Leaves twoLists k (augmentItem .add (.tuple [.ref 0]) (.int 0) (.ref 0) (.ref 1)) ∧
      k.cell? 0 = some (.list #[.int 1]) :=
  ⟨_, _, rfl, leaves_of_raised _ exact_twoLists rfl, rfl⟩

/-- Not every change that raises an exception leaves everything but sorted lists and updated dicts
as it was. -/
theorem augmentItem_not_keeps :
    ∃ k e, (augmentItem .add (.tuple [.ref 0]) (.int 0) (.ref 0) (.ref 1)).act twoLists =
        .error (.raised e) k ∧ ¬ twoLists.Keeps k :=
  ⟨_, _, rfl, fun hk => nomatch hk 0 _ rfl⟩

end Change

end Resumable
