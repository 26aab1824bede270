import Resumable.Proofs.Dicts.Basic
import Resumable.Proofs.Obedience.Machine

/-!
# What actions do to dicts

A heap is tidy if its free list is exact and all its dicts are lawful. `h.Alters R k`: if `h` is
tidy then so is `k`, and each dict of `h` has become another one there, as `R` says. All methods and
operators leave dicts as they are, put pairs into one or take entries out of one, and what they
allocate is lawful.
-/

namespace Resumable

/-! ## Tidy heaps -/

namespace Heap

/-- The free list is exact, and all dicts are lawful. -/
structure Tidy (h : Heap) : Prop where
  exact : h.Exact
  lawful : ∀ x, ∀ c ∈ h.cell? x, c.Lawful

/-- From a tidy heap comes a tidy one, and each dict has become another one as `R` says. -/
def Alters (R : Dict → Dict → Prop) (h k : Heap) : Prop :=
  h.Tidy → k.Tidy ∧
    ∀ x d, h.cell? x = some (.dict d) → ∃ d', k.cell? x = some (.dict d') ∧ R d d'

variable {R S : Dict → Dict → Prop} {h k : Heap} {id : Nat} {f : Slot → Slot}

instance [IsPreorder Dict R] : IsPreorder Heap (Alters R) where
  refl _ hh := ⟨hh, fun _ d hd => ⟨d, hd, refl d⟩⟩
  trans _ _ _ hi hk hh := by
    obtain ⟨hi, hdicts⟩ := hi hh
    obtain ⟨hk, hdicts'⟩ := hk hi
    refine ⟨hk, fun x d hd => ?_⟩
    obtain ⟨d', hd', hR⟩ := hdicts x d hd
    obtain ⟨d'', hd'', hR'⟩ := hdicts' x d' hd'
    exact ⟨d'', hd'', IsTrans.trans _ _ _ hR hR'⟩

theorem Alters.mono (hk : h.Alters R k) (hRS : ∀ d d', R d d' → S d d') : h.Alters S k := by
  intro hh
  obtain ⟨hk, hdicts⟩ := hk hh
  refine ⟨hk, fun x d hd => ?_⟩
  obtain ⟨d', hd', hR⟩ := hdicts x d hd
  exact ⟨d', hd', hRS d d' hR⟩

/-- The cells are the same ones. -/
theorem alters_of_cells [IsPreorder Dict R] (hcells : ∀ x, k.cell? x = h.cell? x)
    (hexact : h.Exact → k.Exact) : h.Alters R k := fun hh =>
  ⟨⟨hexact hh.exact, fun x c hc => hh.lawful x c (hcells x ▸ hc)⟩,
    fun x d hd => ⟨d, (hcells x).trans hd, refl d⟩⟩

/-- A lawful cell is put into a slot that has not been in use. -/
theorem alters_place [IsPreorder Dict R] (h : Heap) {s : Slot} (hs : s.cell.Lawful) :
    h.Alters R (h.place s).2 := fun hh => by
  have hplace := slot?_place hh.exact s
  refine ⟨⟨hh.exact.place s, fun x c hc => ?_⟩, fun x d hd => ⟨d, ?_, refl d⟩⟩
  · rw [cell?_eq_slot?, hplace] at hc
    split at hc
    · cases hc
      exact hs
    · rw [← cell?_eq_slot?] at hc
      exact hh.lawful x c hc
  · have hne : x ≠ h.nextSlot := by
      rintro rfl
      exact nomatch hd.symm.trans (cell?_nextSlot hh.exact)
    rw [cell?_eq_slot?, hplace, if_neg hne, ← cell?_eq_slot?]
    exact hd

/-- One cell has changed: a dict as `R` says, and no other cell has become a dict. -/
theorem alters_alter [IsPreorder Dict R]
    (hdict : ∀ s d, h.slot? id = some s → s.cell = .dict d → d.Lawful →
      ∃ d', (f s).cell = .dict d' ∧ d'.Lawful ∧ R d d')
    (hother : ∀ s, h.slot? id = some s → (∀ d, s.cell ≠ .dict d) → (f s).cell.Lawful) :
    h.Alters R (h.alter id f) := fun hh => by
  have hcell : ∀ x, (h.alter id f).cell? x =
      if id = x then (h.slot? x).map fun s => (f s).cell else h.cell? x := fun x => by
    rw [cell?_eq_slot?, slot?_alter]
    split
    · rw [Option.map_map]
      rfl
    · rw [cell?_eq_slot?]
  refine ⟨⟨hh.exact.modify id f, fun x c hc => ?_⟩, fun x d hd => ?_⟩
  · rw [hcell] at hc
    split at hc
    · next hx =>
      subst hx
      obtain ⟨s, hs, rfl⟩ := Option.map_eq_some_iff.mp hc
      have hlawful := hh.lawful id _ (cell?_of_slot? hs)
      cases hd : s.cell with
      | dict d =>
        rw [hd] at hlawful
        obtain ⟨d', hd', hlawful', -⟩ := hdict s d hs hd hlawful
        rw [hd']
        exact hlawful'
      | list items => exact hother s hs (by rw [hd]; exact nofun)
      | iter state => exact hother s hs (by rw [hd]; exact nofun)
    · exact hh.lawful x c hc
  · have hlawful := hh.lawful x _ hd
    rw [hcell]
    split
    · next hx =>
      subst hx
      rw [cell?_eq_slot?] at hd
      obtain ⟨s, hs, hsd⟩ := Option.map_eq_some_iff.mp hd
      obtain ⟨d', hd', -, hR⟩ := hdict s d hs hsd hlawful
      exact ⟨d', by rw [hs, Option.map_some, hd'], hR⟩
    · exact ⟨d, hd, refl d⟩

end Heap

/-! ## Actions -/

/-- Whatever comes of an action from a state, the heap has become another one as `P` says. -/
def AlongAt {σ α : Type} [Funded σ] (P : Heap → Heap → Prop) (s : σ) (x : EStateM Failure σ α) :
    Prop := P (Funded.heap s) (Funded.heap (endState (x s)))

/-- From every state, the heap becomes another one as `P` says. -/
def Along {σ α : Type} [Funded σ] (P : Heap → Heap → Prop) (x : EStateM Failure σ α) : Prop :=
  ∀ s, AlongAt P s x

section
variable {σ α β : Type} [Funded σ] {P Q : Heap → Heap → Prop} {x : EStateM Failure σ α}
  {f : α → EStateM Failure σ β}

namespace Along

theorem mono (hx : Along P x) (hPQ : ∀ h k, P h k → Q h k) : Along Q x := fun s => hPQ _ _ (hx s)

theorem ret [Std.Refl P] (a : α) : Along P (pure a : EStateM Failure σ α) := fun _ => refl _

theorem fail [Std.Refl P] (e : Failure) : Along P (throw e : EStateM Failure σ α) := fun _ => refl _

theorem readAt {g : σ → EStateM Failure σ β} (hg : ∀ s, AlongAt P s (g s)) :
    Along P (get >>= g) := hg

theorem read {g : σ → EStateM Failure σ β} (hg : ∀ s, Along P (g s)) : Along P (get >>= g) :=
  fun s => hg s s

/-- A failure that says something about the state. -/
theorem refuse [Std.Refl P] {g : σ → Failure} :
    Along P (do throw (g (← get)) : EStateM Failure σ α) := .read fun _ => .fail _

theorem fork {c : Prop} [Decidable c] {y : EStateM Failure σ α} (hx : Along P x) (hy : Along P y) :
    Along P (if c then x else y) := by
  split
  · exact hx
  · exact hy

/-- An action that leaves the heap alone. -/
theorem quiet [Std.Refl P] (hx : Along Eq x) : Along P x := hx.mono fun h _ hk => hk ▸ refl h

/-- An action that leaves the heap alone, and then another one. -/
theorem behind [Std.Refl P] (hx : Along Eq x) (hf : ∀ a, Along P (f a)) : Along P (x >>= f) := by
  intro s
  have hheap := hx s
  unfold AlongAt at hheap ⊢
  cases hxs : x s with
  | error e t =>
    rw [hxs] at hheap
    rw [bind_error hxs]
    exact hheap ▸ refl _
  | ok a t =>
    rw [hxs] at hheap
    rw [bind_ok hxs, show Funded.heap s = Funded.heap t from hheap]
    exact hf a t

/-- Another action, and then one that leaves the heap alone. -/
theorem andThen (hx : Along P x) (hf : ∀ a, Along Eq (f a)) : Along P (x >>= f) := by
  intro s
  have hheap := hx s
  unfold AlongAt at hheap ⊢
  cases hxs : x s with
  | error e t =>
    rw [hxs] at hheap
    rwa [bind_error hxs]
  | ok a t =>
    rw [hxs] at hheap
    rwa [bind_ok hxs, ← hf a t]

theorem bind [IsPreorder Heap P] (hx : Along P x) (hf : ∀ a, Along P (f a)) :
    Along P (x >>= f) := by
  intro s
  have hheap := hx s
  unfold AlongAt at hheap ⊢
  cases hxs : x s with
  | error e t =>
    rw [hxs] at hheap
    rwa [bind_error hxs]
  | ok a t =>
    rw [hxs] at hheap
    rw [bind_ok hxs]
    exact IsTrans.trans _ _ _ hheap (hf a t)

theorem mapM [IsPreorder Heap P] {τ : Type} {g : τ → EStateM Failure σ β}
    (hg : ∀ a, Along P (g a)) (xs : List τ) : Along P (xs.mapM g) := by
  induction xs with
  | nil => exact .ret []
  | cons a xs ih =>
    rw [List.mapM_cons]
    exact (hg a).bind fun _ => ih.bind fun _ => .ret _

theorem forM [IsPreorder Heap P] {τ : Type} {g : τ → EStateM Failure σ Unit}
    (hg : ∀ a, Along P (g a)) (xs : List τ) : Along P (xs.forM g) := by
  induction xs with
  | nil => exact .ret ()
  | cons a xs ih => exact (hg a).bind fun _ => ih

end Along

end

/-! ## The heap -/

namespace Heap

variable {α : Type} {R : Dict → Dict → Prop} [IsPreorder Dict R]

theorem withinLimit_along {P : Heap → Heap → Prop} [Std.Refl P] (x : Except LimitError α) :
    Along P (withinLimit x) := by
  cases x with
  | ok a => exact .ret a
  | error e => exact .fail _

theorem charge_alters (bytes : Nat) : Along (Alters R) (charge bytes) :=
  .read fun _ => (withinLimit_along _).bind fun _ _ =>
    alters_of_cells (fun _ => rfl) fun hh => ⟨hh.nodup, hh.mem_free⟩

theorem alloc_alters {c : Cell} (hc : c.Lawful) : Along (Alters R) (alloc c) := by
  refine (charge_alters c.bytes).bind fun _ h => ?_
  have hcounted : h.Alters R { h with recent := h.recent + 1 } :=
    alters_of_cells (fun _ => rfl) fun hh => ⟨hh.nodup, hh.mem_free⟩
  exact IsTrans.trans _ _ _ hcounted (alters_place _ hc)

/-- A plain action leaves all dicts as they are, and allocates lawful ones. -/
theorem Plain.alters {x : Action α} (hx : Plain x) : Along (Alters R) x := by
  induction hx with
  | ret a => exact .ret a
  | fail _ => exact .fail _
  | bind _ _ ihx ihf => exact ihx.bind ihf
  | read _ _ ih => exact .read ih
  | checkResult bytes => exact .read fun _ => withinLimit_along _
  | alloc hc => exact alloc_alters hc

theorem chargeInsert_alters (id : Nat) : Along (Alters R) (chargeInsert id) := by
  refine (charge_alters _).bind fun _ h => ?_
  refine alters_alter (fun s d hs hd hlawful => ⟨d, hd, hlawful, refl d⟩) fun s hs hother => ?_
  change s.cell.Lawful
  unfold Cell.Lawful
  split
  · next d hd => exact (hother d hd).elim
  · trivial

/-- Charges for as many items as an array has. -/
theorem chargeAll_alters (id : Nat) (more : Array Value) :
    Along (Alters R) (more.forM fun _ => chargeInsert id) := by
  obtain ⟨more⟩ := more
  rw [List.forM_toArray' _ _ rfl]
  exact .forM (fun _ => chargeInsert_alters id) more

theorem modifyList_alters (id : Nat) (f : Array Value → Array Value) :
    Along (Alters R) (modifyList id f) := by
  intro h
  refine alters_alter (fun s d hs hd hlawful => ⟨d, ?_, hlawful, refl d⟩) fun s hs hother => ?_
  · simp only [hd]
  · cases hcell : s.cell with
    | dict d => exact (hother d hcell).elim
    | list items => trivial
    | iter state => trivial

theorem modifyDict_alters (id : Nat) {f : Dict → Dict}
    (hf : ∀ d : Dict, d.Lawful → (f d).Lawful ∧ R d (f d)) :
    Along (Alters R) (modifyDict id f) := by
  intro h
  refine alters_alter (fun s d hs hd hlawful => ⟨f d, ?_, hf d hlawful⟩) fun s hs hother => ?_
  · simp only [hd]
  · cases hcell : s.cell with
    | dict d => exact (hother d hcell).elim
    | list items => trivial
    | iter state => trivial

theorem next_alters (id : Nat) : Along (Alters R) (next id) := by
  refine .readAt fun h => ?_
  split
  · next state hcell =>
    split
    · refine alters_alter (fun s d hs hd _ => ?_) fun _ _ _ => trivial
      have hiter := (cell?_of_slot? hs).symm.trans hcell
      rw [hd] at hiter
      cases hiter
    · exact refl h
  · exact refl h

theorem inplace_alters (op : Operator) (v w : Value) : Along (Alters R) (inplace op v w) := by
  unfold inplace
  split
  · refine .read fun h => ?_
    split
    · refine (items_plain w).alters.bind fun more => ?_
      exact (chargeAll_alters _ more).bind fun _ => (modifyList_alters _ _).bind fun _ => .ret _
    · exact (binary_plain _ _ _).alters
  · exact (binary_plain op v w).alters

end Heap

/-! ## Methods and items -/

open Heap Arguments

/-- Whatever comes of a method, if there is one, the heap has become another one as `P` says. -/
def AlongMethod (P : Heap → Heap → Prop) (method? : Option (Action Value)) : Prop :=
  ∀ act ∈ method?, Along P act

theorem AlongMethod.of {P : Heap → Heap → Prop} {act : Action Value} (hact : Along P act) :
    AlongMethod P (some act) := by
  rintro _ ⟨⟩
  exact hact

theorem AlongMethod.none {P : Heap → Heap → Prop} : AlongMethod P none := nofun

namespace ListMethod

variable {R : Dict → Dict → Prop} [IsPreorder Dict R] (id : Nat)

theorem extend_alters (iterable : Value) : Along (Alters R) (extend id iterable) := by
  refine (items_plain iterable).alters.bind fun more => ?_
  exact (chargeAll_alters id more).bind fun _ => (modifyList_alters id _).bind fun _ => .ret _

theorem insert_alters (index item : Value) : Along (Alters R) (insert id index item) := by
  unfold insert
  split
  · exact (chargeInsert_alters id).bind fun _ => (modifyList_alters id _).bind fun _ => .ret _
  · exact .refuse

theorem pop_alters (index : Option Value) : Along (Alters R) (pop id index) := by
  refine (itemsOf_plain id).alters.bind fun items => .fork (.fail _) ?_
  refine (popPosition_plain _ _).alters.bind fun i => .fork (.fail _) ?_
  split
  · exact .fail _
  · exact (modifyList_alters id _).bind fun _ => .ret _

theorem sort_alters (descending : Bool) : Along (Alters R) (sort id descending) := by
  rw [sort_eq]
  refine (itemsOf_plain id).alters.bind fun items => (modifyList_alters id _).bind fun _ => ?_
  refine .read fun h => (modifyList_alters id _).bind fun _ => ?_
  cases (h.sorted descending items).2 with
  | none => exact .ret _
  | some e => exact .fail e

/-- No method of a list changes a dict. -/
theorem call_alters (name : String) (args : Arguments) :
    AlongMethod (Alters R) (call id name args) := by
  unfold call
  split
  · refine .of ((one_plain args _).alters.bind fun _ => (chargeInsert_alters id).bind fun _ => ?_)
    exact (modifyList_alters id _).bind fun _ => .ret _
  · exact .of ((one_plain args _).alters.bind fun _ => extend_alters id _)
  · exact .of ((two_plain args _).alters.bind fun _ => insert_alters id _ _)
  · exact .of ((atMostOne_plain args _).alters.bind fun _ => pop_alters id _)
  · refine .of ((one_plain args _).alters.bind fun _ => (itemsOf_plain id).alters.bind fun _ => ?_)
    refine (positionOf_plain _ _ _).alters.bind fun p => ?_
    split
    · exact .ret _
    · exact .refuse
  · refine .of ((one_plain args _).alters.bind fun _ => (itemsOf_plain id).alters.bind fun _ => ?_)
    exact (countOf_plain _ _ _).alters.bind fun _ => .ret _
  · refine .of ((one_plain args _).alters.bind fun _ => (itemsOf_plain id).alters.bind fun _ => ?_)
    refine (positionOf_plain _ _ _).alters.bind fun p => ?_
    split
    · exact (modifyList_alters id _).bind fun _ => .ret _
    · exact .fail _
  · refine .of ((nothing_plain args _).alters.bind fun _ => ?_)
    exact (itemsOf_plain id).alters.bind fun _ => (allocList_plain _).alters
  · refine .of ((nothing_plain args _).alters.bind fun _ => ?_)
    exact (modifyList_alters id _).bind fun _ => .ret _
  · refine .of ((nothing_plain args _).alters.bind fun _ => ?_)
    exact (modifyList_alters id _).bind fun _ => .ret _
  · refine .of (.read fun _ => .fork (.fail _) ?_)
    exact (nothing_plain _ _).alters.bind fun _ => sort_alters id _
  · exact .none

end ListMethod

instance : IsPreorder Dict Dict.Gains where
  refl := .refl
  trans _ _ _ := .trans

instance : IsPreorder Dict Dict.Loses where
  refl _ := List.Sublist.refl _
  trans _ _ _ h h' := List.Sublist.trans h' h

/-- Pairs have been put into dicts, or else entries have been taken out of them. -/
def Heap.Changes (h k : Heap) : Prop := h.Alters Dict.Gains k ∨ h.Alters Dict.Loses k

instance : Std.Refl Changes := ⟨fun h => .inl (refl h)⟩

/-- What comes behind a key may count on it to be the key of the value. -/
theorem Heap.key_bind_along {α : Type} {P : Heap → Heap → Prop} [Std.Refl P] {f : Key → Action α}
    (v : Value) (hf : ∀ key, Key.ofValue v = .ok key → Along P (f key)) :
    Along P (key v >>= f) := by
  unfold key
  cases hkey : Key.ofValue v with
  | ok key => exact hf key hkey
  | error part =>
    change Along P (get >>= fun _ => throw (Failure.typeError _))
    exact .refuse

/-- An entry is put into a dict, and perhaps charged afterwards. -/
theorem Heap.putEntry_gains (id : Nat) {key : Key} {name : Value}
    (hkey : Key.ofValue name = .ok key) (value : Value) (isNew : Bool) :
    Along (Alters Dict.Gains) (do
      modifyDict id (·.insert key name value)
      if isNew then chargeInsert id) := by
  refine Along.bind ?_ fun _ => .fork (chargeInsert_alters id) (.ret ())
  exact modifyDict_alters id fun d hd => ⟨hd.insert hkey value, d.gains_insert hkey value⟩

namespace DictMethod

variable (id : Nat)

theorem put_gains (name value : Value) : Along (Alters Dict.Gains) (put id name value) :=
  key_bind_along name fun _ hkey => (dictOf_plain id).alters.bind fun d =>
    putEntry_gains id hkey value (!d.contains _)

theorem setdefault_gains (k : Value) (default : Option Value) :
    Along (Alters Dict.Gains) (do
      let key ← Heap.key k
      match (← dictOf id).get? key with
      | some v => return v
      | none => do
        let v := default.getD .none
        chargeInsert id
        modifyDict id (·.insert key k v)
        return v : Action Value) := by
  refine key_bind_along k fun key hkey => (dictOf_plain id).alters.bind fun d => ?_
  split
  · exact .ret _
  · refine (chargeInsert_alters id).bind fun _ => Along.bind ?_ fun _ => .ret _
    exact modifyDict_alters id fun d hd => ⟨hd.insert hkey _, d.gains_insert hkey _⟩

theorem pop_loses (k : Value) (default : Option Value) :
    Along (Alters Dict.Loses) (do
      let key ← Heap.key k
      match (← dictOf id).get? key, default with
      | some v, _ => do
        modifyDict id (·.erase key)
        return v
      | none, some v => return v
      | none, none => throw (.exception .keyError ((← get).literal k)) : Action Value) := by
  refine (key_plain k).alters.bind fun key => (dictOf_plain id).alters.bind fun d => ?_
  split
  · refine Along.bind ?_ fun _ => .ret _
    exact modifyDict_alters id fun d hd => ⟨hd.loses (d.loses_erase key), d.loses_erase key⟩
  · exact .ret _
  · exact .refuse

theorem clear_loses : Along (Alters Dict.Loses) (modifyDict id fun _ => .empty) :=
  modifyDict_alters id fun d _ => ⟨Dict.lawful_empty, d.loses_empty⟩

/-- The dict that is copied is lawful if the heap is tidy. -/
theorem copy_alters {R : Dict → Dict → Prop} [IsPreorder Dict R] :
    Along (Alters R) (do alloc (.dict (← dictOf id))) := by
  intro h hh
  have hlawful : (dictAt id h).Lawful := by
    unfold dictAt
    split
    · next d hd => exact hh.lawful id _ hd
    · exact Dict.lawful_empty
  have hdict : dictOf id h = .ok (dictAt id h) h := (dictOf_course id h).granted (b := h.budget) rfl
  have hend : endState ((do alloc (.dict (← dictOf id)) : Action Value) h) =
      endState (alloc (.dict (dictAt id h)) h) := congrArg endState (bind_ok hdict)
  rw [hend]
  exact alloc_alters (c := .dict _) hlawful h hh

end DictMethod

/-- A method of a dict puts pairs into it or takes entries out of it. -/
theorem DictMethod.call_changes (id : Nat) (name : String) (args : Arguments) :
    ∀ act ∈ call id name args, Along (Alters Dict.Gains) act ∨ Along (Alters Dict.Loses) act := by
  unfold call
  intro act hact
  split at hact <;> cases hact
  · refine .inl ((oneOrTwo_plain args _).alters.bind fun _ => (key_plain _).alters.bind fun _ => ?_)
    exact (dictOf_plain id).alters.bind fun _ => .ret _
  · refine .inl ((nothing_plain args _).alters.bind fun _ => ?_)
    exact (dictOf_plain id).alters.bind fun _ => (allocList_plain _).alters
  · refine .inl ((nothing_plain args _).alters.bind fun _ => ?_)
    exact (dictOf_plain id).alters.bind fun _ => (allocList_plain _).alters
  · refine .inl ((nothing_plain args _).alters.bind fun _ => ?_)
    exact (dictOf_plain id).alters.bind fun _ => (allocList_plain _).alters
  · exact .inr ((oneOrTwo_plain args _).alters.bind fun _ => pop_loses id _ _)
  · exact .inl ((oneOrTwo_plain args _).alters.bind fun _ => setdefault_gains id _ _)
  · refine .inl ((entriesOfCall_plain _ args).alters.bind fun entries => ?_)
    exact (Along.forM (fun e => put_gains id e.1 e.2) entries).bind fun _ => .ret _
  · exact .inl ((nothing_plain args _).alters.bind fun _ => copy_alters id)
  · refine .inr ((nothing_plain args _).alters.bind fun _ => ?_)
    exact (clear_loses id).bind fun _ => .ret _

/-- An assignment to an item puts a pair into a dict, or changes a list. -/
theorem Index.set_gains (object index value : Value) :
    Along (Alters Dict.Gains) (set object index value) := by
  unfold set
  split
  · next id =>
    refine .read fun h => ?_
    split
    · split
      · exact (position_plain _ _ _).alters.bind fun p => modifyList_alters id _
      · exact .refuse
    · next d hd => exact key_bind_along index fun _ hkey => putEntry_gains id hkey value _
    · exact .refuse
  · exact .refuse

end Resumable
