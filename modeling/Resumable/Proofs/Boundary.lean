import Resumable.Proofs.Liveness
import Resumable.Proofs.Lockstep.Conversion
import Resumable.Proofs.Reach

/-!
# Objects that enter and leave a run

`h.Depicts S v o`: in the heap, the value `v` stands for the object `o`, and all the slots that make
it up are in `S`, none of them inside itself. What depicts an object is converted to it
(`Depicts.toObject_eq`), as long as the slots that can be reached keep their contents
(`Depicts.transfer`). An object that enters a heap is depicted by its value
(`depicts_of_ofObject`), and nothing else changes. Main statement: `ofObject_lossless`.
-/

namespace Resumable

/-! ## Plain objects -/

namespace Object

mutual

/-- The key that an object is as a key of a dict. -/
def key? : Object → Option Key
  | .none => some .none
  | .ellipsis => some .ellipsis
  | .bool b => some (.int (if b then 1 else 0))
  | .int i => some (.int i)
  | .float x => some (Key.ofFloat x)
  | .string s => some (.str s)
  | .bytes data => some (.bytes data)
  | .path p => some (.path p)
  | .tuple items | .namedTuple _ _ items => (keys? items).map .tuple
  | .list _ | .dict _ | .exception .. | .repr _ => Option.none

/-- The keys of objects, if each is one. -/
def keys? : List Object → Option (List Key)
  | [] => some []
  | o :: os => do return (← key? o) :: (← keys? os)

end

theorem of_keys?_cons {o : Object} {os : List Object} {all : List Key}
    (h : keys? (o :: os) = some all) :
    ∃ key keys, o.key? = some key ∧ keys? os = some keys ∧ all = key :: keys := by
  rw [keys?] at h
  obtain ⟨key, hkey, h⟩ := Option.bind_eq_some_iff.mp h
  obtain ⟨keys, hkeys, h⟩ := Option.bind_eq_some_iff.mp h
  exact ⟨key, keys, hkey, hkeys, (Option.some.inj h).symm⟩

/-- An object without a text that stands for something else, in which each dict has different
keys. -/
inductive Plain : Object → Prop
  | none : Plain .none
  | ellipsis : Plain .ellipsis
  | bool (b) : Plain (.bool b)
  | int (i) : Plain (.int i)
  | float (x) : Plain (.float x)
  | string (s) : Plain (.string s)
  | bytes (data) : Plain (.bytes data)
  | path (p) : Plain (.path p)
  | exception (type message) : Plain (.exception type message)
  | list {items} : (∀ o ∈ items, Plain o) → Plain (.list items)
  | tuple {items} : (∀ o ∈ items, Plain o) → Plain (.tuple items)
  | namedTuple (type fields) {items} : (∀ o ∈ items, Plain o) →
      Plain (.namedTuple type fields items)
  | dict {entries keys} : (∀ e ∈ entries, Plain e.1) → (∀ e ∈ entries, Plain e.2) →
      keys? (entries.map (·.1)) = some keys → keys.Nodup → Plain (.dict entries)

end Object

namespace Heap

/-! ## Depictions -/

mutual

/-- A value stands for an object, in slots that are in `S`. -/
inductive Depicts (h : Heap) : (Nat → Prop) → Value → Object → Prop
  | atom {S v o} : (∀ cell, v.toObjectBy cell = o) → Depicts h S v o
  | tuple {S vs os} : AllDepict h S vs os → Depicts h S (.tuple vs) (.tuple os)
  | namedTuple (type fields) {S vs os} : AllDepict h S vs os →
      Depicts h S (.namedTuple type fields vs) (.namedTuple type fields os)
  | list {S x vs os} : S x → h.cell? x = some (.list vs) →
      AllDepict h (fun y => S y ∧ y ≠ x) vs.toList os → Depicts h S (.ref x) (.list os)
  | dict {S x d entries} : S x → h.cell? x = some (.dict d) →
      AllDepict h (fun y => S y ∧ y ≠ x) (d.entries.toList.map (·.name)) (entries.map (·.1)) →
      AllDepict h (fun y => S y ∧ y ≠ x) (d.entries.toList.map (·.value)) (entries.map (·.2)) →
      Depicts h S (.ref x) (.dict entries)

/-- Values stand for objects one by one. -/
inductive AllDepict (h : Heap) : (Nat → Prop) → List Value → List Object → Prop
  | nil {S} : AllDepict h S [] []
  | cons {S v o vs os} : Depicts h S v o → AllDepict h S vs os → AllDepict h S (v :: vs) (o :: os)

end

variable {h k : Heap} {S T : Nat → Prop} {v : Value} {o : Object} {vs : List Value}
  {os : List Object}

theorem toObjectsBy_eq_map (cell : Nat → Object) (done : List Object) (vs : List Value) :
    Value.toObjectsBy cell done vs = done.reverse ++ vs.map (Value.toObjectBy cell) := by
  induction vs generalizing done with
  | nil => simp [Value.toObjectsBy]
  | cons v vs ih => rw [Value.toObjectsBy, ih]; simp

theorem map_pair_eq {α β γ : Type} {f : α → β} {g : α → γ} {xs : List α} {ps : List (β × γ)}
    (hf : xs.map f = ps.map (·.1)) (hg : xs.map g = ps.map (·.2)) :
    xs.map (fun a => (f a, g a)) = ps := by
  rw [← List.zip_map', hf, hg, List.zip_map']
  exact List.map_id _

mutual

/-- The conversion of a value that depicts an object never comes to a slot that it is inside. -/
theorem Depicts.toObjectBy_eq {S : Nat → Prop} {v : Value} {o : Object} (hd : h.Depicts S v o)
    {depth : Nat} {around : List Nat} (henclosing : h.Enclosing depth around)
    (haround : ∀ x ∈ around, ¬ S x) : v.toObjectBy (h.cellObject depth around) = o := by
  have apart : ∀ {x}, S x → around.contains x = false := fun hx => by
    simpa using fun hmem => haround _ hmem hx
  have deeper : ∀ x, ∀ y ∈ x :: around, ¬ (S y ∧ y ≠ x) := fun x y hy => by
    rintro ⟨hy', hne⟩
    exact haround y ((List.mem_cons.mp hy).resolve_left hne) hy'
  cases hd with
  | atom heq => exact heq _
  | tuple hall =>
    rw [Value.toObjectBy, toObjectsBy_eq_map, hall.map_eq henclosing haround]
    rfl
  | namedTuple type fields hall =>
    rw [Value.toObjectBy, toObjectsBy_eq_map, hall.map_eq henclosing haround]
    rfl
  | list hx hcell hall =>
    cases depth with
    | zero => exact henclosing.pos.elim
    | succ depth =>
      have hinside := henclosing.cons (apart hx) (by simp [hcell])
      simp only [Value.toObjectBy, cellObject, hcell, apart hx, Bool.false_eq_true, if_false]
      rw [hall.map_eq hinside (deeper _)]
  | dict hx hcell hnames hvalues =>
    cases depth with
    | zero => exact henclosing.pos.elim
    | succ depth =>
      have hinside := henclosing.cons (apart hx) (by simp [hcell])
      have hnames := hnames.map_eq hinside (deeper _)
      have hvalues := hvalues.map_eq hinside (deeper _)
      rw [List.map_map] at hnames hvalues
      simp only [Value.toObjectBy, cellObject, hcell, apart hx, Bool.false_eq_true, if_false]
      exact congrArg Object.dict (map_pair_eq hnames hvalues)

theorem AllDepict.map_eq {S : Nat → Prop} {vs : List Value} {os : List Object}
    (hd : h.AllDepict S vs os) {depth : Nat} {around : List Nat}
    (henclosing : h.Enclosing depth around) (haround : ∀ x ∈ around, ¬ S x) :
    vs.map (Value.toObjectBy (h.cellObject depth around)) = os := by
  cases hd with
  | nil => rfl
  | cons hd hall =>
    rw [List.map_cons, hd.toObjectBy_eq henclosing haround, hall.map_eq henclosing haround]

end

theorem Depicts.toObject_eq (hd : h.Depicts S v o) : h.toObject v = o :=
  hd.toObjectBy_eq (.nil h) nofun

/-! ## Other heaps -/

mutual

/-- Slots that are not in `S` do not matter. -/
theorem Depicts.grow {S : Nat → Prop} {v : Value} {o : Object} (hd : h.Depicts S v o)
    {T : Nat → Prop} (hk : ∀ x, S x → k.cell? x = h.cell? x ∧ T x) : k.Depicts T v o :=
  have inside : ∀ x y, S y ∧ y ≠ x → k.cell? y = h.cell? y ∧ T y ∧ y ≠ x := fun _ y hy =>
    ⟨(hk y hy.1).1, (hk y hy.1).2, hy.2⟩
  match hd with
  | .atom heq => .atom heq
  | .tuple hall => .tuple (hall.grow hk)
  | .namedTuple type fields hall => .namedTuple type fields (hall.grow hk)
  | .list hx hcell hall => .list (hk _ hx).2 ((hk _ hx).1.trans hcell) (hall.grow (inside _))
  | .dict hx hcell hnames hvalues =>
    .dict (hk _ hx).2 ((hk _ hx).1.trans hcell) (hnames.grow (inside _))
      (hvalues.grow (inside _))

theorem AllDepict.grow {S : Nat → Prop} {vs : List Value} {os : List Object}
    (hd : h.AllDepict S vs os) {T : Nat → Prop}
    (hk : ∀ x, S x → k.cell? x = h.cell? x ∧ T x) : k.AllDepict T vs os :=
  match hd with
  | .nil => .nil
  | .cons hd hall => .cons (hd.grow hk) (hall.grow hk)

end

theorem Reaches.of_held {held held' : Value → Prop} {x : Nat} (hx : h.Reaches held x)
    (hheld : ∀ v y, held v → v.Mentions y → h.Reaches held' y) : h.Reaches held' x := by
  induction hx with
  | held hv hm => exact hheld _ _ hv hm
  | through _ hc hm ih => exact ih.through hc hm

mutual

/-- Slots that cannot be reached from a value do not matter. -/
theorem Depicts.transfer {S : Nat → Prop} {v : Value} {o : Object} (hd : h.Depicts S v o)
    (hk : ∀ x, h.Reaches (· = v) x → k.cell? x = h.cell? x) : k.Depicts S v o :=
  match hd with
  | .atom heq => .atom heq
  | .tuple hall => .tuple (hall.transfer fun x hx =>
      hk x (hx.of_held fun _ _ hv hm => .held rfl (.tuple hv hm)))
  | .namedTuple type fields hall => .namedTuple type fields (hall.transfer fun x hx =>
      hk x (hx.of_held fun _ _ hv hm => .held rfl (.namedTuple type fields hv hm)))
  | @Depicts.list _ _ x _ _ hx hcell hall =>
    have hroot : h.Reaches (· = .ref x) x := .held rfl (.ref x)
    .list hx ((hk x hroot).trans hcell) (hall.transfer fun y hy =>
      hk y (hy.of_held fun _ _ hv hm => hroot.through hcell (.item hv hm)))
  | @Depicts.dict _ _ x d _ hx hcell hnames hvalues =>
    have hroot : h.Reaches (· = .ref x) x := .held rfl (.ref x)
    have hname : ∀ v y, v ∈ d.entries.toList.map (·.name) → v.Mentions y →
        h.Reaches (· = .ref x) y := fun v y hv hm => by
      obtain ⟨e, he, rfl⟩ := List.mem_map.mp hv
      exact hroot.through hcell (.name he hm)
    have hvalue : ∀ v y, v ∈ d.entries.toList.map (·.value) → v.Mentions y →
        h.Reaches (· = .ref x) y := fun v y hv hm => by
      obtain ⟨e, he, rfl⟩ := List.mem_map.mp hv
      exact hroot.through hcell (.value he hm)
    .dict hx ((hk x hroot).trans hcell) (hnames.transfer fun y hy => hk y (hy.of_held hname))
      (hvalues.transfer fun y hy => hk y (hy.of_held hvalue))

theorem AllDepict.transfer {S : Nat → Prop} {vs : List Value} {os : List Object}
    (hd : h.AllDepict S vs os) (hk : ∀ x, h.Reaches (· ∈ vs) x → k.cell? x = h.cell? x) :
    k.AllDepict S vs os :=
  match hd with
  | .nil => .nil
  | .cons hd hall =>
    .cons (hd.transfer fun x hx => hk x (hx.of_held fun _ _ hv hm =>
        .held (hv ▸ List.mem_cons_self) hm))
      (hall.transfer fun x hx => hk x (hx.of_held fun _ _ hv hm =>
        .held (List.mem_cons_of_mem _ hv) hm))

end

/-! ## Allocation -/

/-- The slots in use. -/
def Live (h : Heap) (x : Nat) : Prop := h.cell? x ≠ none

/-- The free list is right, and nothing that was in the heap has changed. -/
structure Extends (h k : Heap) : Prop where
  exact : k.Exact
  slots : ∀ (x : Nat) (slot : Slot), h.slots[x]? = some (some slot) →
    k.slots[x]? = some (some slot)

variable {l : Heap}

namespace Extends

theorem refl (hh : h.Exact) : h.Extends h := ⟨hh, fun _ _ hx => hx⟩

theorem trans (hk : h.Extends k) (hl : k.Extends l) : h.Extends l :=
  ⟨hl.exact, fun x slot hx => hl.slots x slot (hk.slots x slot hx)⟩

theorem live (hk : h.Extends k) (x : Nat) (hx : h.Live x) : k.cell? x = h.cell? x ∧ k.Live x := by
  have heq : k.cell? x = h.cell? x := by
    unfold Live cell? at *
    split at hx
    · next slot hslot => rw [hk.slots x slot hslot]
    · exact absurd rfl hx
  exact ⟨heq, by rw [Live, heq]; exact hx⟩

end Extends

theorem extends_place (hh : h.Exact) (s : Slot) : h.Extends (h.place s).2 := by
  refine ⟨hh.place s, fun x slot hx => ?_⟩
  unfold place
  cases hfree : h.free with
  | nil =>
    have hlt : x < h.slots.size := (Array.getElem?_eq_some_iff.mp hx).1
    simp only [Array.getElem?_push, if_neg hlt.ne, hx]
  | cons y free =>
    have hy := (hh.mem_free y).mp (by simp [hfree])
    have hne : y ≠ x := by
      rintro rfl
      rw [hx] at hy
      cases hy
    simp only [Array.getElem?_setIfInBounds, if_neg hne, hx]

/-- A cell is put into a slot that was not in use. -/
theorem alloc_ok {c : Cell} (hh : h.Exact) (hv : alloc c h = .ok v k) :
    ∃ x, v = .ref x ∧ ¬ h.Live x ∧ k.cell? x = some c ∧ h.Extends k := by
  rw [alloc_eq] at hv
  cases hbudget : h.budget.allocate c.bytes with
  | error e => rw [hbudget] at hv; cases hv
  | ok budget =>
    rw [hbudget] at hv
    cases hv
    have hcharged : Exact { h with budget, recent := h.recent + 1 } := ⟨hh.nodup, hh.mem_free⟩
    have hextends := extends_place hcharged ⟨c, c.bytes⟩
    refine ⟨_, rfl, ?_, ?_, ⟨hextends.exact, hextends.slots⟩⟩
    · rw [place_fst]
      exact not_not.mpr (cell?_nextSlot hh)
    · rw [cell?_place hcharged, place_fst, if_pos rfl]

/-- What is allocated last is not in what it holds. -/
theorem Extends.allocated {x : Nat} (hx : ¬ h.Live x) (hk : h.Extends k) (y : Nat)
    (hy : h.Live y) : k.cell? y = h.cell? y ∧ k.Live y ∧ y ≠ x :=
  ⟨(hk.live y hy).1, (hk.live y hy).2, fun heq => hx (heq ▸ hy)⟩

/-! ## Objects that enter -/

mutual

/-- The value of an object is the key that the object is. -/
theorem ofValue_of_ofObject {h k : Heap} {v : Value} {key : Key} (o : Object)
    (hv : ofObject o h = .ok v k) (hkey : o.key? = some key) : Key.ofValue v = .ok key := by
  cases o with
  | tuple items =>
    rw [ofObject] at hv
    obtain ⟨vs, l, hvs, hret⟩ := ok_of_bind hv
    cases hret
    rw [Object.key?] at hkey
    obtain ⟨keys, hkeys, rfl⟩ := Option.map_eq_some_iff.mp hkey
    obtain ⟨new, rfl, hnew⟩ := ofValues_of_ofObjects items hvs hkeys
    simp [Key.ofValue, hnew]
  | namedTuple type fields items =>
    rw [ofObject] at hv
    obtain ⟨vs, l, hvs, hret⟩ := ok_of_bind hv
    cases hret
    rw [Object.key?] at hkey
    obtain ⟨keys, hkeys, rfl⟩ := Option.map_eq_some_iff.mp hkey
    obtain ⟨new, rfl, hnew⟩ := ofValues_of_ofObjects items hvs hkeys
    simp [Key.ofValue, hnew]
  | list items => cases hkey
  | dict entries => cases hkey
  | exception type message => cases hkey
  | repr text => cases hkey
  | _ => cases hv; cases hkey; rfl

theorem ofValues_of_ofObjects {h k : Heap} {done vs : List Value} {keys : List Key}
    (os : List Object) (hvs : ofObjects done os h = .ok vs k)
    (hkeys : Object.keys? os = some keys) :
    ∃ new, vs = done.reverse ++ new ∧
      ∀ before, Key.ofValues before new = .ok (before.reverse ++ keys) := by
  cases os with
  | nil =>
    cases hvs
    cases hkeys
    exact ⟨[], by simp, fun before => by simp [Key.ofValues]⟩
  | cons o os =>
    rw [ofObjects] at hvs
    obtain ⟨v, l, hv, hrest⟩ := ok_of_bind hvs
    obtain ⟨key, keys, hkey, hothers, rfl⟩ := Object.of_keys?_cons hkeys
    obtain ⟨new, rfl, hnew⟩ := ofValues_of_ofObjects os hrest hothers
    refine ⟨v :: new, by simp, fun before => ?_⟩
    rw [Key.ofValues, ofValue_of_ofObject o hv hkey]
    simp [hnew]

end

/-- An entry with a new key comes last. -/
theorem entries_insert {d : Dict} {key : Key} (name value : Value)
    (hnew : ∀ e ∈ d.entries.toList, e.key ≠ key) :
    (d.insert key name value).entries.toList = d.entries.toList ++ [⟨key, name, value⟩] := by
  have hfind : d.find? key = none := by
    rw [Dict.find?, Array.findIdx?_eq_none_iff]
    exact fun e he => by simpa using hnew e (Array.mem_toList_iff.mpr he)
  rw [Dict.insert, hfind]
  simp

theorem key_ok {v : Value} {key : Key} (hkey : Key.ofValue v = .ok key) (h : Heap) :
    Heap.key v h = .ok key h := by
  simp only [Heap.key, hkey]
  rfl

mutual

theorem depicts_of_ofObject {h k : Heap} {v : Value} (o : Object) (hh : h.Exact) (ho : o.Plain)
    (hv : ofObject o h = .ok v k) : h.Extends k ∧ k.Depicts k.Live v o := by
  cases ho with
  | @tuple items hitems =>
    rw [ofObject] at hv
    obtain ⟨vs, l, hvs, hret⟩ := ok_of_bind hv
    cases hret
    obtain ⟨hextends, new, rfl, hall⟩ := depict_of_ofObjects items hh hitems hvs
    exact ⟨hextends, .tuple hall⟩
  | @namedTuple type fields items hitems =>
    rw [ofObject] at hv
    obtain ⟨vs, l, hvs, hret⟩ := ok_of_bind hv
    cases hret
    obtain ⟨hextends, new, rfl, hall⟩ := depict_of_ofObjects items hh hitems hvs
    exact ⟨hextends, .namedTuple type fields hall⟩
  | @list items hitems =>
    rw [ofObject] at hv
    obtain ⟨vs, l, hvs, halloc⟩ := ok_of_bind hv
    obtain ⟨hextends, new, rfl, hall⟩ := depict_of_ofObjects items hh hitems hvs
    obtain ⟨x, rfl, hx, hcell, hlast⟩ := alloc_ok hextends.exact halloc
    refine ⟨hextends.trans hlast, .list (by simp [Live, hcell]) hcell ?_⟩
    simpa using hall.grow (hlast.allocated hx)
  | @dict entries keys hnames hvalues hkeys hnodup =>
    rw [ofObject] at hv
    obtain ⟨d, l, hd, halloc⟩ := ok_of_bind hv
    obtain ⟨hextends, new, hnew, hall, hall'⟩ :=
      depict_of_ofEntries entries hh hnames hvalues hkeys hnodup (by simp [Dict.empty]) hd
    obtain ⟨x, rfl, hx, hcell, hlast⟩ := alloc_ok hextends.exact halloc
    obtain rfl : new = d.entries.toList := by simpa [Dict.empty] using hnew.symm
    exact ⟨hextends.trans hlast, .dict (by simp [Live, hcell]) hcell
      (hall.grow (hlast.allocated hx)) (hall'.grow (hlast.allocated hx))⟩
  | exception type message =>
    cases hv
    exact ⟨.refl hh, .atom fun _ => by rw [Value.toObjectBy]; rfl⟩
  | _ => cases hv; exact ⟨.refl hh, .atom fun _ => by simp only [Value.toObjectBy]⟩

theorem depict_of_ofObjects {h k : Heap} {done vs : List Value} (os : List Object) (hh : h.Exact)
    (hos : ∀ o ∈ os, o.Plain) (hvs : ofObjects done os h = .ok vs k) :
    h.Extends k ∧ ∃ new, vs = done.reverse ++ new ∧ k.AllDepict k.Live new os := by
  cases os with
  | nil =>
    cases hvs
    exact ⟨.refl hh, [], by simp, .nil⟩
  | cons o os =>
    obtain ⟨ho, hos⟩ := List.forall_mem_cons.mp hos
    rw [ofObjects] at hvs
    obtain ⟨v, l, hv, hrest⟩ := ok_of_bind hvs
    obtain ⟨hfirst, hdepicts⟩ := depicts_of_ofObject o hh ho hv
    obtain ⟨hothers, new, rfl, hall⟩ := depict_of_ofObjects os hfirst.exact hos hrest
    exact ⟨hfirst.trans hothers, v :: new, by simp, .cons (hdepicts.grow hothers.live) hall⟩

/-- New entries have keys that are not in the dict, and come behind those that are. -/
theorem depict_of_ofEntries {h k : Heap} {d d' : Dict} {keys : List Key}
    (entries : List (Object × Object)) (hh : h.Exact) (hnames : ∀ e ∈ entries, e.1.Plain)
    (hvalues : ∀ e ∈ entries, e.2.Plain) (hkeys : Object.keys? (entries.map (·.1)) = some keys)
    (hnodup : keys.Nodup) (hnew : ∀ key ∈ keys, ∀ e ∈ d.entries.toList, e.key ≠ key)
    (hd : ofEntries d entries h = .ok d' k) :
    h.Extends k ∧ ∃ new, d'.entries.toList = d.entries.toList ++ new ∧
      k.AllDepict k.Live (new.map (·.name)) (entries.map (·.1)) ∧
      k.AllDepict k.Live (new.map (·.value)) (entries.map (·.2)) := by
  rcases entries with _ | ⟨⟨o, o'⟩, entries⟩
  · cases hd
    exact ⟨.refl hh, [], by simp, .nil, .nil⟩
  · obtain ⟨ho, hnames⟩ := List.forall_mem_cons.mp hnames
    obtain ⟨ho', hvalues⟩ := List.forall_mem_cons.mp hvalues
    obtain ⟨key, keys, hkey, hothers, rfl⟩ := Object.of_keys?_cons hkeys
    obtain ⟨hfresh, hnodup⟩ := List.nodup_cons.mp hnodup
    obtain ⟨hnewKey, hnew⟩ := List.forall_mem_cons.mp hnew
    rw [ofEntries] at hd
    obtain ⟨name, l, hname, hd⟩ := ok_of_bind hd
    obtain ⟨value, l', hvalue, hd⟩ := ok_of_bind hd
    obtain ⟨key', l'', hkey', hrest⟩ := ok_of_bind hd
    rw [key_ok (ofValue_of_ofObject o hname hkey)] at hkey'
    cases hkey'
    obtain ⟨hfirst, hdepicts⟩ := depicts_of_ofObject o hh ho hname
    obtain ⟨hsecond, hdepicts'⟩ := depicts_of_ofObject o' hfirst.exact ho' hvalue
    have hentries := entries_insert name value hnewKey
    have hstill : ∀ key' ∈ keys, ∀ e ∈ (d.insert key name value).entries.toList, e.key ≠ key' := by
      intro key' hmem e he
      rw [hentries] at he
      rcases List.mem_append.mp he with he | he
      · exact hnew key' hmem e he
      · obtain rfl := List.mem_singleton.mp he
        rintro rfl
        exact hfresh hmem
    obtain ⟨hlast, new, hadded, hall, hall'⟩ :=
      depict_of_ofEntries entries hsecond.exact hnames hvalues hothers hnodup hstill hrest
    refine ⟨hfirst.trans (hsecond.trans hlast), ⟨key, name, value⟩ :: new, ?_, ?_, ?_⟩
    · rw [hadded, hentries, List.append_assoc, List.singleton_append]
    · exact .cons (hdepicts.grow (hsecond.trans hlast).live) hall
    · exact .cons (hdepicts'.grow hlast.live) hall'

end

end Heap

/-- The free list of a run is always right. -/
theorem Script.Visits.exact {s : Script} {inputs : List Object} {budget : Budget}
    {x : Option Exit} {m : Machine} (h : s.Visits inputs budget x m) : m.heap.Exact := by
  obtain ⟨p, hp, -⟩ := h.paired
  exact hp.heap.left

namespace Heap

/-- A run loses nothing of an object that it is given: as long as the slots that can be reached from
its value keep their contents, the value is the object again. Nothing that was in the heap before is
changed. -/
theorem ofObject_lossless :
    (∀ (s : Script) (inputs : List Object) (budget : Budget) (x : Option Exit) (m : Machine),
      s.Visits inputs budget x m → m.heap.Exact) ∧
    ∀ (h k : Heap) (v : Value) (o : Object), h.Exact → o.Plain → ofObject o h = .ok v k →
      k.Exact ∧
      (∀ (x : Nat) (slot : Slot), h.slots[x]? = some (some slot) →
        k.slots[x]? = some (some slot)) ∧
      ∀ l : Heap, (∀ x, k.Reaches (· = v) x → l.cell? x = k.cell? x) → l.toObject v = o := by
  refine ⟨fun _ _ _ _ _ h => h.exact, fun h k v o hh ho hv => ?_⟩
  obtain ⟨hextends, hdepicts⟩ := depicts_of_ofObject o hh ho hv
  exact ⟨hextends.exact, hextends.slots, fun l hl => (hdepicts.transfer hl).toObject_eq⟩

/-- A dict enters a heap in which a slot has been freed; its list is put there. -/
theorem ofObject_lossless_dict :
    let h : Heap := ⟨#[some ⟨.list #[], 88⟩, none], [1], 0, .free⟩
    let o : Object := .dict [(.string "a", .list [.int 1, .bytes [2]]),
      (.tuple [.int 1], .exception .valueError (some "x"))]
    (Script.begin (.ofBudget .free) #[] false .collector).heap.Exact ∧
      ∃ v k, ofObject o h = .ok v k ∧ k.slots[0]? = h.slots[0]? ∧ k.toObject v = o := by
  intro h o
  let s : Script := ⟨"main.py", "", [], [], ⟨#[], []⟩⟩
  have hexact : h.Exact := by
    refine ⟨by simp [h], fun x => ?_⟩
    rcases x with _ | _ | x <;> simp [h]
  have hlist : Object.Plain (.list [.int 1, .bytes [2]]) :=
    .list (List.forall_mem_cons.mpr ⟨.int 1, List.forall_mem_cons.mpr ⟨.bytes [2], nofun⟩⟩)
  have htuple : Object.Plain (.tuple [.int 1]) :=
    .tuple (List.forall_mem_cons.mpr ⟨.int 1, nofun⟩)
  have hkeys : Object.keys? [.string "a", .tuple [.int 1]] =
      some [Key.str "a", Key.tuple [.int 1]] := rfl
  have hplain : o.Plain :=
    .dict (List.forall_mem_cons.mpr ⟨.string "a", List.forall_mem_cons.mpr ⟨htuple, nofun⟩⟩)
      (List.forall_mem_cons.mpr ⟨hlist, List.forall_mem_cons.mpr ⟨.exception _ _, nofun⟩⟩)
      hkeys (by simp)
  refine ⟨ofObject_lossless.1 s [] .free none _ (.start false .collector rfl), ?_⟩
  obtain ⟨v, k, hv⟩ : ∃ v k, ofObject o h = .ok v k := ⟨_, _, rfl⟩
  obtain ⟨-, hslots, hback⟩ := ofObject_lossless.2 h k v o hexact hplain hv
  exact ⟨v, k, hv, hslots 0 _ rfl, hback k fun _ _ => rfl⟩

end Heap

end Resumable
