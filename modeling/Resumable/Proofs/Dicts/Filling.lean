import Resumable.Proofs.Dicts.Change
import Resumable.Proofs.Sparing

/-!
# Pairs come into dicts in their order

A display, a call of `dict`, an update and a dict of the host have put their pairs into the dict one
after the other if they end well, as `Dict.putAll` says: `Heap.fillsInOrder`.
-/

namespace Resumable

open Heap (Action)

variable {h k : Heap} {d d' : Dict} {v : Value} {pairs : List (Value × Value)} {args : Arguments}

theorem Heap.ofValue_of_key {key : Key} (heq : Heap.key v h = .ok key k) :
    Key.ofValue v = .ok key ∧ k = h := by
  unfold Heap.key at heq
  cases hkey : Key.ofValue v with
  | ok key' =>
    rw [hkey] at heq
    cases heq
    exact ⟨rfl, rfl⟩
  | error part =>
    rw [hkey] at heq
    cases heq

/-- The pairs of a display. -/
theorem Machine.putAll_of_dictOf
    (heq : Machine.dictOf d (pairs.flatMap fun pair => [pair.1, pair.2]) h = .ok d' k) :
    d.putAll pairs = .ok d' := by
  induction pairs generalizing d h with
  | nil =>
    cases heq
    rfl
  | cons pair pairs ih =>
    obtain ⟨key, i, hkey, hrest⟩ := ok_of_bind heq
    rw [Dict.putAll_cons (Heap.ofValue_of_key hkey).1]
    exact ih hrest

namespace BuiltinCall

theorem putAll_of_insertAll
    (heq : (pairs.foldlM (fun d e => do return d.insert (← Heap.key e.1) e.1 e.2) d :
      Action Dict) h = .ok d' k) : d.putAll pairs = .ok d' ∧ k = h := by
  induction pairs generalizing d h with
  | nil =>
    cases heq
    exact ⟨rfl, rfl⟩
  | cons pair pairs ih =>
    rw [List.foldlM_cons, bind_assoc] at heq
    obtain ⟨key, i, hkey, hrest⟩ := ok_of_bind heq
    obtain ⟨hname, rfl⟩ := Heap.ofValue_of_key hkey
    rw [Dict.putAll_cons hname]
    exact ih hrest

/-- The pairs of a call of `dict` come into a new dict. -/
theorem putAll_of_dict {r : Reply} (heq : call .dict args h = .ok r k) :
    ∃ pairs i d' v, DictMethod.entriesOfCall "dict" args h = .ok pairs i ∧
      Dict.empty.putAll pairs = .ok d' ∧ Heap.alloc (.dict d') i = .ok v k ∧ r = .value v := by
  rw [call, map_eq_pure_bind] at heq
  obtain ⟨v, i, hdict, hr⟩ := ok_of_bind heq
  cases hr
  obtain ⟨pairs, i, hpairs, hrest⟩ := ok_of_bind hdict
  obtain ⟨d', j, hinsert, halloc⟩ := ok_of_bind hrest
  obtain ⟨hput, rfl⟩ := putAll_of_insertAll hinsert
  exact ⟨pairs, j, d', v, hpairs, hput, halloc, rfl⟩

end BuiltinCall

namespace DictMethod

open Heap

variable {id : Nat} {charged : Nat}

theorem putAll_of_puts (hslot : h.slot? id = some ⟨.dict d, charged⟩)
    (heq : (pairs.forM fun pair => put id pair.1 pair.2) h = .ok () k) :
    ∃ d', d.putAll pairs = .ok d' ∧ k.cell? id = some (.dict d') := by
  induction pairs generalizing h d charged with
  | nil =>
    cases heq
    exact ⟨d, rfl, cell?_of_slot? hslot⟩
  | cons pair pairs ih =>
    obtain ⟨_, i, hput, hrest⟩ := ok_of_bind heq
    have hput : put id pair.1 pair.2 h = _ := hput
    obtain ⟨key, j, hkey, -⟩ := ok_of_bind hput
    have hname := (Heap.ofValue_of_key hkey).1
    rw [put_eq hslot hname] at hput
    rw [Dict.putAll_cons hname]
    exact ih (putEntry_ok hslot hput).changed hrest

/-- The pairs of an update come into the dict that is updated. -/
theorem putAll_of_update (hh : h.Exact) (hcell : h.cell? id = some (.dict d)) {act : Action Value}
    (hact : act ∈ call id "update" args) (heq : act h = .ok v k) :
    ∃ pairs i d', entriesOfCall "update" args h = .ok pairs i ∧ d.putAll pairs = .ok d' ∧
      k.cell? id = some (.dict d') := by
  cases hact
  rw [cell?_eq_slot?] at hcell
  obtain ⟨⟨_, charged⟩, hslot, rfl⟩ := Option.map_eq_some_iff.mp hcell
  obtain ⟨pairs, i, hpairs, hrest⟩ := ok_of_bind heq
  have hkeeps := ((entriesOfCall_plain "update" args).keeps hh).2
  rw [hpairs] at hkeeps
  obtain ⟨_, j, hputs, hret⟩ := ok_of_bind hrest
  cases hret
  obtain ⟨d', hput, hcell⟩ := putAll_of_puts (hkeeps id _ hslot) hputs
  exact ⟨pairs, i, d', hpairs, hput, hcell⟩

end DictMethod

namespace Heap

/-- The pairs of a dict of the host are what its entries have been converted to. -/
theorem putAll_of_ofEntries {entries : List (Object × Object)}
    (heq : ofEntries d entries h = .ok d' k) :
    ∃ pairs, d.putAll pairs = .ok d' ∧ List.Forall₂ (fun entry pair =>
      (∃ i j, ofObject entry.1 i = .ok pair.1 j) ∧ ∃ i j, ofObject entry.2 i = .ok pair.2 j)
        entries pairs := by
  induction entries generalizing d h with
  | nil =>
    rw [ofEntries] at heq
    cases heq
    exact ⟨[], rfl, .nil⟩
  | cons entry entries ih =>
    rw [ofEntries] at heq
    obtain ⟨name, i, hname, heq⟩ := ok_of_bind heq
    obtain ⟨value, j, hvalue, heq⟩ := ok_of_bind heq
    obtain ⟨key, l, hkey, heq⟩ := ok_of_bind heq
    obtain ⟨pairs, hpairs, hall⟩ := ih heq
    refine ⟨(name, value) :: pairs, ?_, .cons ⟨⟨h, i, hname⟩, i, j, hvalue⟩ hall⟩
    rw [Dict.putAll_cons (ofValue_of_key hkey).1]
    exact hpairs

/-- From a heap, what puts several pairs into a dict does so one after the other. -/
structure FillsInOrder (h : Heap) : Prop where
  /-- The operands of a display alternate between keys and values. -/
  display : ∀ pairs d k,
    Machine.dictOf .empty (pairs.flatMap fun pair => [pair.1, pair.2]) h = .ok d k →
      Dict.empty.putAll pairs = .ok d
  call : ∀ args r k, BuiltinCall.call .dict args h = .ok r k → ∃ pairs i d v,
    DictMethod.entriesOfCall "dict" args h = .ok pairs i ∧ Dict.empty.putAll pairs = .ok d ∧
      alloc (.dict d) i = .ok v k ∧ r = .value v
  update : ∀ id d args, h.cell? id = some (.dict d) → ∀ act ∈ DictMethod.call id "update" args,
    ∀ v k, act h = .ok v k → ∃ pairs i d', DictMethod.entriesOfCall "update" args h = .ok pairs i ∧
      d.putAll pairs = .ok d' ∧ k.cell? id = some (.dict d')
  host : ∀ entries d k, ofEntries .empty entries h = .ok d k → ∃ pairs,
    Dict.empty.putAll pairs = .ok d ∧ List.Forall₂ (fun entry pair =>
      (∃ i j, ofObject entry.1 i = .ok pair.1 j) ∧ ∃ i j, ofObject entry.2 i = .ok pair.2 j)
        entries pairs

theorem fillsInOrder (hh : h.Exact) : h.FillsInOrder where
  display _ _ _ heq := Machine.putAll_of_dictOf heq
  call _ _ _ heq := BuiltinCall.putAll_of_dict heq
  update _ _ _ hcell _ hact _ _ heq := DictMethod.putAll_of_update hh hcell hact heq
  host _ _ _ heq := putAll_of_ofEntries heq

end Heap

end Resumable
