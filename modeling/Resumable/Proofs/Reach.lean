import Resumable.Machine.Basic

/-!
# Slots that can be reached

`v.Mentions x`: the value refers to slot `x`, itself or in a part. `h.Reaches vs x`: slot `x` can be
reached from the values in `vs` through the cells of the heap. `m.Holds v`: the machine may still
use the value. They say what a collection must keep without a word on how it finds it;
`Value.mem_refs` and `Cell.mem_refs` tie them to the lists that the collector works with.
-/

namespace Resumable

/-- A value refers to a slot, itself or in one of the values that it is made of. -/
inductive Value.Mentions : Value → Nat → Prop
  | ref (x) : Mentions (.ref x) x
  | tuple {vs v x} : v ∈ vs → Mentions v x → Mentions (.tuple vs) x
  | namedTuple (type fields) {vs v x} : v ∈ vs → Mentions v x →
      Mentions (.namedTuple type fields vs) x
  | function (code) {vs v x} : v ∈ vs → Mentions v x → Mentions (.function code vs) x
  | gather {vs v x} : v ∈ vs → Mentions v x → Mentions (.gather vs) x

/-- A cell refers to a slot. -/
inductive Cell.Mentions : Cell → Nat → Prop
  | item {vs v x} : v ∈ vs.toList → v.Mentions x → Mentions (.list vs) x
  | name {d e x} : e ∈ d.entries.toList → e.name.Mentions x → Mentions (.dict d) x
  | value {d e x} : e ∈ d.entries.toList → e.value.Mentions x → Mentions (.dict d) x
  | iterated (x position) : Mentions (.iter (.list x position)) x
  | iteratedItem {vs v x} (position) : v ∈ vs.toList → v.Mentions x →
      Mentions (.iter (.items vs position)) x

/-- A slot can be reached from values that have a property. -/
inductive Heap.Reaches (h : Heap) (held : Value → Prop) : Nat → Prop
  | held {v x} : held v → v.Mentions x → Reaches h held x
  | through {x y c} : Reaches h held x → h.cell? x = some c → c.Mentions y → Reaches h held y

/-- A machine may still use a value: as an operand, a global or local variable, an exception that
is being handled or the result of a future. -/
inductive Machine.Holds (m : Machine) : Value → Prop
  | operand {v} : v ∈ m.stack → Holds m v
  | global {v} : v ∈ m.globals → Holds m v
  | handled {e} : e ∈ m.handled → Holds m (.exception e)
  | local {f v} : f ∈ m.frames → v ∈ f.locals → Holds m v
  | result {id v} : (id, .resolved v) ∈ m.futures → Holds m v

/-! ## The lists of references -/

mutual

theorem Value.mem_refs {rest : List Nat} {x : Nat} (v : Value) :
    x ∈ v.refs rest ↔ v.Mentions x ∨ x ∈ rest := by
  cases v with
  | ref y =>
    rw [Value.refs, List.mem_cons]
    refine or_congr_left ⟨?_, ?_⟩
    · rintro rfl; exact .ref x
    · rintro ⟨⟩; rfl
  | tuple vs =>
    rw [Value.refs, Value.mem_allRefs vs]
    refine or_congr_left ⟨fun ⟨v, hv, h⟩ => .tuple hv h, ?_⟩
    rintro (_ | ⟨hv, h⟩); exact ⟨_, hv, h⟩
  | namedTuple type fields vs =>
    rw [Value.refs, Value.mem_allRefs vs]
    refine or_congr_left ⟨fun ⟨v, hv, h⟩ => .namedTuple type fields hv h, ?_⟩
    rintro (_ | _ | ⟨_, _, hv, h⟩); exact ⟨_, hv, h⟩
  | function code vs =>
    rw [Value.refs, Value.mem_allRefs vs]
    refine or_congr_left ⟨fun ⟨v, hv, h⟩ => .function code hv h, ?_⟩
    rintro (_ | _ | _ | ⟨_, hv, h⟩); exact ⟨_, hv, h⟩
  | gather vs =>
    rw [Value.refs, Value.mem_allRefs vs]
    refine or_congr_left ⟨fun ⟨v, hv, h⟩ => .gather hv h, ?_⟩
    rintro (_ | _ | _ | _ | ⟨hv, h⟩); exact ⟨_, hv, h⟩
  | _ => exact ⟨.inr, fun h => h.resolve_left nofun⟩

theorem Value.mem_allRefs {rest : List Nat} {x : Nat} (vs : List Value) :
    x ∈ Value.allRefs rest vs ↔ (∃ v ∈ vs, v.Mentions x) ∨ x ∈ rest := by
  cases vs with
  | nil => simp [Value.allRefs]
  | cons v vs =>
    rw [Value.allRefs, Value.mem_allRefs vs, Value.mem_refs v]
    simp only [List.mem_cons, exists_eq_or_imp]
    grind

end

theorem mem_entryRefs {x : Nat} (entries : List Entry) (rest : List Nat) :
    x ∈ entries.foldl (fun ids e => e.value.refs (e.name.refs ids)) rest ↔
      (∃ e ∈ entries, e.name.Mentions x ∨ e.value.Mentions x) ∨ x ∈ rest := by
  induction entries generalizing rest with
  | nil => simp
  | cons e entries ih =>
    rw [List.foldl_cons, ih, Value.mem_refs, Value.mem_refs]
    simp only [List.mem_cons, exists_eq_or_imp]
    grind

theorem Cell.mem_refs {x : Nat} {c : Cell} (h : c.Mentions x) : x ∈ c.refs := by
  cases h with
  | item hv h => exact (Value.mem_allRefs _).mpr (.inl ⟨_, hv, h⟩)
  | name he h => exact (mem_entryRefs _ _).mpr (.inl ⟨_, he, .inl h⟩)
  | value he h => exact (mem_entryRefs _ _).mpr (.inl ⟨_, he, .inr h⟩)
  | iterated x position => exact List.mem_singleton_self x
  | iteratedItem position hv h => exact (Value.mem_allRefs _).mpr (.inl ⟨_, hv, h⟩)

theorem Machine.Holds.mem_roots {m : Machine} {v : Value} {x : Nat} (h : m.Holds v)
    (hx : v.Mentions x) : v ∈ m.roots := by
  simp only [Machine.roots, List.mem_append, List.mem_flatMap, List.mem_filterMap]
  cases h with
  | operand hv => exact .inl (.inl (.inl hv))
  | global hv => exact .inl (.inl (.inr (Array.mem_toList_iff.mpr hv)))
  | handled he => cases hx
  | «local» hf hv => exact .inl (.inr ⟨_, hf, Array.mem_toList_iff.mpr hv⟩)
  | result hf => exact .inr ⟨_, hf, rfl⟩

end Resumable
