import Resumable.Machine.Step
import Resumable.Proofs.Collection
import Resumable.Proofs.Lockstep.Machine

/-!
# Collections in lockstep

Two paired machines may collect at different times. What a collection frees is out of reach, so the
machines stay paired, by the pairing without the slots that are freed (`Paired.collected`).
-/

namespace Resumable

open List (Forall₂)

variable {κ : World} {p : Pairing} {left right : Nat → Prop}

/-! ## Fewer pairs -/

mutual

/-- Values are alike by less pairs if these are enough for the slots that they refer to. -/
theorem Value.Alike.restrict {v w : Value} (h : v.Alike κ p w)
    (hv : ∀ x, v.Mentions x → left x) (hw : ∀ y, w.Mentions y → right y) :
    v.Alike κ (p.restrict left right) w := by
  cases h with
  | ref h => exact .ref ⟨hv _ (.ref _), hw _ (.ref _), h⟩
  | tuple h =>
    exact .tuple (allAlike_restrict h (fun _ hx _ h => hv _ (.tuple hx h))
      fun _ hy _ h => hw _ (.tuple hy h))
  | namedTuple type fields h =>
    exact .namedTuple type fields (allAlike_restrict h
      (fun _ hx _ h => hv _ (.namedTuple type fields hx h))
      fun _ hy _ h => hw _ (.namedTuple type fields hy h))
  | function code h =>
    exact .function code (allAlike_restrict h (fun _ hx _ h => hv _ (.function code hx h))
      fun _ hy _ h => hw _ (.function code hy h))
  | gather h =>
    exact .gather (allAlike_restrict h (fun _ hx _ h => hv _ (.gather hx h))
      fun _ hy _ h => hw _ (.gather hy h))
  | external h => exact .external h
  | _ => constructor

theorem allAlike_restrict {vs ws : List Value} (h : AllAlike κ p vs ws)
    (hv : ∀ v ∈ vs, ∀ x, v.Mentions x → left x) (hw : ∀ w ∈ ws, ∀ y, w.Mentions y → right y) :
    AllAlike κ (p.restrict left right) vs ws := by
  cases h with
  | nil => exact .nil
  | cons h hs =>
    exact .cons (h.restrict (hv _ List.mem_cons_self) (hw _ List.mem_cons_self))
      (allAlike_restrict hs (fun v hm => hv v (List.mem_cons_of_mem _ hm))
        fun w hm => hw w (List.mem_cons_of_mem _ hm))

end

theorem Cell.Alike.restrict {c d : Cell} (h : c.Alike κ p d) (hc : ∀ x, c.Mentions x → left x)
    (hd : ∀ y, d.Mentions y → right y) : c.Alike κ (p.restrict left right) d := by
  cases h with
  | list h =>
    exact .list (allAlike_restrict h (fun _ hm _ h => hc _ (.item hm h))
      fun _ hm _ h => hd _ (.item hm h))
  | dict h =>
    refine .dict (List.Forall₂.imp_mem h fun e he f hf hef => ⟨hef.key, ?_, ?_⟩)
    · exact hef.name.restrict (fun _ h => hc _ (.name he h)) fun _ h => hd _ (.name hf h)
    · exact hef.value.restrict (fun _ h => hc _ (.value he h)) fun _ h => hd _ (.value hf h)
  | iter h =>
    cases h with
    | list position h =>
      exact .iter (.list position ⟨hc _ (.iterated _ _), hd _ (.iterated _ _), h⟩)
    | items position h =>
      exact .iter (.items position (allAlike_restrict h
        (fun _ hm _ h => hc _ (.iteratedItem position hm h))
        fun _ hm _ h => hd _ (.iteratedItem position hm h)))
    | range next stop step => exact .iter (.range next stop step)

/-- Heaps stay linked when slots out of reach are freed. -/
theorem Heap.Linked.trim [κ.Joint] {h k h' k' : Heap} {vs ws : List Value} (hl : h.Linked κ p k)
    (hh : h.Trims vs left h') (hk : k.Trims ws right k') :
    h'.Linked κ (p.restrict left right) k' := by
  refine ⟨fun ⟨hx, hy, hxy⟩ => ?_, fun hc => (World.Joint.kept _ _ hc).elim, hh.exact hl.left,
    hk.exact hl.right⟩
  obtain ⟨c, d, hc, hd, hcd⟩ := hl.cells hxy
  rw [hh.cells hx, hk.cells hy]
  exact ⟨c, d, hc, hd, hcd.restrict (fun _ h => hh.through hx hc h) fun _ h => hk.through hy hd h⟩

/-! ## Collections that only differ in their budgets -/

theorem Heap.mark_under (h : Heap) (budget : Budget) (marks : Array Bool) (work : List Nat) :
    Heap.mark { h with budget } marks work = h.mark marks work := by
  induction marks, work using Heap.mark.induct h with
  | case1 marks => rw [Heap.mark, Heap.mark]
  | case2 marks id rest hid children ih =>
    rw [Heap.mark, if_pos hid, Heap.mark, if_pos hid]
    exact ih
  | case3 marks id rest hid ih =>
    rw [Heap.mark, if_neg hid, Heap.mark, if_neg hid]
    exact ih

section
variable {R : Budget → Budget → Prop}
  (hrelease : ∀ {a b}, R a b → ∀ n, R (a.release n) (b.release n))
include hrelease

theorem Heap.freeSlot_under {h : Heap} {b : Budget} (hb : R h.budget b) (x : Nat) :
    ∃ budget, freeSlot { h with budget := b } x = { h.freeSlot x with budget } ∧
      R (h.freeSlot x).budget budget := by
  unfold freeSlot
  split
  · next slot hs =>
    simp only [hs]
    exact ⟨_, rfl, hrelease hb _⟩
  · exact ⟨b, rfl, hb⟩

theorem Heap.foldl_freeSlot_under {h : Heap} {b : Budget} (hb : R h.budget b) (ids : List Nat) :
    ∃ budget, ids.foldl freeSlot { h with budget := b } = { ids.foldl freeSlot h with budget } ∧
      R (ids.foldl freeSlot h).budget budget := by
  induction ids generalizing h b with
  | nil => exact ⟨b, rfl, hb⟩
  | cons x ids ih =>
    obtain ⟨c, hc, hbc⟩ := freeSlot_under hrelease hb x
    rw [List.foldl_cons, List.foldl_cons, hc]
    exact ih hbc

/-- What a collection keeps does not hang on the budget. -/
theorem Heap.collect_under {h : Heap} (vs : List Value) {b : Budget} (hb : R h.budget b) :
    ∃ budget, collect { h with budget := b } vs = { h.collect vs with budget } ∧
      R (h.collect vs).budget budget := by
  unfold collect reachable
  rw [mark_under]
  exact foldl_freeSlot_under hrelease (h := { h with recent := 0 }) hb _

end

namespace Machine

section
variable {m n : Machine} (hm : ∀ {v x}, v ∈ m.roots → v.Mentions x → left x)
  (hn : ∀ {w y}, w ∈ n.roots → w.Mentions y → right y)
include hm hn

theorem frame_restrict {f g : Frame} (h : f.Alike κ p g) (hf : f ∈ m.frames) (hg : g ∈ n.frames) :
    f.Alike κ (p.restrict left right) g := by
  refine { h with locals := allAlike_restrict h.locals (fun v hv x hx => ?_) fun w hw y hy => ?_ }
  · exact hm (Holds.mem_roots (.local hf (Array.mem_toList_iff.mp hv)) hx) hx
  · exact hn (Holds.mem_roots (.local hg (Array.mem_toList_iff.mp hw)) hy) hy

/-- Machines are alike by less pairs if these are enough for their roots. -/
theorem Alike.restrict [κ.Joint] (h : m.Alike κ p n) :
    m.Alike κ (p.restrict left right) n where
  __ := h
  stack := allAlike_restrict h.stack (fun _ hv _ hx => hm (Holds.mem_roots (.operand hv) hx) hx)
    fun _ hw _ hy => hn (Holds.mem_roots (.operand hw) hy) hy
  frame := frame_restrict hm hn h.frame List.mem_cons_self List.mem_cons_self
  callers := List.Forall₂.imp_mem h.callers fun _ hf _ hg hfg =>
    frame_restrict hm hn hfg (List.mem_cons_of_mem _ hf) (List.mem_cons_of_mem _ hg)
  globals := allAlike_restrict h.globals
    (fun _ hv _ hx => hm (Holds.mem_roots (.global (Array.mem_toList_iff.mp hv)) hx) hx)
    fun _ hw _ hy => hn (Holds.mem_roots (.global (Array.mem_toList_iff.mp hw)) hy) hy
  futures := .of_all <| List.Forall₂.imp_mem h.futures.all fun (i, f) hf (j, g) hg hfg => by
    obtain ⟨hid, hfg, hknown⟩ := hfg
    refine ⟨hid, ?_, hknown⟩
    cases hfg with
    | pending => exact .pending
    | resolved h =>
      exact .resolved (h.restrict (fun _ hx => hm (Holds.mem_roots (.result hf) hx) hx)
        fun _ hy => hn (Holds.mem_roots (.result hg) hy) hy)
    | failed e => exact .failed e

end

theorem collected_trims (m : Machine) :
    ∃ kept h, m.collected = { m with heap := h } ∧ m.heap.Trims m.roots kept h ∧
      ∃ memory, h.budget = { m.heap.budget with memory } := by
  unfold collected
  split
  · exact ⟨_, _, rfl, Heap.trims_collect _ _, Heap.collect_budget _ _⟩
  · exact ⟨_, _, rfl, Heap.Trims.refl _ _, _, rfl⟩

theorem Alike.roots_eq [κ.Joint] {m n : Machine} (h : m.Alike κ p n)
    (hp : ∀ x y, p.rel x y → x = y) : m.roots = n.roots := by
  have hframes : Forall₂ (Frame.Alike κ p) m.frames n.frames := .cons h.frame h.callers
  have hlocals : m.frames.flatMap (·.locals.toList) = n.frames.flatMap (·.locals.toList) := by
    rw [List.flatMap, List.flatMap, hframes.map_congr fun f g h => AllAlike.eq h.locals hp]
  have hresults : ∀ {fs gs : List (Nat × Future)}, Forall₂ (FutureAlike κ p) fs gs → fs = gs := by
    intro fs gs h
    rw [← List.forall₂_eq_eq_eq]
    exact h.imp fun (i, f) (j, g) ⟨hid, hfg, _⟩ => by
      obtain rfl : i = j := hid
      cases hfg with
      | pending => rfl
      | resolved h => rw [h.eq hp]
      | failed e => rfl
  rw [roots, roots, hlocals, AllAlike.eq h.stack hp, AllAlike.eq h.globals hp,
    hresults h.futures.all]

/-- Heaps that are the same but for their budgets collect the same slots, at the same time. -/
theorem Paired.collected_fixed [κ.Joint] {m n : Machine} (h : m.Paired κ p n) (hκ : κ.fixed) :
    ∃ budget, n.collected.heap = { m.collected.heap with budget } ∧
      κ.budget m.collected.heap.budget budget := by
  obtain ⟨⟨budget, hheap⟩, hid⟩ := h.heap.fixed hκ
  have hb : κ.budget m.heap.budget budget := by
    have hb := h.heap.budget
    rwa [hheap] at hb
  have hdue : n.heap.shouldCollect = m.heap.shouldCollect := by
    rw [hheap]
    exact ((κ.collects hκ hb).1 _).symm
  rw [Machine.collected, Machine.collected, hdue, ← h.toAlike.roots_eq hid]
  split
  · rw [hheap]
    exact Heap.collect_under (R := κ.budget) (fun hab => (κ.collects hκ hab).2) m.roots hb
  · exact ⟨budget, hheap, hb⟩

/-- Paired machines are paired still when each has collected, if it was due. -/
theorem Paired.collected [κ.Joint] {m n : Machine} (h : m.Paired κ p n)
    (hb : κ.budget m.collected.heap.budget n.collected.heap.budget) :
    ∃ q, m.collected.Paired κ q n.collected := by
  have hsame := h.collected_fixed
  obtain ⟨left, hm, hm', htm, -⟩ := collected_trims m
  obtain ⟨right, hn, hn', htn, -⟩ := collected_trims n
  rw [hm', hn'] at hb hsame ⊢
  have hfixed : κ.fixed → (∃ budget, hn = { hm with budget }) ∧
      ∀ x y, (p.restrict left right).rel x y → x = y := fun hκ =>
    ⟨(hsame hκ).imp fun _ hs => hs.1, fun x y hxy => (h.heap.fixed hκ).2 x y hxy.2.2⟩
  exact ⟨p.restrict left right,
    { h.toAlike.restrict htm.root htn.root with
      heap := ⟨h.heap.trim htm htn, hb, hfixed⟩
      calm := h.calm }⟩

end Machine

end Resumable
