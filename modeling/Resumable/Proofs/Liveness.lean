import Resumable.Proofs.Lockstep.Run
import Resumable.Proofs.Hosts

/-!
# No dangling references

A run that is paired with itself, under a pairing of some of its slots, holds no reference to a slot
that is not in use: alike values refer to paired slots, and paired slots are in use. Every machine
that a run comes by is paired with itself (`Script.Visits.paired`), so no collection ever frees a
slot that the program can still reach, at whatever instruction it takes place.
-/

namespace Resumable

/-- The world of one run. -/
abbrev World.alone (functions : Nat) : World := .plain .equal (· < functions)

theorem World.alone_fresh (functions : Nat) (traced : Bool) : (alone functions).Fresh traced :=
  ⟨rfl, rfl⟩

open Machine

variable {κ : World} {p : Pairing}

/-! ## Visited machines are paired with themselves -/

/-- A machine is paired with itself, and so are the values that it has stopped with. -/
def SelfPaired (κ : World) (x : Option Exit) (m : Machine) : Prop :=
  ∃ p, m.Paired κ p m ∧ EndAlike κ p x x

theorem SelfPaired.advance {functions : Nat} {m n : Machine} {code : Bytecode}
    (h : SelfPaired (.alone functions) none m) :
    (m.advance code = .next n → SelfPaired (.alone functions) none n) ∧
      ∀ x, m.advance code = .exit x n → SelfPaired (.alone functions) (some x) n := by
  obtain ⟨p, hp, -⟩ := h
  have ha := hp.advance rfl code
  refine ⟨fun hn => ?_, fun x hx => ?_⟩
  · rw [hn] at ha
    cases ha with
    | next hn => exact hn.imp fun q hq => ⟨hq, .none⟩
  · rw [hx] at ha
    cases ha with
    | exit hx hn => exact ⟨_, hn, .some hx⟩

theorem Script.Visits.paired {s : Script} {inputs : List Object} {budget : Budget}
    {x : Option Exit} {m : Machine} (h : s.Visits inputs budget x m) :
    SelfPaired (.alone s.functions.length) x m := by
  induction h with
  | start traced writer hg =>
    have hs := begin_paired (κ := .alone s.functions.length) s inputs (rfl : budget = budget)
      (fun _ h => h) (World.alone_fresh _ traced) writer
    rw [hg] at hs
    cases hs with
    | ok h => exact h.imp fun q hq => ⟨hq, .none⟩
  | next _ hn ih => exact ih.advance.1 hn
  | exit _ hx ih => exact ih.advance.2 _ hx
  | @answer _ m _ a traced writer _ _ hn ih =>
    obtain ⟨p, hp, -⟩ := ih
    have hr := (hp.pause s (World.alone_fresh _ traced) writer).receive (r := s.pause m)
      (s := s.pause m) rfl (fun _ => trivial) a
    rw [hn] at hr
    cases hr with
    | ok h => exact h.imp fun q hq => ⟨hq, .none⟩
  | @resolve pending m _ results traced writer _ hn ih =>
    obtain ⟨p, hp, -⟩ := ih
    have hr := (hp.pause s (World.alone_fresh _ traced) writer).receiveAll (r := s.pause m)
      (s := s.pause m) rfl (fun _ => trivial) pending results
    rw [hn] at hr
    cases hr with
    | ok h =>
      cases h with
      | ok h => exact h.imp fun q hq => ⟨hq, .none⟩
  | @reload x m _ codec clock traced writer _ _ hr ih =>
    obtain ⟨p, hp, hx⟩ := ih
    obtain rfl := Paused.eq_of_reload hr
    exact ⟨p, (hp.pause s (World.alone_fresh _ traced) writer).fund rfl, hx⟩
  | @unattended _ _ _ e _ _ hn ih =>
    obtain ⟨p, hp, -⟩ := ih
    have hr := hp.toHalted.answerException s.bytecode e
    rw [hn] at hr
    cases hr with
    | ok h => exact ⟨p, h, .none⟩

/-! ## Slots that a paired machine reaches are in use -/

mutual

theorem Value.Alike.mentions {v w : Value} {x : Nat} (h : v.Alike κ p w) (hx : v.Mentions x) :
    ∃ y, p.rel x y := by
  cases h with
  | ref h => cases hx; exact ⟨_, h⟩
  | tuple h => cases hx with
    | tuple hv hx => exact allAlike_mentions h hv hx
  | namedTuple type fields h => cases hx with
    | namedTuple _ _ hv hx => exact allAlike_mentions h hv hx
  | function code h => cases hx with
    | function _ hv hx => exact allAlike_mentions h hv hx
  | gather h => cases hx with
    | gather hv hx => exact allAlike_mentions h hv hx
  | _ => cases hx

theorem allAlike_mentions {vs ws : List Value} {v : Value} {x : Nat} (h : AllAlike κ p vs ws)
    (hv : v ∈ vs) (hx : v.Mentions x) : ∃ y, p.rel x y := by
  cases h with
  | nil => cases hv
  | cons h hs =>
    rcases List.mem_cons.mp hv with rfl | hv
    · exact h.mentions hx
    · exact allAlike_mentions hs hv hx

end

theorem Cell.Alike.mentions {c d : Cell} {x : Nat} (h : c.Alike κ p d) (hx : c.Mentions x) :
    ∃ y, p.rel x y := by
  cases h with
  | list h => cases hx with
    | item hv hx => exact allAlike_mentions h hv hx
  | dict h => cases hx with
    | name he hx =>
      obtain ⟨_, _, h⟩ := List.Forall₂.exists_of_mem h he
      exact h.name.mentions hx
    | value he hx =>
      obtain ⟨_, _, h⟩ := List.Forall₂.exists_of_mem h he
      exact h.value.mentions hx
  | iter h => cases h with
    | list position h => cases hx; exact ⟨_, h⟩
    | items position h => cases hx with
      | iteratedItem _ hv hx => exact allAlike_mentions h hv hx
    | range next stop step => cases hx

/-- Values that a machine has stopped with. -/
inductive Exit.Holds : Exit → Value → Prop
  | returned (v) : Holds (.returned v) v
  | external (function call) {args : Arguments} {v} :
      v ∈ args.positional ∨ v ∈ args.named.map (·.2) → Holds (.externalCall function args call) v
  | os (function call) {args : Arguments} {v} :
      v ∈ args.positional ∨ v ∈ args.named.map (·.2) → Holds (.osCall function args call) v

theorem Arguments.Alike.mentions {a b : Arguments} (h : a.Alike κ p b) {v : Value} {x : Nat}
    (hv : v ∈ a.positional ∨ v ∈ a.named.map (·.2)) (hx : v.Mentions x) : ∃ y, p.rel x y := by
  rcases hv with hv | hv
  · exact allAlike_mentions h.positional hv hx
  · obtain ⟨nv, hnv, rfl⟩ := List.mem_map.mp hv
    obtain ⟨_, _, h⟩ := List.Forall₂.exists_of_mem h.named hnv
    exact h.2.mentions hx

theorem Machine.ExitAlike.mentions {x y : Exit} (h : ExitAlike κ p x y) {v : Value} {slot : Nat}
    (hv : x.Holds v) (hx : v.Mentions slot) : ∃ y, p.rel slot y := by
  cases hv with
  | returned v => cases h with
    | returned h => exact h.mentions hx
  | external function call hv => cases h with
    | externalCall _ _ h => exact h.mentions hv hx
  | os function call hv => cases h with
    | osCall _ _ h => exact h.mentions hv hx

theorem Machine.Alike.mentions [κ.Joint] {m n : Machine} (h : m.Alike κ p n) {v : Value} {x : Nat}
    (hv : m.Holds v) (hx : v.Mentions x) : ∃ y, p.rel x y := by
  cases hv with
  | operand hv => exact allAlike_mentions h.stack hv hx
  | global hv => exact allAlike_mentions h.globals (Array.mem_toList_iff.mpr hv) hx
  | handled he => cases hx
  | «local» hf hv =>
    have hframes : List.Forall₂ (Frame.Alike κ p) m.frames n.frames := .cons h.frame h.callers
    obtain ⟨g, _, hfg⟩ := hframes.exists_of_mem hf
    exact allAlike_mentions hfg.locals (Array.mem_toList_iff.mpr hv) hx
  | result hf =>
    obtain ⟨⟨_, g⟩, _, -, hfg, -⟩ := List.Forall₂.exists_of_mem h.futures.all hf
    cases hfg with
    | resolved h => exact h.mentions hx

theorem Heap.Linked.reaches {h k : Heap} (hl : h.Linked κ p k) {held : Value → Prop}
    (hheld : ∀ v x, held v → v.Mentions x → ∃ y, p.rel x y) {x : Nat} (hx : h.Reaches held x) :
    ∃ y, p.rel x y := by
  induction hx with
  | held hv hx => exact hheld _ _ hv hx
  | through _ hc hy ih =>
    obtain ⟨z, hz⟩ := ih
    obtain ⟨c, d, hc', hd, hcd⟩ := hl.cells hz
    obtain rfl := Option.some.inj (hc.symm.trans hc')
    exact hcd.mentions hy

/-! ## Runs -/

/-- All slots that can be reached from the values in `held` are in use, the free list holds the
empty slots, each once, and the slot that the next allocation takes is out of reach. -/
structure Heap.Sound (h : Heap) (held : Value → Prop) : Prop extends h.Exact where
  live : ∀ {x}, h.Reaches held x → h.cell? x ≠ none
  fresh : ¬ h.Reaches held h.nextSlot

theorem Heap.Linked.sound {h k : Heap} (hl : h.Linked κ p k) {held : Value → Prop}
    (hheld : ∀ v x, held v → v.Mentions x → ∃ y, p.rel x y) : h.Sound held := by
  have live : ∀ {x}, h.Reaches held x → h.cell? x ≠ none := fun hx =>
    (hl.reaches hheld hx).elim fun _ hy => (hl.symm_cells hy).1
  exact { hl.left with live, fresh := fun hx => live hx (cell?_nextSlot hl.left) }

/-- In no run of a script, whenever it collects and whatever its host answers, does a machine reach
a slot that is not in use: not between two instructions or at a stop, not when an instruction begins
behind a collection, and not when the instruction has ended or failed. What can be reached when an
instruction begins stays in use until it ends. -/
theorem Script.Visits.no_dangling {s : Script} {inputs : List Object} {budget : Budget}
    {x : Option Exit} {m : Machine} (h : s.Visits inputs budget x m) :
    m.heap.Sound (fun v => m.Holds v ∨ ∃ e, x = some e ∧ e.Holds v) ∧
      m.ticked.collected.heap.Sound m.ticked.collected.Holds ∧
      ∀ n, (∃ y, executeNext s.bytecode m.ticked.collected = .ok y n) ∨
          (∃ e, executeNext s.bytecode m.ticked.collected = .error e n) →
        n.heap.Sound n.Holds ∧
          ∀ slot, m.ticked.collected.heap.Reaches m.ticked.collected.Holds slot →
            n.heap.cell? slot ≠ none := by
  obtain ⟨p, hp, hx⟩ := h.paired
  obtain ⟨q, hq⟩ := hp.ticked.1.collected rfl
  refine ⟨hp.heap.sound ?_, hq.heap.sound fun _ _ => hq.toAlike.mentions, fun n hn => ?_⟩
  · rintro v slot (hv | ⟨e, rfl, hv⟩) hslot
    · exact hp.toAlike.mentions hv hslot
    · cases hx with
      | some hx => exact hx.mentions hv hslot
  obtain ⟨r, hqr, hr⟩ : ∃ r, q ≤ r ∧ n.Halted (.alone s.functions.length) r n := by
    have ho := executeNext_agrees s.bytecode _ _ hq
    rcases hn with ⟨y, hn⟩ | ⟨e, hn⟩
    · rw [hn] at ho
      cases ho with
      | ok hqr hr => exact ⟨_, hqr, hr.toHalted⟩
    · rw [hn] at ho
      cases ho with
      | error e hqr hr => exact ⟨_, hqr, hr⟩
  refine ⟨hr.heap.sound fun _ _ => hr.toAlike.mentions, fun slot hslot => ?_⟩
  obtain ⟨y, hy⟩ := hq.heap.reaches (fun _ _ => hq.toAlike.mentions) hslot
  exact (hr.heap.symm_cells (hqr hy)).1

/-- The input `[1]` of a run that collects before every instruction survives the first
collection. -/
theorem Script.Visits.input_survives :
    let s : Script := ⟨"main.py", "", ["x"], ["f"], ⟨#[], ["f", "x"]⟩⟩
    let budget := Budget.ofLimits { Limits.none with gcInterval := some 1 }
    let heap : Heap := ⟨#[some ⟨.list #[.int 1], 136⟩], [], 1,
      { budget with memory := 136, allocations := 1 }⟩
    let m := Script.begin heap #[.external 0, .ref 0] false .collector
    s.Visits [.list [.int 1]] budget none m ∧ m.ticked.heap.shouldCollect = true ∧
      m.ticked.collected.heap.cell? 0 ≠ none := by
  intro s budget heap m
  have hm : s.Visits [.list [.int 1]] budget none m := .start false .collector rfl
  have hdue : m.ticked.heap.shouldCollect = true := by decide
  have hheld : m.ticked.collected.Holds (.ref 0) := by
    rw [collected, if_pos hdue]
    exact .global (Array.mem_of_getElem? (i := 1) rfl)
  exact ⟨hm, hdue, hm.no_dangling.2.1.live (.held hheld (.ref 0))⟩

end Resumable
