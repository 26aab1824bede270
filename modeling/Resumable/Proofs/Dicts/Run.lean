import Resumable.Proofs.Collection
import Resumable.Proofs.Dicts.Equality
import Resumable.Proofs.Dicts.Filling
import Resumable.Proofs.Dicts.Instruction
import Resumable.Proofs.Memory

/-!
# Dicts on the way of a run

Every heap of every run is tidy (`Script.Throughout.tidy`). One move puts pairs into a dict that the
program can still reach, or takes entries out of it (`Script.Moves.dicts`). So the keys of a dict
stand in the order in which they came in since they were last missing: `Script.Retains.leads`.
-/

namespace Resumable

/-! ## Collections -/

namespace Heap

variable {h k : Heap} {held : Value → Prop} {vs : List Value} {x : Nat}

theorem tidy_ofBudget (b : Budget) : (ofBudget b).Tidy where
  exact := exact_ofBudget b
  lawful x c hc := by simp [cell?, ofBudget] at hc

theorem Tidy.collect (hh : h.Tidy) (vs : List Value) : (h.collect vs).Tidy where
  exact := hh.exact.collect vs
  lawful x c hc := by
    have hcell : (h.collect vs).cell? x = _ := cell?_sweep _ _ x
    rw [Option.mem_def, hcell] at hc
    split at hc
    · cases hc
    · exact hh.lawful x c hc

/-- What can be reached from the roots is kept, whatever the budget is. -/
theorem Reaches.kept (hx : h.Reaches held x) (hcells : ∀ x, k.cell? x = h.cell? x)
    (hheld : ∀ v y, held v → v.Mentions y → v ∈ vs) : k.Kept vs x := by
  induction hx with
  | held hv hx => exact kept_of_mentions (hheld _ _ hv hx) hx
  | through _ hc hy ih => exact ih.through ((hcells _).trans hc) hy

end Heap

/-! ## Machines -/

namespace Machine

variable {code : Bytecode} {m n : Machine} {id : Nat}

theorem tidy_ticked (hm : m.heap.Tidy) : m.ticked.heap.Tidy :=
  ⟨⟨hm.exact.nodup, hm.exact.mem_free⟩, hm.lawful⟩

theorem tidy_due (hm : m.heap.Tidy) : m.due.heap.Tidy := by
  unfold due collected
  split
  · exact (tidy_ticked hm).collect _
  · exact tidy_ticked hm

/-- The cells that a program can still reach are there after a collection. -/
theorem cell?_due (hid : m.heap.Reaches m.Holds id) : m.due.heap.cell? id = m.heap.cell? id := by
  unfold due collected
  split
  · have hkept : m.ticked.heap.Kept m.ticked.roots id :=
      hid.kept (fun _ => rfl) fun v x hv hx => hv.mem_roots hx
    exact Heap.cell?_collect hkept
  · rfl

/-- What an instruction does to dicts after it has been counted. -/
theorem changes_advance (code : Bytecode) (m : Machine) :
    match advance code m with
    | .next n | .exit _ n => m.due.heap.Changes n.heap
    | .failed _ n => n.heap = m.ticked.heap ∨ m.due.heap.Changes n.heap
    | .endless => True := by
  have hends := executeNext_changes code m.due
  rw [advance_eq, step_eq]
  cases htick : m.heap.budget.tick.2 with
  | some e =>
    dsimp only
    rw [ofLimit_of_not_catchable (not_isCatchable_tick htick)]
    exact .inl rfl
  | none =>
    change match Advance.ofResult code (executeNext code m.due) with
      | .next n | .exit _ n => m.due.heap.Changes n.heap
      | .failed _ n => n.heap = m.ticked.heap ∨ m.due.heap.Changes n.heap
      | .endless => True
    unfold AlongAt at hends
    generalize executeNext code m.due = r at hends ⊢
    unfold Advance.ofResult
    match r with
    | .ok none n => exact hends
    | .ok (some x) n => exact hends
    | .error (.raised e) n =>
      have hends : m.due.heap.Changes n.heap := hends
      cases hunwind : n.unwind code e with
      | ok k =>
        simp only [hunwind]
        exact (caught_of_unwind hunwind).heap ▸ hends
      | error e' =>
        simp only [hunwind]
        exact .inr hends
    | .error (.overrun e) n => exact .inr hends
    | .error .endless n => trivial
    | .error .stuck n => trivial

/-- One machine comes of another one by a change of dicts: pairs are put into those that the program
can still reach, or entries are taken out of them. -/
def Carries (m n : Machine) : Prop :=
  n.heap.Tidy ∧ ∀ id d, m.heap.Reaches m.Holds id → m.heap.cell? id = some (.dict d) →
    ∃ d', n.heap.cell? id = some (.dict d') ∧ (d.Gains d' ∨ d.Loses d')

theorem carries_of_changes {h : Heap} (hh : h.Tidy)
    (hcells : ∀ id, m.heap.Reaches m.Holds id → h.cell? id = m.heap.cell? id)
    (hchanges : h.Changes n.heap) : m.Carries n := by
  rcases hchanges with hgains | hloses
  · obtain ⟨hn, hdicts⟩ := hgains hh
    refine ⟨hn, fun id d hid hd => ?_⟩
    obtain ⟨d', hd', hchange⟩ := hdicts id d ((hcells id hid).trans hd)
    exact ⟨d', hd', .inl hchange⟩
  · obtain ⟨hn, hdicts⟩ := hloses hh
    refine ⟨hn, fun id d hid hd => ?_⟩
    obtain ⟨d', hd', hchange⟩ := hdicts id d ((hcells id hid).trans hd)
    exact ⟨d', hd', .inr hchange⟩

end Machine

/-! ## Answers -/

namespace Paused

open Machine

variable {p : Paused} {m n : Machine}

/-- An answer changes no dict. -/
theorem alters_receive (p : Paused) (a : Answer) (m : Machine) :
    match p.receive a m with
    | .ok n | .error (_, n) => m.heap.Alters Dict.Gains n.heap := by
  have raise : ∀ (l : Machine) (e : Raised), m.heap.Alters Dict.Gains l.heap →
      match (l.answerException p.script.bytecode e).mapError (·, l) with
      | .ok n | .error (_, n) => m.heap.Alters Dict.Gains n.heap := by
    intro l e hl
    cases hraise : l.answerException p.script.bytecode e with
    | ok n =>
      change m.heap.Alters Dict.Gains n.heap
      rwa [(caught_of_answerException hraise).1]
    | error e' => exact hl
  have still : m.heap.Alters Dict.Gains m.heap := refl _
  cases a with
  | later =>
    simp only [receive, answerLater]
    cases m.pendingCall with
    | none => exact still
    | some call => exact still
  | exception type message limit => exact raise m _ still
  | value o =>
    have hends := onHeap_along (Heap.ofObject_plain o).alters (P := Heap.Alters Dict.Gains) m
    unfold receive AlongAt at *
    simp only
    generalize onHeap (Heap.ofObject o) m = r at hends ⊢
    cases r with
    | ok v l => exact hends
    | error f l =>
      cases f with
      | overrun e => exact hends
      | raised e => exact raise l _ hends
      | endless => exact raise l _ hends
      | stuck => exact raise l _ hends

theorem alters_toFutures {done futures : List (Nat × Future)} {results : List (Nat × Answer)}
    (h : p.toFutures m done results = .ok (futures, n)) : m.heap.Alters Dict.Gains n.heap := by
  induction results generalizing m done with
  | nil => cases h; exact refl _
  | cons result results ih =>
    obtain ⟨id, a⟩ := result
    cases a with
    | later => exact ih h
    | exception type message limit => exact ih h
    | value o =>
      have hends := onHeap_along (Heap.ofObject_plain o).alters (P := Heap.Alters Dict.Gains) m
      unfold AlongAt at hends
      rw [toFutures] at h
      generalize onHeap (Heap.ofObject o) m = r at hends h
      cases r with
      | ok v l => exact IsTrans.trans _ _ _ hends (ih h)
      | error f l => cases h

theorem alters_receiveAll {pending : List Nat} {results : List (Nat × Answer)} :
    ∀ {received}, p.receiveAll pending results m = .ok received →
      match received with
      | .ok n | .error (_, n) => m.heap.Alters Dict.Gains n.heap := by
  intro received h
  unfold receiveAll at h
  split at h
  · cases h
  · split at h
    · cases h
    · next futures l hfutures =>
      cases h
      have hevolves := alters_toFutures hfutures
      cases hresolve : l.resolve futures with
      | error e => exact hevolves
      | ok k =>
        have hheap := (heap_setFutures futures l).1
        rw [← resolve_eq_of_ok hresolve] at hheap
        change m.heap.Alters Dict.Gains k.heap
        rwa [hheap]

end Paused

/-! ## Runs -/

namespace Script

open Machine

variable {s : Script} {inputs : List Object} {budget : Budget} {x y : Option Stop} {m n : Machine}

theorem Moves.carries (h : s.Moves x m y n) (hm : m.heap.Tidy) : m.Carries n := by
  have due : m.due.heap.Changes n.heap → m.Carries n :=
    carries_of_changes (tidy_due hm) fun _ => cell?_due
  have answered : m.heap.Alters Dict.Gains n.heap → m.Carries n := fun hgains =>
    carries_of_changes hm (fun _ _ => rfl) (.inl hgains)
  cases h with
  | next hadvance =>
    have hchanges := changes_advance s.bytecode m
    rw [hadvance] at hchanges
    exact due hchanges
  | exit hadvance =>
    have hchanges := changes_advance s.bytecode m
    rw [hadvance] at hchanges
    exact due hchanges
  | fail hadvance =>
    have hchanges := changes_advance s.bytecode m
    rw [hadvance] at hchanges
    rcases hchanges with hheap | hchanges
    · exact carries_of_changes (tidy_ticked hm) (fun _ _ => rfl) (hheap ▸ refl _)
    · exact due hchanges
  | answer a traced writer _ hreceive =>
    have hgains := (s.pause m).alters_receive a ((s.pause m).machine traced writer)
    rw [hreceive] at hgains
    exact answered hgains
  | refuse a traced writer _ hreceive =>
    have hgains := (s.pause m).alters_receive a ((s.pause m).machine traced writer)
    rw [hreceive] at hgains
    exact answered hgains
  | resolve results traced writer hreceive => exact answered (Paused.alters_receiveAll hreceive)
  | reject results traced writer hreceive => exact answered (Paused.alters_receiveAll hreceive)
  | reload codec clock traced writer _ hp =>
    obtain rfl := Paused.eq_of_reload hp
    exact carries_of_changes (h := { m.heap with budget := m.heap.budget.restart clock })
      ⟨⟨hm.exact.nodup, hm.exact.mem_free⟩, hm.lawful⟩ (fun _ _ => rfl) (.inl (refl _))
  | unattended _ hraise =>
    refine answered ?_
    rw [(caught_of_answerException hraise).1]
    exact refl _

theorem tidy_globals {heap : Heap} {globals : Array Value}
    (h : s.globals inputs budget = .ok (heap, globals)) : heap.Tidy := by
  have hends := (Heap.ofObjects_plain [] inputs).alters (R := Eq) (Heap.ofBudget budget)
  unfold AlongAt at hends
  unfold Script.globals at h
  split at h
  · cases h
  · generalize Heap.ofObjects [] inputs (.ofBudget budget) = r at hends h
    cases r with
    | error e k => cases h
    | ok values k =>
      cases h
      exact (hends (Heap.tidy_ofBudget budget)).1

/-- Every heap of every run is tidy. -/
theorem Throughout.tidy {P : Machine → Prop} (h : s.Throughout inputs budget P x m) :
    m.heap.Tidy := by
  induction h with
  | start traced writer hglobals => exact tidy_globals hglobals
  | move _ hmove _ ih => exact (hmove.carries ih).1

/-! ### The order of keys -/

/-- A part of a run on which the program can reach the dict in a slot, and a key stays in it. -/
inductive Retains (s : Script) (id : Nat) (a : Key) (x : Option Stop) (m : Machine) :
    Option Stop → Machine → Prop
  | stay {d} : m.heap.cell? id = some (.dict d) → a ∈ d.keys → Retains s id a x m x m
  | move {y z n k d} : Retains s id a x m y n → n.heap.Reaches n.Holds id → s.Moves y n z k →
      k.heap.cell? id = some (.dict d) → a ∈ d.keys → Retains s id a x m z k

variable {id : Nat} {a b : Key} {d d' : Dict}

/-- A key that stays does so in front of the keys that it has been in front of and of those that
have been missing. The induction carries that the heap is tidy. -/
theorem Retains.leads (h : s.Retains id a x m y n) (hm : m.heap.Tidy)
    (hd : m.heap.cell? id = some (.dict d)) (hab : d.Leads a b) :
    n.heap.Tidy ∧ ∃ d', n.heap.cell? id = some (.dict d') ∧ a ∈ d'.keys ∧ d'.Leads a b := by
  induction h with
  | stay hd' ha =>
    rw [hd] at hd'
    cases hd'
    exact ⟨hm, d, hd, ha, hab⟩
  | move _ hreach hmove hd' ha' ih =>
    obtain ⟨hn, e, he, ha, hleads⟩ := ih
    obtain ⟨hk, hdicts⟩ := hmove.carries hn
    obtain ⟨e', he', hchange⟩ := hdicts id e hreach he
    rw [hd'] at he'
    cases he'
    exact ⟨hk, _, hd', ha', hleads.keep (hn.lawful id _ he) hchange ha ha'⟩

/-- In every heap of a run dicts are maps from keys to values, and what is iterated over has the
keys in order. Pairs come into them in their order, and of two keys the one that has been there
longer is the first. On values that are built without numbers, equality is an equivalence. -/
theorem Throughout.dicts_ordered (h : s.Throughout inputs budget (fun _ => True) x m) :
    (∀ id d, m.heap.cell? id = some (.dict d) →
      d.Lawful ∧ (∀ e ∈ d.entries.toList, d.get? e.key = some e.value) ∧
      ∃ names, m.heap.items? (.ref id) = some names ∧
        names.toList.mapM Key.ofValue = .ok d.keys) ∧
    (∀ y n, s.Moves x m y n → m.Carries n) ∧
    (∀ id a b y n d d', s.Retains id a x m y n → m.heap.cell? id = some (.dict d) →
      n.heap.cell? id = some (.dict d') → d.Leads a b → d'.Leads a b) ∧
    (∀ (d d' : Dict) (pairs : List (Value × Value)), d.putAll pairs = .ok d' →
      (d.Lawful → d'.Lawful) ∧ d.labels <+: d'.labels ∧
      ∃ put, pairs.mapM (fun pair => Key.ofValue pair.1) = .ok put ∧
        d'.keys = d.keys ++ (put.removeAll d.keys).eraseDups) ∧
    (∀ k : Heap, k.Exact → k.FillsInOrder) ∧
    (∀ u, m.heap.Built u → m.heap.equal? u u = some true ∧ m.heap.Regular u) := by
  have hm := h.tidy
  refine ⟨fun id d hd => ?_, fun y n hmove => hmove.carries hm, ?_, fun d d' pairs hput => ?_,
    fun k hk => Heap.fillsInOrder hk, fun u hu => ⟨hu.equal?_self, hu.regular hm.lawful⟩⟩
  · have hlawful : d.Lawful := hm.lawful id _ hd
    refine ⟨hlawful, fun e he => hlawful.get?_eq_some_iff.mpr ⟨e, he, rfl, rfl⟩, d.names, ?_,
      hlawful.mapM_names⟩
    rw [Heap.items?, hd]
  · intro id a b y n d d' hretains hd hd' hab
    obtain ⟨-, e, he, -, hleads⟩ := hretains.leads hm hd hab
    rw [hd'] at he
    cases he
    exact hleads
  · have hgains : d.Gains d' := ⟨pairs, hput⟩
    exact ⟨fun hd => hd.gains hgains, hgains.labels_prefix, Dict.keys_putAll hput⟩

/-- A script that puts a value under a key into a dict. The operands are its inputs. -/
def assigning : Script :=
  ⟨"main.py", "", ["x", "y", "k", "v"], [],
    ⟨#[{ name := "<module>"
         instrs := #[⟨.loadGlobal 3, .unknown⟩, ⟨.loadGlobal 0, .unknown⟩,
           ⟨.loadGlobal 2, .unknown⟩, ⟨.storeSubscript, .unknown⟩]
         pool := .empty
         locals := []
         paramCount := 0 }], ["x", "y", "k", "v"]⟩⟩

/-- The inputs `{b'1': None}`, `{b'2': None, b'1': None}`, `b'2'` and `None`. -/
def assigningInputs : List Object :=
  [.dict [(.bytes [49], .none)], .dict [(.bytes [50], .none), (.bytes [49], .none)], .bytes [50],
    .none]

/-- The entry of a key of one byte. -/
def noneUnder (byte : UInt8) : Entry := ⟨.bytes [byte], .bytes [byte], .none⟩

/-- A run of the script with these inputs, after some instructions. -/
def assigningAt (first : Dict) (next : Nat) (stack : List Value) : Machine :=
  let second : Dict := ⟨#[noneUnder 50, noneUnder 49]⟩
  let cells := #[some ⟨.dict first, 184 + 48 * (first.size - 1)⟩, some ⟨.dict second, 280⟩]
  let m := begin ⟨cells, [], 2, .free⟩ #[.ref 0, .ref 1, .bytes [50], .none] false .collector
  { m with frame := { m.frame with next }, stack }

theorem throughout_assigning : assigning.Throughout assigningInputs .free (fun _ => True) none
    (assigningAt ⟨#[noneUnder 49]⟩ 0 []) :=
  .start false .collector (by with_unfolding_all rfl) trivial

theorem moves_assigning :
    let m := assigningAt ⟨#[noneUnder 49]⟩
    assigning.Moves none (m 0 []) none (m 1 [.none]) ∧
    assigning.Moves none (m 1 [.none]) none (m 2 [.ref 0, .none]) ∧
    assigning.Moves none (m 2 [.ref 0, .none]) none (m 3 [.bytes [50], .ref 0, .none]) ∧
    assigning.Moves none (m 3 [.bytes [50], .ref 0, .none]) none
      (assigningAt ⟨#[noneUnder 49, noneUnder 50]⟩ 4 []) :=
  ⟨.next rfl, .next rfl, .next rfl, .next (by with_unfolding_all rfl)⟩

/-- The key that comes into the one dict stays behind the key that was there before, although it is
the first one of the other dict. The dicts are equal, in either order. -/
theorem Throughout.dicts_ordered_assigning :
    let d : Dict := ⟨#[noneUnder 49, noneUnder 50]⟩
    let n := assigningAt d 4 []
    assigning.Throughout assigningInputs .free (fun _ => True) none n ∧
      [Key.bytes [49], .bytes [50]].Sublist d.keys ∧
      n.heap.equal? (.ref 0) (.ref 1) = some true ∧
      n.heap.equal? (.ref 1) (.ref 0) = some true := by
  intro d n
  obtain ⟨move₁, move₂, move₃, move₄⟩ := moves_assigning
  have h₀ := throughout_assigning
  have h₄ := (((h₀.move move₁ trivial).move move₂ trivial).move move₃ trivial).move move₄ trivial
  obtain ⟨-, -, hleads, -, -, -⟩ := h₀.dicts_ordered
  obtain ⟨-, -, -, -, -, hequal⟩ := h₄.dicts_ordered
  have hreach (next : Nat) (stack : List Value) :
      (assigningAt ⟨#[noneUnder 49]⟩ next stack).heap.Reaches
        (assigningAt ⟨#[noneUnder 49]⟩ next stack).Holds 0 :=
    .held (v := .ref 0) (.global ⟨.head _⟩) (.ref 0)
  have hretains : assigning.Retains 0 (.bytes [49]) none (assigningAt ⟨#[noneUnder 49]⟩ 0 [])
      none n :=
    .move (.move (.move (.move (.stay rfl (.head _)) (hreach 0 _) move₁ rfl (.head _)) (hreach 1 _)
      move₂ rfl (.head _)) (hreach 2 _) move₃ rfl (.head _)) (hreach 3 _) move₄ rfl (.head _)
  have hbuilt : n.heap.Built (.ref 0) :=
    .dict rfl fun e he => by
      have he : e ∈ [noneUnder 49, noneUnder 50] := he
      have hvalue : e.value = .none := by
        rcases List.mem_pair.mp he with rfl | rfl <;> rfl
      exact hvalue ▸ .leaf rfl
  have hanswer : n.heap.equal? (.ref 0) (.ref 1) = some true := by with_unfolding_all rfl
  refine ⟨h₄, ?_, hanswer, ((hequal _ hbuilt).2.symm _).trans hanswer⟩
  refine hleads 0 _ (.bytes [50]) none n _ d hretains rfl rfl ?_ ?_
  · intro hb
    simp [Dict.keys, noneUnder] at hb
  · exact .tail _ (.head _)

end Script

end Resumable
