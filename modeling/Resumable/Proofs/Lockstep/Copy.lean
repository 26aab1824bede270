import Resumable.Proofs.Lockstep.Run

/-!
# Copies of host values

A host value takes slots of its own wherever it is made. Two copies of one object are alike by the
pairing of their slots, even if one of them has been made long before the other
(`Heap.Linked.catchUp`): until then, its cells are what the second heap keeps.
-/

namespace Resumable

open List (Forall₂)

variable {κ κ' : World} {p q r : Pairing}

namespace Pairing

/-- The pairs of two pairings that have no slot in common. -/
def union (p q : Pairing) (hleft : ∀ {x y z}, p.rel x y → ¬ q.rel x z)
    (hright : ∀ {x y z}, p.rel x z → ¬ q.rel y z) : Pairing where
  rel x y := p.rel x y ∨ q.rel x y
  unique_right := by
    rintro x y z (hy | hy) (hz | hz)
    · exact p.unique_right hy hz
    · exact (hleft hy hz).elim
    · exact (hleft hz hy).elim
    · exact q.unique_right hy hz
  unique_left := by
    rintro x y z (hx | hx) (hy | hy)
    · exact p.unique_left hx hy
    · exact (hright hx hy).elim
    · exact (hright hy hx).elim
    · exact q.unique_left hx hy

/-- The slots that two pairings pair with the same slot of a third heap. -/
def across (p q : Pairing) : Pairing where
  rel x y := ∃ z, p.rel z x ∧ q.rel z y
  unique_right := by
    rintro x y y' ⟨z, hx, hy⟩ ⟨z', hx', hy'⟩
    obtain rfl := p.unique_left hx hx'
    exact q.unique_right hy hy'
  unique_left := by
    rintro x x' y ⟨z, hx, hy⟩ ⟨z', hx', hy'⟩
    obtain rfl := q.unique_left hy hy'
    exact p.unique_right hx hx'

end Pairing

/-! ## What is alike to the same -/

mutual

theorem Value.Alike.across {u v w : Value} (h : u.Alike κ p v) (h' : u.Alike κ q w) :
    v.Alike κ (p.across q) w := by
  cases h with
  | ref h => cases h' with
    | ref h' => exact .ref ⟨_, h, h'⟩
  | tuple h => cases h' with
    | tuple h' => exact .tuple (AllAlike.across h h')
  | namedTuple type fields h => cases h' with
    | namedTuple _ _ h' => exact .namedTuple type fields (AllAlike.across h h')
  | function code h => cases h' with
    | function _ h' => exact .function code (AllAlike.across h h')
  | gather h => cases h' with
    | gather h' => exact .gather (AllAlike.across h h')
  | external h => cases h'; exact .external h
  | _ => cases h'; constructor

theorem AllAlike.across {us vs ws : List Value} (h : AllAlike κ p us vs)
    (h' : AllAlike κ q us ws) : AllAlike κ (p.across q) vs ws := by
  cases h with
  | nil => cases h'; exact .nil
  | cons h hs => cases h' with
    | cons h' hs' => exact .cons (h.across h') (AllAlike.across hs hs')

end

theorem Dict.Alike.across {c d e : Dict} (h : c.Alike κ p d) (h' : c.Alike κ q e) :
    d.Alike κ (p.across q) e := by
  unfold Dict.Alike at *
  generalize c.entries.toList = cs at h h'
  generalize d.entries.toList = ds at h ⊢
  generalize e.entries.toList = es at h' ⊢
  induction h generalizing es with
  | nil => cases h'; exact .nil
  | cons h _ ih => cases h' with
    | cons h' hs' =>
      refine .cons ⟨h.key.symm.trans h'.key, ?_, ?_⟩ (ih _ hs')
      · exact h.name.across h'.name
      · exact h.value.across h'.value

theorem Cell.Alike.across {b c d : Cell} (h : b.Alike κ p c) (h' : b.Alike κ q d) :
    c.Alike κ (p.across q) d := by
  cases h with
  | list h => cases h' with
    | list h' => exact .list (AllAlike.across h h')
  | dict h => cases h' with
    | dict h' => exact .dict (h.across h')
  | iter h => cases h' with
    | iter h' => cases h with
      | list position h => cases h' with
        | list _ h' => exact .iter (.list position ⟨_, h, h'⟩)
      | items position h => cases h' with
        | items _ h' => exact .iter (.items position (AllAlike.across h h'))
      | range next stop step => cases h'; exact .iter (.range next stop step)

/-! ## Copies -/

/-- Budgets that are free. -/
def Accounts.free : Accounts where
  budget b c := b = .free ∧ c = .free
  allocate := by rintro _ _ ⟨rfl, rfl⟩ n; exact .ok ⟨rfl, rfl⟩
  tick := by rintro _ _ ⟨rfl, rfl⟩; exact ⟨⟨rfl, rfl⟩, rfl⟩
  checkDepth := by rintro _ _ ⟨rfl, rfl⟩ n; rfl
  checkResult := by rintro _ _ ⟨rfl, rfl⟩ n; rfl

/-- A world in which values are compared and nothing else. -/
abbrev World.values : World := .plain .free fun _ => True

/-- The world of a heap that is filled and of one that holds some cells already. -/
def World.beside (k : Heap) : World where
  __ := World.values
  kept y c := k.cell? y = some c

theorem World.Within.values : κ.Within .values := ⟨fun _ => trivial, fun _ => trivial⟩

theorem World.Within.of_values (hexternal : ∀ i, κ.external i) (hfuture : ∀ id, κ.future id) :
    World.values.Within κ := ⟨fun _ => hexternal _, fun _ => hfuture _⟩

/-- An object that can become a value. -/
def Object.Convertible (o : Object) : Prop :=
  ∃ v h, Heap.ofObject o (.ofBudget .free) = .ok v h

/-- A value that an object has become, where `p` pairs the slots of a heap that holds nothing else
with those of some cells. -/
inductive Object.Copied (o : Object) (p : Pairing) (cells : Nat → Cell → Prop) (v : Value) : Prop
  | mk {w : Value} {h : Heap} (made : Heap.ofObject o (.ofBudget .free) = .ok w h)
      (value : w.Alike .values p v)
      (slots : ∀ {x y}, p.rel x y →
        ∃ c d, h.cell? x = some c ∧ cells y d ∧ c.Alike .values p d)

theorem Object.Copied.mono {o : Object} {cells cells' : Nat → Cell → Prop} {v : Value}
    (h : o.Copied p cells v) (hcells : ∀ {x y d}, p.rel x y → cells y d → cells' y d) :
    o.Copied p cells' v := by
  obtain ⟨made, value, slots⟩ := h
  refine ⟨made, value, fun hxy => ?_⟩
  obtain ⟨c, d, hc, hd, hcd⟩ := slots hxy
  exact ⟨c, d, hc, hcells hxy hd, hcd⟩

namespace Heap

/-- A heap with one more copy of an object: it holds what it held before, and the copy in slots
that were not in use. -/
structure Grown (o : Object) (k k' : Heap) (v : Value) (p : Pairing) : Prop where
  exact : k'.Exact
  budget : k'.budget = .free
  kept : ∀ {y c}, k.cell? y = some c → k'.cell? y = some c
  fresh : ∀ {x y}, p.rel x y → k.cell? y = none
  copied : o.Copied p (fun y c => k'.cell? y = some c) v

/-- An object that can become a value does so in every heap. -/
theorem ofObject_grown {o : Object} (ho : o.Convertible) {k : Heap} (hk : k.Exact)
    (hb : k.budget = .free) : ∃ v k' p, ofObject o k = .ok v k' ∧ Grown o k k' v p := by
  obtain ⟨w, h, hw⟩ := ho
  have hempty : (Heap.ofBudget .free).Paired (.beside k) .empty k :=
    ⟨⟨fun h => h.elim, fun hc => ⟨hc, fun _ h => h⟩, exact_ofBudget _, hk⟩, ⟨rfl, hb⟩,
      fun h => h.elim⟩
  have ha := ofObject_agrees .empty o _ _ hempty
  rw [hw] at ha
  revert ha
  generalize hv : ofObject o k = result
  intro ha
  cases ha with
  | @ok p _ k' _ v _ hp hwv =>
    refine ⟨v, k', p, rfl, hp.right, hp.budget.2, fun hc => (hp.kept hc).1, fun hxy => ?_, hw,
      hwv.transfer .values, fun hxy => ?_⟩
    · rw [Option.eq_none_iff_forall_ne_some]
      exact fun c hc => (hp.kept hc).2 _ hxy
    · obtain ⟨c, d, hc, hd, hcd⟩ := hp.cells hxy
      exact ⟨c, d, hc, hd, hcd.transfer .values⟩

/-- A copy is made in the second heap, which keeps it for the first one. -/
theorem Linked.goAhead {h k k' : Heap} (hl : Linked κ p h k) {o : Object} {w : Value}
    (hw : Grown o k k' w r) (hκ : κ.Within κ')
    (hkept : ∀ {y c}, κ'.kept y c → κ.kept y c ∨ (∃ x, r.rel x y) ∧ k'.cell? y = some c) :
    Linked κ' p h k' := by
  refine ⟨fun hxy => ?_, fun hc => ?_, hl.left, hw.exact⟩
  · obtain ⟨c, d, hc, hd, hcd⟩ := hl.cells hxy
    exact ⟨c, d, hc, hw.kept hd, hcd.transfer hκ⟩
  · rcases hkept hc with hc | ⟨⟨x, hxy⟩, hc⟩
    · exact ⟨hw.kept (hl.kept hc).1, (hl.kept hc).2⟩
    · refine ⟨hc, fun z hzy => (hl.symm_cells hzy).2 (hw.fresh hxy)⟩

/-- A copy that only the second heap had is made in the first one. -/
theorem Linked.catchUp {h h' k : Heap} (hl : Linked κ p h k) {o : Object} {v w : Value}
    (hv : Grown o h h' v q) {cells : Nat → Cell → Prop} (hw : o.Copied r cells w)
    (hcells : ∀ {y c}, cells y c → κ.kept y c) (hκ : κ.Within κ') (hvalues : World.values.Within κ')
    (hkept : ∀ {y c}, κ'.kept y c → κ.kept y c ∧ ∀ d, ¬ cells y d) :
    ∃ s, p ≤ s ∧ Linked κ' s h' k ∧ v.Alike κ' s w := by
  obtain ⟨made, hwv, slots⟩ := hv.copied
  obtain ⟨made', hww, slots'⟩ := hw
  obtain ⟨rfl, rfl⟩ : _ ∧ _ := EStateM.Result.ok.inj (made.symm.trans made')
  have hleft : ∀ {x y z}, p.rel x y → ¬ (q.across r).rel x z := by
    rintro x y z hxy ⟨u, hux, -⟩
    obtain ⟨c, -, hc, -⟩ := hl.cells hxy
    rw [hv.fresh hux] at hc
    cases hc
  have hright : ∀ {x y z}, p.rel x z → ¬ (q.across r).rel y z := by
    rintro x y z hxz ⟨u, -, huz⟩
    obtain ⟨-, d, -, hd, -⟩ := slots' huz
    exact (hl.kept (hcells hd)).2 x hxz
  let s := p.union (q.across r) hleft hright
  have hps : p ≤ s := fun _ _ h => .inl h
  have hacross : q.across r ≤ s := fun _ _ h => .inr h
  refine ⟨s, hps, ⟨?_, ?_, hv.exact, hl.right⟩, ((hwv.across hww).mono hacross).transfer hvalues⟩
  · rintro x y (hxy | ⟨u, hux, huy⟩)
    · obtain ⟨c, d, hc, hd, hcd⟩ := hl.cells hxy
      exact ⟨c, d, hv.kept hc, hd, (hcd.mono hps).transfer hκ⟩
    · obtain ⟨b, c, hb, hc, hbc⟩ := slots hux
      obtain ⟨b', d, hb', hd, hbd⟩ := slots' huy
      obtain rfl := Option.some.inj (hb.symm.trans hb')
      exact ⟨c, d, hc, (hl.kept (hcells hd)).1, ((hbc.across hbd).mono hacross).transfer hvalues⟩
  · intro y c hc
    obtain ⟨hk, hnot⟩ := hkept hc
    obtain ⟨hy, hunpaired⟩ := hl.kept hk
    refine ⟨hy, fun x => not_or.mpr ⟨hunpaired x, ?_⟩⟩
    rintro ⟨u, -, huy⟩
    obtain ⟨-, d, -, hd, -⟩ := slots' huy
    exact hnot d hd

end Heap

end Resumable
