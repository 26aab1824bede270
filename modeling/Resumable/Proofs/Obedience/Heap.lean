import Resumable.Format
import Resumable.Heap.Iteration
import Resumable.Operation.Sorting
import Resumable.Proofs.Dicts.Basic
import Resumable.Proofs.Obedience.Basic

/-!
# The heap obeys its budget

Every allocation is charged before it is made. What is put into a container is charged once for each
item; that happens before or after the change, so the charges and the change are taken together.
What only looks at the heap gives the same under every budget.
-/

namespace Resumable.Heap

variable {α : Type}

/-! ## Charges -/

theorem charge_course (bytes : Nat) (h : Heap) :
    Course h (charge bytes) [.charge bytes] (.ok () h) where
  granted {b b'} hb := by
    change (withinLimit (b.allocate bytes) >>= fun budget => modify fun h => { h with budget })
      (Funded.under h b) = _
    simp only [Budget.askAll, Budget.ask] at hb
    cases hc : b.allocate bytes with
    | error e => rw [hc] at hb; cases hb
    | ok c => rw [hc] at hb; cases hb; rfl
  refused {b e b'} hb := by
    refine ⟨h, ?_⟩
    change (withinLimit (b.allocate bytes) >>= fun budget => modify fun h => { h with budget })
      (Funded.under h b) = _
    simp only [Budget.askAll, Budget.ask] at hb
    cases hc : b.allocate bytes with
    | error e => rw [hc] at hb; cases hb; rfl
    | ok c => rw [hc] at hb; cases hb
  content e t h := by cases h

theorem charge_refused {bytes : Nat} {b : Budget} {e : LimitError} (h : Heap)
    (hb : b.ask (.charge bytes) = .error e) :
    charge bytes (Funded.under h b) = .error (.ofLimit e) (Funded.under h b) := by
  change (withinLimit (b.allocate bytes) >>= fun budget => modify fun h => { h with budget })
    (Funded.under h b) = _
  rw [show b.allocate bytes = .error e from hb]
  rfl

/-- A question that is no charge changes nothing. -/
theorem question_obedient {q : Query} {check : Budget → Except LimitError Unit}
    (hq : ∀ b, b.ask q = (check b).map fun _ => b) (hcharge : ∀ bytes, q ≠ .charge bytes) :
    Obedient (do withinLimit (check (← get).budget) : Action Unit) := by
  intro h
  have hcourse : Course h (do withinLimit (check (← get).budget)) [q] (.ok () h) := {
    granted := fun {b b'} hb => by
      change withinLimit (check b) (Funded.under h b) = _
      simp only [Budget.askAll, hq] at hb
      cases hc : check b with
      | error e => rw [hc] at hb; cases hb
      | ok _ => rw [hc] at hb; cases hb; rfl
    refused := fun {b e b'} hb => by
      refine ⟨h, ?_⟩
      change withinLimit (check b) (Funded.under h b) = _
      simp only [Budget.askAll, hq] at hb
      cases hc : check b with
      | error e => rw [hc] at hb; cases hb; rfl
      | ok _ => rw [hc] at hb; cases hb
    content := fun e t h => by cases h }
  refine ⟨_, _, .of_question hcourse hcharge fun b e hb => ?_⟩
  change withinLimit (check b) (Funded.under h b) = _
  rw [hq] at hb
  cases hc : check b with
  | error e' => rw [hc] at hb; cases hb; rfl
  | ok _ => rw [hc] at hb; cases hb

theorem checkResult_obedient (bytes : Nat) : Obedient (checkResult bytes) :=
  question_obedient (q := .result bytes) (fun _ => rfl) nofun

theorem checkDepth_obedient (depth : Nat) :
    Obedient (do withinLimit ((← get).budget.checkDepth depth) : Action Unit) :=
  question_obedient (q := .depth depth) (fun _ => rfl) nofun

theorem alloc_obedient (c : Cell) : Obedient (alloc c) := by
  intro h
  let counted : Heap := { h with recent := h.recent + 1 }
  let put (h : Heap) : Value × Heap :=
    let placed := place { h with recent := h.recent + 1 } ⟨c, c.bytes⟩
    (.ref placed.1, placed.2)
  have hput : Course h (modifyGet put : Action Value) [] (.ok (put h).1 (put h).2) :=
    .change h fun b => by
      change (let r := place { { h with recent := h.recent + 1 } with budget := b } ⟨c, c.bytes⟩
        (Value.ref r.1, r.2)) = _
      rw [place_under]
      rfl
  have hnotes : Notes h (alloc c) [.charge c.bytes] (.ok (put h).1 (put h).2) := by
    refine .of_question ((charge_course c.bytes h).bind hput) ⟨fun x hx => ?_, fun hh => ?_⟩
      fun b e hb => bind_error (charge_refused h hb)
    · exact (noted_place counted ⟨c, c.bytes⟩).inUse x hx
    · exact (noted_place counted ⟨c, c.bytes⟩).ledger ⟨hh.nodup, hh.mem_free⟩
  refine ⟨_, _, .of_notes hnotes (fun hh => ?_) (fun hh => ?_) rfl trivial⟩
  · have hcounted : counted.Exact := ⟨hh.nodup, hh.mem_free⟩
    have hrecent : h.Grows 0 counted := .of_slots_eq rfl
    exact ⟨hcounted.place _, hrecent.trans (grows_place hcounted _)⟩
  · exact Covered.place (h := counted) hh c.leastBytes_le_bytes

/-! ## Plain actions

Most operations change nothing of what is there. They look at the heap, ask the budget, fail, and
allocate. -/

/-- An action made of looks at the heap, of questions about the size of a result, and of
allocations, those of dicts with lawful ones. -/
inductive Plain : {α : Type} → Action α → Prop
  | ret {α : Type} (a : α) : Plain (pure a)
  | fail {α : Type} {e : Failure} (he : e.IsOwn) : Plain (throw e : Action α)
  | bind {α β : Type} {x : Action α} {f : α → Action β} (hx : Plain x) (hf : ∀ a, Plain (f a)) :
      Plain (x >>= f)
  | read {α : Type} {f : Heap → Action α} (hf : ∀ h b, f (Funded.under h b) = f h)
      (h : ∀ h, Plain (f h)) : Plain (get >>= f)
  | checkResult (bytes : Nat) : Plain (checkResult bytes)
  | alloc {c : Cell} (hc : c.Lawful) : Plain (alloc c)

namespace Plain

variable {β : Type} {x y : Action α}

theorem obedient (hx : Plain x) : Obedient x := by
  induction hx with
  | ret a => exact .ret a
  | fail he => exact .fail he
  | bind _ _ ihx ihf => exact ihx.bind ihf
  | read hf _ ih => exact .read hf ih
  | checkResult bytes => exact checkResult_obedient bytes
  | @alloc c _ => exact alloc_obedient c

theorem map {f : α → β} (hx : Plain x) : Plain (f <$> x) := by
  rw [map_eq_pure_bind]
  exact hx.bind fun a => .ret (f a)

/-- A failure that says something about the heap. -/
theorem refuse {f : Heap → Failure} (hf : ∀ h b, f (Funded.under h b) = f h)
    (hown : ∀ h, (f h).IsOwn) : Plain (do throw (f (← get)) : Action α) :=
  .read (fun h b => congrArg throw (hf h b)) fun h => .fail (hown h)

theorem fork {c : Prop} [Decidable c] (hx : c → Plain x) (hy : ¬ c → Plain y) :
    Plain (if c then x else y) := by
  by_cases hc : c
  · rw [if_pos hc]
    exact hx hc
  · rw [if_neg hc]
    exact hy hc

theorem mapM {τ : Type} {f : τ → Action β} (hf : ∀ a, Plain (f a)) (xs : List τ) :
    Plain (xs.mapM f) := by
  induction xs with
  | nil => exact .ret []
  | cons a xs ih =>
    rw [List.mapM_cons]
    exact (hf a).bind fun _ => ih.bind fun _ => .ret _

end Plain

theorem checkLarge_plain (bytes : Nat) : Plain (checkLarge bytes) :=
  .fork (fun _ => .checkResult bytes) fun _ => .ret ()

theorem allocList_plain (items : Array Value) : Plain (allocList items) := .alloc trivial

/-! ## Changes of containers

A container that grows has a slot in use, and so have the charges for what is put into it. -/

/-- From every heap in which the slot is in use, the action has a course and pays for what it
adds. -/
def ObedientOn (id : Nat) (x : Action α) : Prop :=
  ∀ h : Heap, (h.cell? id).isSome → ObedientAt h x

namespace ObedientOn

variable {β : Type} {id : Nat} {x y : Action α} {f : α → Action β}

theorem of (hx : Obedient x) : ObedientOn id x := fun h _ => hx h

theorem ret (a : α) : ObedientOn id (pure a) := .of (.ret a)

theorem bind (hx : ObedientOn id x) (hf : ∀ a, ObedientOn id (f a)) : ObedientOn id (x >>= f) :=
  fun h hid => (hx h hid).bind fun a k hk => hf a k (hk id hid)

theorem forM {τ : Type} {g : τ → Action Unit} (h : ∀ a, ObedientOn id (g a)) (xs : List τ) :
    ObedientOn id (xs.forM g) := by
  induction xs with
  | nil => exact .of (.ret ())
  | cons a xs ih => exact (h a).bind fun _ => ih

end ObedientOn

section
variable {id n : Nat}

/-- A change of one slot that does not look at the budget. -/
theorem alter_course (id : Nat) (f : Slot → Slot) (h : Heap) :
    Course h (modify fun h => { h with slots := h.slots.modify id (Option.map f) } : Action Unit)
      [] (.ok () (h.alter id f)) :=
  .change h (g := fun h => ((), h.alter id f)) fun _ => rfl

theorem modifyCell_notes (id : Nat) (f : Cell → Cell) (h : Heap) :
    Notes h (modifyCell id f) [] (.ok () (h.alter id (·.map f))) :=
  .of_silent (alter_course id _ h) (noted_alter_zero fun _ => rfl)

theorem chargeInsert_notes {h : Heap} (hid : (h.cell? id).isSome) :
    Notes h (chargeInsert id) [.charge Cell.valueBytes]
      (.ok () (h.alter id (·.charge Cell.valueBytes))) :=
  .of_question ((charge_course _ h).bind (alter_course id _ h)) (noted_alter hid fun _ _ => rfl)
    fun _ _ hb => bind_error (charge_refused h hb)

/-- Charges for as many items as a list has. -/
theorem chargeAll_notes (xs : List α) {h : Heap} (hid : (h.cell? id).isSome) :
    ∃ qs, Notes h (xs.forM fun _ => chargeInsert id) qs
        (.ok () (h.alter id (·.charge (xs.length * Cell.valueBytes)))) ∧
      charges qs = xs.length ∧ qs.any (·.isDepth) = false := by
  induction xs generalizing h with
  | nil =>
    refine ⟨[], ?_, rfl, rfl⟩
    rw [List.length_nil, Nat.zero_mul, alter_eq_self h id (f := (·.charge 0)) fun _ => rfl]
    exact .of_silent (.ret h ()) (.refl h)
  | cons _ xs ih =>
    have hone := chargeInsert_notes hid
    obtain ⟨qs, hrest, hn, hqs⟩ := ih (hone.noted.inUse id hid)
    refine ⟨[.charge Cell.valueBytes] ++ qs, ?_, ?_, hqs⟩
    · have hsum : h.alter id (·.charge ((xs.length + 1) * Cell.valueBytes)) =
          (h.alter id (·.charge Cell.valueBytes)).alter id
            (·.charge (xs.length * Cell.valueBytes)) := by
        rw [alter_alter]
        congr 1
        funext s
        simp only [Function.comp, Slot.charge, Nat.succ_mul]
        congr 1
        omega
      rw [List.length_cons, hsum]
      exact hone.bind hrest
    · rw [List.length_cons, ← hn, Nat.add_comm]
      exact charges_append _ qs

/-- A change that gives a slot at most `n` more items or entries, each of which is charged. -/
theorem pays_alter {x : Action α} {h : Heap} {qs : List Query} {f : Slot → Slot}
    {r : EStateM.Result Failure Heap α} (hx : Notes h x qs r) (hr : endState r = h.alter id f)
    (hn : charges qs = n) (hqs : qs.any (·.isDepth) = false)
    (hf : ∀ s, h.slot? id = some s → s.cell.Gains n (f s).cell)
    (hcharged : ∀ s, (f s).charged = s.charged + n * Cell.valueBytes)
    (hown : EndsOwn r) : ObedientAt h x := by
  refine ⟨qs, r, .of_notes hx ?_ (fun hh => ?_) hqs hown⟩
  · change Paid _ h (endState r)
    rw [hr]
    exact fun hh => ⟨hh.modify id f, hn ▸ grows_alter hf⟩
  · change (endState r).Covered
    rw [hr]
    exact hh.alter_of_gains hf hcharged

theorem modifyList_notes (id : Nat) (f : Array Value → Array Value) (h : Heap) :
    Notes h (modifyList id f) [] (.ok () (h.alter id (·.map (Cell.onList f)))) :=
  modifyCell_notes id (Cell.onList f) h

theorem modifyDict_notes (id : Nat) (f : Dict → Dict) (h : Heap) :
    Notes h (modifyDict id f) [] (.ok () (h.alter id (·.map (Cell.onDict f)))) :=
  modifyCell_notes id (Cell.onDict f) h

/-- A list that gets no longer needs no charge. -/
theorem modifyList_obedient (id : Nat) {f : Array Value → Array Value}
    (hf : ∀ items, (f items).size ≤ items.size) : Obedient (modifyList id f) := fun h =>
  pays_alter (n := 0) (modifyList_notes id f h) rfl rfl rfl
    (fun s _ => s.cell.gains_onList fun items _ => hf items) (fun _ => rfl) trivial

theorem modifyDict_obedient (id : Nat) {f : Dict → Dict} (hf : ∀ d, (f d).size ≤ d.size) :
    Obedient (modifyDict id f) := fun h =>
  pays_alter (n := 0) (modifyDict_notes id f h) rfl rfl rfl
    (fun s _ => s.cell.gains_onDict fun d _ => hf d) (fun _ => rfl) trivial

/-- A list that gets one more item, which has been charged. -/
theorem addOne_obedient (id : Nat) {f : Array Value → Array Value}
    (hf : ∀ items, (f items).size ≤ items.size + 1) :
    ObedientOn id (do chargeInsert id; modifyList id f) := fun h hid => by
  have hnotes := (chargeInsert_notes hid).bind (f := fun _ => modifyList id f)
    (modifyList_notes id f _)
  rw [alter_alter] at hnotes
  exact pays_alter (n := 1) hnotes rfl rfl rfl
    (fun s _ => s.cell.gains_onList fun items _ => hf items) (fun _ => rfl) trivial

/-- A list that gets some more items, which have been charged one by one. -/
theorem addAll_obedient (id : Nat) (more : Array Value) :
    ObedientOn id (do more.forM fun _ => chargeInsert id; modifyList id (· ++ more)) :=
  fun h hid => by
  obtain ⟨more⟩ := more
  obtain ⟨qs, hcharges, hn, hqs⟩ := chargeAll_notes more hid
  rw [List.forM_toArray' _ _ rfl]
  have hnotes := hcharges.bind (f := fun _ => modifyList id (· ++ more.toArray))
    (modifyList_notes id _ _)
  rw [alter_alter, List.append_nil] at hnotes
  exact pays_alter hnotes rfl hn hqs
    (fun s _ => s.cell.gains_onList fun items _ => by simp) (fun _ => rfl) trivial

end

/-! ## What only looks at the heap -/

section
variable (h : Heap) (b : Budget)

theorem cellObject_under (depth : Nat) (around : List Nat) (id : Nat) :
    cellObject { h with budget := b } depth around id = cellObject h depth around id := by
  induction depth generalizing around id with
  | zero => rfl
  | succ depth ih =>
    have inside : ∀ around, cellObject { h with budget := b } depth around =
        cellObject h depth around := fun around => funext (ih around)
    rw [cellObject, cellObject, inside]
    rfl

theorem toObject_under (v : Value) : toObject { h with budget := b } v = h.toObject v :=
  congrArg (fun cell => v.toObjectBy cell) (funext fun id => cellObject_under h b _ [] id)

theorem literal_under (v : Value) : literal { h with budget := b } v = h.literal v :=
  congrArg Object.literal (toObject_under h b v)

theorem text_under (v : Value) : text { h with budget := b } v = h.text v := by
  cases v with
  | str s => rfl
  | path p => rfl
  | _ => simp only [text, toObject_under]

theorem cellsEqual_under (steps : Nat) :
    cellsEqual { h with budget := b } steps = cellsEqual h steps := by
  induction steps with
  | zero => rfl
  | succ steps ih => rw [cellsEqual, cellsEqual, ih]; rfl

theorem equal?_under : equal? { h with budget := b } = h.equal? := by
  funext v w
  exact congrArg (fun cells => Value.equalBy cells v w) (cellsEqual_under h b _)

theorem compareCells_under (steps : Nat) :
    compareCells { h with budget := b } steps = compareCells h steps := by
  induction steps with
  | zero => rfl
  | succ steps ih =>
    funext x y
    simp only [compareCells, compareCellsBy, ih, equal?_under]
    rfl

theorem compare?_under (v w : Value) : compare? { h with budget := b } v w = h.compare? v w := by
  rw [compare?, compare?, equal?_under]
  exact congrArg (fun cells => Value.compareBy _ cells v w) (compareCells_under h b _)

theorem sorted_under (descending : Bool) (items : Array Value) :
    sorted { h with budget := b } descending items = h.sorted descending items := by
  have hbefore : comesBefore { h with budget := b } descending = h.comesBefore descending := by
    funext v w
    rw [comesBefore, comesBefore, compare?_under]
  simp only [sorted, hbefore]
  rfl

theorem body_under (f : FormatSpec) (v : Value) : f.body { h with budget := b } v = f.body h v := by
  simp only [FormatSpec.body, text_under]

end

/-- To look for the key of a value changes nothing. -/
theorem key_at {f : Key → Action α} (v : Value) (h : Heap) (hf : ∀ key, ObedientAt h (f key)) :
    ObedientAt h (key v >>= f) := by
  unfold key
  cases Key.ofValue v with
  | ok key => exact hf key
  | error part =>
    exact ⟨[], _, .of_idle (.read (fun _ => rfl) (.fail h nofun)) rfl fun _ => rfl⟩

theorem key_plain (v : Value) : Plain (key v) := by
  unfold key
  cases Key.ofValue v with
  | ok key => exact .ret key
  | error part => exact .refuse (fun _ _ => rfl) fun _ => rfl

/-- What comes behind a key may count on it to be the key of the value. -/
theorem key_bind_plain {f : Key → Action α} (v : Value)
    (hf : ∀ key, Key.ofValue v = .ok key → Plain (f key)) : Plain (key v >>= f) := by
  unfold key
  cases hkey : Key.ofValue v with
  | ok key => exact hf key hkey
  | error part =>
    change Plain (get >>= fun h => throw (Failure.typeError _))
    exact .read (fun _ _ => rfl) fun _ => .fail rfl

theorem items_plain (v : Value) : Plain (items v) := by
  refine .read (fun _ _ => rfl) fun h => ?_
  cases h.items? v with
  | some items => exact .ret items
  | none => exact .fail rfl

theorem equal_plain (v w : Value) : Plain (equal v w) := by
  refine .read (fun h b => ?_) fun h => ?_
  · simp only [equal?_under, Funded.under]
  · cases h.equal? v w with
    | some answer => exact .ret answer
    | none => exact .fail trivial

theorem isOwn_unordered (h : Heap) (e : Unordered) : (h.unordered e).IsOwn := by
  cases e with
  | nan => rfl
  | types v w => rfl
  | endless => trivial

theorem compare_plain (v w : Value) : Plain (compare v w) := by
  refine .read (fun h b => ?_) fun h => ?_
  · simp only [compare?_under, Funded.under]
    rfl
  · cases h.compare? v w with
    | ok ordering => exact .ret ordering
    | error e => exact .fail (h.isOwn_unordered e)

theorem isAmong_plain (item : Value) (items : List Value) : Plain (isAmong item items) := by
  refine .read (fun h b => ?_) fun h => ?_
  · simp only [equal?_under, Funded.under]
  · cases anyAnswer (fun v => h.equal? v item) items with
    | some answer => exact .ret answer
    | none => exact .fail trivial

/-! ## Iteration -/

theorem iterate_plain (v : Value) : Plain (iterate v) := by
  have copy : ∀ v : Value, Plain (do alloc (.iter (.items (← items v) 0))) := fun v =>
    (items_plain v).bind fun _ => .alloc trivial
  cases v with
  | range start stop step => exact .alloc trivial
  | ref id =>
    refine .read (fun _ _ => rfl) fun h => ?_
    cases h.cell? id with
    | none => exact copy (.ref id)
    | some c =>
      cases c with
      | list _ => exact .alloc trivial
      | dict _ => exact copy (.ref id)
      | iter _ => exact .ret _
  | _ => exact copy _

theorem leastBytes_advance {h : Heap} {state next : Iter} {item : Value}
    (hnext : h.advance state = some (item, next)) :
    (Cell.iter next).leastBytes = (Cell.iter state).leastBytes := by
  unfold advance at hnext
  split at hnext
  · obtain ⟨_, _, hpair⟩ := Option.map_eq_some_iff.mp hnext
    cases hpair
    rfl
  · split at hnext
    · obtain ⟨_, _, hpair⟩ := Option.map_eq_some_iff.mp hnext
      cases hpair
      rfl
    · cases hnext
  · obtain ⟨-, hpair⟩ := Option.ite_none_left_eq_some.mp hnext
    cases hpair
    rfl

theorem next_obedient (id : Nat) : Obedient (next id) := by
  refine .readAt (fun _ _ => rfl) fun h => ?_
  split
  · next state hstate =>
    split
    · next item next hnext =>
      refine ObedientAt.bind ?_ fun _ k _ => Obedient.ret _ k
      refine pays_alter (n := 0) (modifyCell_notes id _ h) rfl rfl rfl (fun s hs => ?_)
        (fun _ => rfl) trivial
      rw [cell?_eq_slot?, hs] at hstate
      have hcell : s.cell = .iter state := Option.some.inj hstate
      rw [hcell]
      exact ⟨Nat.le_refl _, (leastBytes_advance hnext).le⟩
    · exact Obedient.ret _ h
  · exact Obedient.ret _ h

/-! ## Objects -/

mutual

theorem ofObject_plain : (o : Object) → Plain (ofObject o)
  | .none | .ellipsis | .bool _ | .int _ | .float _ | .string _ | .bytes _ | .path _
  | .exception _ _ => .ret _
  | .tuple items => (ofObjects_plain [] items).bind fun _ => .ret _
  | .list items => (ofObjects_plain [] items).bind fun _ => allocList_plain _
  | .dict entries =>
    ofEntries_plain Dict.lawful_empty (fun _ hd => .alloc (c := .dict _) hd) entries
  | .namedTuple _ _ items => (ofObjects_plain [] items).bind fun _ => .ret _
  | .repr _ => .fail rfl

theorem ofObjects_plain (done : List Value) :
    (objects : List Object) → Plain (ofObjects done objects)
  | [] => .ret _
  | o :: rest => (ofObject_plain o).bind fun v => ofObjects_plain (v :: done) rest

/-- What comes behind the entries may count on a lawful dict. -/
theorem ofEntries_plain {d : Dict} (hd : d.Lawful) {f : Dict → Action Value}
    (hf : ∀ d : Dict, d.Lawful → Plain (f d)) :
    (entries : List (Object × Object)) → Plain (ofEntries d entries >>= f)
  | [] => hf d hd
  | (k, v) :: rest => by
    simp only [ofEntries, bind_assoc]
    refine (ofObject_plain k).bind fun name => (ofObject_plain v).bind fun value => ?_
    exact key_bind_plain name fun key hkey => ofEntries_plain (hd.insert hkey value) hf rest

end

/-! ## Formatting -/

theorem format_plain (v : Value) (spec : String) : Plain (format v spec) := by
  refine .read (fun h b => ?_) fun h => ?_
  · simp only [text_under, body_under, Funded.under]
    rfl
  · refine .fork (fun _ => .ret _) fun _ => ?_
    cases FormatSpec.parse spec.toList with
    | none => exact .fail (Failure.isOwn_exception _ _)
    | some f =>
      refine (checkLarge_plain f.requested).bind fun _ => ?_
      cases f.body h v with
      | none => exact .fail (Failure.isOwn_exception _ _)
      | some body => exact .ret _

end Resumable.Heap
