import Resumable.Machine.Basic
import Resumable.Proofs.Obedience.Ledger

/-!
# Actions that obey their budget

A budget is asked before anything is allocated or put into a container, before a large result is
built, and before a function is entered. `Course s x qs r`: whatever budget the state `s` carries,
the action `x` asks it the questions `qs` one after the other. It fails with the first refusal, and
comes to the end `r` if there is none. An action that caught a refusal and went on would have no
course, because what it does would depend on its budget in another way.

`Notes s x qs r`: besides, the bytes that have been charged are noted at the slots they are for, at
the end as well as where a budget refuses. `Obedient` actions do so from every state, all that they
add to the heap is paid for, and no container comes to count for less than it holds.
-/

namespace Resumable

/-! ## Questions -/

/-- A question to a budget. -/
inductive Query where
  /-- May so many bytes be allocated, or put into a container? -/
  | charge (bytes : Nat)
  /-- May a result of so many bytes be built? -/
  | result (bytes : Nat)
  /-- May a function be entered while there are so many active calls? -/
  | depth (active : Nat)

/-- Questions about the depth of calls are the ones whose refusal can be caught. -/
def Query.isDepth : Query → Bool
  | .depth _ => true
  | _ => false

/-- The budget after a question, unless it refuses. -/
def Budget.ask (b : Budget) : Query → Except LimitError Budget
  | .charge bytes => b.allocate bytes
  | .result bytes => (b.checkResult bytes).map fun _ => b
  | .depth active => (b.checkDepth active).map fun _ => b

/-- The budget after some questions; or the first refusal, and the budget then. -/
def Budget.askAll (b : Budget) : List Query → Except (LimitError × Budget) Budget
  | [] => .ok b
  | q :: qs =>
    match b.ask q with
    | .ok b => b.askAll qs
    | .error e => .error (e, b)

/-- The number of questions that are charges. -/
def charges (qs : List Query) : Nat := qs.countP (· matches .charge _)

theorem charges_append (qs ps : List Query) : charges (qs ++ ps) = charges qs + charges ps :=
  List.countP_append

/-- The bytes that are asked for as charges. -/
def chargedBytes : List Query → Nat
  | [] => 0
  | .charge bytes :: qs => bytes + chargedBytes qs
  | _ :: qs => chargedBytes qs

theorem chargedBytes_append (qs ps : List Query) :
    chargedBytes (qs ++ ps) = chargedBytes qs + chargedBytes ps := by
  induction qs with
  | nil => exact (Nat.zero_add _).symm
  | cons q qs ih =>
    cases q with
    | charge bytes => simp only [List.cons_append, chargedBytes, ih, Nat.add_assoc]
    | _ => exact ih

theorem charges_of_ne {q : Query} (hq : ∀ bytes, q ≠ .charge bytes) : charges [q] = 0 := by
  cases q with
  | charge bytes => exact (hq bytes rfl).elim
  | _ => rfl

theorem chargedBytes_of_ne {q : Query} (hq : ∀ bytes, q ≠ .charge bytes) :
    chargedBytes [q] = 0 := by
  cases q with
  | charge bytes => exact (hq bytes rfl).elim
  | _ => rfl

theorem Budget.ask_of_askAll {b b' : Budget} {q : Query} {e : LimitError}
    (h : b.askAll [q] = .error (e, b')) : b.ask q = .error e ∧ b = b' := by
  simp only [askAll] at h
  cases hq : b.ask q with
  | ok c => rw [hq] at h; cases h
  | error e' => rw [hq] at h; cases h; exact ⟨rfl, rfl⟩

theorem Budget.askAll_append (b : Budget) (qs ps : List Query) :
    b.askAll (qs ++ ps) = b.askAll qs >>= fun b => b.askAll ps := by
  induction qs generalizing b with
  | nil => rfl
  | cons q qs ih =>
    rw [List.cons_append, askAll, askAll]
    cases b.ask q with
    | ok b => exact ih b
    | error e => rfl

theorem Budget.not_isCatchable_memoryAfter {b : Budget} {bytes : Nat} {e : LimitError}
    (h : b.memoryAfter bytes = .error e) : e.isCatchable = false := by
  unfold memoryAfter at h
  simp only at h
  split at h
  · split at h
    · cases h; rfl
    · cases h
  · cases h

theorem Budget.not_isCatchable_allocate {b : Budget} {bytes : Nat} {e : LimitError}
    (h : b.allocate bytes = .error e) : e.isCatchable = false := by
  have charge : ∀ count, allocate.charge b bytes count = .error e → e.isCatchable = false := by
    intro count h
    unfold allocate.charge at h
    split at h
    · cases h
    · next hm => cases h; exact not_isCatchable_memoryAfter hm
  unfold allocate at h
  split at h
  · cases h
  · simp only at h
    split at h
    · split at h
      · cases h; rfl
      · exact charge _ h
    · exact charge _ h

theorem Budget.not_isCatchable_checkResult {b : Budget} {bytes : Nat} {e : LimitError}
    (h : b.checkResult bytes = .error e) : e.isCatchable = false := by
  unfold checkResult at h
  split at h
  · cases h; rfl
  · split at h
    · cases h
    · cases hm : b.memoryAfter bytes with
      | ok used => rw [hm] at h; cases h
      | error e' => rw [hm] at h; cases h; exact not_isCatchable_memoryAfter hm

theorem Budget.not_isCatchable_ask {b : Budget} {q : Query} {e : LimitError}
    (hq : q.isDepth = false) (h : b.ask q = .error e) : e.isCatchable = false := by
  cases q with
  | charge bytes => exact not_isCatchable_allocate h
  | result bytes =>
    simp only [ask] at h
    cases hr : b.checkResult bytes with
    | ok _ => rw [hr] at h; cases h
    | error e' => rw [hr] at h; cases h; exact not_isCatchable_checkResult hr
  | depth active => cases hq

/-- Only a question about the depth of calls is refused in a way that can be caught. -/
theorem Budget.not_isCatchable_askAll {b b' : Budget} {qs : List Query} {e : LimitError}
    (hqs : qs.any (·.isDepth) = false) (h : b.askAll qs = .error (e, b')) :
    e.isCatchable = false := by
  induction qs generalizing b with
  | nil => cases h
  | cons q qs ih =>
    rw [List.any_cons, Bool.or_eq_false_iff] at hqs
    rw [askAll] at h
    cases hq : b.ask q with
    | ok c => rw [hq] at h; exact ih hqs.2 h
    | error e' => rw [hq] at h; cases h; exact not_isCatchable_ask hqs.1 hq

theorem Budget.limits_allocate {b b' : Budget} {bytes : Nat} (h : b.allocate bytes = .ok b') :
    b'.limits = b.limits := by
  have charge : ∀ count, allocate.charge b bytes count = .ok b' → b'.limits = b.limits := by
    intro count h
    unfold allocate.charge at h
    split at h
    · cases h; rfl
    · cases h
  unfold allocate at h
  split at h
  · cases h; rfl
  · simp only at h
    split at h
    · split at h
      · cases h
      · exact charge _ h
    · exact charge _ h

theorem Budget.limits_ask {b b' : Budget} {q : Query} (h : b.ask q = .ok b') :
    b'.limits = b.limits := by
  cases q with
  | charge bytes => exact limits_allocate h
  | result bytes =>
    simp only [ask] at h
    cases hr : b.checkResult bytes <;> rw [hr] at h <;> cases h
    rfl
  | depth active =>
    simp only [ask] at h
    cases hr : b.checkDepth active <;> rw [hr] at h <;> cases h
    rfl

/-- The budget after some questions, whether one has been refused or not. -/
def Budget.afterAsking (b : Budget) (qs : List Query) : Budget :=
  match b.askAll qs with
  | .ok b => b
  | .error (_, b) => b

theorem Budget.limits_afterAsking (b : Budget) (qs : List Query) :
    (b.afterAsking qs).limits = b.limits := by
  unfold afterAsking
  induction qs generalizing b with
  | nil => rfl
  | cons q qs ih =>
    rw [askAll]
    cases hq : b.ask q with
    | ok c => exact (ih c).trans (limits_ask hq)
    | error e => rfl

/-! ## Courses -/

/-- States that carry a budget in their heap. -/
class Funded (σ : Type) where
  /-- The state with another budget. -/
  under : σ → Budget → σ
  heap : σ → Heap
  under_self : ∀ s, under s (heap s).budget = s
  heap_under : ∀ s budget, heap (under s budget) = { heap s with budget }

instance : Funded Heap :=
  ⟨fun h budget => { h with budget }, id, fun _ => rfl, fun _ _ => rfl⟩

instance : Funded Machine :=
  ⟨fun m budget => { m with heap := { m.heap with budget } }, (·.heap), fun _ => rfl,
    fun _ _ => rfl⟩

open Funded (under)

/-- The state of an end. -/
def endState {σ α : Type} : EStateM.Result Failure σ α → σ
  | .ok _ s | .error _ s => s

/-- An end with another budget. -/
def endUnder {σ α : Type} [Funded σ] (r : EStateM.Result Failure σ α) (b : Budget) :
    EStateM.Result Failure σ α :=
  match r with
  | .ok a s => .ok a (under s b)
  | .error e s => .error e (under s b)

/-- States in which an exception may be on its way that has left frames before. -/
class Passing (σ : Type) [Funded σ] where
  reraising : σ → Bool
  reraising_under : ∀ s budget, reraising (under s budget) = reraising s

instance : Passing Heap := ⟨fun _ => false, fun _ _ => rfl⟩

instance : Passing Machine := ⟨(·.reraising), fun _ _ => rfl⟩

/-- What an action asks of its budget and comes to, from a state with any budget. -/
structure Course {σ α : Type} [Funded σ] (s : σ) (x : EStateM Failure σ α) (qs : List Query)
    (r : EStateM.Result Failure σ α) : Prop where
  granted : ∀ {b b'}, b.askAll qs = .ok b' → x (under s b) = endUnder r b'
  refused : ∀ {b e b'}, b.askAll qs = .error (e, b') →
    ∃ t, x (under s b) = .error (.ofLimit e) (under t b')
  /-- The action fails with a limit only where its budget refuses. -/
  content : ∀ e t, r ≠ .error (.overrun e) t

/-- An action has a course, and what it is charged for is noted at slots in use; what was granted
up to a refusal is noted as well. -/
structure Notes {σ α : Type} [Funded σ] (s : σ) (x : EStateM Failure σ α) (qs : List Query)
    (r : EStateM.Result Failure σ α) : Prop extends Course s x qs r where
  noted : (Funded.heap s).Noted (chargedBytes qs) (Funded.heap (endState r))
  stopped : ∀ {b e b'}, b.askAll qs = .error (e, b') → ∃ ps, b.askAll ps = .ok b' ∧
    (Funded.heap s).Noted (chargedBytes ps) (Funded.heap (endState (x (under s b))))

/-- So many charges pay for what has been added to a heap whose free list is exact. -/
def Paid (n : Nat) (h k : Heap) : Prop := h.Exact → k.Exact ∧ h.Grows n k

/-- Not the failure that a limit leads to, and no exception that has left a frame before. -/
def Failure.IsOwn : Failure → Prop
  | .raised e => e.traceback = []
  | .overrun _ => False
  | .endless | .stuck => True

theorem Failure.isOwn_exception (type : ExceptionType) (message : String) :
    (exception type message).IsOwn := rfl

theorem Failure.IsOwn.ne_overrun {f : Failure} (h : f.IsOwn) (e : LimitError) : f ≠ .overrun e := by
  rintro rfl
  exact h

/-- An end is no failure but one of the action's own, unless an exception is on its way again. -/
def EndsOwn {σ α : Type} [Funded σ] [Passing σ] : EStateM.Result Failure σ α → Prop
  | .ok _ _ => True
  | .error e t => Passing.reraising t = false → e.IsOwn

/-- An action notes what it is charged for, and pays for what it adds; up to a refusal that a
program can catch it has paid as well. -/
structure Pays {σ α : Type} [Funded σ] [Passing σ] (s : σ) (x : EStateM Failure σ α)
    (qs : List Query) (r : EStateM.Result Failure σ α) : Prop extends Notes s x qs r where
  paid : Paid (charges qs) (Funded.heap s) (Funded.heap (endState r))
  covered : (Funded.heap s).Covered → (Funded.heap (endState r)).Covered
  caught : ∀ {b e b'}, b.askAll qs = .error (e, b') → e.isCatchable = true →
    ∃ ps, b.askAll ps = .ok b' ∧
      Paid (charges ps) (Funded.heap s) (Funded.heap (endState (x (under s b)))) ∧
      ((Funded.heap s).Covered → (Funded.heap (endState (x (under s b)))).Covered)
  own : EndsOwn r

/-- From a state, the action has a course, and pays for what it adds. -/
abbrev ObedientAt {σ α : Type} [Funded σ] [Passing σ] (s : σ) (x : EStateM Failure σ α) : Prop :=
  ∃ qs r, Pays s x qs r

/-- From every state, the action has a course, and pays for what it adds. -/
def Obedient {σ α : Type} [Funded σ] [Passing σ] (x : EStateM Failure σ α) : Prop :=
  ∀ s, ObedientAt s x

theorem Paid.refl (h : Heap) : Paid 0 h h := fun hh => ⟨hh, .refl h⟩

theorem Paid.trans {n k : Nat} {h i j : Heap} (hi : Paid n h i) (hj : Paid k i j) :
    Paid (n + k) h j := fun hh => by
  obtain ⟨hi, hn⟩ := hi hh
  obtain ⟨hj, hk⟩ := hj hi
  exact ⟨hj, hn.trans hk⟩

section
variable {σ α β : Type} [Funded σ] {s t : σ} {x : EStateM Failure σ α} {f : α → EStateM Failure σ β}
  {qs ps : List Query} {r : EStateM.Result Failure σ β}

/-- What a look at the state leads to does not depend on the budget. -/
theorem read_eq {f : σ → EStateM Failure σ β} (hf : ∀ b, f (under s b) = f s) (b : Budget) :
    (get >>= f) (under s b) = f s (under s b) := congrFun (hf b) (under s b)

namespace Course

theorem ret (s : σ) (a : α) : Course s (pure a) [] (.ok a s) where
  granted h := by cases h; rfl
  refused h := by cases h
  content e t h := by cases h

theorem fail (s : σ) {e : Failure} (he : ∀ l, e ≠ .overrun l) :
    Course s (throw e : EStateM Failure σ α) [] (.error e s) where
  granted h := by cases h; rfl
  refused h := by cases h
  content e' t h := by cases h; exact he e' rfl

theorem bind {a : α} (h : Course s x qs (.ok a t)) (hf : Course t (f a) ps r) :
    Course s (x >>= f) (qs ++ ps) r where
  granted {b b'} hb := by
    rw [Budget.askAll_append] at hb
    cases hqs : b.askAll qs with
    | error e => rw [hqs] at hb; cases hb
    | ok c =>
      rw [hqs] at hb
      exact (bind_ok (h.granted hqs)).trans (hf.granted hb)
  refused {b e b'} hb := by
    rw [Budget.askAll_append] at hb
    cases hqs : b.askAll qs with
    | error e =>
      rw [hqs] at hb
      cases hb
      exact (h.refused hqs).imp fun u hu => bind_error hu
    | ok c =>
      rw [hqs] at hb
      exact (hf.refused hb).imp fun u hu => (bind_ok (h.granted hqs)).trans hu
  content := hf.content

theorem stop {e : Failure} (h : Course s x qs (.error e t)) :
    Course s (x >>= f) qs (.error e t) where
  granted hb := bind_error (h.granted hb)
  refused hb := (h.refused hb).imp fun u hu => bind_error hu
  content e' t' h' := by cases h'; exact h.content _ _ rfl

/-- A change of the state that does not look at the budget. -/
theorem change (s : σ) {g : σ → α × σ} (hg : ∀ b, g (under s b) = ((g s).1, under (g s).2 b)) :
    Course s (modifyGet g) [] (.ok (g s).1 (g s).2) where
  granted {b b'} h := by
    cases h
    change EStateM.Result.ok (g (under s b)).1 (g (under s b)).2 = _
    rw [hg]
    rfl
  refused h := by cases h
  content e t h := by cases h

/-- An action that looks at the state, but not at its budget. -/
theorem read {f : σ → EStateM Failure σ β} (hf : ∀ b, f (under s b) = f s)
    (h : Course s (f s) ps r) : Course s (get >>= f) ps r where
  granted hb := (read_eq hf _).trans (h.granted hb)
  refused hb := (h.refused hb).imp fun _ ht => (read_eq hf _).trans ht
  content := h.content

end Course

/-- The budget that an action leaves. -/
theorem Course.budget_end {s : σ} {x : EStateM Failure σ β} (b : Budget)
    (h : Course s x qs r) : ∃ t, endState (x (under s b)) = under t (b.afterAsking qs) := by
  unfold Budget.afterAsking
  cases hb : b.askAll qs with
  | ok b' =>
    rw [h.granted hb]
    cases r with
    | ok a t => exact ⟨t, rfl⟩
    | error e t => exact ⟨t, rfl⟩
  | error e =>
    obtain ⟨t, ht⟩ := h.refused hb
    rw [ht]
    exact ⟨t, rfl⟩

namespace Notes

/-- An action that asks nothing. -/
theorem of_silent {s : σ} {x : EStateM Failure σ β} (h : Course s x [] r)
    (hnoted : (Funded.heap s).Noted 0 (Funded.heap (endState r))) : Notes s x [] r where
  toCourse := h
  noted := hnoted
  stopped hb := by cases hb

/-- An action that asks one question, and does nothing if that is refused. -/
theorem of_question {s : σ} {x : EStateM Failure σ β} {q : Query} (h : Course s x [q] r)
    (hnoted : (Funded.heap s).Noted (chargedBytes [q]) (Funded.heap (endState r)))
    (hrefused : ∀ b e, b.ask q = .error e → x (under s b) = .error (.ofLimit e) (under s b)) :
    Notes s x [q] r where
  toCourse := h
  noted := hnoted
  stopped {b e b'} hb := by
    obtain ⟨hask, rfl⟩ := Budget.ask_of_askAll hb
    rw [hrefused b e hask]
    change ∃ ps, _ ∧ (Funded.heap s).Noted _ (Funded.heap (under s b))
    rw [Funded.heap_under]
    exact ⟨[], rfl, Heap.noted_under _ b⟩

theorem stop {e : Failure} (h : Notes s x qs (.error e t)) :
    Notes s (x >>= f) qs (.error e t) where
  toCourse := h.toCourse.stop
  noted := h.noted
  stopped hb := by
    obtain ⟨ps, hps, hnoted⟩ := h.stopped hb
    obtain ⟨u, hu⟩ := h.refused hb
    rw [hu] at hnoted
    exact ⟨ps, hps, bind_error (f := f) hu ▸ hnoted⟩

theorem bind {a : α} (h : Notes s x qs (.ok a t)) (hf : Notes t (f a) ps r) :
    Notes s (x >>= f) (qs ++ ps) r where
  toCourse := h.toCourse.bind hf.toCourse
  noted := chargedBytes_append qs ps ▸ h.noted.trans hf.noted
  stopped {b e b'} hb := by
    rw [Budget.askAll_append] at hb
    cases hqs : b.askAll qs with
    | error e' =>
      rw [hqs] at hb
      cases hb
      obtain ⟨ps, hps, hnoted⟩ := h.stopped hqs
      obtain ⟨u, hu⟩ := h.refused hqs
      rw [hu] at hnoted
      exact ⟨ps, hps, bind_error (f := f) hu ▸ hnoted⟩
    | ok c =>
      rw [hqs] at hb
      obtain ⟨ps', hps, hnoted⟩ := hf.stopped hb
      rw [bind_ok (h.granted hqs)]
      refine ⟨qs ++ ps', ?_, chargedBytes_append qs ps' ▸ h.noted.trans hnoted⟩
      rw [Budget.askAll_append, hqs]
      exact hps

theorem read {f : σ → EStateM Failure σ β} (hf : ∀ b, f (under s b) = f s)
    (h : Notes s (f s) ps r) : Notes s (get >>= f) ps r where
  toCourse := h.toCourse.read hf
  noted := h.noted
  stopped hb := read_eq hf _ ▸ h.stopped hb

end Notes

variable [Passing σ]

namespace Pays

theorem of_notes {s : σ} {x : EStateM Failure σ β} (h : Notes s x qs r)
    (hpaid : Paid (charges qs) (Funded.heap s) (Funded.heap (endState r)))
    (hcovered : (Funded.heap s).Covered → (Funded.heap (endState r)).Covered)
    (hqs : qs.any (·.isDepth) = false)
    (hown : EndsOwn r) : Pays s x qs r where
  toNotes := h
  paid := hpaid
  covered := hcovered
  caught hb he := by rw [Budget.not_isCatchable_askAll hqs hb] at he; cases he
  own := hown

/-- An action that asks nothing and does not change its heap. -/
theorem of_idle {s : σ} {x : EStateM Failure σ β} (h : Course s x [] r)
    (hheap : Funded.heap (endState r) = Funded.heap s)
    (hown : EndsOwn r) : Pays s x [] r :=
  .of_notes (.of_silent h (hheap ▸ .refl _)) (hheap ▸ .refl _) (fun hs => hheap ▸ hs) rfl hown

/-- An action that asks one question, which is no charge, and changes nothing. -/
theorem of_question {s : σ} {x : EStateM Failure σ β} {q : Query} {a : β}
    (h : Course s x [q] (.ok a s)) (hq : ∀ bytes, q ≠ .charge bytes)
    (hrefused : ∀ b e, b.ask q = .error e → x (under s b) = .error (.ofLimit e) (under s b)) :
    Pays s x [q] (.ok a s) where
  toNotes := .of_question h (chargedBytes_of_ne hq ▸ .refl _) hrefused
  paid := charges_of_ne hq ▸ .refl _
  covered hs := hs
  caught {b e b'} hb _ := by
    obtain ⟨hask, rfl⟩ := Budget.ask_of_askAll hb
    rw [hrefused b e hask]
    change ∃ ps, _ ∧ Paid _ _ (Funded.heap (under s b)) ∧ (_ → (Funded.heap (under s b)).Covered)
    rw [Funded.heap_under]
    exact ⟨[], rfl, fun hh => ⟨⟨hh.nodup, hh.mem_free⟩, .of_slots_eq rfl⟩, fun hs => hs⟩
  own := trivial

theorem stop {e : Failure} (h : Pays s x qs (.error e t)) :
    Pays s (x >>= f) qs (.error e t) where
  toNotes := h.toNotes.stop
  paid := h.paid
  covered := h.covered
  caught hb he := by
    obtain ⟨ps, hps, hpaid⟩ := h.caught hb he
    obtain ⟨u, hu⟩ := h.refused hb
    rw [hu] at hpaid
    exact ⟨ps, hps, bind_error (f := f) hu ▸ hpaid⟩
  own := h.own

theorem bind {a : α} (h : Pays s x qs (.ok a t)) (hf : Pays t (f a) ps r) :
    Pays s (x >>= f) (qs ++ ps) r where
  toNotes := h.toNotes.bind hf.toNotes
  paid := charges_append qs ps ▸ h.paid.trans hf.paid
  covered hs := hf.covered (h.covered hs)
  caught {b e b'} hb he := by
    rw [Budget.askAll_append] at hb
    cases hqs : b.askAll qs with
    | error e' =>
      rw [hqs] at hb
      cases hb
      obtain ⟨ps, hps, hpaid⟩ := h.caught hqs he
      obtain ⟨u, hu⟩ := h.refused hqs
      rw [hu] at hpaid
      exact ⟨ps, hps, bind_error (f := f) hu ▸ hpaid⟩
    | ok c =>
      rw [hqs] at hb
      obtain ⟨ps', hps, hpaid, hcovered⟩ := hf.caught hb he
      rw [bind_ok (h.granted hqs)]
      refine ⟨qs ++ ps', ?_, charges_append qs ps' ▸ h.paid.trans hpaid,
        fun hs => hcovered (h.covered hs)⟩
      rw [Budget.askAll_append, hqs]
      exact hps
  own := hf.own

theorem read {f : σ → EStateM Failure σ β} (hf : ∀ b, f (under s b) = f s)
    (h : Pays s (f s) ps r) : Pays s (get >>= f) ps r where
  toNotes := h.toNotes.read hf
  paid := h.paid
  covered := h.covered
  caught hb he := read_eq hf _ ▸ h.caught hb he
  own := h.own

end Pays

/-- What comes next starts from a state in which all slots still are in use that have been. -/
theorem ObedientAt.bind (h : ObedientAt s x)
    (hf : ∀ a t, (∀ i, ((Funded.heap s).cell? i).isSome → ((Funded.heap t).cell? i).isSome) →
      ObedientAt t (f a)) : ObedientAt s (x >>= f) := by
  obtain ⟨qs, r, hr⟩ := h
  cases r with
  | error e t => exact ⟨qs, _, hr.stop⟩
  | ok a t =>
    obtain ⟨ps, r, hf⟩ := hf a t hr.noted.inUse
    exact ⟨qs ++ ps, r, hr.bind hf⟩

namespace Obedient

theorem ret (a : α) : Obedient (pure a : EStateM Failure σ α) :=
  fun s => ⟨[], _, .of_idle (.ret s a) rfl trivial⟩

theorem fail {e : Failure} (he : e.IsOwn) : Obedient (throw e : EStateM Failure σ α) :=
  fun s => ⟨[], _, .of_idle (.fail s he.ne_overrun) rfl fun _ => he⟩

theorem bind (h : Obedient x) (hf : ∀ a, Obedient (f a)) : Obedient (x >>= f) := fun s =>
  (h s).bind fun a t _ => hf a t

theorem map {g : α → β} (h : Obedient x) : Obedient (g <$> x) := by
  rw [map_eq_pure_bind]
  exact h.bind fun a => .ret (g a)

/-- What comes of a look at the state may depend on what has been seen. -/
theorem readAt {f : σ → EStateM Failure σ α} (hf : ∀ s b, f (under s b) = f s)
    (h : ∀ s, ObedientAt s (f s)) : Obedient (get >>= f) := fun s =>
  let ⟨qs, r, hr⟩ := h s
  ⟨qs, r, .read (hf s) hr⟩

theorem read {f : σ → EStateM Failure σ α} (hf : ∀ s b, f (under s b) = f s)
    (h : ∀ s, Obedient (f s)) : Obedient (get >>= f) := readAt hf fun s => h s s

theorem fork {c : Prop} [Decidable c] {y : EStateM Failure σ α} (h : c → Obedient x)
    (h' : ¬ c → Obedient y) : Obedient (if c then x else y) := by
  by_cases hc : c
  · rw [if_pos hc]; exact h hc
  · rw [if_neg hc]; exact h' hc

theorem mapM {τ : Type} {g : τ → EStateM Failure σ β} (h : ∀ a, Obedient (g a)) (xs : List τ) :
    Obedient (xs.mapM g) := by
  induction xs with
  | nil => exact .ret []
  | cons a xs ih =>
    rw [List.mapM_cons]
    exact (h a).bind fun _ => ih.bind fun _ => .ret _

/-- An exception that is raised, but not raised again, has left no frame yet. -/
theorem traceback_eq_nil {e : Raised} (hx : Obedient x) (h : x s = .error (.raised e) t)
    (ht : Passing.reraising t = false) : e.traceback = [] := by
  obtain ⟨qs, r, hr⟩ := hx s
  rw [← Funded.under_self s] at h
  cases hask : (Funded.heap s).budget.askAll qs with
  | ok b =>
    rw [hr.granted hask] at h
    cases r with
    | ok a u => cases h
    | error f u =>
      cases h
      exact hr.own ((Passing.reraising_under u b).symm.trans ht)
  | error refusal =>
    obtain ⟨u, hu⟩ := hr.refused hask
    rw [hu, Failure.ofLimit] at h
    split at h
    · cases h; rfl
    · cases h

end Obedient

end

end Resumable
