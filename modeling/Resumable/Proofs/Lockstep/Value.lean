import Resumable.Machine.Basic
import Resumable.Proofs.Lockstep.Basic
import Resumable.Proofs.Pointwise
import Resumable.Value.Key

/-!
# Values and dicts that are alike

Runs are compared value by value; paired slots stand for one another.

## Values that are alike

Runs are compared for more than one purpose, and what is asked of their budgets, their output and
their heaps depends on it. A `World` says what is asked; the lemmas on machines in lockstep hold in
every world.

`v.Alike κ p w`: the values are built in the same way, down to references to slots that `p` pairs.
What a function reads from values that are alike is the same, so a program cannot tell in which
slots its lists and dicts are.
-/

namespace Resumable

open List (Forall₂)

/-! ### What two runs have in common -/

/-- Budgets that refuse the same things. -/
structure Accounts where
  budget : Budget → Budget → Prop
  allocate : ∀ {a b}, budget a b → ∀ n, SameEnd Eq budget (a.allocate n) (b.allocate n)
  tick : ∀ {a b}, budget a b → budget a.tick.1 b.tick.1 ∧ a.tick.2 = b.tick.2
  checkDepth : ∀ {a b}, budget a b → ∀ n, a.checkDepth n = b.checkDepth n
  checkResult : ∀ {a b}, budget a b → ∀ n, a.checkResult n = b.checkResult n

/-- How what two runs know of their futures is related, when paired slots stand for one another. -/
structure Foresight where
  rel : Pairing → List (Nat × Future) → List (Nat × Future) → Prop
  mono : ∀ {p q fs gs}, p ≤ q → rel p fs gs → rel q fs gs

/-- What two runs have in common. -/
structure World extends Accounts where
  /-- The functions of the host that their values name. -/
  external : Nat → Prop
  /-- The host calls whose results they may wait for. -/
  future : Nat → Prop
  /-- Whether they have the same heap, but for its budget. -/
  fixed : Prop
  /-- Budgets of the same heap ask for collections together, and may be given back the same. -/
  collects : fixed → ∀ {a b}, budget a b →
    (∀ n, a.shouldCollect n = b.shouldCollect n) ∧ ∀ n, budget (a.release n) (b.release n)
  /-- What the second heap holds that the first one does not hold yet. -/
  kept : Nat → Cell → Prop
  /-- How their futures are related, where they do not know the same of each. -/
  foresight : Option Foresight
  /-- The writers that they print to. -/
  writer : Writer → Prop
  written : ∀ {w}, writer w → ∀ c, writer (w.after c)
  /-- What they have printed. -/
  output : String → String → Prop
  print : ∀ {a b}, output a b → ∀ text, output (a ++ text) (b ++ text)
  /-- The events that they have recorded. -/
  events : Option (List Event) → Option (List Event) → Prop
  record : ∀ {a b}, events a b → ∀ e, events (a.map (e :: ·)) (b.map (e :: ·))

/-- The worlds of runs that know the same of their futures, neither of which is ahead. -/
class World.Joint (κ : World) : Prop where
  kept : ∀ y c, ¬ κ.kept y c
  foresight : κ.foresight = none
  writer : ∀ w, κ.writer w

/-- Budgets that are equal. -/
def Accounts.equal : Accounts where
  budget := Eq
  allocate := by
    rintro b _ rfl n
    cases b.allocate n with
    | ok b => exact .ok rfl
    | error e => exact .error rfl
  tick := by rintro b _ rfl; exact ⟨rfl, rfl⟩
  checkDepth := by rintro b _ rfl n; rfl
  checkResult := by rintro b _ rfl n; rfl

/-- The world of two runs that have printed and recorded the same. -/
def World.plain (accounts : Accounts) (external : Nat → Prop) : World where
  __ := accounts
  external
  future _ := True
  fixed := False
  collects h := h.elim
  kept _ _ := False
  foresight := none
  writer _ := True
  written _ _ := trivial
  output := Eq
  print := by rintro a _ rfl text; rfl
  events := Eq
  record := by rintro a _ rfl e; rfl

instance (accounts : Accounts) (external : Nat → Prop) : (World.plain accounts external).Joint :=
  ⟨fun _ _ h => h, rfl, fun _ => trivial⟩

/-! ### Values -/

/-- Two values are the same but for the slots that they refer to, which are paired. -/
inductive Value.Alike (κ : World) (p : Pairing) : Value → Value → Prop
  | undefined : Alike κ p .undefined .undefined
  | none : Alike κ p .none .none
  | ellipsis : Alike κ p .ellipsis .ellipsis
  | bool (b) : Alike κ p (.bool b) (.bool b)
  | int (i) : Alike κ p (.int i) (.int i)
  | float (x) : Alike κ p (.float x) (.float x)
  | str (s) : Alike κ p (.str s) (.str s)
  | bytes (data) : Alike κ p (.bytes data) (.bytes data)
  | tuple {vs ws} : Forall₂ (Alike κ p) vs ws → Alike κ p (.tuple vs) (.tuple ws)
  | path (s) : Alike κ p (.path s) (.path s)
  | exception (e) : Alike κ p (.exception e) (.exception e)
  | namedTuple (type fields) {vs ws} : Forall₂ (Alike κ p) vs ws →
      Alike κ p (.namedTuple type fields vs) (.namedTuple type fields ws)
  | ref {x y} : p.rel x y → Alike κ p (.ref x) (.ref y)
  | function (code) {vs ws} : Forall₂ (Alike κ p) vs ws →
      Alike κ p (.function code vs) (.function code ws)
  | external {i} : κ.external i → Alike κ p (.external i) (.external i)
  | builtin (f) : Alike κ p (.builtin f) (.builtin f)
  | excClass (type) : Alike κ p (.excClass type) (.excClass type)
  | module (m) : Alike κ p (.module m) (.module m)
  | future (id) : Alike κ p (.future id) (.future id)
  | gather {vs ws} : Forall₂ (Alike κ p) vs ws → Alike κ p (.gather vs) (.gather ws)
  | range (start stop step) : Alike κ p (.range start stop step) (.range start stop step)
  | slice (start stop step) : Alike κ p (.slice start stop step) (.slice start stop step)

/-- Lists of values that are alike one by one. -/
abbrev AllAlike (κ : World) (p : Pairing) : List Value → List Value → Prop := Forall₂ (·.Alike κ p)

/-- Arrays of values that are alike one by one. -/
abbrev ItemsAlike (κ : World) (p : Pairing) (vs ws : Array Value) : Prop :=
  AllAlike κ p vs.toList ws.toList

/-- Values that are alike, if there are any. -/
abbrev MaybeAlike (κ : World) (p : Pairing) : Option Value → Option Value → Prop :=
  Option.Rel (·.Alike κ p)

section
variable {κ : World} {p q : Pairing}

theorem Value.Alike.mono {v w : Value} (h : v.Alike κ p w) (hpq : p ≤ q) : v.Alike κ q w := by
  induction h using Value.Alike.rec (motive_2 := fun vs ws _ => AllAlike κ q vs ws) with
  | ref h => exact .ref (hpq h)
  | tuple _ ih => exact .tuple ih
  | namedTuple type fields _ ih => exact .namedTuple type fields ih
  | function code _ ih => exact .function code ih
  | gather _ ih => exact .gather ih
  | external h => exact .external h
  | nil => exact .nil
  | cons _ _ ih ihs => exact .cons ih ihs
  | _ => constructor

mutual

/-- Values are alike by slots of the same numbers only if they are the same. -/
theorem Value.Alike.eq {v w : Value} (h : v.Alike κ p w) (hp : ∀ x y, p.rel x y → x = y) :
    v = w := by
  cases h with
  | ref h => rw [hp _ _ h]
  | tuple h => rw [AllAlike.eq h hp]
  | namedTuple type fields h => rw [AllAlike.eq h hp]
  | function code h => rw [AllAlike.eq h hp]
  | gather h => rw [AllAlike.eq h hp]
  | _ => rfl

theorem AllAlike.eq {vs ws : List Value} (h : AllAlike κ p vs ws)
    (hp : ∀ x y, p.rel x y → x = y) : vs = ws := by
  cases h with
  | nil => rfl
  | cons h hs => rw [h.eq hp, AllAlike.eq hs hp]

end

theorem ItemsAlike.eq {vs ws : Array Value} (h : ItemsAlike κ p vs ws)
    (hp : ∀ x y, p.rel x y → x = y) : vs = ws := Array.toList_inj.mp (AllAlike.eq h hp)

theorem AllAlike.mono {vs ws : List Value} (h : AllAlike κ p vs ws) (hpq : p ≤ q) :
    AllAlike κ q vs ws := h.imp fun _ _ h => h.mono hpq

theorem MaybeAlike.mono {v w : Option Value} (h : MaybeAlike κ p v w) (hpq : p ≤ q) :
    MaybeAlike κ q v w := by
  cases h with
  | some h => exact .some (h.mono hpq)
  | none => exact .none

/-! ### What values are read as -/

theorem Value.Alike.int?_eq {v w : Value} (h : v.Alike κ p w) : v.int? = w.int? := by
  cases h <;> rfl

theorem Value.Alike.number?_eq {v w : Value} (h : v.Alike κ p w) : v.number? = w.number? := by
  cases h <;> rfl

mutual

theorem Value.Alike.same_eq {a b a' b' : Value} (ha : a.Alike κ p a') (hb : b.Alike κ p b') :
    a.same b = a'.same b' := by
  cases ha with
  | tuple h => cases hb with
    | tuple h' => rw [Value.same, Value.same, allSame_eq h h']
    | _ => simp only [Value.same]
  | namedTuple type fields h => cases hb with
    | namedTuple type' fields' h' => rw [Value.same, Value.same, allSame_eq h h']
    | _ => simp only [Value.same]
  | ref h => cases hb with
    | ref h' => rw [Value.same, Value.same, Pairing.beq_eq h h']
    | _ => simp only [Value.same]
  | function code h => cases hb with
    | function code' h' => rw [Value.same, Value.same, allSame_eq h h']
    | _ => simp only [Value.same]
  | gather h => cases hb with
    | gather h' => rw [Value.same, Value.same, allSame_eq h h']
    | _ => simp only [Value.same]
  | _ => cases hb <;> simp only [Value.same]

theorem allSame_eq {as bs as' bs' : List Value} (ha : AllAlike κ p as as')
    (hb : AllAlike κ p bs bs') : Value.allSame as bs = Value.allSame as' bs' := by
  cases ha with
  | nil => cases hb <;> rfl
  | cons h hs =>
    cases hb with
    | nil => rfl
    | cons h' hs' => rw [Value.allSame, Value.allSame, h.same_eq h', allSame_eq hs hs']

end

end

/-!
## Keys and dicts of values that are alike

Values that are alike have one key, and dicts that are alike have the same keys in the same places.
-/

variable {κ : World} {p q : Pairing}

mutual

theorem Value.Alike.key {v w : Value} (h : v.Alike κ p w) :
    SameEnd (Value.Alike κ p) Eq (Key.ofValue v) (Key.ofValue w) := by
  cases h with
  | tuple h =>
    rw [Key.ofValue, Key.ofValue]
    obtain ⟨a, b, h, h', hr⟩ | ⟨e, d, h, h', hr⟩ := (ofValues_alike [] h).elim <;> rw [h, h']
    · exact .ok (congrArg _ hr)
    · exact .error hr
  | namedTuple type fields h =>
    rw [Key.ofValue, Key.ofValue]
    obtain ⟨a, b, h, h', hr⟩ | ⟨e, d, h, h', hr⟩ := (ofValues_alike [] h).elim <;> rw [h, h']
    · exact .ok (congrArg _ hr)
    · exact .error hr
  | undefined => exact .error .undefined
  | ref h => exact .error (.ref h)
  | function code h => exact .error (.function code h)
  | external h => exact .error (.external h)
  | gather h => exact .error (.gather h)
  | exception e => exact .error (.exception e)
  | module m => exact .error (.module m)
  | future id => exact .error (.future id)
  | range start stop step => exact .error (.range start stop step)
  | slice start stop step => exact .error (.slice start stop step)
  | _ => exact .ok rfl

theorem ofValues_alike (done : List Key) {vs ws : List Value} (h : AllAlike κ p vs ws) :
    SameEnd (Value.Alike κ p) Eq (Key.ofValues done vs) (Key.ofValues done ws) := by
  cases h with
  | nil => exact .ok rfl
  | cons h hs =>
    rw [Key.ofValues, Key.ofValues]
    obtain ⟨a, b, h, h', rfl⟩ | ⟨e, d, h, h', hr⟩ := h.key.elim <;> rw [h, h']
    · exact ofValues_alike _ hs
    · exact .error hr

end

/-! ### Dicts -/

/-- Entries with one key, whose names and values are alike. -/
structure Entry.Alike (κ : World) (p : Pairing) (e f : Entry) : Prop where
  key : e.key = f.key
  name : e.name.Alike κ p f.name
  value : e.value.Alike κ p f.value

/-- Dicts whose entries are alike one by one. -/
def Dict.Alike (κ : World) (p : Pairing) (d e : Dict) : Prop :=
  Forall₂ (Entry.Alike κ p) d.entries.toList e.entries.toList

theorem Entry.Alike.mono {e f : Entry} (h : e.Alike κ p f) (hpq : p ≤ q) : e.Alike κ q f :=
  ⟨h.key, h.name.mono hpq, h.value.mono hpq⟩

theorem Entry.Alike.eq {e f : Entry} (h : e.Alike κ p f) (hp : ∀ x y, p.rel x y → x = y) :
    e = f := by
  obtain ⟨key, name, value⟩ := e
  obtain ⟨key', name', value'⟩ := f
  obtain rfl : key = key' := h.key
  obtain rfl : name = name' := h.name.eq hp
  obtain rfl : value = value' := h.value.eq hp
  rfl

namespace Dict.Alike

variable {d e : Dict}

theorem mono (h : d.Alike κ p e) (hpq : p ≤ q) : d.Alike κ q e :=
  h.imp fun _ _ h => h.mono hpq

theorem eq (h : d.Alike κ p e) (hp : ∀ x y, p.rel x y → x = y) : d = e := by
  obtain ⟨⟨xs⟩⟩ := d
  obtain ⟨⟨ys⟩⟩ := e
  change Forall₂ _ xs ys at h
  have hxy : ∀ {xs ys : List Entry}, Forall₂ (Entry.Alike κ p) xs ys → xs = ys := by
    intro xs ys h
    rw [← List.forall₂_eq_eq_eq]
    exact h.imp fun _ _ h => h.eq hp
  rw [hxy h]

theorem empty : Dict.empty.Alike κ p Dict.empty := .nil

theorem size_eq (h : d.Alike κ p e) : d.size = e.size := h.length_eq

theorem find?_eq (h : d.Alike κ p e) (key : Key) : d.find? key = e.find? key := by
  obtain ⟨⟨xs⟩⟩ := d
  obtain ⟨⟨ys⟩⟩ := e
  simp only [Dict.find?, List.findIdx?_toArray]
  change Forall₂ _ xs ys at h
  induction h with
  | nil => rfl
  | cons h _ ih => rw [List.findIdx?_cons, List.findIdx?_cons, h.key, ih]

theorem contains_eq (h : d.Alike κ p e) (key : Key) : d.contains key = e.contains key := by
  rw [Dict.contains, Dict.contains, h.find?_eq]

theorem get? (h : d.Alike κ p e) (key : Key) : MaybeAlike κ p (d.get? key) (e.get? key) := by
  obtain ⟨⟨xs⟩⟩ := d
  obtain ⟨⟨ys⟩⟩ := e
  simp only [Dict.get?, List.find?_toArray]
  change Forall₂ _ xs ys at h
  induction h with
  | nil => exact .none
  | cons h _ ih =>
    rw [List.find?_cons, List.find?_cons, h.key]
    split
    · exact .some h.value
    · exact ih

theorem insert (h : d.Alike κ p e) (key : Key) {name value name' value' : Value}
    (hn : name.Alike κ p name') (hv : value.Alike κ p value') :
    (d.insert key name value).Alike κ p (e.insert key name' value') := by
  unfold Dict.insert
  rw [h.find?_eq]
  cases e.find? key with
  | some i =>
    simp only [Dict.Alike, Array.toList_modify]
    exact List.Forall₂.modify h i fun _ _ h => ⟨h.key, h.name, hv⟩
  | none =>
    simp only [Dict.Alike, Array.toList_push]
    exact List.Forall₂.append h (.cons ⟨rfl, hn, hv⟩ .nil)

theorem erase (h : d.Alike κ p e) (key : Key) : (d.erase key).Alike κ p (e.erase key) := by
  unfold Dict.erase
  rw [h.find?_eq]
  cases e.find? key with
  | some i =>
    simp only [Dict.Alike, Array.toList_eraseIdxIfInBounds]
    exact List.Forall₂.eraseIdx h i
  | none => exact h

theorem names (h : d.Alike κ p e) : ItemsAlike κ p d.names e.names := by
  simp only [ItemsAlike, Dict.names, Array.toList_map, List.forall₂_map_left_iff,
    List.forall₂_map_right_iff]
  exact h.imp fun _ _ h => h.name

theorem values (h : d.Alike κ p e) : ItemsAlike κ p d.values e.values := by
  simp only [ItemsAlike, Dict.values, Array.toList_map, List.forall₂_map_left_iff,
    List.forall₂_map_right_iff]
  exact h.imp fun _ _ h => h.value

theorem pairs (h : d.Alike κ p e) :
    Forall₂ (fun x y => x.1.Alike κ p y.1 ∧ x.2.Alike κ p y.2) d.pairs e.pairs := by
  simp only [Dict.pairs, List.forall₂_map_left_iff, List.forall₂_map_right_iff]
  exact h.imp fun _ _ h => ⟨h.name, h.value⟩

end Dict.Alike

end Resumable
