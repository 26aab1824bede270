import Mathlib.Data.Set.Finite.Lemmas
import Mathlib.Logic.Relation
import Mathlib.Order.WellFoundedSet
import Resumable.Heap.Comparison
import Resumable.Proofs.Obedience.Ledger
import Resumable.Proofs.Reach
import Resumable.Proofs.Walk

/-!
# The order of values without numbers

A value that is built without numbers, in a heap without cycles, is a finite tree, and values have
the order of their trees.

## The order of trees

A value that is built without numbers is a finite tree: its leaves are single values, and its nodes
are tuples and lists. Trees have a lexicographic order, which is partial because leaves of different
types and `None` have none. Where it says something it is a strict order: `Tree.compare?_swap`,
`Tree.eq_of_compare?` and `Tree.compare?_trans`. Nothing has to be assumed of the parts of two trees
that have an order, because only the first parts that differ decide.
-/

namespace Resumable

/-- A value without parts that is no number. -/
inductive Leaf where
  | none
  | ellipsis
  | str (s : String)
  | bytes (data : List UInt8)
  | path (p : String)
deriving DecidableEq

/-- Whether a sequence is a tuple or a list. -/
inductive SequenceKind where
  | tuple
  | list
deriving DecidableEq

/-- A value without numbers, with everything that it is built from. -/
inductive Tree where
  | leaf (a : Leaf)
  | node (kind : SequenceKind) (parts : List Tree)

/-- The order of two leaves, if they have one. -/
def Leaf.compare? : Leaf → Leaf → Option Ordering
  | .str a, .str b => some (compare a b)
  | .path a, .path b => some (compare a b)
  | .bytes a, .bytes b => some (Value.compareBytes a b)
  | _, _ => Option.none

namespace Tree

mutual

/-- Equality of trees is decidable. -/
def decEq : (s t : Tree) → Decidable (s = t)
  | .leaf a, .leaf b => decidable_of_iff (a = b) (by rw [leaf.injEq])
  | .node k ss, .node l ts =>
    have := decEqAll ss ts
    decidable_of_iff (k = l ∧ ss = ts) (by rw [node.injEq])
  | .leaf _, .node _ _ | .node _ _, .leaf _ => isFalse nofun

def decEqAll : (ss ts : List Tree) → Decidable (ss = ts)
  | [], [] => isTrue rfl
  | s :: ss, t :: ts =>
    have := decEq s t
    have := decEqAll ss ts
    decidable_of_iff (s = t ∧ ss = ts) (by rw [List.cons.injEq])
  | [], _ :: _ | _ :: _, [] => isFalse nofun

end

instance : DecidableEq Tree := decEq

mutual

/-- The order of two trees, if they have one: that of the first parts that are not equal. -/
def compare? : Tree → Tree → Option Ordering
  | .leaf a, .leaf b => a.compare? b
  | .node k ss, .node l ts => if k = l then compareAll? ss ts else none
  | .leaf _, .node _ _ | .node _ _, .leaf _ => none

def compareAll? : List Tree → List Tree → Option Ordering
  | s :: ss, t :: ts => if s = t then compareAll? ss ts else compare? s t
  | [], [] => some .eq
  | [], _ :: _ => some .lt
  | _ :: _, [] => some .gt

end

end Tree

/-! ### Leaves -/

theorem Value.compareBytes_eq (a b : List UInt8) : compareBytes a b = compare a b := by
  change _ = List.compareLex compare a b
  induction a generalizing b with
  | nil => cases b <;> rfl
  | cons x xs ih =>
    cases b with
    | nil => rfl
    | cons y ys => rw [compareBytes, List.compareLex_cons_cons, ih]

namespace Leaf

variable {a b c : Leaf}

theorem compare?_swap (a b : Leaf) : b.compare? a = (a.compare? b).map Ordering.swap := by
  cases a <;> cases b <;> try rfl
  · exact congrArg some Std.OrientedCmp.eq_swap
  · simp only [compare?, Value.compareBytes_eq]
    exact congrArg some Std.OrientedCmp.eq_swap
  · exact congrArg some Std.OrientedCmp.eq_swap

theorem eq_of_compare? (h : a.compare? b = some .eq) : a = b := by
  cases a <;> cases b <;> try cases h
  · exact congrArg str (Std.LawfulEqCmp.eq_of_compare (Option.some.inj h))
  · simp only [compare?, Value.compareBytes_eq] at h
    exact congrArg bytes (Std.LawfulEqCmp.eq_of_compare (Option.some.inj h))
  · exact congrArg path (Std.LawfulEqCmp.eq_of_compare (Option.some.inj h))

theorem compare?_trans (hab : a.compare? b = some .lt) (hbc : b.compare? c = some .lt) :
    a.compare? c = some .lt := by
  cases a <;> cases b <;> try cases hab
  all_goals cases c <;> try cases hbc
  · exact congrArg some (Std.TransCmp.lt_trans (Option.some.inj hab) (Option.some.inj hbc))
  · simp only [compare?, Value.compareBytes_eq] at hab hbc ⊢
    exact congrArg some (Std.TransCmp.lt_trans (Option.some.inj hab) (Option.some.inj hbc))
  · exact congrArg some (Std.TransCmp.lt_trans (Option.some.inj hab) (Option.some.inj hbc))

theorem compare?_self {o : Ordering} (h : a.compare? b = some o) : a.compare? a = some .eq := by
  cases a <;> cases b <;> try cases h
  · exact congrArg some Std.ReflCmp.compare_self
  · simp only [compare?, Value.compareBytes_eq]
    exact congrArg some Std.ReflCmp.compare_self
  · exact congrArg some Std.ReflCmp.compare_self

end Leaf

/-! ### Trees -/

namespace Tree

mutual

theorem compare?_swap : (s t : Tree) → t.compare? s = (s.compare? t).map Ordering.swap
  | .leaf a, .leaf b => Leaf.compare?_swap a b
  | .node k ss, .node l ts => by
    rw [compare?, compare?]
    by_cases hkl : k = l
    · rw [if_pos hkl, if_pos hkl.symm]
      exact compareAll?_swap ss ts
    · rw [if_neg hkl, if_neg (Ne.symm hkl)]
      rfl
  | .leaf _, .node _ _ | .node _ _, .leaf _ => rfl

theorem compareAll?_swap :
    (ss ts : List Tree) → compareAll? ts ss = (compareAll? ss ts).map Ordering.swap
  | s :: ss, t :: ts => by
    rw [compareAll?, compareAll?]
    by_cases hst : s = t
    · rw [if_pos hst, if_pos hst.symm]
      exact compareAll?_swap ss ts
    · rw [if_neg hst, if_neg (Ne.symm hst)]
      exact compare?_swap s t
  | [], [] | [], _ :: _ | _ :: _, [] => rfl

end

mutual

theorem eq_of_compare? : {s t : Tree} → s.compare? t = some .eq → s = t
  | .leaf a, .leaf b, h => congrArg leaf (Leaf.eq_of_compare? h)
  | .node k ss, .node l ts, h => by
    rw [compare?] at h
    by_cases hkl : k = l
    · rw [if_pos hkl] at h
      rw [hkl, eq_of_compareAll? h]
    · rw [if_neg hkl] at h
      cases h
  | .leaf _, .node _ _, h | .node _ _, .leaf _, h => nomatch h

theorem eq_of_compareAll? : {ss ts : List Tree} → compareAll? ss ts = some .eq → ss = ts
  | s :: ss, t :: ts, h => by
    rw [compareAll?] at h
    by_cases hst : s = t
    · rw [if_pos hst] at h
      rw [hst, eq_of_compareAll? h]
    · rw [if_neg hst] at h
      exact (hst (eq_of_compare? h)).elim
  | [], [], _ => rfl
  | [], _ :: _, h | _ :: _, [], h => nomatch h

end

theorem compare?_self_ne_lt (s : Tree) : s.compare? s ≠ some .lt := by
  intro h
  have hswap := compare?_swap s s
  rw [h] at hswap
  cases hswap

mutual

theorem compare?_trans : {s t u : Tree} → s.compare? t = some .lt → t.compare? u = some .lt →
    s.compare? u = some .lt
  | .leaf a, .leaf b, .leaf c, hst, htu => Leaf.compare?_trans hst htu
  | .node k ss, .node l ts, .node m us, hst, htu => by
    rw [compare?] at hst htu ⊢
    by_cases hkl : k = l
    · by_cases hlm : l = m
      · rw [if_pos hkl] at hst
        rw [if_pos hlm] at htu
        rw [if_pos (hkl.trans hlm)]
        exact compareAll?_trans hst htu
      · rw [if_neg hlm] at htu
        cases htu
    · rw [if_neg hkl] at hst
      cases hst
  | .leaf _, .node _ _, _, hst, _ | .node _ _, .leaf _, _, hst, _ => nomatch hst
  | _, .leaf _, .node _ _, _, htu | _, .node _ _, .leaf _, _, htu => nomatch htu

theorem compareAll?_trans : {ss ts us : List Tree} → compareAll? ss ts = some .lt →
    compareAll? ts us = some .lt → compareAll? ss us = some .lt
  | s :: ss, t :: ts, u :: us, hst, htu => by
    rw [compareAll?] at hst htu ⊢
    -- The first parts that differ decide; they stand where either pair differs first.
    by_cases hs : s = t
    · by_cases ht : t = u
      · rw [if_pos hs] at hst
        rw [if_pos ht] at htu
        rw [if_pos (hs.trans ht)]
        exact compareAll?_trans hst htu
      · rw [if_neg ht] at htu
        rw [hs, if_neg ht]
        exact htu
    · rw [if_neg hs] at hst
      by_cases ht : t = u
      · rw [← ht, if_neg hs]
        exact hst
      · rw [if_neg ht] at htu
        have hsu := compare?_trans hst htu
        have hne : s ≠ u := by
          rintro rfl
          exact compare?_self_ne_lt s hsu
        rw [if_neg hne]
        exact hsu
  | [], _, _ :: _, _, _ => rfl
  | _ :: _, [], _, hst, _ => nomatch hst
  | _, _ :: _, [], _, htu => nomatch htu
  | [], [], [], hst, _ => nomatch hst

end

/-- A step up or to the same place, and another one. -/
theorem compare?_le_trans {s t u : Tree} {o p : Ordering} (hst : s.compare? t = some o)
    (htu : t.compare? u = some p) (ho : o ≠ .gt) (hp : p ≠ .gt) :
    ∃ q, s.compare? u = some q ∧ q ≠ .gt := by
  cases o with
  | gt => exact (ho rfl).elim
  | eq =>
    rw [eq_of_compare? hst]
    exact ⟨p, htu, hp⟩
  | lt =>
    cases p with
    | gt => exact (hp rfl).elim
    | eq =>
      rw [← eq_of_compare? htu]
      exact ⟨.lt, hst, nofun⟩
    | lt => exact ⟨.lt, compare?_trans hst htu, nofun⟩

theorem compareAll?_self (ss : List Tree) : compareAll? ss ss = some .eq := by
  induction ss with
  | nil => rfl
  | cons s ss ih =>
    rw [compareAll?, if_pos rfl]
    exact ih

/-- A tree that has an order with some tree has one with itself. -/
theorem compare?_self {s t : Tree} {o : Ordering} (h : s.compare? t = some o) :
    s.compare? s = some .eq := by
  cases s with
  | node k ss =>
    rw [compare?, if_pos rfl]
    exact compareAll?_self ss
  | leaf a =>
    cases t with
    | node l ts => cases h
    | leaf b => exact Leaf.compare?_self h

end Tree

/-!
## The trees of values

`h.Shows v t`: in the heap `h`, the value `v` is the tree `t`. Values are equal if they are the same
tree (`Shows.equal?_eq`), and have the order of their trees (`Shows.compare?_eq`). Walks that are
long enough to go through a tree come to an answer, and `Heap.walkBound` is such a length because
longer walks give the same answers.
-/

/-- The leaf that a value is, if it is one. -/
def Value.leaf? : Value → Option Leaf
  | .none => some .none
  | .ellipsis => some .ellipsis
  | .str s => some (.str s)
  | .bytes data => some (.bytes data)
  | .path p => some (.path p)
  | _ => Option.none

namespace Heap

mutual

/-- A value that is built without numbers is a tree. -/
inductive Shows (h : Heap) : Value → Tree → Prop
  | leaf {v a} : v.leaf? = some a → Shows h v (.leaf a)
  | tuple {vs ts} : AllShow h vs ts → Shows h (.tuple vs) (.node .tuple ts)
  | list {x vs ts} : h.cell? x = some (.list vs) → AllShow h vs.toList ts →
      Shows h (.ref x) (.node .list ts)

/-- The values of a sequence are trees. -/
inductive AllShow (h : Heap) : List Value → List Tree → Prop
  | nil : AllShow h [] []
  | cons {v vs t ts} : Shows h v t → AllShow h vs ts → AllShow h (v :: vs) (t :: ts)

end

variable {h : Heap} {v w : Value} {vs ws : List Value} {s t : Tree} {ss ts : List Tree}

theorem AllShow.length_eq (hv : h.AllShow vs ts) : vs.length = ts.length := by
  induction vs generalizing ts with
  | nil =>
    cases hv
    rfl
  | cons v vs ih =>
    cases hv with
    | cons _ hvs => rw [List.length_cons, List.length_cons, ih hvs]

mutual

/-- A value is one tree only. -/
theorem Shows.unique : {v : Value} → {s t : Tree} → h.Shows v s → h.Shows v t → s = t
  | _, _, _, .leaf ha, .leaf hb => congrArg Tree.leaf (Option.some.inj (ha.symm.trans hb))
  | _, _, _, .tuple hs, .tuple ht => congrArg (Tree.node .tuple) (hs.unique ht)
  | _, _, _, .list hx hs, .list hy ht => by
    rw [hx] at hy
    cases hy
    exact congrArg (Tree.node .list) (hs.unique ht)

theorem AllShow.unique : {vs : List Value} → {ss ts : List Tree} → h.AllShow vs ss →
    h.AllShow vs ts → ss = ts
  | _, _, _, .nil, .nil => rfl
  | _, _, _, .cons hs hss, .cons ht hts => by rw [hs.unique ht, hss.unique hts]

end

end Heap

/-! ### Equality -/

namespace Value

variable {cells : Nat → Nat → Option Bool} {v w : Value} {a b : Leaf}

theorem equalBy_leaf (hv : v.leaf? = some a) (hw : w.leaf? = some b) :
    equalBy cells v w = some (decide (a = b)) := by
  cases v <;> cases hv <;> cases w <;> cases hw <;>
    simp [equalBy, number?, same, beq_eq_decide]

theorem equalBy_leaf_tuple (hv : v.leaf? = some a) (ws : List Value) :
    equalBy cells v (.tuple ws) = some false ∧ equalBy cells (.tuple ws) v = some false := by
  cases v <;> cases hv <;> simp [equalBy, number?, same]

theorem equalBy_leaf_ref (hv : v.leaf? = some a) (x : Nat) :
    equalBy cells v (.ref x) = some false ∧ equalBy cells (.ref x) v = some false := by
  cases v <;> cases hv <;> simp [equalBy, number?, same]

theorem equalBy_tuple_ref (vs : List Value) (x : Nat) :
    equalBy cells (.tuple vs) (.ref x) = some false ∧
      equalBy cells (.ref x) (.tuple vs) = some false := by
  simp [equalBy, number?, same]

theorem allAnswer_zip (vs ws : List Value) :
    allAnswer (fun p => equalBy cells p.1 p.2) (vs.zip ws) = allEqualBy cells vs ws := by
  induction vs generalizing ws with
  | nil => simp [allAnswer, allEqualBy]
  | cons v vs ih =>
    cases ws with
    | nil => simp [allAnswer, allEqualBy]
    | cons w ws => rw [List.zip_cons_cons, allAnswer, allEqualBy, ih]

end Value

namespace Heap

variable {h : Heap}

theorem size_node_le {n : Nat} {k : SequenceKind} {ss : List Tree}
    (hn : sizeOf (Tree.node k ss) ≤ n) : ∃ m, n = m + 1 ∧ sizeOf ss ≤ m := by
  rw [Tree.node.sizeOf_spec] at hn
  exact ⟨n - 1, by omega, by omega⟩

/-- Sequences of one kind are equal if they have as many parts and these are equal. -/
theorem equal_of_parts {k : SequenceKind} {vs ws : List Value} {ss ts : List Tree}
    {answer : Option Bool} (hv : h.AllShow vs ss) (hw : h.AllShow ws ts)
    (heq : vs.length = ws.length → answer = some (decide (ss = ts))) :
    (if vs.length == ws.length then answer else some false) =
      some (decide (Tree.node k ss = Tree.node k ts)) := by
  by_cases hlength : vs.length = ws.length
  · rw [if_pos (beq_iff_eq.mpr hlength), heq hlength]
    simp
  · have hne : ss ≠ ts := by
      rintro rfl
      exact hlength (hv.length_eq.trans hw.length_eq.symm)
    rw [if_neg (mt beq_iff_eq.mp hlength)]
    simp [hne]

mutual

/-- A walk that is as long as a tree is large finds out whether another one is the same. -/
theorem Shows.equalBy_eq {v w : Value} {s t : Tree} {n : Nat} (hv : h.Shows v s)
    (hw : h.Shows w t) (hn : sizeOf s ≤ n) :
    Value.equalBy (h.cellsEqual n) v w = some (decide (s = t)) := by
  cases hv with
  | leaf ha =>
    cases hw with
    | leaf hb =>
      rw [Value.equalBy_leaf ha hb]
      simp
    | tuple _ =>
      rw [(Value.equalBy_leaf_tuple ha _).1]
      simp
    | list _ _ =>
      rw [(Value.equalBy_leaf_ref ha _).1]
      simp
  | @tuple vs ss hvs =>
    obtain ⟨m, rfl, hm⟩ := size_node_le hn
    cases hw with
    | leaf hb =>
      rw [(Value.equalBy_leaf_tuple hb _).2]
      simp
    | @tuple ws ts hws =>
      rw [Value.equalBy]
      exact equal_of_parts hvs hws fun hlength =>
        hvs.allEqualBy_eq hws (Nat.le_succ_of_le hm) hlength
    | list _ _ =>
      rw [(Value.equalBy_tuple_ref _ _).1]
      simp
  | @list x vs ss hx hvs =>
    obtain ⟨m, rfl, hm⟩ := size_node_le hn
    cases hw with
    | leaf hb =>
      rw [(Value.equalBy_leaf_ref hb _).2]
      simp
    | tuple hws =>
      rw [(Value.equalBy_tuple_ref _ _).2]
      simp
    | @list y ws ts hy hws =>
      rw [Value.equalBy]
      by_cases hxy : x = y
      · subst hxy
        rw [hx] at hy
        cases hy
        rw [if_pos (beq_self_eq_true x), hvs.unique hws]
        simp
      · rw [if_neg (mt beq_iff_eq.mp hxy), cellsEqual, cellsEqualBy, hx, hy]
        refine equal_of_parts hvs hws fun hlength => ?_
        exact (Value.allAnswer_zip _ _).trans (hvs.allEqualBy_eq hws hm hlength)

theorem AllShow.allEqualBy_eq {vs ws : List Value} {ss ts : List Tree} {n : Nat}
    (hv : h.AllShow vs ss) (hw : h.AllShow ws ts) (hn : sizeOf ss ≤ n)
    (hlength : vs.length = ws.length) :
    Value.allEqualBy (h.cellsEqual n) vs ws = some (decide (ss = ts)) := by
  cases hv with
  | nil =>
    cases hw with
    | nil =>
      rw [Value.allEqualBy]
      · simp
      · simp
    | cons _ _ => cases hlength
  | @cons v vs s ss hv hvs =>
    cases hw with
    | nil => cases hlength
    | @cons w ws t ts hw hws =>
      rw [List.cons.sizeOf_spec] at hn
      rw [Value.allEqualBy, hv.equalBy_eq hw (by omega)]
      by_cases hst : s = t
      · have hrest := hvs.allEqualBy_eq hws (n := n) (by omega) (Nat.succ.inj hlength)
        simp [hst, hrest]
      · simp [hst]

end

/-- Values are equal if they are the same tree. -/
theorem Shows.equal?_eq {v w : Value} {s t : Tree} (hv : h.Shows v s) (hw : h.Shows w t) :
    h.equal? v w = some (decide (s = t)) := by
  have hlong := hv.equalBy_eq hw (Nat.le_max_right h.walkBound (sizeOf s))
  rw [h.cellsEqual_stable (Nat.le_max_left _ _)] at hlong
  exact hlong

/-! ### Order -/

end Heap

namespace Value

variable {equal : Value → Value → Option Bool} {cells : Nat → Nat → Except Unordered Ordering}
  {v w : Value} {a b : Leaf}

theorem compareBy_leaf (hv : v.leaf? = some a) (hw : w.leaf? = some b) :
    (compareBy equal cells v w).toOption = a.compare? b := by
  cases v <;> cases hv <;> cases w <;> cases hw <;>
    simp [compareBy, compareNumbers, number?, Leaf.compare?, Except.toOption]

theorem compareBy_leaf_tuple (hv : v.leaf? = some a) (ws : List Value) :
    (compareBy equal cells v (.tuple ws)).toOption = Option.none ∧
      (compareBy equal cells (.tuple ws) v).toOption = Option.none := by
  cases v <;> cases hv <;> simp [compareBy, compareNumbers, number?, Except.toOption]

theorem compareBy_leaf_ref (hv : v.leaf? = some a) (x : Nat) :
    (compareBy equal cells v (.ref x)).toOption = Option.none ∧
      (compareBy equal cells (.ref x) v).toOption = Option.none := by
  cases v <;> cases hv <;> simp [compareBy, compareNumbers, number?, Except.toOption]

theorem compareBy_tuple_ref (vs : List Value) (x : Nat) :
    (compareBy equal cells (.tuple vs) (.ref x)).toOption = Option.none ∧
      (compareBy equal cells (.ref x) (.tuple vs)).toOption = Option.none := by
  simp [compareBy, compareNumbers, number?, Except.toOption]

end Value

namespace Heap

variable {h : Heap}

mutual

/-- A walk that is as long as a tree is large finds out which order another one has with it. -/
theorem Shows.compareBy_eq {v w : Value} {s t : Tree} {n : Nat} (hv : h.Shows v s)
    (hw : h.Shows w t) (hn : sizeOf s ≤ n) :
    (Value.compareBy h.equal? (h.compareCells n) v w).toOption = s.compare? t := by
  cases hv with
  | leaf ha =>
    rw [Tree.compare?.eq_def]
    cases hw with
    | leaf hb => exact Value.compareBy_leaf ha hb
    | tuple _ => exact (Value.compareBy_leaf_tuple ha _).1
    | list _ _ => exact (Value.compareBy_leaf_ref ha _).1
  | tuple hvs =>
    obtain ⟨m, rfl, hm⟩ := size_node_le hn
    cases hw with
    | leaf hb => exact (Value.compareBy_leaf_tuple hb _).2
    | tuple hws =>
      rw [Value.compareBy, Tree.compare?, if_pos rfl]
      exact hvs.compareAllBy_eq hws (Nat.le_succ_of_le hm)
    | list _ _ => exact (Value.compareBy_tuple_ref _ _).1
  | list hx hvs =>
    obtain ⟨m, rfl, hm⟩ := size_node_le hn
    cases hw with
    | leaf hb => exact (Value.compareBy_leaf_ref hb _).2
    | tuple hws => exact (Value.compareBy_tuple_ref _ _).2
    | list hy hws =>
      rw [Value.compareBy, compareCells, compareCellsBy, hx, hy, Tree.compare?, if_pos rfl]
      exact hvs.compareAllBy_eq hws hm

theorem AllShow.compareAllBy_eq {vs ws : List Value} {ss ts : List Tree} {n : Nat}
    (hv : h.AllShow vs ss) (hw : h.AllShow ws ts) (hn : sizeOf ss ≤ n) :
    (Value.compareAllBy h.equal? (h.compareCells n) vs ws).toOption = Tree.compareAll? ss ts := by
  cases hv with
  | nil =>
    cases hw with
    | nil => rfl
    | cons _ _ => rfl
  | @cons v vs s ss hv hvs =>
    cases hw with
    | nil => rfl
    | @cons w ws t ts hw hws =>
      rw [List.cons.sizeOf_spec] at hn
      rw [Value.compareAllBy, Tree.compareAll?, hv.equal?_eq hw]
      by_cases hst : s = t
      · rw [decide_eq_true hst, if_pos hst]
        exact hvs.compareAllBy_eq hws (by omega)
      · rw [decide_eq_false hst, if_neg hst]
        exact hv.compareBy_eq hw (by omega)

end

/-- Values have the order of their trees. -/
theorem Shows.compare?_eq {v w : Value} {s t : Tree} (hv : h.Shows v s) (hw : h.Shows w t) :
    (h.compare? v w).toOption = s.compare? t := by
  have hlong := hv.compareBy_eq hw (Nat.le_max_right h.walkBound (sizeOf s))
  rw [h.compareCells_stable (Nat.le_max_left _ _)] at hlong
  exact hlong

end Heap

/-!
## Values without numbers in heaps without cycles

In a heap in which no slot leads back to itself, a value is a tree if it and everything that can be
reached from it is built without numbers (`Numberless.shows`). What cannot be reached from a value
has no part in its tree (`Shows.alter`).
-/

/-- Values that are built from `None`, `...`, strings, bytes, paths and references. -/
inductive Value.Numberless : Value → Prop
  | none : Numberless .none
  | ellipsis : Numberless .ellipsis
  | str (s) : Numberless (.str s)
  | bytes (data) : Numberless (.bytes data)
  | path (p) : Numberless (.path p)
  | tuple {vs} : (∀ v ∈ vs, Numberless v) → Numberless (.tuple vs)
  | ref (x) : Numberless (.ref x)

namespace Heap

/-- A slot refers to another one. -/
def Refers (h : Heap) (x y : Nat) : Prop := ∃ c, h.cell? x = some c ∧ c.Mentions y

/-- No slot leads back to itself. -/
def Acyclic (h : Heap) : Prop := ∀ x, ¬ Relation.TransGen h.Refers x x

/-- A value that is built without numbers: only lists can be reached from it, and their items are
built without numbers as well. -/
structure Numberless (h : Heap) (v : Value) : Prop where
  value : v.Numberless
  list : ∀ x, h.Reaches (· = v) x →
    ∃ items, h.cell? x = some (.list items) ∧ ∀ w ∈ items.toList, w.Numberless

variable {h : Heap} {v w : Value} {x y : Nat}

theorem Reaches.imp {held held' : Value → Prop} (hheld : ∀ v x, held v → v.Mentions x →
    h.Reaches held' x) (hx : h.Reaches held x) : h.Reaches held' x := by
  induction hx with
  | held hv hx => exact hheld _ _ hv hx
  | through _ hc hy ih => exact .through ih hc hy

/-- The items of a tuple are built without numbers if the tuple is. -/
theorem Numberless.item {vs : List Value} (hvs : h.Numberless (.tuple vs)) (hv : v ∈ vs) :
    h.Numberless v where
  value := by
    cases hvs.value with
    | tuple hall => exact hall v hv
  list x hx := by
    refine hvs.list x (hx.imp ?_)
    rintro _ y rfl hy
    exact .held rfl (.tuple hv hy)

/-- The items of a list are built without numbers if the list is. -/
theorem Numberless.listItem {items : Array Value} (hx : h.Numberless (.ref x))
    (hcell : h.cell? x = some (.list items)) (hv : v ∈ items.toList) : h.Numberless v where
  value := by
    obtain ⟨items', hcell', hall⟩ := hx.list x (.held rfl (.ref x))
    rw [hcell] at hcell'
    cases hcell'
    exact hall v hv
  list y hy := by
    refine hx.list y (hy.imp ?_)
    rintro _ z rfl hz
    exact .through (.held rfl (.ref x)) hcell (.item hv hz)

/-! ### Trees -/

theorem exists_allShow {vs : List Value} (hvs : ∀ v ∈ vs, ∃ t, h.Shows v t) :
    ∃ ts, h.AllShow vs ts := by
  induction vs with
  | nil => exact ⟨[], .nil⟩
  | cons v vs ih =>
    obtain ⟨t, ht⟩ := hvs v List.mem_cons_self
    obtain ⟨ts, hts⟩ := ih fun w hw => hvs w (List.mem_cons_of_mem v hw)
    exact ⟨t :: ts, .cons ht hts⟩

/-- A value is a tree if the lists are that it refers to. -/
theorem Numberless.shows_of_refs (hv : h.Numberless v)
    (hrefs : ∀ x, v.Mentions x → ∃ t, h.Shows (.ref x) t) : ∃ t, h.Shows v t := by
  have hvalue := hv.value
  induction hvalue with
  | none => exact ⟨_, .leaf rfl⟩
  | ellipsis => exact ⟨_, .leaf rfl⟩
  | str s => exact ⟨_, .leaf rfl⟩
  | bytes data => exact ⟨_, .leaf rfl⟩
  | path p => exact ⟨_, .leaf rfl⟩
  | ref x => exact hrefs x (.ref x)
  | @tuple vs _ ih =>
    have hitems : ∀ v ∈ vs, ∃ t, h.Shows v t := fun v hmem =>
      ih v hmem (hv.item hmem) fun x hx => hrefs x (.tuple hmem hx)
    obtain ⟨ts, hts⟩ := exists_allShow hitems
    exact ⟨_, .tuple hts⟩

theorem Numberless.mentioned (hv : h.Numberless v) (hx : v.Mentions x) : h.Numberless (.ref x) where
  value := .ref x
  list y hy := by
    refine hv.list y (hy.imp ?_)
    rintro _ z rfl hz
    cases hz
    exact .held rfl hx

theorem lt_size_of_cell? {c : Cell} (hcell : h.cell? x = some c) : x < h.slots.size := by
  by_contra hx
  rw [cell?_eq_slot?, slot?_eq_none_of_size_le (Nat.le_of_not_lt hx)] at hcell
  cases hcell

/-- A list is a tree: the induction goes from the items to the list, which they do not lead to. -/
theorem Acyclic.exists_shows_ref (hh : h.Acyclic) (hx : h.Numberless (.ref x)) :
    ∃ t, h.Shows (.ref x) t := by
  let below (y x : Nat) : Prop := Relation.TransGen h.Refers x y
  have : IsStrictOrder Nat below := {
    irrefl := fun x => hh x
    trans := fun _ _ _ hab hbc => hbc.trans hab }
  have hwf := (Set.finite_lt_nat h.slots.size).wellFoundedOn (r := below)
  obtain ⟨_, hcell, -⟩ := hx.list x (.held rfl (.ref x))
  refine hwf.induction (P := fun x => h.Numberless (.ref x) → ∃ t, h.Shows (.ref x) t)
    (lt_size_of_cell? hcell) (fun y _ ih hy => ?_) hx
  obtain ⟨items, hcell, -⟩ := hy.list y (.held rfl (.ref y))
  have hitems : ∀ v ∈ items.toList, ∃ t, h.Shows v t := fun v hv => by
    have hnumberless := hy.listItem hcell hv
    refine hnumberless.shows_of_refs fun z hz => ?_
    obtain ⟨_, hz', -⟩ := hnumberless.list z (.held rfl hz)
    exact ih z (lt_size_of_cell? hz') (.single ⟨_, hcell, .item hv hz⟩) (hnumberless.mentioned hz)
  obtain ⟨ts, hts⟩ := exists_allShow hitems
  exact ⟨_, .list hcell hts⟩

/-- Every value that is built without numbers is a tree. -/
theorem Numberless.shows (hh : h.Acyclic) (hv : h.Numberless v) : ∃ t, h.Shows v t :=
  hv.shows_of_refs fun _ hx => hh.exists_shows_ref (hv.mentioned hx)

/-! ### Slots that have no part in a tree -/

variable {id : Nat} {f : Slot → Slot}

mutual

theorem Shows.alter : {v : Value} → {t : Tree} → h.Shows v t → ¬ h.Reaches (· = v) id →
    (h.alter id f).Shows v t
  | _, _, .leaf ha, _ => .leaf ha
  | _, _, .tuple hvs, hid => by
    refine .tuple (hvs.alter fun v hv hreach => hid (hreach.imp ?_))
    rintro _ x rfl hx
    exact .held rfl (.tuple hv hx)
  | _, _, .list (x := x) hx hvs, hid => by
    have hne : id ≠ x := by
      rintro rfl
      exact hid (.held rfl (.ref _))
    refine .list ?_ (hvs.alter fun v hv hreach => hid (hreach.imp ?_))
    · rw [cell?_eq_slot?, slot?_alter, if_neg hne, ← cell?_eq_slot?]
      exact hx
    · rintro _ y rfl hy
      exact .through (.held rfl (.ref x)) hx (.item hv hy)

theorem AllShow.alter : {vs : List Value} → {ts : List Tree} → h.AllShow vs ts →
    (∀ v ∈ vs, ¬ h.Reaches (· = v) id) → (h.alter id f).AllShow vs ts
  | _, _, .nil, _ => .nil
  | _, _, .cons hv hvs, hid =>
    .cons (hv.alter (hid _ List.mem_cons_self))
      (hvs.alter fun w hw => hid w (List.mem_cons_of_mem _ hw))

end

theorem Reaches.exists_mentions (hy : h.Reaches (· = v) y) :
    ∃ x, v.Mentions x ∧ Relation.ReflTransGen h.Refers x y := by
  induction hy with
  | held hv hx =>
    subst hv
    exact ⟨_, hx, .refl⟩
  | through _ hc hy ih =>
    obtain ⟨x, hx, hrest⟩ := ih
    exact ⟨x, hx, hrest.tail ⟨_, hc, hy⟩⟩

/-- The items of a list do not lead to the list. -/
theorem Acyclic.not_reaches (hh : h.Acyclic) {items : Array Value}
    (hcell : h.cell? id = some (.list items)) (hv : v ∈ items.toList) :
    ¬ h.Reaches (· = v) id := by
  intro hreach
  obtain ⟨x, hx, hrest⟩ := hreach.exists_mentions
  exact hh id (.head' ⟨_, hcell, .item hv hx⟩ hrest)

end Heap

end Resumable
