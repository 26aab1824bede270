import Resumable.Machine.Step
import Resumable.Proofs.Lockstep.Call
import Resumable.Proofs.Lockstep.Iteration

/-!
# Instructions in lockstep

Main statement: `executeNext_agrees`, machines that are paired execute their next instruction alike.
-/

namespace Resumable.Machine

open List (Forall₂)

variable {κ : World} {p q : Pairing}

/-! ## Exceptions -/

theorem raiseValue_agrees {v w : Value} (hvw : v.Alike κ p w) :
    Agrees κ p Same (raiseValue v) (raiseValue w) := by
  cases hvw <;> exact .fail _

theorem reraise_agrees : Agrees κ p Same reraise reraise := by
  refine .read fun m n h => ?_
  rw [h.handled]
  cases n.handled with
  | nil => exact .fail _
  | cons e _ => exact fun m n h => .error _ le_rfl { h with reraising := rfl }

theorem matchesAny_eq (type : ExceptionType) {vs ws : List Value} (h : AllAlike κ p vs ws) :
    matchesAny type vs = matchesAny type ws := by
  induction h with
  | nil => rfl
  | cons h _ ih =>
    cases h with
    | excClass c => rw [matchesAny, matchesAny, ih]
    | _ => rfl

theorem matchesException_eq {v w a b : Value} (hvw : v.Alike κ p w) (hab : a.Alike κ p b) :
    matchesException v a = matchesException w b := by
  cases hvw with
  | exception e => cases hab with
    | tuple h => simp only [matchesException, matchesAny_eq e.type h]
    | _ => rfl
  | _ => rfl

/-! ## Futures -/

theorem Alike.future? [κ.Joint] {m n : Machine} (h : m.Alike κ p n) (id : Nat) :
    Option.Rel (Future.Alike κ p) (m.future? id) (n.future? id) := by
  unfold Machine.future?
  have := h.futures.all
  revert this
  generalize m.futures = xs
  generalize n.futures = ys
  intro hs
  induction hs with
  | nil => exact .none
  | @cons x y _ _ hxy _ ih =>
    obtain ⟨i, f⟩ := x
    obtain ⟨j, g⟩ := y
    obtain ⟨rfl : i = j, hfg, -⟩ := hxy
    simp only [List.lookup_cons]
    split
    · exact .some hfg
    · exact ih

theorem Alike.isPending_eq [κ.Joint] {m n : Machine} (h : m.Alike κ p n) :
    m.isPending = n.isPending := by
  funext id
  unfold Machine.isPending
  obtain ⟨hx, hy⟩ | ⟨x, y, hx, hy, hxy⟩ := (h.future? id).elim <;> rw [hx, hy]
  cases hxy <;> rfl

theorem Alike.known [κ.Joint] {m n : Machine} (h : m.Alike κ p n) {id : Nat}
    (hid : m.isPending id = true) : κ.future id := by
  rw [Machine.isPending, Machine.future?] at hid
  have hs := h.futures.all
  revert hid hs
  generalize m.futures = xs
  generalize n.futures = ys
  intro hid hs
  induction hs with
  | nil => cases hid
  | @cons x y _ _ hxy _ ih =>
    obtain ⟨i, f⟩ := x
    rw [List.lookup_cons] at hid
    cases hi : id == i with
    | true => exact beq_iff_eq.mp hi ▸ hxy.known
    | false => rw [hi] at hid; exact ih hid

theorem Alike.pendingFutures_eq [κ.Joint] {m n : Machine} (h : m.Alike κ p n) :
    m.pendingFutures = n.pendingFutures := by
  unfold Machine.pendingFutures
  have := h.futures.all
  revert this
  generalize m.futures = xs
  generalize n.futures = ys
  intro hs
  induction hs with
  | nil => rfl
  | @cons x y _ _ hxy _ ih =>
    obtain ⟨i, f⟩ := x
    obtain ⟨j, g⟩ := y
    obtain ⟨rfl : i = j, hfg, -⟩ := hxy
    cases hfg <;> simp only [List.filterMap_cons, ih]

/-- The same is known of a future. -/
abbrev KnownAlike (κ : World) (p : Pairing) (m n : Machine) (id : Nat) : Prop :=
  Option.Rel (Future.Alike κ p) (m.future? id) (n.future? id)

theorem KnownAlike.mono {m n : Machine} {id : Nat} (h : KnownAlike κ p m n id) (hpq : p ≤ q) :
    KnownAlike κ q m n id := by
  obtain ⟨ha, hb⟩ | ⟨a, b, ha, hb, hab⟩ := h.elim <;> rw [KnownAlike, ha, hb]
  · exact .none
  · exact .some (hab.mono hpq)

theorem awaited_alike {m n : Machine} {v w : Value} (hvw : v.Alike κ p w)
    (h : ∀ id, v = .future id → KnownAlike κ p m n id) :
    SameEnd Eq (Value.Alike κ p) (m.awaited v) (n.awaited w) := by
  have self : SameEnd (δ := Failure) (ε := Failure) Eq (Value.Alike κ p) (.ok v) (.ok w) := .ok hvw
  cases hvw with
  | future id =>
    simp only [Machine.awaited]
    obtain ⟨hx, hy⟩ | ⟨x, y, hx, hy, hxy⟩ := (h id rfl).elim <;> rw [hx, hy]
    · exact .error rfl
    · cases hxy with
      | pending => exact .error rfl
      | resolved h => exact .ok h
      | failed e => exact .error rfl
  | _ => exact self

theorem awaitedAll_alike {m n : Machine} {vs ws : List Value} (hvs : AllAlike κ p vs ws)
    (h : ∀ id, .future id ∈ vs → KnownAlike κ p m n id) :
    SameEnd Eq (AllAlike κ p) (vs.mapM m.awaited) (ws.mapM n.awaited) := by
  induction hvs with
  | nil => exact .ok .nil
  | cons hvw _ ih =>
    have hhead := awaited_alike hvw fun id hid => h id (hid ▸ List.mem_cons_self)
    have htail := ih fun id hid => h id (List.mem_cons_of_mem _ hid)
    rw [List.mapM_cons, List.mapM_cons]
    obtain ⟨a, b, ha, hb, hab⟩ | ⟨e, d, he, hd, rfl⟩ := hhead.elim
    · obtain ⟨as, bs, has, hbs, hs⟩ | ⟨e, d, he, hd, rfl⟩ := htail.elim
      · rw [ha, hb, has, hbs]
        exact .ok (.cons hab hs)
      · rw [ha, hb, he, hd]
        exact .error rfl
    · rw [he, hd]
      exact .error rfl

theorem awaitedFutures_eq {v w : Value} (hvw : v.Alike κ p w) :
    awaitedFutures v = awaitedFutures w := by
  cases hvw with
  | gather hvs =>
    simp only [awaitedFutures]
    congr 1
    induction hvs with
    | nil => rfl
    | cons h _ ih => cases h <;> simp only [List.filterMap_cons, ih]
  | _ => rfl

theorem awaitedOne_agrees {m n : Machine} {v w : Value} (hvw : v.Alike κ p w)
    (h : ∀ id, v = .future id → KnownAlike κ p m n id) :
    Machine.Agrees κ p (Value.Alike κ)
      (match m.awaited v with
        | .ok v => pure v
        | .error e => throw e)
      (match n.awaited w with
        | .ok v => pure v
        | .error e => throw e) := by
  obtain ⟨a, b, ha, hb, hab⟩ | ⟨e, d, he, hd, rfl⟩ := (awaited_alike hvw h).elim
  · rw [ha, hb]
    exact .ret hab
  · rw [he, hd]
    exact .fail _

theorem awaitedValue_agrees {m n : Machine} {v w : Value} (hvw : v.Alike κ p w)
    (h : ∀ ids, awaitedFutures v = some ids → ∀ id ∈ ids, KnownAlike κ p m n id) :
    Machine.Agrees κ p (Value.Alike κ) (awaitedValue m v) (awaitedValue n w) := by
  have one := awaitedOne_agrees (m := m) (n := n) hvw
    fun id hid => h [id] (hid ▸ rfl) id List.mem_cons_self
  cases hvw with
  | gather hvs =>
    simp only [Machine.awaitedValue]
    have hall := awaitedAll_alike hvs fun id hid =>
      h _ rfl id (List.mem_filterMap.mpr ⟨_, hid, rfl⟩)
    obtain ⟨as, bs, ha, hb, hab⟩ | ⟨e, d, he, hd, rfl⟩ := hall.elim
    · rw [ha, hb]
      exact onHeap_agrees (Heap.allocList_agrees hab)
    · rw [he, hd]
      exact .fail _
  | _ => exact one

/-- Nothing that the topmost operand waits for is pending. -/
theorem takeResult_agrees {m n : Machine} {v w : Value} (hvw : v.Alike κ p w)
    (h : ∀ ids, awaitedFutures v = some ids → ∀ id ∈ ids, KnownAlike κ p m n id) :
    Agrees κ p (EndAlike κ)
      (do let _ ← pop
          push (← awaitedValue m v)
          return none)
      (do let _ ← pop
          push (← awaitedValue n w)
          return none) := by
  refine pop_agrees.bind fun q hq _ _ _ => ?_
  refine (awaitedValue_agrees (hvw.mono hq) fun ids hids id hid =>
    (h ids hids id hid).mono hq).bind fun _ _ _ _ h => ?_
  exact (push_agrees h).bind fun _ _ _ _ _ => .ret .none

theorem await_agrees [κ.Joint] : Agrees κ p (EndAlike κ) await await := by
  refine peek_agrees.bind fun q hq v w hvw => .read fun m n h => ?_
  rw [awaitedFutures_eq hvw, Heap.typeName_eq h.heap.toLinked hvw]
  cases awaitedFutures w with
  | none => exact .fail _
  | some ids =>
    simp only [h.toAlike.isPending_eq, h.toAlike.pendingFutures_eq]
    refine .fork Iff.rfl (fun hpending => ?_) fun _ => ?_
    · obtain ⟨id, -, hid⟩ := List.any_eq_true.mp hpending
      have hknown : κ.future id := h.toAlike.known (by rw [h.toAlike.isPending_eq]; exact hid)
      refine Agree.bind (modifyFrame_agrees fun _ _ h => ?_) fun _ _ _ _ _ => ?_
      · exact { h with next := by rw [h.next] }
      · exact (trace_agrees fun _ _ _ => rfl).bind
          fun _ _ _ _ _ => .ret (.some (.blocked _ ⟨id, hknown⟩))
    · exact takeResult_agrees hvw fun _ _ id _ => h.toAlike.future? id

/-! ## Operands -/

theorem sliceBound_agrees {v w : Value} (hvw : v.Alike κ p w) :
    Agrees κ p Same (sliceBound v) (sliceBound w) := by
  cases hvw with
  | none => exact .ret rfl
  | int i => exact .ret rfl
  | bool b => exact .ret rfl
  | _ => exact .fail _

theorem dictOf_agrees {d e : Dict} (hde : d.Alike κ p e) {vs ws : List Value}
    (h : AllAlike κ p vs ws) : Heap.Agrees κ p (Dict.Alike κ) (dictOf d vs) (dictOf e ws) := by
  induction d, vs using dictOf.induct generalizing p e ws with
  | case1 d name value vs ih =>
    cases h with
    | cons hname h => cases h with
      | cons hvalue hs =>
        refine (Heap.key_agrees hname).bind fun q hq key _ h => ?_
        subst h
        exact ih key ((hde.mono hq).insert key (hname.mono hq) (hvalue.mono hq))
          (AllAlike.mono hs hq)
  | case2 d vs hvs =>
    rcases h with _ | ⟨h, _ | ⟨h', hs⟩⟩
    · exact .ret hde
    · exact .ret hde
    · exact (hvs _ _ _ rfl).elim

theorem spreadItems_agrees {v w : Value} (hvw : v.Alike κ p w) :
    Agrees κ p (Value.Alike κ)
      (do let h := (← get).heap
          match h.items? v with
          | some items => return .tuple items.toList
          | none =>
            throw (.typeError s!"argument after * must be an iterable, not {h.typeName v}"))
      (do let h := (← get).heap
          match h.items? w with
          | some items => return .tuple items.toList
          | none =>
            throw (.typeError s!"argument after * must be an iterable, not {h.typeName w}")) := by
  refine .read fun m n h => ?_
  simp only [Heap.typeName_eq h.heap.toLinked hvw]
  obtain ⟨ha, hb⟩ | ⟨a, b, ha, hb, hab⟩ := (Heap.items?_alike h.heap.toLinked hvw).elim <;>
    rw [ha, hb]
  · exact .fail _
  · exact .ret (.tuple hab)

theorem spread_agrees {v w : Value} (hvw : v.Alike κ p w) :
    Agrees κ p (Value.Alike κ) (spread v) (spread w) := by
  have other := spreadItems_agrees hvw
  cases hvw with
  | tuple hvs => exact .ret (.tuple hvs)
  | _ => exact other

theorem popPacked_agrees : Agrees κ p (AllAlike κ) popPacked popPacked := by
  refine pop_agrees.bind fun q _ _ _ h => ?_
  cases h with
  | tuple hvs => exact .ret hvs
  | _ => exact .ret .nil

/-! ## The instructions -/

theorem loadLocal_agrees (code : Bytecode) (slot : Nat) :
    Agrees κ p Same (loadLocal code slot) (loadLocal code slot) := by
  refine .read fun m n h => ?_
  rw [h.frame.function]
  obtain ⟨ha, hb⟩ | ⟨a, b, ha, hb, hab⟩ := (h.frame.locals.getElem? slot).elim <;> rw [ha, hb]
  · exact .fail _
  · have loaded := push_agrees hab
    cases hab with
    | undefined => exact .fail _
    | _ => exact loaded

theorem loadGlobal_agrees (code : Bytecode) (slot : Nat) :
    Agrees κ p Same (loadGlobal code slot) (loadGlobal code slot) := by
  refine .read fun m n h => ?_
  obtain ⟨ha, hb⟩ | ⟨a, b, ha, hb, hab⟩ := (h.globals.getElem? slot).elim <;> rw [ha, hb]
  · exact .fail _
  · have loaded := push_agrees hab
    cases hab with
    | undefined => exact .fail _
    | _ => exact loaded

theorem storeGlobal_agrees (slot : Nat) {v w : Value} (hvw : v.Alike κ p w) :
    Agrees κ p Same (storeGlobal slot v) (storeGlobal slot w) := by
  refine modify_agrees fun m n h => { h with globals := set_alike ?_ slot hvw }
  simp only [ItemsAlike, Array.toList_appendList, h.globals.size_eq]
  exact List.Forall₂.append h.globals (List.Forall₂.replicate .undefined _)

theorem popAndJumpIf_agrees (wanted : Bool) (target : Nat) :
    Agrees κ p Same (popAndJumpIf wanted target) (popAndJumpIf wanted target) := by
  refine pop_agrees.bind fun q _ v w hvw => .read fun m n h => ?_
  rw [Heap.isTruthy_eq h.heap.toLinked hvw]
  exact .fork Iff.rfl (fun _ => jump_agrees target) fun _ => .ret rfl

theorem jumpIfOrPop_agrees (wanted : Bool) (target : Nat) :
    Agrees κ p Same (jumpIfOrPop wanted target) (jumpIfOrPop wanted target) := by
  refine peek_agrees.bind fun q _ v w hvw => .read fun m n h => ?_
  rw [Heap.isTruthy_eq h.heap.toLinked hvw]
  exact .fork Iff.rfl (fun _ => jump_agrees target) fun _ =>
    pop_agrees.bind fun _ _ _ _ _ => .ret rfl

theorem nextItem_agrees : Agrees κ p (MaybeAlike κ) nextItem nextItem := by
  refine peek_agrees.bind fun q _ _ _ hvw => ?_
  cases hvw with
  | ref h => exact onHeap_agrees (Heap.next_agrees h)
  | _ => exact .ret .none

theorem lastOf_alike {vs ws : List Value} (h : AllAlike κ p vs ws) (n : Nat) :
    AllAlike κ p (lastOf n vs) (lastOf n ws) := by
  unfold lastOf
  rw [h.length_eq]
  exact List.forall₂_drop _ h

theorem leave_agrees : Agrees κ p (EndAlike κ) leave leave := by
  refine pop_agrees.bind fun q hq v w hvw => ?_
  refine Agree.bind (modify_agrees fun m n h => ?_) fun r hr _ _ _ => .read fun m n h => ?_
  · exact { h with
      stack := by rw [h.frame.base]; exact lastOf_alike h.stack _
      handled := by rw [h.frame.handledBase, h.handled] }
  · have hcallers := h.callers
    revert hcallers
    generalize m.callers = fs
    generalize n.callers = gs
    intro hcallers
    cases hcallers with
    | nil => exact .ret (.some (.returned (hvw.mono hr)))
    | cons hfg hs =>
      refine Agree.bind (modify_agrees fun m n h => ?_) fun t ht _ _ _ => ?_
      · exact { h with frame := hfg, callers := hs }
      · refine (push_agrees (hvw.mono (hr.trans ht))).bind fun _ _ _ _ _ => ?_
        exact (trace_agrees fun m n h => by rw [h.depth_eq]).bind fun _ _ _ _ _ => .ret .none

theorem ofLiteral_alike (l : Literal) :
    (Value.ofLiteral l).Alike κ p (Value.ofLiteral l) := by
  cases l <;> constructor

/-- An instruction that replaces its operands by what an action on the heap makes of them. -/
theorem pushed_agrees {a b : Heap.Action Value} (h : Heap.Agrees κ p (Value.Alike κ) a b) :
    Agrees κ p Same (do push (← onHeap a)) (do push (← onHeap b)) :=
  (onHeap_agrees h).bind fun _ _ _ _ h => push_agrees h

theorem converted_alike {h k : Heap} (hl : Heap.Linked κ p h k) {v w : Value}
    (hvw : v.Alike κ p w) (conversion : Conversion) :
    Value.Alike κ p
      (match conversion with
        | .none => v
        | .str => .str (h.text v)
        | .repr => .str (h.literal v))
      (match conversion with
        | .none => w
        | .str => .str (k.text w)
        | .repr => .str (k.literal w)) := by
  cases conversion with
  | none => exact hvw
  | str => exact Heap.text_eq hl hvw ▸ .str _
  | repr => exact Heap.literal_eq hl hvw ▸ .str _

theorem formatValue_agrees (code : Bytecode) (conversion : Conversion) (spec : Option Nat) :
    Agrees κ p Same (executePlain code (.formatValue conversion spec))
      (executePlain code (.formatValue conversion spec)) := by
  refine pop_agrees.bind fun q _ v w hvw => .read fun m n h => ?_
  have converted := converted_alike h.heap.toLinked hvw conversion
  refine .read fun m n h => ?_
  simp only [h.pool_eq]
  refine (onHeap_agrees (Heap.format_agrees converted _)).bind fun r _ text _ h => ?_
  subst h
  exact push_agrees (.str text)

theorem executePlain_agrees (code : Bytecode) (op : Op) :
    Agrees κ p Same (executePlain code op) (executePlain code op) := by
  cases op with
  | loadConst index => exact .read fun m n h => h.pool_eq code ▸ push_agrees (ofLiteral_alike _)
  | loadLocal slot => exact loadLocal_agrees code slot
  | storeLocal slot =>
    refine pop_agrees.bind fun q _ v w hvw => modifyFrame_agrees fun f g h => ?_
    exact { h with locals := set_alike h.locals slot hvw }
  | loadGlobal slot => exact loadGlobal_agrees code slot
  | storeGlobal slot => exact pop_agrees.bind fun _ _ _ _ h => storeGlobal_agrees slot h
  | loadBuiltin f => exact push_agrees (.builtin f)
  | loadExcClass type => exact push_agrees (.excClass type)
  | pop => exact pop_agrees.bind fun _ _ _ _ _ => .ret rfl
  | dup => exact peek_agrees.bind fun _ _ _ _ h => push_agrees h
  | dup2 =>
    refine modify_agrees fun m n h => { h with stack := ?_ }
    exact (List.forall₂_take 2 h.stack).append h.stack
  | rot2 =>
    refine modify_agrees fun m n h => ?_
    have hs := h.stack
    revert hs
    generalize hm : m.stack = vs
    generalize hn : n.stack = ws
    intro hs
    rcases hs with _ | ⟨hb, _ | ⟨ha, hs⟩⟩
    · exact h
    · exact h
    · exact { h with stack := .cons ha (.cons hb hs) }
  | rot3 =>
    refine modify_agrees fun m n h => ?_
    have hs := h.stack
    revert hs
    generalize hm : m.stack = vs
    generalize hn : n.stack = ws
    intro hs
    rcases hs with _ | ⟨hc, _ | ⟨hb, _ | ⟨ha, hs⟩⟩⟩
    · exact h
    · exact h
    · exact h
    · exact { h with stack := .cons hb (.cons ha (.cons hc hs)) }
  | binary op =>
    exact pop_agrees.bind fun _ _ _ _ hb => pop_agrees.bind fun _ hr _ _ ha =>
      pushed_agrees (Heap.binary_agrees op ha (hb.mono hr))
  | inplace op =>
    exact pop_agrees.bind fun _ _ _ _ hb => pop_agrees.bind fun _ hr _ _ ha =>
      pushed_agrees (Heap.inplace_agrees op ha (hb.mono hr))
  | compare op =>
    refine pop_agrees.bind fun _ _ _ _ hb => pop_agrees.bind fun _ hr _ _ ha => ?_
    refine (onHeap_agrees (Heap.comparison_agrees op ha (hb.mono hr))).bind fun _ _ _ _ h => ?_
    exact h ▸ push_agrees (.bool _)
  | not =>
    refine pop_agrees.bind fun q _ v w hvw => .read fun m n h => ?_
    rw [Heap.isTruthy_eq h.heap.toLinked hvw]
    exact push_agrees (.bool _)
  | neg => exact pop_agrees.bind fun _ _ _ _ h => pushed_agrees (Heap.negate_agrees h)
  | pos => exact pop_agrees.bind fun _ _ _ _ h => pushed_agrees (Heap.positive_agrees h)
  | buildList count =>
    exact (popMany_agrees count).bind fun _ _ _ _ h => pushed_agrees (Heap.allocList_agrees h)
  | buildTuple count => exact (popMany_agrees count).bind fun _ _ _ _ h => push_agrees (.tuple h)
  | buildDict count =>
    refine (popMany_agrees _).bind fun _ _ _ _ h => pushed_agrees ?_
    exact (dictOf_agrees .empty h).bind fun _ _ _ _ hde => Heap.alloc_agrees (.dict hde)
  | buildString count =>
    refine (popMany_agrees count).bind fun q _ _ _ hvs => .read fun m n h => ?_
    simp only [BuiltinCall.texts_eq h.heap.toLinked hvs]
    exact (onHeap_agrees (Heap.checkResult_agrees _)).bind fun _ _ _ _ _ => push_agrees (.str _)
  | formatValue conversion spec => exact formatValue_agrees code conversion spec
  | buildSlice =>
    refine (popMany_agrees 3).bind fun q _ _ _ hvs => ?_
    refine (Agree.mapM (T := Value.Alike κ) (R := Same) (fun hpq h => h.mono hpq) (fun _ h => h)
      hvs fun _ _ _ _ h => sliceBound_agrees h).bind fun r _ _ _ h => ?_
    rw [List.forall₂_eq_eq_eq] at h
    subst h
    split <;> exact push_agrees (.slice _ _ _)
  | toTuple =>
    exact pop_agrees.bind fun _ _ _ _ h => (spread_agrees h).bind fun _ _ _ _ h => push_agrees h
  | unpackSequence count =>
    refine pop_agrees.bind fun q _ _ _ h => ?_
    refine (onHeap_agrees (Index.unpack_agrees h count)).bind fun r _ _ _ hvs => ?_
    exact modify_agrees fun m n h => { h with stack := hvs.append h.stack }
  | subscript =>
    exact pop_agrees.bind fun _ _ _ _ hb => pop_agrees.bind fun _ hr _ _ ha =>
      pushed_agrees (Index.get_agrees ha (hb.mono hr))
  | storeSubscript =>
    exact pop_agrees.bind fun _ _ _ _ hc => pop_agrees.bind fun _ hr _ _ hb =>
      pop_agrees.bind fun _ hs _ _ ha =>
        onHeap_agrees (Index.set_agrees (hb.mono hs) (hc.mono (hr.trans hs)) ha)
  | jump target => exact jump_agrees target
  | jumpIfFalse target => exact popAndJumpIf_agrees false target
  | jumpIfTrue target => exact popAndJumpIf_agrees true target
  | jumpIfFalseOrPop target => exact jumpIfOrPop_agrees false target
  | jumpIfTrueOrPop target => exact jumpIfOrPop_agrees true target
  | getIter => exact pop_agrees.bind fun _ _ _ _ h => pushed_agrees (Heap.iterate_agrees h)
  | forIter target =>
    refine nextItem_agrees.bind fun q _ _ _ hvw => ?_
    cases hvw with
    | some h => exact push_agrees h
    | none => exact pop_agrees.bind fun _ _ _ _ _ => jump_agrees target
  | makeFunction function defaults =>
    exact (popMany_agrees defaults).bind fun _ _ _ _ h => push_agrees (.function function h)
  | importModule module => exact push_agrees (.module module)
  | setupExcept target =>
    refine modify_agrees fun m n h => ?_
    exact { h with frame := { h.frame with
      blocks := by rw [h.stack.length_eq, h.handled, h.frame.blocks] } }
  | popBlock =>
    simp only [executePlain]
    refine modifyFrame_agrees fun f g h => ?_
    exact { h with blocks := by rw [h.blocks] }
  | popExcept =>
    refine Agree.bind (modify_agrees fun m n h => ?_) fun q _ _ _ _ => ?_
    · exact { h with handled := by rw [h.handled] }
    · exact trace_agrees fun m n h => by rw [h.handled]
  | raise => exact pop_agrees.bind fun _ _ _ _ h => raiseValue_agrees h
  | reraise => exact reraise_agrees
  | checkExcMatch =>
    refine pop_agrees.bind fun _ _ _ _ hb => pop_agrees.bind fun _ hr _ _ ha => ?_
    rw [matchesException_eq ha (hb.mono hr)]
    split
    · exact push_agrees (.bool _)
    · exact .fail _
  | _ => exact .ret rfl

/-- An instruction that does not wait for a future. -/
theorem execute_agrees_of_ne_await (code : Bytecode) {op : Op} (hop : op ≠ .await) :
    Agrees κ p (EndAlike κ) (execute code op) (execute code op) := by
  cases op with
  | getAttr name =>
    refine pop_agrees.bind fun q _ _ _ h => .read fun m n hp => ?_
    rw [hp.pool_eq]
    exact getAttribute_agrees h _
  | call count keywords =>
    refine (popNamed_agrees code keywords).bind fun _ _ _ _ hnamed => ?_
    refine (popMany_agrees count).bind fun _ hr _ _ hpos => ?_
    refine pop_agrees.bind fun _ hs _ _ h => callValue_agrees code h ?_
    exact ⟨hpos.mono hs, hnamed.imp fun _ _ h => h.mono (hr.trans hs)⟩
  | callVar keywords =>
    refine (popNamed_agrees code keywords).bind fun _ _ _ _ hnamed => ?_
    refine popPacked_agrees.bind fun _ hr _ _ hpos => ?_
    refine pop_agrees.bind fun _ hs _ _ h => callValue_agrees code h ?_
    exact ⟨hpos.mono hs, hnamed.imp fun _ _ h => h.mono (hr.trans hs)⟩
  | callMethod name count keywords =>
    refine (popNamed_agrees code keywords).bind fun _ _ _ _ hnamed => ?_
    refine (popMany_agrees count).bind fun _ hr _ _ hpos => ?_
    refine pop_agrees.bind fun _ hs _ _ h => .read fun m n hp => ?_
    rw [hp.pool_eq]
    refine callMethod_agrees code h _ ?_
    exact ⟨hpos.mono hs, hnamed.imp fun _ _ h => h.mono (hr.trans hs)⟩
  | callMethodVar name keywords =>
    refine (popNamed_agrees code keywords).bind fun _ _ _ _ hnamed => ?_
    refine popPacked_agrees.bind fun _ hr _ _ hpos => ?_
    refine pop_agrees.bind fun _ hs _ _ h => .read fun m n hp => ?_
    rw [hp.pool_eq]
    refine callMethod_agrees code h _ ?_
    exact ⟨hpos.mono hs, hnamed.imp fun _ _ h => h.mono (hr.trans hs)⟩
  | «return» => exact leave_agrees
  | await => exact (hop rfl).elim
  | _ => exact (executePlain_agrees code _).bind fun _ _ _ _ _ => .ret .none

theorem execute_agrees [κ.Joint] (code : Bytecode) (op : Op) :
    Agrees κ p (EndAlike κ) (execute code op) (execute code op) := by
  by_cases hop : op = .await
  · exact hop ▸ await_agrees
  · exact execute_agrees_of_ne_await code hop

theorem Paired.fetch_eq {m n : Machine} (h : m.Paired κ p n) (code : Bytecode) :
    m.fetch code = n.fetch code := by
  rw [fetch, fetch, h.frame.function, h.frame.next]

theorem Paired.entered {m n : Machine} (h : m.Paired κ p n) (i : Instr) :
    (m.entered i).Paired κ p (n.entered i) := by
  have hn : Paired κ p { m with frame := { m.frame with next := m.frame.next + 1 } }
      { n with frame := { n.frame with next := n.frame.next + 1 } } :=
    { h with frame := { h.frame with next := by rw [h.frame.next] } }
  refine hn.record ?_
  rw [hn.frame.next, hn.stack.length_eq, hn.frame.base, hn.depth_eq]

/-- Machines that are paired execute their next instruction alike. -/
theorem executeNext_agrees [κ.Joint] (code : Bytecode) :
    Agrees κ p (EndAlike κ) (executeNext code) (executeNext code) := by
  intro m n h
  rw [executeNext_eq, executeNext_eq, h.fetch_eq]
  cases n.fetch code with
  | none => exact .error _ le_rfl h.toHalted
  | some i => exact execute_agrees code i.op _ _ (h.entered i)

end Resumable.Machine
