import Resumable.Proofs.Dicts.Change

/-!
# What instructions do to dicts

Main statement: `executeNext_changes`. Whether an instruction fails or not, it either puts pairs
into dicts or takes entries out of them. It has one action on the heap at most; before and behind
that it only works on operands, variables, frames and handlers.
-/

namespace Resumable.Machine

open Heap (Plain Changes)

variable {α : Type} {code : Bytecode} {P : Heap → Heap → Prop}

/-! ## Actions on the heap, and others -/

theorem onHeap_alongAt {act : Heap.Action α} {m : Machine} (h : AlongAt P m.heap act) :
    AlongAt P m (onHeap act) := by
  have hend : (endState (onHeap act m)).heap = endState (act m.heap) := by
    rw [show onHeap act m = m.withHeap (act m.heap) from onHeap_under act m m.heap.budget]
    exact heap_withHeap m _
  change P m.heap (endState (onHeap act m)).heap
  rw [hend]
  exact h

theorem onHeap_along {act : Heap.Action α} (h : Along P act) : Along P (onHeap act) := fun m =>
  onHeap_alongAt (h m.heap)

/-- A plain action on the heap. -/
theorem plain_changes {act : Heap.Action α} (h : Plain act) : Along Changes (onHeap act) :=
  onHeap_along (h.alters.mono fun _ _ => .inl)

theorem gains_changes {act : Heap.Action α} (h : Along (Heap.Alters Dict.Gains) act) :
    Along Changes (onHeap act) := onHeap_along (h.mono fun _ _ => .inl)

/-- A change of the machine that leaves the heap alone. -/
theorem change_quiet {g : Machine → α × Machine} (h : ∀ m, (g m).2.heap = m.heap) :
    Along Eq (modifyGet g : Exec α) := fun m => (h m).symm

theorem update_quiet {g : Machine → Machine} (h : ∀ m, (g m).heap = m.heap) :
    Along Eq (modify g : Exec Unit) := fun m => (h m).symm

theorem push_quiet (v : Value) : Along Eq (push v) := update_quiet fun _ => rfl

theorem pop_quiet : Along Eq pop := change_quiet fun m => by cases m.stack <;> rfl

theorem popMany_quiet (n : Nat) : Along Eq (popMany n) := change_quiet fun _ => rfl

theorem peek_quiet : Along Eq peek := .read fun _ => .ret _

theorem modifyFrame_quiet (f : Frame → Frame) : Along Eq (modifyFrame f) :=
  update_quiet fun _ => rfl

theorem jump_quiet (target : Nat) : Along Eq (jump target) := modifyFrame_quiet _

theorem trace_quiet (e : Machine → Event) : Along Eq (trace e) := update_quiet fun m => by
  unfold record
  cases m.events <;> rfl

theorem popNamed_quiet (keywords : Option Nat) : Along Eq (popNamed code keywords) :=
  .read fun _ => (popMany_quiet _).bind fun _ => .ret _

theorem popPacked_quiet : Along Eq popPacked := by
  refine pop_quiet.bind fun v => ?_
  split
  · exact .ret _
  · exact .ret _

theorem beginCall_quiet : Along Eq beginCall := change_quiet fun _ => rfl

theorem write_quiet (c : Chunk) : Along Eq (write c) := by
  refine Along.bind (change_quiet fun _ => rfl) fun refusal => ?_
  split
  · exact .fail _
  · exact update_quiet fun _ => rfl

theorem writeAll_quiet (chunks : List Chunk) : Along Eq (writeAll chunks) := by
  induction chunks with
  | nil => exact .ret ()
  | cons c chunks ih => exact (write_quiet c).bind fun _ => ih

/-! ## Calls -/

theorem enter_quiet (function : Nat) (defaults : List Value) (args : Arguments) :
    Along Eq (enter code function defaults args) := by
  unfold enter
  split
  · exact .fail _
  · split
    · exact .fail _
    · refine .read fun m => ?_
      refine (onHeap_along (.read fun _ => Heap.withinLimit_along _)).bind fun _ => ?_
      exact Along.bind (update_quiet fun _ => rfl) fun _ => trace_quiet _

theorem settle_quiet (r : Reply) : Along Eq (settle r) := by
  cases r with
  | value v => exact (push_quiet v).bind fun _ => .ret _
  | output chunks => exact (writeAll_quiet chunks).bind fun _ => (push_quiet _).bind fun _ => .ret _
  | request function args =>
    exact beginCall_quiet.bind fun _ => (trace_quiet _).bind fun _ => .ret _

theorem makeException_along [Std.Refl P] (type : ExceptionType) (args : Arguments) :
    Along P (makeException type args) := by
  unfold makeException Arguments.noNamed
  refine Along.behind ?_ fun _ => .read fun _ => .ret _
  split
  · exact .ret _
  · exact .fail _

theorem callValue_changes (v : Value) (args : Arguments) :
    Along Changes (callValue code v args) := by
  unfold callValue
  split
  · exact ((enter_quiet _ _ _).bind fun _ => .ret _).quiet
  · exact (beginCall_quiet.bind fun _ => (trace_quiet _).bind fun _ => .ret _).quiet
  · exact (plain_changes (BuiltinCall.call_plain _ _)).andThen fun r => settle_quiet r
  · exact (onHeap_along (makeException_along _ _)).andThen fun v =>
      (push_quiet v).bind fun _ => .ret _
  · exact .refuse

theorem getAttribute_quiet (v : Value) (name : String) : Along Eq (getAttribute v name) := by
  refine .read fun m => ?_
  split
  · exact settle_quiet _
  · exact .fail _

/-- A method of a dict puts pairs into it or takes entries out of it; the others change no dict. -/
theorem pureMethod_changes (h : Heap) (v : Value) (name : String) (args : Arguments) :
    AlongMethod Changes (pureMethod h v name args) := by
  have plain : ∀ {method? : Option (Heap.Action Value)}, PlainMethod method? →
      AlongMethod Changes method? := fun hmethod act hact =>
    (hmethod act hact).alters.mono fun _ _ => .inl
  unfold pureMethod
  split
  · exact plain (PathMethod.call_plain _ _ _)
  · exact plain (TextMethod.call_plain _ _ _)
  · exact plain (TextMethod.callBytes_plain _ _ _)
  · split
    · exact fun act hact => (ListMethod.call_alters _ _ _ act hact).mono fun _ _ => .inl
    · intro act hact
      rcases DictMethod.call_changes _ _ _ act hact with hgains | hloses
      · exact hgains.mono fun _ _ => .inl
      · exact hloses.mono fun _ _ => .inr
    · exact .none
  · exact .none

theorem callOwnMethod_changes (v : Value) (name : String) (args : Arguments) :
    Along Changes (callOwnMethod v name args) := by
  refine .read fun m => ?_
  split
  · next act hact =>
    refine (onHeap_along (pureMethod_changes m.heap v name args act hact)).andThen fun v => ?_
    exact (push_quiet v).bind fun _ => .ret _
  · exact .refuse

theorem callMethod_changes (v : Value) (name : String) (args : Arguments) :
    Along Changes (callMethod code v name args) := by
  unfold callMethod
  split
  case h_4 =>
    split
    · exact (settle_quiet _).quiet
    · exact callOwnMethod_changes _ _ _
  case h_5 => exact callOwnMethod_changes _ _ _
  -- the others call an attribute
  all_goals
    refine (getAttribute_quiet _ name).behind fun exit => ?_
    cases exit with
    | some exit => exact .ret _
    | none => exact pop_quiet.behind fun _ => callValue_changes _ _

/-! ## Futures and exceptions -/

theorem raiseValue_quiet (v : Value) : Along Eq (raiseValue v) := by
  unfold raiseValue
  split <;> exact .fail _

theorem reraise_quiet : Along Eq reraise := by
  refine .read fun m => ?_
  split
  · exact Along.bind (update_quiet fun _ => rfl) fun _ => .fail _
  · exact .fail _

theorem awaitedValue_changes (m : Machine) (v : Value) : Along Changes (awaitedValue m v) := by
  unfold awaitedValue
  split
  · split
    · exact plain_changes (Heap.allocList_plain _)
    · exact .fail _
  · split
    · exact .ret _
    · exact .fail _

theorem await_changes : Along Changes await := by
  refine peek_quiet.behind fun v => .read fun m => ?_
  split
  · exact .fail _
  · refine .fork ?_ (pop_quiet.behind fun _ => ?_)
    · exact ((modifyFrame_quiet _).bind fun _ => (trace_quiet _).bind fun _ => .ret _).quiet
    · exact (awaitedValue_changes m v).andThen fun v => (push_quiet v).bind fun _ => .ret _

/-! ## Operands -/

theorem sliceBound_quiet (v : Value) : Along Eq (sliceBound v) := by
  unfold sliceBound
  split
  · exact .ret _
  · split
    · exact .ret _
    · exact .fail _

/-- The dict that is built of operands is lawful. -/
theorem dictOf_alters {R : Dict → Dict → Prop} [IsPreorder Dict R] {d : Dict} (hd : d.Lawful)
    (vs : List Value) : Along (Heap.Alters R) (do Heap.alloc (.dict (← dictOf d vs))) := by
  fun_induction dictOf d vs with
  | case1 d name value rest ih =>
    rw [bind_assoc]
    exact Heap.key_bind_along name fun key hkey => ih key (hd.insert hkey value)
  | case2 d => exact Heap.alloc_alters hd

theorem spread_quiet (v : Value) : Along Eq (spread v) := by
  unfold spread
  split
  · exact .ret _
  · refine .read fun m => ?_
    simp only
    split
    · exact .ret _
    · exact .fail _

/-! ## Instructions -/

theorem loadLocal_quiet (slot : Nat) : Along Eq (loadLocal code slot) := by
  refine .read fun m => ?_
  split
  · exact .fail _
  · exact .fail _
  · exact push_quiet _

theorem loadGlobal_quiet (slot : Nat) : Along Eq (loadGlobal code slot) := by
  refine .read fun m => ?_
  split
  · exact .fail _
  · exact .fail _
  · exact push_quiet _

theorem popAndJumpIf_quiet (wanted : Bool) (target : Nat) :
    Along Eq (popAndJumpIf wanted target) :=
  pop_quiet.bind fun _ => .read fun _ => .fork (jump_quiet _) (.ret _)

theorem jumpIfOrPop_quiet (wanted : Bool) (target : Nat) : Along Eq (jumpIfOrPop wanted target) :=
  peek_quiet.bind fun _ => .read fun _ => .fork (jump_quiet _) (pop_quiet.bind fun _ => .ret _)

theorem nextItem_changes : Along Changes nextItem := by
  refine peek_quiet.behind fun v => ?_
  split
  · exact gains_changes (Heap.next_alters _)
  · exact .ret _

theorem leave_quiet : Along Eq leave := by
  refine pop_quiet.bind fun v => Along.bind (update_quiet fun _ => rfl) fun _ => .read fun m => ?_
  split
  · exact .ret _
  · refine Along.bind (update_quiet fun _ => rfl) fun _ => ?_
    exact (push_quiet v).bind fun _ => (trace_quiet _).bind fun _ => .ret _

theorem executePlain_changes (op : Op) : Along Changes (executePlain code op) := by
  have unary : ∀ {act : Value → Heap.Action Value}, (∀ v, Plain (act v)) →
      Along Changes (do push (← onHeap (act (← pop)))) := fun hact =>
    pop_quiet.behind fun v => (plain_changes (hact v)).andThen fun v => push_quiet v
  have binary : ∀ {act : Value → Value → Heap.Action Value},
      (∀ v w, Along Changes (onHeap (act v w))) → Along Changes (do
        let w ← pop
        let v ← pop
        push (← onHeap (act v w))) := fun hact =>
    pop_quiet.behind fun w => pop_quiet.behind fun v => (hact v w).andThen fun v => push_quiet v
  cases op with
  | loadConst index => exact (Along.read fun _ => push_quiet _).quiet
  | loadLocal slot => exact (loadLocal_quiet slot).quiet
  | storeLocal slot => exact (pop_quiet.bind fun _ => modifyFrame_quiet _).quiet
  | loadGlobal slot => exact (loadGlobal_quiet slot).quiet
  | storeGlobal slot => exact (pop_quiet.bind fun v => update_quiet fun _ => rfl).quiet
  | loadBuiltin function => exact (push_quiet _).quiet
  | loadExcClass type => exact (push_quiet _).quiet
  | pop => exact (pop_quiet.bind fun _ => .ret _).quiet
  | dup => exact (peek_quiet.bind fun v => push_quiet v).quiet
  | dup2 => exact (update_quiet fun _ => rfl).quiet
  | rot2 =>
    refine (update_quiet fun m => ?_).quiet
    rcases m.stack with _ | ⟨_, _ | ⟨_, _⟩⟩ <;> rfl
  | rot3 =>
    refine (update_quiet fun m => ?_).quiet
    rcases m.stack with _ | ⟨_, _ | ⟨_, _ | ⟨_, _⟩⟩⟩ <;> rfl
  | binary op => exact binary fun v w => plain_changes (Heap.binary_plain op v w)
  | inplace op => exact binary fun v w => gains_changes (Heap.inplace_alters op v w)
  | compare op =>
    exact pop_quiet.behind fun w => pop_quiet.behind fun v =>
      (plain_changes (Heap.comparison_plain op v w)).andThen fun _ => push_quiet _
  | not => exact (pop_quiet.bind fun _ => .read fun _ => push_quiet _).quiet
  | neg => exact unary fun v => Heap.negate_plain v
  | pos => exact unary fun v => Heap.positive_plain v
  | buildList count =>
    exact (popMany_quiet _).behind fun _ =>
      (plain_changes (Heap.allocList_plain _)).andThen fun v => push_quiet v
  | buildTuple count => exact ((popMany_quiet _).bind fun _ => push_quiet _).quiet
  | buildDict count =>
    refine (popMany_quiet _).behind fun items => ?_
    exact (gains_changes (dictOf_alters Dict.lawful_empty items)).andThen fun v => push_quiet v
  | buildString count =>
    refine (popMany_quiet _).behind fun parts => .read fun m => ?_
    exact (plain_changes (.checkResult _)).andThen fun _ => push_quiet _
  | formatValue conversion spec =>
    refine pop_quiet.behind fun v => .read fun m => .read fun _ => ?_
    exact (plain_changes (Heap.format_plain _ _)).andThen fun _ => push_quiet _
  | buildSlice =>
    refine ((popMany_quiet _).bind fun bounds => ?_).quiet
    refine (Along.mapM sliceBound_quiet bounds).bind fun bounds => ?_
    rcases bounds with _ | ⟨_, _ | ⟨_, _ | ⟨_, _ | ⟨_, _⟩⟩⟩⟩ <;> exact push_quiet _
  | toTuple =>
    exact (pop_quiet.bind fun v => (spread_quiet v).bind fun v => push_quiet v).quiet
  | unpackSequence count =>
    refine pop_quiet.behind fun v => ?_
    refine (plain_changes (Index.unpack_plain v count)).andThen fun items => ?_
    exact update_quiet fun _ => rfl
  | subscript => exact binary fun v w => plain_changes (Index.get_plain v w)
  | storeSubscript =>
    exact pop_quiet.behind fun i => pop_quiet.behind fun o => pop_quiet.behind fun v =>
      gains_changes (Index.set_gains o i v)
  | jump target => exact (jump_quiet _).quiet
  | jumpIfFalse target => exact (popAndJumpIf_quiet _ _).quiet
  | jumpIfTrue target => exact (popAndJumpIf_quiet _ _).quiet
  | jumpIfFalseOrPop target => exact (jumpIfOrPop_quiet _ _).quiet
  | jumpIfTrueOrPop target => exact (jumpIfOrPop_quiet _ _).quiet
  | getIter => exact unary fun v => Heap.iterate_plain v
  | forIter target =>
    refine nextItem_changes.andThen fun item => ?_
    split
    · exact push_quiet _
    · exact pop_quiet.bind fun _ => jump_quiet _
  | makeFunction function defaults => exact ((popMany_quiet _).bind fun _ => push_quiet _).quiet
  | importModule module => exact (push_quiet _).quiet
  | setupExcept target => exact (update_quiet fun _ => rfl).quiet
  | popBlock => exact (modifyFrame_quiet fun f => { f with blocks := f.blocks.tail }).quiet
  | popExcept =>
    refine Along.behind (update_quiet fun _ => rfl) fun _ => (trace_quiet _).quiet
  | raise => exact (pop_quiet.bind fun v => raiseValue_quiet v).quiet
  | reraise => exact reraise_quiet.quiet
  | checkExcMatch =>
    refine (pop_quiet.bind fun cls => pop_quiet.bind fun exc => ?_).quiet
    split
    · exact push_quiet _
    · exact .fail _
  | _ => exact .ret _

theorem execute_changes (op : Op) : Along Changes (execute code op) := by
  cases op with
  | getAttr name =>
    exact (pop_quiet.bind fun _ => .read fun _ => getAttribute_quiet _ _).quiet
  | call count keywords =>
    exact (popNamed_quiet _).behind fun _ => (popMany_quiet _).behind fun _ =>
      pop_quiet.behind fun _ => callValue_changes _ _
  | callVar keywords =>
    exact (popNamed_quiet _).behind fun _ => popPacked_quiet.behind fun _ =>
      pop_quiet.behind fun _ => callValue_changes _ _
  | callMethod name count keywords =>
    exact (popNamed_quiet _).behind fun _ => (popMany_quiet _).behind fun _ =>
      pop_quiet.behind fun _ => .read fun _ => callMethod_changes _ _ _
  | callMethodVar name keywords =>
    exact (popNamed_quiet _).behind fun _ => popPacked_quiet.behind fun _ =>
      pop_quiet.behind fun _ => .read fun _ => callMethod_changes _ _ _
  | «return» => exact leave_quiet.quiet
  | await => exact await_changes
  | _ => exact (executePlain_changes _).andThen fun _ => .ret _

theorem executeNext_changes (code : Bytecode) : Along Changes (executeNext code) := by
  refine .read fun m => ?_
  split
  · exact .fail _
  · refine (modifyFrame_quiet _).behind fun _ => (trace_quiet _).behind fun _ => ?_
    exact execute_changes _

end Resumable.Machine
