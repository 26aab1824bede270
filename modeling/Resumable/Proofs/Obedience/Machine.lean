import Resumable.Machine.Step
import Resumable.Proofs.Obedience.Method
import Resumable.Proofs.Pointwise

/-!
# Instructions obey their budget

Main statement: `executeNext_obedient`. An instruction asks its budget certain questions, one after
the other, and the first refusal is what it fails with.
-/

namespace Resumable.Machine

open Funded (under)

variable {α β : Type} {code : Bytecode}

/-! ## Changes of the machine -/

/-- A change of the machine that leaves the heap alone. -/
theorem change_obedient {g : Machine → α × Machine}
    (hg : ∀ m b, g (under m b) = ((g m).1, under (g m).2 b)) (hheap : ∀ m, (g m).2.heap = m.heap) :
    Obedient (modifyGet g : Exec α) := fun m =>
  ⟨[], _, .of_idle (.change m (hg m)) (hheap m) trivial⟩

theorem update_obedient {g : Machine → Machine} (hg : ∀ m b, g (under m b) = under (g m) b)
    (hheap : ∀ m, (g m).heap = m.heap) : Obedient (modify g : Exec Unit) :=
  change_obedient (g := fun m => ((), g m)) (fun m b => congrArg ((), ·) (hg m b)) hheap

/-- The machine with what an action on its heap has come to. -/
def withHeap (m : Machine) : EStateM.Result Failure Heap α → EStateM.Result Failure Machine α
  | .ok a heap => .ok a { m with heap }
  | .error e heap => .error e { m with heap }

theorem onHeap_under (act : Heap.Action α) (m : Machine) (b : Budget) :
    onHeap act (under m b) = m.withHeap (act (under m.heap b)) := by
  change (match act (under m.heap b) with
    | .ok a heap => EStateM.Result.ok a { m with heap }
    | .error e heap => .error e { m with heap }) = _
  cases act (under m.heap b) <;> rfl

theorem heap_withHeap (m : Machine) (r : EStateM.Result Failure Heap α) :
    (endState (m.withHeap r)).heap = endState r := by
  cases r <;> rfl

theorem onHeap_course {act : Heap.Action α} {m : Machine} {qs : List Query}
    {r : EStateM.Result Failure Heap α} (h : Course m.heap act qs r) :
    Course m (onHeap act) qs (m.withHeap r) where
  granted hb := by
    rw [onHeap_under, h.granted hb]
    cases r <;> rfl
  refused hb := by
    obtain ⟨k, hk⟩ := h.refused hb
    exact ⟨{ m with heap := k }, by rw [onHeap_under, hk]; rfl⟩
  content e t hr := by
    cases r with
    | ok a k => cases hr
    | error e' k => cases hr; exact h.content _ _ rfl

theorem onHeap_obedientAt {act : Heap.Action α} {m : Machine} (h : ObedientAt m.heap act) :
    ObedientAt m (onHeap act) := by
  obtain ⟨qs, r, hr⟩ := h
  have hend : Funded.heap (endState (m.withHeap r)) = endState r := heap_withHeap m r
  have hstop : ∀ b, Funded.heap (endState (onHeap act (under m b))) =
      endState (act (under m.heap b)) := fun b => by
    rw [onHeap_under]
    exact heap_withHeap m _
  exact ⟨qs, m.withHeap r, {
    toCourse := onHeap_course hr.toCourse
    noted := hend ▸ hr.noted
    stopped := fun hb => hstop _ ▸ hr.stopped hb
    paid := hend ▸ hr.paid
    covered := hend ▸ hr.covered
    caught := fun hb he => hstop _ ▸ hr.caught hb he
    own := by
      cases r with
      | ok a heap => trivial
      | error e heap => exact fun _ => hr.own rfl }⟩

theorem onHeap_obedient {act : Heap.Action α} (h : Obedient act) : Obedient (onHeap act) :=
  fun m => onHeap_obedientAt (h m.heap)

theorem push_obedient (v : Value) : Obedient (push v) :=
  update_obedient (fun _ _ => rfl) fun _ => rfl

theorem pop_obedient : Obedient pop := by
  refine change_obedient (fun m b => ?_) fun m => ?_
  · have hstack : (under m b).stack = m.stack := rfl
    rw [hstack]
    cases m.stack <;> rfl
  · cases m.stack <;> rfl

theorem popMany_obedient (n : Nat) : Obedient (popMany n) :=
  change_obedient (fun _ _ => rfl) fun _ => rfl

theorem peek_obedient : Obedient peek := .read (fun _ _ => rfl) fun _ => .ret _

theorem modifyFrame_obedient (f : Frame → Frame) : Obedient (modifyFrame f) :=
  update_obedient (fun _ _ => rfl) fun _ => rfl

theorem jump_obedient (target : Nat) : Obedient (jump target) := modifyFrame_obedient _

theorem trace_obedient {e : Machine → Event} (he : ∀ m b, e (under m b) = e m) :
    Obedient (trace e) := by
  refine update_obedient (fun m b => ?_) fun m => ?_
  · have hevents : (under m b).events = m.events := rfl
    unfold record
    rw [hevents, he]
    cases m.events <;> rfl
  · unfold record
    cases m.events <;> rfl

theorem popNamed_obedient (keywords : Option Nat) : Obedient (popNamed code keywords) :=
  .read (fun _ _ => rfl) fun _ => (popMany_obedient _).bind fun _ => .ret _

theorem beginCall_obedient : Obedient beginCall := change_obedient (fun _ _ => rfl) fun _ => rfl

theorem write_obedient (c : Chunk) : Obedient (write c) := by
  refine Obedient.bind (change_obedient (fun _ _ => rfl) fun _ => rfl) fun refusal => ?_
  split
  · exact .fail rfl
  · exact update_obedient (fun _ _ => rfl) fun _ => rfl

theorem writeAll_obedient (chunks : List Chunk) : Obedient (writeAll chunks) := by
  induction chunks with
  | nil => exact .ret ()
  | cons c chunks ih => exact (write_obedient c).bind fun _ => ih

/-! ## Calls -/

/-- The failure of a computation, if it fails, is not that of a limit. -/
def FailsOwn (x : Except Failure α) : Prop := ∀ e, x = .error e → e.IsOwn

theorem FailsOwn.ok (a : α) : FailsOwn (.ok a : Except Failure α) := fun e h => by cases h

theorem FailsOwn.error {e : Failure} (he : e.IsOwn) : FailsOwn (.error e : Except Failure α) := by
  rintro _ ⟨⟩
  exact he

theorem bindNamed_failsOwn (function : String) (params : List String) (locals : Array Value)
    (name : String) (v : Value) : FailsOwn (bindNamed function params locals name v) := by
  unfold bindNamed
  split
  · exact .error rfl
  · split
    · exact .ok _
    · exact .error rfl

theorem bindAllNamed_failsOwn (function : String) (params : List String) (locals : Array Value)
    (named : List (String × Value)) : FailsOwn (bindAllNamed function params locals named) := by
  induction named generalizing locals with
  | nil => exact .ok _
  | cons a rest ih =>
    have hone := bindNamed_failsOwn function params locals a.1 a.2
    rw [bindAllNamed]
    cases hbind : bindNamed function params locals a.1 a.2 with
    | ok locals => exact ih locals
    | error e => exact .error (hone e hbind)

theorem bindArguments_failsOwn (c : Code) (defaults : List Value) (args : Arguments) :
    FailsOwn (bindArguments c defaults args) := by
  unfold bindArguments
  simp only
  split
  · exact .error rfl
  · split
    · next e he => exact .error (bindAllNamed_failsOwn _ _ _ _ e he)
    · split
      · exact .ok _
      · exact .error rfl

theorem enter_obedient (function : Nat) (defaults : List Value) (args : Arguments) :
    Obedient (enter code function defaults args) := by
  unfold enter
  split
  · exact .fail rfl
  · next c _ =>
    split
    · next e he => exact .fail (bindArguments_failsOwn c defaults args e he)
    · refine .read (fun _ _ => rfl) fun m => ?_
      refine (onHeap_obedient (Heap.checkDepth_obedient m.depth)).bind fun _ => ?_
      refine Obedient.bind (update_obedient (fun _ _ => rfl) fun _ => rfl) fun _ => ?_
      exact trace_obedient fun _ _ => rfl

theorem makeException_obedient (type : ExceptionType) (args : Arguments) :
    Obedient (makeException type args) := by
  refine (Arguments.noNamed_plain _ _).obedient.bind fun _ => .read (fun h b => ?_) fun _ => .ret _
  simp only [Heap.text_under, Heap.literal_under, under]

theorem settle_obedient (r : Reply) : Obedient (settle r) := by
  cases r with
  | value v => exact (push_obedient v).bind fun _ => .ret _
  | output chunks =>
    exact (writeAll_obedient chunks).bind fun _ => (push_obedient _).bind fun _ => .ret _
  | request function args =>
    exact beginCall_obedient.bind fun _ => (trace_obedient fun _ _ => rfl).bind fun _ => .ret _

theorem callValue_obedient (v : Value) (args : Arguments) : Obedient (callValue code v args) := by
  unfold callValue
  split
  · exact (enter_obedient _ _ _).bind fun _ => .ret _
  · exact beginCall_obedient.bind fun _ => (trace_obedient fun _ _ => rfl).bind fun _ => .ret _
  · exact (onHeap_obedient (BuiltinCall.call_plain _ _).obedient).bind fun r => settle_obedient r
  · exact (onHeap_obedient (makeException_obedient _ _)).bind fun v =>
      (push_obedient v).bind fun _ => .ret _
  · exact .refuse (fun _ _ => rfl) fun _ => rfl

theorem moduleAttribute_failsOwn (module : Module) (name : String) :
    FailsOwn (moduleAttribute module name) := by
  unfold moduleAttribute
  split
  case h_7 => exact .error rfl
  all_goals exact .ok _

theorem attributeOf_failsOwn (h : Heap) (v : Value) (name : String) :
    FailsOwn (attributeOf h v name) := by
  unfold attributeOf
  split
  · exact moduleAttribute_failsOwn _ _
  · split
    · exact .ok _
    · exact .error rfl

theorem getAttribute_obedient (v : Value) (name : String) : Obedient (getAttribute v name) := by
  refine .read (fun _ _ => rfl) fun m => ?_
  split
  · exact settle_obedient _
  · next e he => exact .fail (attributeOf_failsOwn m.heap v name e he)

theorem pureMethod_obedient (h : Heap) (v : Value) (name : String) (args : Arguments) :
    ObedientMethod h (pureMethod h v name args) := by
  unfold pureMethod
  split
  · exact (PathMethod.call_plain _ _ _).obedient h
  · exact (TextMethod.call_plain _ _ _).obedient h
  · exact (TextMethod.callBytes_plain _ _ _).obedient h
  · split
    · next hcell => exact ListMethod.call_obedient _ (Option.isSome_of_eq_some hcell) _ _
    · next hcell => exact DictMethod.call_obedient _ (Option.isSome_of_eq_some hcell) _ _
    · exact .none
  · exact .none

theorem callOwnMethod_obedient (v : Value) (name : String) (args : Arguments) :
    Obedient (callOwnMethod v name args) := by
  refine .readAt (fun _ _ => rfl) fun m => ?_
  split
  · next act hact =>
    have hact := onHeap_obedientAt (pureMethod_obedient m.heap v name args act hact)
    refine hact.bind fun v n _ => ?_
    exact (push_obedient v).bind (fun _ => .ret _) n
  · exact Obedient.refuse (fun _ _ => rfl) (fun _ => Failure.isOwn_exception _ _) m

theorem callMethod_obedient (v : Value) (name : String) (args : Arguments) :
    Obedient (callMethod code v name args) := by
  unfold callMethod
  split
  case h_4 =>
    split
    · exact settle_obedient _
    · exact callOwnMethod_obedient _ _ _
  case h_5 => exact callOwnMethod_obedient _ _ _
  -- the others call an attribute
  all_goals
    refine (getAttribute_obedient _ name).bind fun exit => ?_
    cases exit with
    | some exit => exact .ret _
    | none => exact pop_obedient.bind fun _ => callValue_obedient _ _

/-! ## Futures and exceptions -/

theorem raiseValue_obedient (v : Value) : Obedient (raiseValue v) := by
  unfold raiseValue
  split <;> exact .fail rfl

theorem reraise_obedient : Obedient reraise := by
  refine .readAt (fun _ _ => rfl) fun m => ?_
  split
  · have hmark := Course.change m (g := fun m => ((), { m with reraising := true })) fun _ => rfl
    exact ⟨[], _, .of_idle (hmark.bind (.fail _ nofun)) rfl nofun⟩
  · exact Obedient.fail (Failure.isOwn_exception _ _) m

theorem matchesException_failsOwn (exc cls : Value) : FailsOwn (matchesException exc cls) := by
  unfold matchesException
  split
  · simp only
    split
    · exact .ok _
    · exact .error rfl
  · exact .ok _

theorem awaited_failsOwn (m : Machine) (v : Value) : FailsOwn (m.awaited v) := by
  unfold awaited
  split
  · split
    · exact .ok _
    · exact .error rfl
    · exact .error rfl
  · exact .ok _

theorem mapM_awaited_failsOwn (m : Machine) (vs : List Value) : FailsOwn (vs.mapM m.awaited) := by
  intro e h
  obtain ⟨_, v, _, -, -, hv⟩ := List.mapM_eq_error_iff.mp h
  exact awaited_failsOwn m v e hv

theorem awaitedValue_obedient (m : Machine) (v : Value) : Obedient (awaitedValue m v) := by
  unfold awaitedValue
  split
  · split
    · exact onHeap_obedient (Heap.allocList_plain _).obedient
    · next e he => exact .fail (mapM_awaited_failsOwn m _ e he)
  · split
    · exact .ret _
    · next e he => exact .fail (awaited_failsOwn m v e he)

theorem await_obedient : Obedient await := by
  refine peek_obedient.bind fun v => .read (fun _ _ => rfl) fun m => ?_
  split
  · exact .fail rfl
  · refine .fork (fun _ => ?_) fun _ => pop_obedient.bind fun _ => ?_
    · exact (modifyFrame_obedient _).bind fun _ =>
        (trace_obedient fun _ _ => rfl).bind fun _ => .ret _
    · exact (awaitedValue_obedient m v).bind fun v => (push_obedient v).bind fun _ => .ret _

/-! ## Operands -/

theorem sliceBound_obedient (v : Value) : Obedient (sliceBound v) := by
  unfold sliceBound
  split
  · exact .ret _
  · split
    · exact .ret _
    · exact .fail rfl

theorem dictOf_obedient (d : Dict) (vs : List Value) : Obedient (dictOf d vs) := by
  fun_induction dictOf d vs with
  | case1 d name value rest ih => exact (Heap.key_plain name).obedient.bind fun key => ih key
  | case2 d => exact .ret _

theorem spread_obedient (v : Value) : Obedient (spread v) := by
  unfold spread
  split
  · exact .ret _
  · refine .read (fun _ _ => rfl) fun m => ?_
    simp only
    split
    · exact .ret _
    · exact .fail rfl

theorem popPacked_obedient : Obedient popPacked := by
  refine pop_obedient.bind fun v => ?_
  split
  · exact .ret _
  · exact .ret _

/-! ## Instructions -/

theorem loadLocal_obedient (slot : Nat) : Obedient (loadLocal code slot) := by
  refine .read (fun _ _ => rfl) fun m => ?_
  split
  · exact .fail rfl
  · exact .fail rfl
  · exact push_obedient _

theorem loadGlobal_obedient (slot : Nat) : Obedient (loadGlobal code slot) := by
  refine .read (fun _ _ => rfl) fun m => ?_
  split
  · exact .fail rfl
  · exact .fail rfl
  · exact push_obedient _

theorem popAndJumpIf_obedient (wanted : Bool) (target : Nat) :
    Obedient (popAndJumpIf wanted target) :=
  pop_obedient.bind fun _ => .read (fun _ _ => rfl) fun _ =>
    .fork (fun _ => jump_obedient _) fun _ => .ret _

theorem jumpIfOrPop_obedient (wanted : Bool) (target : Nat) :
    Obedient (jumpIfOrPop wanted target) :=
  peek_obedient.bind fun _ => .read (fun _ _ => rfl) fun _ =>
    .fork (fun _ => jump_obedient _) fun _ => pop_obedient.bind fun _ => .ret _

theorem nextItem_obedient : Obedient nextItem := by
  refine peek_obedient.bind fun v => ?_
  split
  · exact onHeap_obedient (Heap.next_obedient _)
  · exact .ret _

theorem leave_obedient : Obedient leave := by
  refine pop_obedient.bind fun v => ?_
  refine Obedient.bind (update_obedient (fun _ _ => rfl) fun _ => rfl) fun _ => ?_
  refine .read (fun _ _ => rfl) fun m => ?_
  split
  · exact .ret _
  · refine Obedient.bind (update_obedient (fun _ _ => rfl) fun _ => rfl) fun _ => ?_
    exact (push_obedient v).bind fun _ => (trace_obedient fun _ _ => rfl).bind fun _ => .ret _

theorem executePlain_obedient (op : Op) : Obedient (executePlain code op) := by
  have unary : ∀ {act : Value → Heap.Action Value}, (∀ v, Obedient (act v)) →
      Obedient (do push (← onHeap (act (← pop)))) := fun hact =>
    pop_obedient.bind fun v => (onHeap_obedient (hact v)).bind fun v => push_obedient v
  have binary : ∀ {act : Value → Value → Heap.Action Value}, (∀ v w, Obedient (act v w)) →
      Obedient (do
        let w ← pop
        let v ← pop
        push (← onHeap (act v w))) := fun hact =>
    pop_obedient.bind fun w => pop_obedient.bind fun v =>
      (onHeap_obedient (hact v w)).bind fun v => push_obedient v
  cases op with
  | loadConst index => exact .read (fun _ _ => rfl) fun _ => push_obedient _
  | loadLocal slot => exact loadLocal_obedient slot
  | storeLocal slot => exact pop_obedient.bind fun _ => modifyFrame_obedient _
  | loadGlobal slot => exact loadGlobal_obedient slot
  | storeGlobal slot =>
    exact pop_obedient.bind fun v => update_obedient (fun _ _ => rfl) fun _ => rfl
  | loadBuiltin function => exact push_obedient _
  | loadExcClass type => exact push_obedient _
  | pop => exact pop_obedient.bind fun _ => .ret _
  | dup => exact peek_obedient.bind fun v => push_obedient v
  | dup2 => exact update_obedient (fun _ _ => rfl) fun _ => rfl
  | rot2 =>
    refine update_obedient (fun m b => ?_) fun m => ?_
    · have hstack : (under m b).stack = m.stack := rfl
      rw [hstack]
      rcases m.stack with _ | ⟨_, _ | ⟨_, _⟩⟩ <;> rfl
    · rcases m.stack with _ | ⟨_, _ | ⟨_, _⟩⟩ <;> rfl
  | rot3 =>
    refine update_obedient (fun m b => ?_) fun m => ?_
    · have hstack : (under m b).stack = m.stack := rfl
      rw [hstack]
      rcases m.stack with _ | ⟨_, _ | ⟨_, _ | ⟨_, _⟩⟩⟩ <;> rfl
    · rcases m.stack with _ | ⟨_, _ | ⟨_, _ | ⟨_, _⟩⟩⟩ <;> rfl
  | binary op => exact binary fun v w => (Heap.binary_plain op v w).obedient
  | inplace op => exact binary fun v w => Heap.inplace_obedient op v w
  | compare op =>
    exact pop_obedient.bind fun w => pop_obedient.bind fun v =>
      (onHeap_obedient (Heap.comparison_plain op v w).obedient).bind fun _ => push_obedient _
  | not => exact pop_obedient.bind fun _ => .read (fun _ _ => rfl) fun _ => push_obedient _
  | neg => exact unary fun v => (Heap.negate_plain v).obedient
  | pos => exact unary fun v => (Heap.positive_plain v).obedient
  | buildList count =>
    exact (popMany_obedient _).bind fun _ =>
      (onHeap_obedient (Heap.allocList_plain _).obedient).bind fun v => push_obedient v
  | buildTuple count => exact (popMany_obedient _).bind fun _ => push_obedient _
  | buildDict count =>
    refine (popMany_obedient _).bind fun items => ?_
    refine (onHeap_obedient ?_).bind fun v => push_obedient v
    exact (dictOf_obedient _ _).bind fun d => Heap.alloc_obedient _
  | buildString count =>
    refine (popMany_obedient _).bind fun parts => .read (fun m b => ?_) fun m => ?_
    · simp only [funext (Heap.text_under m.heap b), under]
    · exact (onHeap_obedient (Heap.checkResult_obedient _)).bind fun _ => push_obedient _
  | formatValue conversion spec =>
    refine pop_obedient.bind fun v => .read (fun m b => ?_) fun m => ?_
    · simp only [Heap.text_under m.heap b, Heap.literal_under m.heap b, under]
    · refine .read (fun _ _ => rfl) fun _ => ?_
      exact (onHeap_obedient (Heap.format_plain _ _).obedient).bind fun _ => push_obedient _
  | buildSlice =>
    refine (popMany_obedient _).bind fun bounds => ?_
    refine (Obedient.mapM sliceBound_obedient bounds).bind fun bounds => ?_
    rcases bounds with _ | ⟨_, _ | ⟨_, _ | ⟨_, _ | ⟨_, _⟩⟩⟩⟩ <;> exact push_obedient _
  | toTuple => exact pop_obedient.bind fun v => (spread_obedient v).bind fun v => push_obedient v
  | unpackSequence count =>
    refine pop_obedient.bind fun v => ?_
    refine (onHeap_obedient (Index.unpack_plain v count).obedient).bind fun items => ?_
    exact update_obedient (fun _ _ => rfl) fun _ => rfl
  | subscript => exact binary fun v w => (Index.get_plain v w).obedient
  | storeSubscript =>
    exact pop_obedient.bind fun i => pop_obedient.bind fun o => pop_obedient.bind fun v =>
      onHeap_obedient (Index.set_obedient o i v)
  | jump target => exact jump_obedient _
  | jumpIfFalse target => exact popAndJumpIf_obedient _ _
  | jumpIfTrue target => exact popAndJumpIf_obedient _ _
  | jumpIfFalseOrPop target => exact jumpIfOrPop_obedient _ _
  | jumpIfTrueOrPop target => exact jumpIfOrPop_obedient _ _
  | getIter => exact unary fun v => (Heap.iterate_plain v).obedient
  | forIter target =>
    refine nextItem_obedient.bind fun item => ?_
    split
    · exact push_obedient _
    · exact pop_obedient.bind fun _ => jump_obedient _
  | makeFunction function defaults => exact (popMany_obedient _).bind fun _ => push_obedient _
  | importModule module => exact push_obedient _
  | setupExcept target => exact update_obedient (fun _ _ => rfl) fun _ => rfl
  | popBlock => exact modifyFrame_obedient fun f => { f with blocks := f.blocks.tail }
  | popExcept =>
    exact Obedient.bind (update_obedient (fun _ _ => rfl) fun _ => rfl) fun _ =>
      trace_obedient fun _ _ => rfl
  | raise => exact pop_obedient.bind fun v => raiseValue_obedient v
  | reraise => exact reraise_obedient
  | checkExcMatch =>
    refine pop_obedient.bind fun cls => pop_obedient.bind fun exc => ?_
    split
    · exact push_obedient _
    · next e he => exact .fail (matchesException_failsOwn exc cls e he)
  | _ => exact .ret _

theorem execute_obedient (op : Op) : Obedient (execute code op) := by
  cases op with
  | getAttr name =>
    exact pop_obedient.bind fun _ => .read (fun _ _ => rfl) fun _ => getAttribute_obedient _ _
  | call count keywords =>
    exact (popNamed_obedient _).bind fun _ => (popMany_obedient _).bind fun _ =>
      pop_obedient.bind fun _ => callValue_obedient _ _
  | callVar keywords =>
    exact (popNamed_obedient _).bind fun _ => popPacked_obedient.bind fun _ =>
      pop_obedient.bind fun _ => callValue_obedient _ _
  | callMethod name count keywords =>
    exact (popNamed_obedient _).bind fun _ => (popMany_obedient _).bind fun _ =>
      pop_obedient.bind fun _ => .read (fun _ _ => rfl) fun _ => callMethod_obedient _ _ _
  | callMethodVar name keywords =>
    exact (popNamed_obedient _).bind fun _ => popPacked_obedient.bind fun _ =>
      pop_obedient.bind fun _ => .read (fun _ _ => rfl) fun _ => callMethod_obedient _ _ _
  | «return» => exact leave_obedient
  | await => exact await_obedient
  | _ => exact (executePlain_obedient _).bind fun _ => .ret _

theorem executeNext_obedient (code : Bytecode) : Obedient (executeNext code) := by
  refine .read (fun _ _ => rfl) fun m => ?_
  split
  · exact .fail rfl
  · refine (modifyFrame_obedient _).bind fun _ => (trace_obedient fun _ _ => rfl).bind fun _ => ?_
    exact execute_obedient _

end Resumable.Machine
