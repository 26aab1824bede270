import Resumable.Machine.Call
import Resumable.Proofs.Lockstep.Machine

/-!
# Calls in lockstep
-/

namespace Resumable.Machine

open List (Forall₂)

variable {κ : World} {p q : Pairing}

/-! ## Binding of arguments -/

/-- Bindings that end with locals that are alike, or with one failure. -/
abbrev LocalsAlike (κ : World) (p : Pairing) :
    Except Failure (Array Value) → Except Failure (Array Value) → Prop :=
  SameEnd Eq (ItemsAlike κ p)

theorem set_alike {vs ws : Array Value} (h : ItemsAlike κ p vs ws) (i : Nat) {v w : Value}
    (hvw : v.Alike κ p w) :
    ItemsAlike κ p (vs.setIfInBounds i v) (ws.setIfInBounds i w) := by
  simp only [ItemsAlike, Array.toList_setIfInBounds]
  exact List.Forall₂.set h i hvw

theorem isUnset_eq {vs ws : Array Value} (h : ItemsAlike κ p vs ws) (i : Nat) :
    isUnset vs i = isUnset ws i := by
  unfold isUnset
  obtain ⟨hv, hw⟩ | ⟨v, w, hv, hw, hvw⟩ := (h.getElem? i).elim <;> rw [hv, hw]
  cases hvw <;> rfl

theorem bindNamed_alike (function : String) (params : List String) {vs ws : Array Value}
    (h : ItemsAlike κ p vs ws) (name : String) {v w : Value} (hvw : v.Alike κ p w) :
    LocalsAlike κ p (bindNamed function params vs name v)
      (bindNamed function params ws name w) := by
  unfold bindNamed
  split
  · exact .error rfl
  · next i _ =>
    obtain ⟨ha, hb⟩ | ⟨a, b, ha, hb, hab⟩ := (h.getElem? i).elim <;> rw [ha, hb]
    · exact .error rfl
    · cases hab with
      | undefined => exact .ok (set_alike h i hvw)
      | _ => exact .error rfl

theorem bindAllNamed_alike (function : String) (params : List String) {vs ws : Array Value}
    (h : ItemsAlike κ p vs ws) {xs ys : List (String × Value)}
    (hxs : Forall₂ (NamedAlike κ p) xs ys) :
    LocalsAlike κ p (bindAllNamed function params vs xs) (bindAllNamed function params ws ys) := by
  induction hxs generalizing vs ws with
  | nil => exact .ok h
  | @cons x y _ _ hxy _ ih =>
    obtain ⟨name, v⟩ := x
    obtain ⟨name', w⟩ := y
    obtain ⟨rfl : name = name', hvw⟩ := hxy
    rw [bindAllNamed, bindAllNamed]
    obtain ⟨a, b, ha, hb, hab⟩ | ⟨e, d, he, hd, rfl⟩ :=
      (bindNamed_alike function params h name hvw).elim
    · rw [ha, hb]
      exact ih hab
    · rw [he, hd]
      exact .error rfl

theorem missingParams_eq (params : List String) (firstDefault : Nat) {vs ws : Array Value}
    (h : ItemsAlike κ p vs ws) :
    missingParams params firstDefault vs = missingParams params firstDefault ws := by
  unfold missingParams
  simp only [isUnset_eq h]

theorem fillDefaults_alike {ds es : List Value} (hds : AllAlike κ p ds es) (first stop : Nat)
    {vs ws : Array Value} (h : ItemsAlike κ p vs ws) :
    ItemsAlike κ p (fillDefaults ds first stop vs) (fillDefaults es first stop ws) := by
  unfold fillDefaults
  simp only [ItemsAlike, Array.toList_mapIdx]
  refine h.mapIdx fun i v w hvw => ?_
  cases hvw with
  | undefined =>
    simp only
    split
    · exact (hds.getElem? _).getD .undefined
    · exact .undefined
  | ref h => exact .ref h
  | tuple h => exact .tuple h
  | namedTuple type fields h => exact .namedTuple type fields h
  | function code h => exact .function code h
  | gather h => exact .gather h
  | external h => exact .external h
  | _ => constructor

theorem bindArguments_alike (code : Code) {ds es : List Value} (hds : AllAlike κ p ds es)
    {a b : Arguments} (hab : a.Alike κ p b) :
    LocalsAlike κ p (bindArguments code ds a) (bindArguments code es b) := by
  unfold bindArguments
  simp only [hab.positional.length_eq, hds.length_eq]
  split
  · exact .error rfl
  · generalize code.locals.length - b.positional.length = n
    have hlocals : ItemsAlike κ p (a.positional ++ List.replicate n Value.undefined).toArray
        (b.positional ++ List.replicate n Value.undefined).toArray :=
      hab.positional.append (List.Forall₂.replicate .undefined n)
    obtain ⟨vs, ws, hv, hw, hvs⟩ | ⟨e, d, he, hd, rfl⟩ :=
      (bindAllNamed_alike code.name code.params hlocals hab.named).elim
    · rw [hv, hw]
      simp only [missingParams_eq _ _ hvs]
      split
      · exact .ok (fillDefaults_alike hds _ _ hvs)
      · exact .error rfl
    · rw [he, hd]
      exact .error rfl

/-! ## Calls of values -/

/-- The same reason to stop for the host, with values that are alike. -/
inductive ExitAlike (κ : World) (p : Pairing) : Exit → Exit → Prop
  | returned {v w} : v.Alike κ p w → ExitAlike κ p (.returned v) (.returned w)
  | externalCall {function} (call) {a b} : κ.external function → a.Alike κ p b →
      ExitAlike κ p (.externalCall function a call) (.externalCall function b call)
  | osCall (function call) {a b} : a.Alike κ p b →
      ExitAlike κ p (.osCall function a call) (.osCall function b call)
  | blocked (pending) : (∃ id, κ.future id) → ExitAlike κ p (.blocked pending) (.blocked pending)

/-- The same end of an instruction. -/
abbrev EndAlike (κ : World) (p : Pairing) : Option Exit → Option Exit → Prop :=
  Option.Rel (ExitAlike κ p)

theorem enter_agrees (code : Bytecode) (function : Nat) {ds es : List Value}
    (hds : AllAlike κ p ds es) {a b : Arguments} (hab : a.Alike κ p b) :
    Agrees κ p Same (enter code function ds a) (enter code function es b) := by
  unfold enter
  split
  · exact .fail _
  · next c _ =>
    obtain ⟨vs, ws, hv, hw, hvs⟩ | ⟨e, d, he, hd, rfl⟩ := (bindArguments_alike c hds hab).elim
    · rw [hv, hw]
      refine .read fun m n h => ?_
      rw [h.depth_eq]
      refine .bind (R := Same) (onHeap_agrees (.read fun h k hp => ?_)) fun q hq _ _ _ => ?_
      · rw [κ.checkDepth hp.budget]
        refine Heap.withinLimit_agrees ?_
        cases k.budget.checkDepth n.depth with
        | ok => exact .ok rfl
        | error e => exact .error rfl
      · refine .bind (R := Same) (modify_agrees fun m n h => ?_) fun _ _ _ _ _ => ?_
        · exact { h with
            frame := { function := rfl, next := rfl, locals := hvs.mono hq,
                       base := h.stack.length_eq, blocks := rfl,
                       handledBase := congrArg List.length h.handled }
            callers := .cons h.frame h.callers }
        · exact trace_agrees fun m n h => by rw [h.depth_eq]
    · rw [he, hd]
      exact .fail _

theorem makeException_agrees (type : ExceptionType) {a b : Arguments} (hab : a.Alike κ p b) :
    Heap.Agrees κ p (Value.Alike κ) (makeException type a) (makeException type b) := by
  refine (Arguments.noNamed_agrees hab _).bind fun q hq _ _ _ => .read fun h k hp => ?_
  obtain ⟨positional, named⟩ := a
  obtain ⟨positional', named'⟩ := b
  have hpos := (hab.mono hq).positional
  simp only at hpos ⊢
  rcases hpos with _ | ⟨hv, _ | ⟨hw, hs⟩⟩
  · exact .ret (.exception _)
  · simp only [Heap.text_eq hp.toLinked hv]
    exact .ret (.exception _)
  · simp only [Heap.literal_eq hp.toLinked (.tuple (.cons hv (.cons hw hs)))]
    exact .ret (.exception _)

theorem settle_agrees {r s : Reply} (hrs : r.Alike κ p s) :
    Agrees κ p (EndAlike κ) (settle r) (settle s) := by
  cases hrs with
  | value h => exact (push_agrees h).bind fun _ _ _ _ _ => .ret .none
  | output chunks =>
    exact (writeAll_agrees chunks).bind fun _ _ _ _ _ =>
      (push_agrees .none).bind fun _ _ _ _ _ => .ret .none
  | request function h =>
    refine beginCall_agrees.bind fun q hq call _ hcall => ?_
    subst hcall
    refine (trace_agrees fun _ _ _ => rfl).bind fun r hr _ _ _ => ?_
    exact .ret (.some (.osCall _ _ (h.mono (hq.trans hr))))

theorem callValue_agrees (code : Bytecode) {v w : Value} (hvw : v.Alike κ p w) {a b : Arguments}
    (hab : a.Alike κ p b) :
    Agrees κ p (EndAlike κ) (callValue code v a) (callValue code w b) := by
  have refuse : Agrees κ p (EndAlike κ)
      (do throw (.typeError s!"'{(← get).heap.typeName v}' object is not callable"))
      (do throw (.typeError s!"'{(← get).heap.typeName w}' object is not callable")) := by
    refine .read fun m n h => ?_
    rw [Heap.typeName_eq h.heap.toLinked hvw]
    exact .fail _
  cases hvw with
  | function code' hds => exact (enter_agrees code _ hds hab).bind fun _ _ _ _ _ => .ret .none
  | external hi =>
    refine beginCall_agrees.bind fun q hq call _ hcall => ?_
    subst hcall
    refine (trace_agrees fun _ _ _ => rfl).bind fun r hr _ _ _ => ?_
    exact .ret (.some (.externalCall _ hi (hab.mono (hq.trans hr))))
  | builtin f =>
    exact (onHeap_agrees (BuiltinCall.call_agrees f hab)).bind fun _ _ _ _ h => settle_agrees h
  | excClass type =>
    exact (onHeap_agrees (makeException_agrees type hab)).bind fun _ _ _ _ h =>
      (push_agrees h).bind fun _ _ _ _ _ => .ret .none
  | _ => exact refuse

/-! ## Attributes and methods -/

theorem noAttribute_eq {h k : Heap} (hl : Heap.Linked κ p h k) {v w : Value}
    (hvw : v.Alike κ p w) (name : String) : noAttribute h v name = noAttribute k w name := by
  rw [noAttribute, noAttribute, Heap.typeName_eq hl hvw]

theorem moduleAttribute_alike (module : Module) (name : String) :
    SameEnd Eq (Reply.Alike κ p) (moduleAttribute module name) (moduleAttribute module name) := by
  unfold moduleAttribute
  split
  · exact .ok (.request _ ⟨.nil, .nil⟩)
  · exact .ok (.value (.builtin _))
  · exact .ok (.value (.builtin _))
  · exact .ok (.value (.builtin _))
  · exact .ok (.value (.builtin _))
  · exact .ok (.value (.builtin _))
  · exact .error rfl

theorem allStr_alike (texts : List String) :
    AllAlike κ p (texts.map Value.str) (texts.map Value.str) := by
  refine List.forall₂_same.mpr fun v hv => ?_
  obtain ⟨text, -, rfl⟩ := List.mem_map.mp hv
  exact .str _

theorem pathAttribute?_alike (path name : String) :
    MaybeAlike κ p (PathMethod.attribute? path name) (PathMethod.attribute? path name) := by
  unfold PathMethod.attribute?
  simp only
  split
  · exact .some (.str _)
  · exact .some (.path _)
  · exact .some (.str _)
  · exact .some (.str _)
  · have := allStr_alike (κ := κ) (p := p) ((Path.parts path.toList).map String.ofList)
    rw [List.map_map] at this
    exact .some (.tuple this)
  · exact .none

theorem ownAttribute?_alike {v w : Value} (hvw : v.Alike κ p w) (name : String) :
    MaybeAlike κ p (ownAttribute? v name) (ownAttribute? w name) := by
  cases hvw with
  | path s => exact pathAttribute?_alike s name
  | namedTuple type fields hvs =>
    simp only [ownAttribute?]
    cases fields.findIdx? (· == name) with
    | none => exact .none
    | some i => exact hvs.getElem? i
  | exception e =>
    simp only [ownAttribute?]
    split
    · exact .some (.tuple (allStr_alike _))
    · exact .none
  | _ => exact .none

theorem ownAttribute_alike {h k : Heap} (hl : Heap.Linked κ p h k) {v w : Value}
    (hvw : v.Alike κ p w) (name : String) :
    SameEnd Eq (Reply.Alike κ p)
      (match ownAttribute? v name with
        | some found => .ok (.value found)
        | none => .error (noAttribute h v name))
      (match ownAttribute? w name with
        | some found => .ok (.value found)
        | none => .error (noAttribute k w name)) := by
  obtain ⟨ha, hb⟩ | ⟨a, b, ha, hb, hab⟩ := (ownAttribute?_alike hvw name).elim <;> rw [ha, hb]
  · exact .error (noAttribute_eq hl hvw name)
  · exact .ok (.value hab)

theorem attributeOf_alike {h k : Heap} (hl : Heap.Linked κ p h k) {v w : Value}
    (hvw : v.Alike κ p w) (name : String) :
    SameEnd Eq (Reply.Alike κ p) (attributeOf h v name) (attributeOf k w name) := by
  have own := ownAttribute_alike hl hvw name
  cases hvw with
  | module m => exact moduleAttribute_alike m name
  | _ => exact own

theorem getAttribute_agrees {v w : Value} (hvw : v.Alike κ p w) (name : String) :
    Agrees κ p (EndAlike κ) (getAttribute v name) (getAttribute w name) := by
  refine .read fun m n h => ?_
  obtain ⟨r, s, hr, hs, hrs⟩ | ⟨e, d, he, hd, rfl⟩ :=
    (attributeOf_alike h.heap.toLinked hvw name).elim
  · rw [hr, hs]
    exact settle_agrees hrs
  · rw [he, hd]
    exact .fail _

theorem pureMethod_agree {h k : Heap} (hl : Heap.Linked κ p h k) {v w : Value}
    (hvw : v.Alike κ p w) (name : String) {a b : Arguments} (hab : a.Alike κ p b) :
    MethodsAgree κ p (pureMethod h v name a) (pureMethod k w name b) := by
  cases hvw with
  | path s => exact PathMethod.call_agrees s name hab
  | str s => exact TextMethod.call_agrees s name hab
  | bytes data => exact TextMethod.callBytes_agrees data name hab
  | ref hxy =>
    obtain ⟨c, d, hc, hd, hcd⟩ := hl.cells hxy
    simp only [pureMethod, hc, hd]
    cases hcd with
    | list _ => exact ListMethod.call_agrees hxy name hab
    | dict _ => exact DictMethod.call_agrees hxy name hab
    | iter _ => exact .none
  | _ => exact .none

theorem callOwnMethod_agrees {v w : Value} (hvw : v.Alike κ p w) (name : String)
    {a b : Arguments} (hab : a.Alike κ p b) :
    Agrees κ p (EndAlike κ) (callOwnMethod v name a) (callOwnMethod w name b) := by
  refine .read fun m n h => ?_
  obtain ⟨hx, hy⟩ | ⟨x, y, hx, hy, hxy⟩ := (pureMethod_agree h.heap.toLinked hvw name hab).elim
  · rw [hx, hy]
    refine .read fun m n h => ?_
    rw [noAttribute_eq h.heap.toLinked hvw]
    exact .fail _
  · rw [hx, hy]
    exact (onHeap_agrees hxy).bind fun _ _ _ _ h =>
      (push_agrees h).bind fun _ _ _ _ _ => .ret .none

/-- The call of an attribute that is a value of its own. -/
theorem callAttribute_agrees (code : Bytecode) {v w : Value} (hvw : v.Alike κ p w)
    (name : String) {a b : Arguments} (hab : a.Alike κ p b) :
    Agrees κ p (EndAlike κ)
      (do match ← getAttribute v name with
          | some exit => return some exit
          | none => do
            let callee ← pop
            callValue code callee a)
      (do match ← getAttribute w name with
          | some exit => return some exit
          | none => do
            let callee ← pop
            callValue code callee b) := by
  refine (getAttribute_agrees hvw name).bind fun q hq _ _ h => ?_
  cases h with
  | some h => exact .ret (.some h)
  | none =>
    exact pop_agrees.bind fun r hr _ _ h => callValue_agrees code h (hab.mono (hq.trans hr))

theorem callMethod_agrees (code : Bytecode) {v w : Value} (hvw : v.Alike κ p w) (name : String)
    {a b : Arguments} (hab : a.Alike κ p b) :
    Agrees κ p (EndAlike κ) (callMethod code v name a) (callMethod code w name b) := by
  have own := callOwnMethod_agrees hvw name hab
  have called := callAttribute_agrees code hvw name hab
  cases hvw with
  | module m => exact called
  | namedTuple type fields hvs => exact called
  | exception e => exact called
  | path s =>
    simp only [callMethod]
    split
    · exact settle_agrees (.request _ ⟨.cons (.path s) hab.positional, hab.named⟩)
    · exact own
  | _ => exact own

end Resumable.Machine
