import Resumable.Operation.Builtins
import Resumable.Proofs.Lockstep.Method

/-!
# Builtin functions in lockstep
-/

namespace Resumable

open List (Forall₂)
open Heap (Agrees)

variable {κ : World} {p q : Pairing}

/-- Replies that mean the same. -/
inductive Reply.Alike (κ : World) (p : Pairing) : Reply → Reply → Prop
  | value {v w} : v.Alike κ p w → Alike κ p (.value v) (.value w)
  | output (chunks) : Alike κ p (.output chunks) (.output chunks)
  | request (function) {a b} : a.Alike κ p b → Alike κ p (.request function a) (.request function b)

namespace BuiltinCall

theorem textOption_agrees (name : String) {v w : Option Value} (hvw : MaybeAlike κ p v w) :
    Agrees κ p Same (textOption name v) (textOption name w) := by
  cases hvw with
  | none => exact .ret rfl
  | some hvw =>
    have refuse : Agrees κ p (Same (α := Option String)) _ _ := Heap.failWithType hvw fun kind =>
      .typeError s!"{name} must be None or a string, not {kind}"
    cases hvw with
    | none => exact .ret rfl
    | str s => exact .ret rfl
    | _ => exact refuse

theorem texts_eq {h k : Heap} (hl : Heap.Linked κ p h k) {vs ws : List Value}
    (hvs : AllAlike κ p vs ws) : vs.map h.text = ws.map k.text :=
  hvs.map_congr fun _ _ => Heap.text_eq hl

theorem print_agrees {a b : Arguments} (hab : a.Alike κ p b) :
    Agrees κ p (Reply.Alike κ) (print a) (print b) := by
  obtain ⟨v, a, w, b, ha, hb, hsep, hab⟩ := hab.take "sep"
  unfold print
  rw [ha, hb]
  refine (textOption_agrees "sep" hsep).bind fun q hq separator _ h => ?_
  subst h
  obtain ⟨v, a, w, b, ha, hb, hend, hab⟩ := hab.take "end"
  rw [ha, hb]
  refine (textOption_agrees "end" (hend.mono hq)).bind fun r hr ending _ h => ?_
  subst h
  obtain ⟨v, a, w, b, ha, hb, -, hab⟩ := hab.take "flush"
  rw [ha, hb]
  refine (Arguments.noNamed_agrees (hab.mono (hq.trans hr)) "print").bind fun s hs _ _ _ => ?_
  refine .read fun h k hp => ?_
  rw [texts_eq hp.toLinked (hab.positional.mono (hq.trans (hr.trans hs)))]
  exact .ret (.output _)

theorem len_agrees {v w : Value} (hvw : v.Alike κ p w) :
    Agrees κ p (Value.Alike κ) (len v) (len w) := by
  refine .read fun h k hp => ?_
  rw [Heap.typeName_eq hp.toLinked hvw]
  cases hvw with
  | tuple hvs => exact .ret (hvs.length_eq ▸ .int _)
  | namedTuple type fields hvs => exact .ret (hvs.length_eq ▸ .int _)
  | str s => exact .ret (.int _)
  | bytes data => exact .ret (.int _)
  | range start stop step => exact .ret (.int _)
  | ref hxy =>
    obtain ⟨c, d, hc, hd, hcd⟩ := hp.cells hxy
    simp only [hc, hd]
    cases hcd with
    | list hvs => exact .ret (hvs.size_eq ▸ .int _)
    | dict hde => exact .ret (hde.size_eq ▸ .int _)
    | iter _ => exact .fail _
  | _ => exact .fail _

theorem range_agrees {a b : Arguments} (hab : a.Alike κ p b) :
    Agrees κ p (Value.Alike κ) (range a) (range b) := by
  refine (Arguments.between_agrees hab "range" 1 (some 3)).bind fun q _ _ _ hvs => ?_
  refine (Agree.mapM (T := Value.Alike κ) (R := Same) (fun hpq h => h.mono hpq) (fun _ h => h)
    hvs fun r _ v w hvw => ?_).bind fun r _ bounds _ h => ?_
  · rw [hvw.int?_eq]
    split
    · exact .ret rfl
    · exact .fail _
  · rw [List.forall₂_eq_eq_eq] at h
    subst h
    exact .fork Iff.rfl (fun _ => .fail _) fun _ => .ret (.range _ _ _)

theorem any_isTruthy_eq {h k : Heap} (hl : Heap.Linked κ p h k) {v w : Option Value}
    (hvw : MaybeAlike κ p v w) : v.any h.isTruthy = w.any k.isTruthy := by
  cases hvw with
  | none => rfl
  | some hvw => exact Heap.isTruthy_eq hl hvw

theorem sorted_agrees {a b : Arguments} (hab : a.Alike κ p b) :
    Agrees κ p (Value.Alike κ) (sorted a) (sorted b) := by
  obtain ⟨v', a, w', b, ha, hb, hreverse, hab⟩ := hab.take "reverse"
  unfold sorted
  rw [ha, hb]
  refine .read fun h' k' hp => ?_
  rw [any_isTruthy_eq hp.toLinked hreverse]
  obtain ⟨v, a, w, b, ha, hb, hkey, hab⟩ := hab.take "key"
  rw [ha, hb]
  simp only [hkey.isSome_eq]
  refine .fork Iff.rfl (fun _ => .fail _) fun _ => ?_
  refine (Arguments.one_agrees hab "sorted").bind fun q hq _ _ hvw => ?_
  refine (Heap.items_agrees hvw).bind fun r hr vs ws hvs => .read fun h k hp => ?_
  obtain ⟨as, bs, failed, ha, hb, hs⟩ := Heap.sorted_alike hp.toLinked (w'.any k'.isTruthy) hvs
  rw [ha, hb]
  cases failed with
  | none => exact Heap.allocList_agrees hs
  | some e => exact .fail _

theorem sumFrom_agrees {v w : Value} (hvw : v.Alike κ p w) {vs ws : List Value}
    (h : AllAlike κ p vs ws) : Agrees κ p (Value.Alike κ) (sumFrom v vs) (sumFrom w ws) := by
  induction vs generalizing p v w ws with
  | nil => cases h; exact .ret hvw
  | cons a vs ih =>
    cases h with
    | cons ha hs =>
      exact (Heap.binary_agrees .add hvw ha).bind fun q hq _ _ h => ih h (AllAlike.mono hs hq)

theorem sum_agrees {a b : Arguments} (hab : a.Alike κ p b) :
    Agrees κ p (Value.Alike κ) (sum a) (sum b) := by
  obtain ⟨v, a, w, b, ha, hb, hstart, hab⟩ := hab.take "start"
  unfold sum
  rw [ha, hb]
  refine (Arguments.oneOrTwo_agrees hab "sum").bind fun q hq x y hxy => ?_
  obtain ⟨iterable, start⟩ := x
  obtain ⟨iterable', start'⟩ := y
  have htotal := ((hstart.mono hq).or hxy.2).getD (Value.Alike.int 0)
  have hsum : Agrees κ q (Value.Alike κ)
      (do sumFrom ((v.or start).getD (.int 0)) (← Heap.items iterable).toList)
      (do sumFrom ((w.or start').getD (.int 0)) (← Heap.items iterable').toList) :=
    (Heap.items_agrees hxy.1).bind fun r hr _ _ hvs => sumFrom_agrees (htotal.mono hr) hvs
  revert htotal hsum
  simp only
  generalize (v.or start).getD (.int 0) = total
  generalize (w.or start').getD (.int 0) = total'
  intro htotal hsum
  cases htotal with
  | str s => exact .fail _
  | _ => exact hsum

theorem extremeFrom_agrees (wanted : Ordering) {v w : Value} (hvw : v.Alike κ p w)
    {vs ws : List Value} (h : AllAlike κ p vs ws) :
    Agrees κ p (Value.Alike κ) (extremeFrom wanted v vs) (extremeFrom wanted w ws) := by
  induction vs generalizing p v w ws with
  | nil => cases h; exact .ret hvw
  | cons a vs ih =>
    cases h with
    | cons ha hs =>
      refine (Heap.compare_agrees ha hvw).bind fun q hq ordering _ h => ?_
      subst h
      refine ih ?_ (AllAlike.mono hs hq)
      split
      · exact ha.mono hq
      · exact hvw.mono hq

theorem candidates_agrees (name : String) (hasDefault : Bool) {vs ws : List Value}
    (h : AllAlike κ p vs ws) :
    Agrees κ p (AllAlike κ) (candidates name hasDefault vs) (candidates name hasDefault ws) := by
  rcases h with _ | ⟨hv, _ | ⟨hw, hs⟩⟩
  · exact .fail _
  · exact (Heap.items_agrees hv).bind fun _ _ _ _ hvs => .ret hvs
  · exact .fork Iff.rfl (fun _ => .fail _) fun _ => .ret (.cons hv (.cons hw hs))

theorem extreme_agrees (name : String) (wanted : Ordering) {a b : Arguments}
    (hab : a.Alike κ p b) :
    Agrees κ p (Value.Alike κ) (extreme name wanted a) (extreme name wanted b) := by
  obtain ⟨v, a, w, b, ha, hb, hdefault, hab⟩ := hab.take "default"
  unfold extreme
  rw [ha, hb]
  simp only [hdefault.isSome_eq]
  refine (Arguments.noNamed_agrees hab name).bind fun q hq _ _ _ => ?_
  refine (candidates_agrees name _ (hab.positional.mono hq)).bind fun r hr _ _ hvs => ?_
  cases hvs with
  | cons h hs => exact extremeFrom_agrees wanted h hs
  | nil =>
    cases hdefault with
    | some h => exact .ret (h.mono (hq.trans hr))
    | none => exact .fail _

/-! ## Classes -/

theorem typeTest_eq {h k : Heap} (hl : Heap.Linked κ p h k) {v w : Value} (hvw : v.Alike κ p w)
    (function : Builtin) : typeTest h v function = typeTest k w function := by
  cases hvw with
  | ref hxy =>
    obtain ⟨c, d, hc, hd, hcd⟩ := hl.cells hxy
    cases function with
    | list | dict =>
      simp only [typeTest, typeTest.cell, hc, hd]
      cases hcd <;> rfl
    | _ => rfl
  | _ => rfl

mutual

theorem isInstance_eq {h k : Heap} (hl : Heap.Linked κ p h k) {v w a b : Value}
    (hvw : v.Alike κ p w) (hab : a.Alike κ p b) : isInstance h v a = isInstance k w b := by
  cases hab with
  | tuple hs =>
    simp only [isInstance]
    exact isInstanceOfAny_eq hl hvw hs
  | excClass type =>
    simp only [isInstance]
    cases hvw <;> rfl
  | builtin f =>
    simp only [isInstance]
    exact typeTest_eq hl hvw f
  | _ => simp only [isInstance]

theorem isInstanceOfAny_eq {h k : Heap} (hl : Heap.Linked κ p h k) {v w : Value}
    (hvw : v.Alike κ p w) {vs ws : List Value} (hs : AllAlike κ p vs ws) :
    isInstanceOfAny h v vs = isInstanceOfAny k w ws := by
  cases hs with
  | nil => simp only [isInstanceOfAny]
  | cons ha hs =>
    rw [isInstanceOfAny, isInstanceOfAny, isInstance_eq hl hvw ha, isInstanceOfAny_eq hl hvw hs]

end

theorem isinstance_agrees {a b : Arguments} (hab : a.Alike κ p b) :
    Agrees κ p (Value.Alike κ) (isinstance a) (isinstance b) := by
  refine (Arguments.two_agrees hab "isinstance").bind fun q _ x y hxy => .read fun h k hp => ?_
  rw [isInstance_eq hp.toLinked hxy.1 hxy.2]
  split
  · exact .ret (.bool _)
  · exact .fail _

/-! ## Iterators -/

theorem iteratorOf_agrees {vs ws : List Value} (h : AllAlike κ p vs ws) :
    Agrees κ p (Value.Alike κ) (iteratorOf vs) (iteratorOf ws) :=
  Heap.alloc_agrees (.iter (.items 0 h))

theorem enumerateStart_agrees {v w : Option Value} (hvw : MaybeAlike κ p v w) :
    Agrees κ p Same (enumerateStart v) (enumerateStart w) := by
  cases hvw with
  | none => exact .ret rfl
  | some hvw =>
    have refuse : Agrees κ p (Same (α := Int64)) _ _ := Heap.notAnInteger_agrees hvw
    cases hvw with
    | int i => exact .ret rfl
    | _ => exact refuse

theorem numbered_alike (start : Int64) {vs ws : List Value} (h : AllAlike κ p vs ws) (i : Nat) :
    AllAlike κ p
      ((vs.zipIdx i).map fun (v, i) => .tuple [.int (start + Int64.ofNat i), v])
      ((ws.zipIdx i).map fun (v, i) => .tuple [.int (start + Int64.ofNat i), v]) := by
  induction h generalizing i with
  | nil => exact .nil
  | cons h _ ih => exact .cons (.tuple (.cons (.int _) (.cons h .nil))) (ih (i + 1))

theorem enumerateFrom_agrees {v w : Option Value} (hvw : MaybeAlike κ p v w) {a b : Arguments}
    (hab : a.Alike κ p b) :
    Agrees κ p (Value.Alike κ) (enumerateFrom v a) (enumerateFrom w b) := by
  refine (enumerateStart_agrees hvw).bind fun q hq start _ h => ?_
  subst h
  refine (Arguments.one_agrees (hab.mono hq) "enumerate").bind fun r _ _ _ h => ?_
  exact (Heap.items_agrees h).bind fun s _ _ _ hvs => iteratorOf_agrees (numbered_alike start hvs 0)

theorem enumerate_agrees {a b : Arguments} (hab : a.Alike κ p b) :
    Agrees κ p (Value.Alike κ) (enumerate a) (enumerate b) := by
  obtain ⟨v, a, w, b, ha, hb, hstart, hab⟩ := hab.take "start"
  unfold enumerate
  rw [ha, hb]
  have plain := enumerateFrom_agrees hstart hab
  cases hstart with
  | some h => exact plain
  | none =>
    obtain ⟨positional, named⟩ := a
    obtain ⟨positional', named'⟩ := b
    obtain ⟨hpos, hnamed⟩ := hab
    simp only at hpos hnamed
    rcases hpos with _ | ⟨hv, _ | ⟨hw, _ | ⟨_, _⟩⟩⟩
    · exact plain
    · exact plain
    · exact enumerateFrom_agrees (.some hw) ⟨.cons hv .nil, hnamed⟩
    · exact plain

theorem zip_agrees {a b : Arguments} (hab : a.Alike κ p b) :
    Agrees κ p (Value.Alike κ) (zip a) (zip b) := by
  refine (Arguments.noNamed_agrees hab "zip").bind fun q hq _ _ _ => ?_
  refine (Agree.mapM (T := Value.Alike κ) (R := ItemsAlike κ) (fun hpq h => h.mono hpq)
    (fun hpq h => AllAlike.mono h hpq) (hab.positional.mono hq) fun _ _ _ _ =>
      Heap.items_agrees).bind fun r _ columns columns' h => ?_
  rw [h.map_congr fun _ _ h => h.size_eq]
  refine iteratorOf_agrees ?_
  simp only [AllAlike, List.forall₂_map_left_iff, List.forall₂_map_right_iff, List.forall₂_same]
  exact fun i _ => .tuple (List.rel_filterMap (fun _ _ h => h.getElem? i) h)

/-! ## Calls -/

theorem getenv_agrees {a b : Arguments} (hab : a.Alike κ p b) :
    Agrees κ p (Reply.Alike κ) (getenv a) (getenv b) := by
  obtain ⟨v, a, w, b, ha, hb, hdefault, hab⟩ := hab.take "default"
  unfold getenv
  rw [ha, hb]
  refine (Arguments.between_agrees hab "getenv" 1 (some 2)).bind fun q hq _ _ hvs => ?_
  cases hvs with
  | nil => exact .ret (.value .none)
  | cons hkey hs =>
    have hdefault := ((hdefault.mono hq).or (Arguments.head?_alike hs)).getD Value.Alike.none
    have refuse : Agrees κ q (Reply.Alike κ) _ _ := Heap.failWithType hkey fun kind =>
      .typeError s!"str expected, not {kind}"
    cases hkey with
    | str s => exact .ret (.request _ ⟨.cons (.str s) (.cons hdefault .nil), .nil⟩)
    | _ => exact refuse

theorem any_eq {h k : Heap} (hl : Heap.Linked κ p h k) {vs ws : Array Value}
    (hvs : ItemsAlike κ p vs ws) : vs.any h.isTruthy = ws.any k.isTruthy := by
  obtain ⟨vs⟩ := vs
  obtain ⟨ws⟩ := ws
  rw [List.any_toArray, List.any_toArray]
  change Forall₂ _ vs ws at hvs
  induction hvs with
  | nil => rfl
  | cons h _ ih => rw [List.any_cons, List.any_cons, Heap.isTruthy_eq hl h, ih]

theorem all_eq {h k : Heap} (hl : Heap.Linked κ p h k) {vs ws : Array Value}
    (hvs : ItemsAlike κ p vs ws) : vs.all h.isTruthy = ws.all k.isTruthy := by
  obtain ⟨vs⟩ := vs
  obtain ⟨ws⟩ := ws
  rw [List.all_toArray, List.all_toArray]
  change Forall₂ _ vs ws at hvs
  induction hvs with
  | nil => rfl
  | cons h _ ih => rw [List.all_cons, List.all_cons, Heap.isTruthy_eq hl h, ih]

theorem value_agrees {a b : Heap.Action Value} (h : Agrees κ p (Value.Alike κ) a b) :
    Agrees κ p (Reply.Alike κ) (Reply.value <$> a) (Reply.value <$> b) :=
  h.map fun _ _ _ _ h => .value h

theorem dict_agrees {a b : Arguments} (hab : a.Alike κ p b) :
    Agrees κ p (Reply.Alike κ) (call .dict a) (call .dict b) := by
  refine value_agrees ((DictMethod.entriesOfCall_agrees "dict" hab).bind fun q _ _ _ h => ?_)
  refine (Agree.foldlM (T := BothAlike κ) (R := Dict.Alike κ) BothAlike.mono .empty h ?_).bind
    fun r _ _ _ hde => Heap.alloc_agrees (.dict hde)
  intro r _ d e x y hde hxy
  refine (Heap.key_agrees hxy.1).bind fun s hs key _ h => ?_
  subst h
  exact .ret ((hde.mono hs).insert key (hxy.1.mono hs) (hxy.2.mono hs))

theorem call_agrees (function : Builtin) {a b : Arguments} (hab : a.Alike κ p b) :
    Agrees κ p (Reply.Alike κ) (call function a) (call function b) := by
  cases function with
  | print => exact print_agrees hab
  | getenv => exact getenv_agrees hab
  | dict => exact dict_agrees hab
  | len => exact value_agrees ((Arguments.one_agrees hab _).bind fun _ _ _ _ h => len_agrees h)
  | str =>
    refine value_agrees ((Arguments.atMostOne_agrees hab _).bind fun q _ _ _ hvw => ?_)
    cases hvw with
    | none => exact .ret (.str _)
    | some h => exact .read fun _ _ hp => .ret (Heap.text_eq hp.toLinked h ▸ .str _)
  | repr =>
    refine value_agrees ((Arguments.one_agrees hab _).bind fun q _ _ _ h => ?_)
    exact .read fun _ _ hp => .ret (Heap.literal_eq hp.toLinked h ▸ .str _)
  | int => exact value_agrees (Numeral.int_agrees hab)
  | float => exact value_agrees (Numeral.float_agrees hab)
  | bool =>
    refine value_agrees ((Arguments.atMostOne_agrees hab _).bind fun q _ _ _ h => ?_)
    exact .read fun _ _ hp => .ret (any_isTruthy_eq hp.toLinked h ▸ .bool _)
  | list =>
    refine value_agrees ((Arguments.atMostOne_agrees hab _).bind fun q _ _ _ hvw => ?_)
    cases hvw with
    | none => exact Heap.allocList_agrees .nil
    | some h => exact (Heap.items_agrees h).bind fun _ _ _ _ hvs => Heap.allocList_agrees hvs
  | tuple =>
    refine value_agrees ((Arguments.atMostOne_agrees hab _).bind fun q _ _ _ hvw => ?_)
    cases hvw with
    | none => exact .ret (.tuple .nil)
    | some h => exact (Heap.items_agrees h).bind fun _ _ _ _ hvs => .ret (.tuple hvs)
  | range => exact value_agrees (range_agrees hab)
  | sorted => exact value_agrees (sorted_agrees hab)
  | sum => exact value_agrees (sum_agrees hab)
  | min => exact value_agrees (extreme_agrees _ _ hab)
  | max => exact value_agrees (extreme_agrees _ _ hab)
  | abs =>
    exact value_agrees ((Arguments.one_agrees hab _).bind fun _ _ _ _ h =>
      Numeral.magnitude_agrees h)
  | round => exact value_agrees (Numeral.round_agrees hab)
  | isinstance => exact value_agrees (isinstance_agrees hab)
  | any =>
    refine value_agrees ((Arguments.one_agrees hab _).bind fun q _ _ _ h => ?_)
    refine (Heap.items_agrees h).bind fun r _ _ _ hvs => .read fun _ _ hp => .ret ?_
    exact any_eq hp.toLinked hvs ▸ .bool _
  | all =>
    refine value_agrees ((Arguments.one_agrees hab _).bind fun q _ _ _ h => ?_)
    refine (Heap.items_agrees h).bind fun r _ _ _ hvs => .read fun _ _ hp => .ret ?_
    exact all_eq hp.toLinked hvs ▸ .bool _
  | enumerate => exact value_agrees (enumerate_agrees hab)
  | zip => exact value_agrees (zip_agrees hab)
  | reversed =>
    refine value_agrees ((Arguments.one_agrees hab _).bind fun q _ _ _ h => ?_)
    exact (Heap.items_agrees h).bind fun _ _ _ _ hvs => iteratorOf_agrees (List.rel_reverse hvs)
  | path =>
    refine value_agrees ((Arguments.noNamed_agrees hab _).bind fun q hq _ _ _ => ?_)
    exact (PathMethod.joinAll_agrees _ (hab.positional.mono hq)).bind
      fun _ _ _ _ h => h ▸ .ret (.path _)
  | gather =>
    refine value_agrees ((Arguments.noNamed_agrees hab _).bind fun q hq _ _ _ => ?_)
    exact .ret (.gather (hab.positional.mono hq))

end BuiltinCall

end Resumable
