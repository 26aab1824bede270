import Resumable.Format
import Resumable.Operation.Numerals
import Resumable.Operation.PathMethods
import Resumable.Operation.TextMethods
import Resumable.Proofs.Lockstep.Arguments
import Resumable.Proofs.Lockstep.Conversion
import Resumable.Proofs.Lockstep.Iteration

/-!
# Texts and numerals in lockstep

Formatting, conversions to numbers, and the methods of texts, byte strings and paths, on values and
arguments that are alike.
-/

namespace Resumable

open List (Forall₂)
open Heap (Agrees)

variable {κ : World} {p q : Pairing}

/-! ## Formatting -/

namespace FormatSpec

theorem body_eq (f : FormatSpec) {h k : Heap} (hl : Heap.Linked κ p h k) {v w : Value}
    (hvw : v.Alike κ p w) : f.body h v = f.body k w := by
  have ht := Heap.text_eq hl hvw
  unfold body
  cases f.kind with
  | none => cases hvw <;> simp only [ht]
  | some kind =>
    cases hvw <;> simp only [Value.int?, Value.number?] <;> split <;> simp_all

theorem isNumeric_eq (f : FormatSpec) {v w : Value} (hvw : v.Alike κ p w) :
    f.isNumeric v = f.isNumeric w := by
  cases hvw <;> rfl

end FormatSpec

theorem Heap.format_agrees {v w : Value} (hvw : v.Alike κ p w) (spec : String) :
    Agrees κ p Same (format v spec) (format w spec) := by
  refine .read fun h k hp => ?_
  rw [text_eq hp.toLinked hvw, typeName_eq hp.toLinked hvw]
  refine .fork Iff.rfl (fun _ => .ret rfl) fun _ => ?_
  split
  · exact .fail _
  · next f _ =>
    refine (checkLarge_agrees _).bind fun q hq _ _ _ => ?_
    rw [f.body_eq hp.toLinked hvw, f.isNumeric_eq hvw]
    split
    · exact .ret rfl
    · exact .fail _

/-! ## Conversions to numbers -/

namespace Numeral

theorem radixOf_agrees {v w : Value} (hvw : v.Alike κ p w) :
    Agrees κ p Same (radixOf v) (radixOf w) := by
  have refuse : Agrees κ p (Same (α := Nat)) _ _ := Heap.notAnInteger_agrees hvw
  cases hvw with
  | int i => exact .fork Iff.rfl (fun _ => .ret rfl) fun _ => .fail _
  | _ => exact refuse

theorem truncate_agrees (x : Float) : Agrees κ p Same (truncate x) (truncate x) := by
  unfold truncate
  exact .fork Iff.rfl (fun _ => .fail _) fun _ => .fork Iff.rfl (fun _ => .fail _) fun _ =>
    .fork Iff.rfl (fun _ => .fail _) fun _ => .ret rfl

theorem toInteger_agrees {v w : Value} (hvw : v.Alike κ p w) {r s : Option Value}
    (hrs : MaybeAlike κ p r s) : Agrees κ p Same (toInteger v r) (toInteger w s) := by
  have refuse : Agrees κ p (Same (α := Int64)) _ _ := Heap.failWithType hvw fun kind =>
    .typeError ("int() argument must be a string, a bytes-like object or a real " ++
        s!"number, not '{kind}'")
  cases hvw with
  | str text =>
    have hradix : Agrees κ p Same (r.elim (pure 10) radixOf) (s.elim (pure 10) radixOf) := by
      cases hrs with
      | none => exact .ret rfl
      | some h => exact radixOf_agrees h
    refine hradix.bind fun q _ radix _ h => ?_
    subst h
    split
    · exact .ret rfl
    · exact .fail _
  | float x => cases hrs with
    | none => exact truncate_agrees x
    | some _ => exact .fail _
  | int i => cases hrs with
    | none => exact .ret rfl
    | some _ => exact .fail _
  | bool b => cases hrs with
    | none => exact .ret rfl
    | some _ => exact .fail _
  | _ => cases hrs with
    | none => exact refuse
    | some _ => exact .fail _

theorem int_agrees {a b : Arguments} (hab : a.Alike κ p b) :
    Agrees κ p (Value.Alike κ) (int a) (int b) := by
  obtain ⟨base, a', base', b', ha, hb, hbase, hrest⟩ := hab.take "base"
  unfold int
  rw [ha, hb]
  refine (Arguments.between_agrees hrest "int" 0 (some 2)).bind fun q hq _ _ hvs => ?_
  cases hvs with
  | nil =>
    rw [hbase.isSome_eq]
    exact .fork Iff.rfl (fun _ => .fail _) fun _ => .ret (.int _)
  | cons hv hvs =>
    have hradix := (Arguments.head?_alike hvs).or (hbase.mono hq)
    exact (toInteger_agrees hv hradix).bind fun r _ _ _ h => h ▸ .ret (.int _)

theorem float_agrees {a b : Arguments} (hab : a.Alike κ p b) :
    Agrees κ p (Value.Alike κ) (float a) (float b) := by
  refine (Arguments.atMostOne_agrees hab "float").bind fun q hq _ _ hvw => ?_
  cases hvw with
  | none => exact .ret (.float _)
  | @some v w hvw =>
    have refuse : Agrees κ q (Value.Alike κ) _ _ := Heap.failWithType hvw fun kind =>
      .typeError s!"float() argument must be a string or a real number, not '{kind}'"
    cases hvw with
    | str s =>
      simp only
      split
      · exact .ret (.float _)
      · exact .fail _
    | float x => exact .ret (.float _)
    | int i => exact .ret (.float _)
    | bool b => exact .ret (.float _)
    | _ => exact refuse

theorem magnitude_agrees {v w : Value} (hvw : v.Alike κ p w) :
    Agrees κ p (Value.Alike κ) (magnitude v) (magnitude w) := by
  have refuse : Agrees κ p (Value.Alike κ) _ _ := Heap.failWithType hvw fun kind =>
    .typeError s!"bad operand type for abs(): '{kind}'"
  cases hvw with
  | int i =>
    simp only [magnitude]
    split
    · exact .ret (.int _)
    · exact .fail _
  | bool b => exact .ret (.int _)
  | float x => exact .ret (.float _)
  | _ => exact refuse

theorem roundTo_agrees {v w : Value} (hvw : v.Alike κ p w) (places : Option Int64) :
    Agrees κ p (Value.Alike κ) (roundTo v places) (roundTo w places) := by
  have refuse : Agrees κ p (Value.Alike κ) _ _ := Heap.failWithType hvw fun kind =>
    .typeError s!"type {kind} doesn't define __round__ method"
  cases hvw with
  | int i => cases places <;> exact .ret (.int _)
  | bool b => cases places <;> exact .ret (.int _)
  | float x => cases places with
    | none => exact .fork Iff.rfl (fun _ => .ret (.int _)) fun _ => .fail _
    | some n => exact .ret (.float _)
  | _ => cases places <;> exact refuse

theorem round_agrees {a b : Arguments} (hab : a.Alike κ p b) :
    Agrees κ p (Value.Alike κ) (round a) (round b) := by
  refine (Arguments.oneOrTwo_agrees hab "round").bind fun q hq x y hxy => ?_
  obtain ⟨v, places⟩ := x
  obtain ⟨w, places'⟩ := y
  obtain ⟨hvw, hplaces⟩ := hxy
  cases hplaces with
  | none => exact roundTo_agrees hvw none
  | some h =>
    have refuse : Agrees κ q (Value.Alike κ) _ _ := Heap.notAnInteger_agrees h
    cases h with
    | none => exact roundTo_agrees hvw none
    | int n => exact roundTo_agrees hvw (some n)
    | _ => exact refuse

end Numeral

/-! ## Methods -/

/-- Actions of methods that agree, if there is a method of that name. -/
abbrev MethodsAgree (κ : World) (p : Pairing) (a b : Option (Heap.Action Value)) : Prop :=
  Option.Rel (Agrees κ p (Value.Alike κ)) a b

/-- A method without arguments whose result refers to no slot. -/
theorem nothingThen_agrees {a b : Arguments} (hab : a.Alike κ p b) (name : String) {v : Value}
    (hv : ∀ q, v.Alike κ q v) :
    Agrees κ p (Value.Alike κ) (do a.nothing name; return v) (do b.nothing name; return v) :=
  (Arguments.nothing_agrees hab name).bind fun q _ _ _ _ => .ret (hv q)

namespace PathMethod

theorem notAPath_agrees {α β : Type} {R : Pairing → α → β → Prop} {v w : Value}
    (hvw : v.Alike κ p w) :
    Agrees κ p R (do throw (← notAPath v)) (do throw (← notAPath w)) := by
  refine .read fun h k hp => ?_
  rw [Heap.typeName_eq hp.toLinked hvw]
  exact .fail _

theorem joinAll_agrees (path : List Char) {vs ws : List Value} (h : AllAlike κ p vs ws) :
    Agrees κ p Same (joinAll path vs) (joinAll path ws) := by
  induction h generalizing path with
  | nil => exact .ret rfl
  | cons hvw _ ih =>
    have refuse : Agrees κ p (Same (α := List Char)) _ _ := notAPath_agrees hvw
    cases hvw with
    | str s => exact ih _
    | path s => exact ih _
    | _ => exact refuse

theorem withName_agrees (path : String) (newName : List Char) :
    Agrees κ p (Value.Alike κ) (withName path newName) (withName path newName) := by
  unfold withName
  split
  · exact .ret (.path _)
  · exact .fail _

theorem withSuffix_agrees (path suffix : String) :
    Agrees κ p (Value.Alike κ) (withSuffix path suffix) (withSuffix path suffix) :=
  .fork Iff.rfl (fun _ => withName_agrees _ _) fun _ => .fail _

theorem call_agrees (path name : String) {a b : Arguments} (hab : a.Alike κ p b) :
    MethodsAgree κ p (call path name a) (call path name b) := by
  unfold call
  split
  · refine .some ((Arguments.between_agrees hab _ 0 none).bind fun q _ _ _ hvs => ?_)
    exact (joinAll_agrees _ hvs).bind fun r _ _ _ h => h ▸ .ret (.path _)
  · refine .some ((Arguments.one_agrees hab _).bind fun q _ _ _ hvw => ?_)
    have refuse : Agrees κ q (Value.Alike κ) _ _ := notAPath_agrees hvw
    cases hvw with
    | str s => exact withSuffix_agrees _ _
    | _ => exact refuse
  · refine .some ((Arguments.one_agrees hab _).bind fun q _ _ _ hvw => ?_)
    have refuse : Agrees κ q (Value.Alike κ) _ _ := notAPath_agrees hvw
    cases hvw with
    | str s => exact withName_agrees _ _
    | _ => exact refuse
  · exact .some (nothingThen_agrees hab _ fun _ => .bool _)
  · exact .some (nothingThen_agrees hab _ fun _ => .str _)
  · exact .none

end PathMethod

namespace TextMethod

theorem textOf_agrees (method : String) {v w : Value} (hvw : v.Alike κ p w) :
    Agrees κ p Same (textOf method v) (textOf method w) := by
  have refuse : Agrees κ p (Same (α := String)) _ _ := Heap.failWithType hvw fun kind =>
    .typeError s!"{method}() argument must be str, not {kind}"
  cases hvw with
  | str s => exact .ret rfl
  | _ => exact refuse

theorem allStrings_alike {α : Type} (f : α → String) (xs : List α) :
    ItemsAlike κ p (xs.map fun x => Value.str (f x)).toArray
      (xs.map fun x => Value.str (f x)).toArray := by
  refine List.forall₂_same.mpr fun v hv => ?_
  obtain ⟨x, -, rfl⟩ := List.mem_map.mp hv
  exact .str _

theorem listOfTexts_agrees (pieces : List (List Char)) :
    Agrees κ p (Value.Alike κ) (listOfTexts pieces) (listOfTexts pieces) :=
  Heap.allocList_agrees (allStrings_alike _ _)

theorem strip_agrees (s method : String) {a b : Arguments} (hab : a.Alike κ p b) :
    Agrees κ p (Value.Alike κ) (strip s method a) (strip s method b) := by
  refine (Arguments.atMostOne_agrees hab method).bind fun q _ _ _ hvw => ?_
  cases hvw with
  | none => exact .ret (.str _)
  | some hvw =>
    have given := textOf_agrees method hvw
    cases hvw with
    | none => exact .ret (.str _)
    | _ => exact given.bind fun _ _ _ _ h => h ▸ .ret (.str _)

theorem splitLimit_agrees {v w : Option Value} (hvw : MaybeAlike κ p v w) :
    Agrees κ p Same (splitLimit v) (splitLimit w) := by
  cases hvw with
  | none => exact .ret rfl
  | some hvw =>
    have refuse : Agrees κ p (Same (α := Option Nat)) _ _ := Heap.notAnInteger_agrees hvw
    cases hvw with
    | int n => exact .ret rfl
    | _ => exact refuse

theorem splitBy_agrees (s : String) (limit : Option Nat) {v w : Value} (hvw : v.Alike κ p w) :
    Agrees κ p (Value.Alike κ) (splitBy s limit v) (splitBy s limit w) := by
  have given := textOf_agrees "split" hvw
  cases hvw with
  | none => exact listOfTexts_agrees _
  | _ =>
    refine given.bind fun _ _ _ _ h => ?_
    subst h
    exact .fork Iff.rfl (fun _ => .fail _) fun _ => listOfTexts_agrees _

theorem split_agrees (s : String) {a b : Arguments} (hab : a.Alike κ p b) :
    Agrees κ p (Value.Alike κ) (split s a) (split s b) := by
  obtain ⟨v, a', w, b', ha, hb, hlimit, hab⟩ := hab.take "maxsplit"
  obtain ⟨v', a'', w', b'', ha', hb', hseparator, hab⟩ := hab.take "sep"
  unfold split
  simp only [ha, hb, ha', hb']
  refine (Arguments.between_agrees hab "split" 0 (some 2)).bind fun q hq _ _ hvs => ?_
  -- the separator is known; what is left of the positional arguments may set the limit
  have finish : ∀ {v w : Value} {vs ws : List Value}, v.Alike κ q w → AllAlike κ q vs ws →
      Agrees κ q (Value.Alike κ) (do splitBy s (← splitLimit (_ : Option Value)) v)
        (do splitBy s (← splitLimit (_ : Option Value)) w) := fun hvw hvs =>
    (splitLimit_agrees ((hlimit.mono hq).or (Arguments.head?_alike hvs))).bind
      fun r hr _ _ h => h ▸ splitBy_agrees s _ (hvw.mono hr)
  cases hseparator with
  | some h => exact finish (h.mono hq) hvs
  | none =>
    cases hvs with
    | nil => exact finish .none .nil
    | cons h hvs => exact finish h hvs

theorem textsOf_agrees (texts : List (List Char)) (index : Nat) {vs ws : List Value}
    (h : AllAlike κ p vs ws) :
    Agrees κ p Same (textsOf texts index vs) (textsOf texts index ws) := by
  induction h generalizing texts index with
  | nil => exact .ret rfl
  | cons hvw _ ih =>
    have refuse : Agrees κ p (Same (α := List (List Char))) _ _ :=
      Heap.failWithType hvw fun kind =>
        .typeError s!"sequence item {index}: expected str instance, {kind} found"
    cases hvw with
    | str s => exact ih _ _
    | _ => exact refuse

theorem join_agrees (s : String) {a b : Arguments} (hab : a.Alike κ p b) :
    Agrees κ p (Value.Alike κ) (join s a) (join s b) := by
  refine (Arguments.one_agrees hab "join").bind fun q _ _ _ hvw => ?_
  refine (Heap.items_agrees hvw).bind fun r _ _ _ hvs => ?_
  refine (textsOf_agrees [] 0 hvs).bind fun t _ texts _ h => ?_
  subst h
  exact (Heap.checkResult_agrees _).bind fun _ _ _ _ _ => .ret (.str _)

theorem alternatives_alike {v w : Value} (hvw : v.Alike κ p w) :
    AllAlike κ p (alternatives v) (alternatives w) := by
  have one : AllAlike κ p [v] [w] := .cons hvw .nil
  cases hvw with
  | tuple hvs => exact hvs
  | _ => exact one

theorem hasAffix_agrees (s method : String) {a b : Arguments} (hab : a.Alike κ p b) :
    Agrees κ p (Value.Alike κ) (hasAffix s method a) (hasAffix s method b) := by
  refine (Arguments.one_agrees hab method).bind fun q _ _ _ hvw => ?_
  refine (Agree.mapM (T := Value.Alike κ) (R := Same) (fun hpq h => h.mono hpq) (fun _ h => h)
    (alternatives_alike hvw) fun _ _ _ _ h => textOf_agrees method h).bind fun r _ _ _ h => ?_
  rw [List.forall₂_eq_eq_eq] at h
  subst h
  exact .ret (.bool _)

theorem replace_agrees (s : String) {a b : Arguments} (hab : a.Alike κ p b) :
    Agrees κ p (Value.Alike κ) (replace s a) (replace s b) := by
  refine (Arguments.between_agrees hab "replace" 2 (some 3)).bind fun q _ _ _ hvs => ?_
  rcases hvs with _ | ⟨hold, _ | ⟨hnew, hrest⟩⟩
  · exact .ret .none
  · exact .ret .none
  · refine (textOf_agrees "replace" hold).bind fun r hr _ _ h => ?_
    refine (textOf_agrees "replace" (hnew.mono hr)).bind fun t _ _ _ h' => ?_
    subst h h'
    cases hrest with
    | nil => exact (Heap.checkResult_agrees _).bind fun _ _ _ _ _ => .ret (.str _)
    | cons h _ =>
      cases h <;> exact (Heap.checkResult_agrees _).bind fun _ _ _ _ _ => .ret (.str _)

theorem decode_agrees (data : List UInt8) :
    Agrees κ p (Value.Alike κ) (decode data) (decode data) := by
  unfold decode
  split
  · exact .ret (.str _)
  · exact .fail _

theorem call_agrees (s name : String) {a b : Arguments} (hab : a.Alike κ p b) :
    MethodsAgree κ p (call s name a) (call s name b) := by
  unfold call
  split
  · exact .some (nothingThen_agrees hab _ fun _ => .str _)
  · exact .some (nothingThen_agrees hab _ fun _ => .str _)
  · exact .some (strip_agrees s _ hab)
  · exact .some (strip_agrees s _ hab)
  · exact .some (strip_agrees s _ hab)
  · exact .some (split_agrees s hab)
  · refine .some ((Arguments.nothing_agrees hab _).bind fun q _ _ _ _ => ?_)
    exact Heap.allocList_agrees (allStrings_alike id _)
  · exact .some (join_agrees s hab)
  · exact .some (hasAffix_agrees s _ hab)
  · exact .some (hasAffix_agrees s _ hab)
  · exact .some (replace_agrees s hab)
  · exact .some ((Arguments.between_agrees hab _ 0 (some 2)).bind fun _ _ _ _ _ =>
      .ret (.bytes _))
  · refine .some ((Arguments.one_agrees hab _).bind fun q _ _ _ hvw => ?_)
    refine (textOf_agrees _ hvw).bind fun r _ _ _ h => ?_
    subst h
    split <;> exact .ret (.int _)
  · refine .some ((Arguments.one_agrees hab _).bind fun q _ _ _ hvw => ?_)
    exact (textOf_agrees _ hvw).bind fun r _ _ _ h => h ▸ .ret (.int _)
  · exact .some (nothingThen_agrees hab _ fun _ => .bool _)
  · exact .none

theorem callBytes_agrees (data : List UInt8) (name : String) {a b : Arguments}
    (hab : a.Alike κ p b) : MethodsAgree κ p (callBytes data name a) (callBytes data name b) := by
  unfold callBytes
  split
  · exact .some ((Arguments.between_agrees hab _ 0 (some 2)).bind fun _ _ _ _ _ =>
      decode_agrees data)
  · exact .none

end TextMethod

end Resumable
