import Resumable.Operation.Binary
import Resumable.Operation.Index
import Resumable.Operation.Numerals
import Resumable.Operation.PathMethods
import Resumable.Operation.TextMethods
import Resumable.Proofs.Obedience.Heap

/-!
# Operations on values obey their budget

Arguments, operators, indexing, conversions to numbers, and the methods of texts and paths.
-/

namespace Resumable

open Heap (Plain)

/-- A failure of an action that says something about the state. -/
theorem Obedient.refuse {σ α : Type} [Funded σ] [Passing σ] {f : σ → Failure}
    (hf : ∀ s b, f (Funded.under s b) = f s) (hown : ∀ s, (f s).IsOwn) :
    Obedient (do throw (f (← get)) : EStateM Failure σ α) :=
  .read (fun s b => congrArg throw (hf s b)) fun s => .fail (hown s)

/-! ## Arguments -/

namespace Arguments

variable (args : Arguments) (function : String)

theorem noNamed_plain : Plain (args.noNamed function) := by
  unfold noNamed
  split
  · exact .ret ()
  · exact .fail rfl

theorem nothing_plain : Plain (args.nothing function) :=
  (noNamed_plain args function).bind fun _ => .fork (fun _ => .fail rfl) fun _ => .ret ()

theorem one_plain : Plain (args.one function) := by
  refine (noNamed_plain args function).bind fun _ => ?_
  split
  · exact .ret _
  · exact .fail rfl

theorem two_plain : Plain (args.two function) := by
  refine (noNamed_plain args function).bind fun _ => ?_
  split
  · exact .ret _
  · exact .fail rfl

theorem between_plain (least : Nat) (most : Option Nat) :
    Plain (args.between function least most) := by
  refine (noNamed_plain args function).bind fun _ => ?_
  refine .fork (fun _ => .fail rfl) fun _ => ?_
  cases most with
  | none => exact .ret _
  | some most => exact .fork (fun _ => .fail rfl) fun _ => .ret _

theorem atMostOne_plain : Plain (args.atMostOne function) :=
  (between_plain args function 0 (some 1)).bind fun _ => .ret _

theorem oneOrTwo_plain : Plain (args.oneOrTwo function) := by
  refine (between_plain args function 1 (some 2)).bind fun vs => ?_
  cases vs with
  | nil => exact .fail rfl
  | cons v vs => exact .ret _

end Arguments

/-! ## Operators -/

namespace Heap

theorem withinNumbers_plain {α : Type} (x : Except NumberError α) :
    Plain (withinNumbers x) := by
  cases x with
  | ok a => exact .ret a
  | error e => exact .fail rfl

theorem repeated_plain (v : Value) (n : Nat) : Plain (repeated v n) := by
  refine .read (fun _ _ => rfl) fun h => ?_
  cases h.unitBytes v with
  | none => exact .ret _
  | some unit =>
    refine .fork (fun _ => .fail rfl) fun _ => (checkLarge_plain _).bind fun _ => ?_
    cases v with
    | ref id =>
      simp only
      split
      · exact (allocList_plain _).bind fun _ => .ret _
      · exact .ret _
    | _ => exact .ret _

theorem unsupported_plain {α : Type} (op : Operator) (v w : Value) :
    Plain (do throw ((← get).unsupported op v w) : Action α) :=
  .refuse (fun _ _ => rfl) fun _ => rfl

/-- A product, if there is one. -/
theorem product_plain (v w : Value) (product? : Option Value) : Plain
    (match product? with
      | some v => pure v
      | none => do throw ((← get).unsupported .mult v w) : Action Value) := by
  cases product? with
  | some v => exact .ret v
  | none => exact unsupported_plain .mult v w

theorem combine_plain (op : Operator) (v w : Value) : Plain (combine op v w) := by
  unfold combine
  split
  · exact (checkLarge_plain _).bind fun _ => .ret _
  · exact (checkLarge_plain _).bind fun _ => .ret _
  · exact .ret _
  · refine .read (fun _ _ => rfl) fun h => ?_
    split
    · exact allocList_plain _
    · exact .fail rfl
  · split
    · exact (repeated_plain _ _).bind fun _ => product_plain _ _ _
    · exact (repeated_plain _ _).bind fun _ => product_plain _ _ _
    · exact product_plain _ _ none
  · exact .ret _
  · exact .ret _
  · exact .ret _
  · exact unsupported_plain _ _ _

theorem binary_plain (op : Operator) (v w : Value) : Plain (binary op v w) := by
  unfold binary
  split
  · exact withinNumbers_plain _
  · exact withinNumbers_plain _
  · exact combine_plain op v w

theorem inplace_obedient (op : Operator) (v w : Value) : Obedient (inplace op v w) := by
  unfold inplace
  split
  · next id =>
    refine .readAt (fun _ _ => rfl) fun h => ?_
    split
    · next hcell =>
      have hextend : ObedientOn id (do
          let more ← items w
          more.forM fun _ => chargeInsert id
          modifyList id (· ++ more)
          pure (Value.ref id)) := by
        refine .bind (.of (items_plain w).obedient) fun more => ?_
        rw [← bind_assoc]
        exact (addAll_obedient id more).bind fun _ => .ret (Value.ref id)
      exact hextend h (Option.isSome_of_eq_some hcell)
    · exact (binary_plain _ _ _).obedient h
  · exact (binary_plain op v w).obedient

theorem negate_plain (v : Value) : Plain (negate v) := by
  unfold negate
  split
  · exact .ret _
  · exact (withinNumbers_plain _).bind fun _ => .ret _
  · exact .refuse (fun _ _ => rfl) fun _ => rfl

theorem positive_plain (v : Value) : Plain (positive v) := by
  unfold positive
  split
  · exact .ret _
  · exact .ret _
  · exact .refuse (fun _ _ => rfl) fun _ => rfl

theorem holds_plain (container item : Value) : Plain (holds container item) := by
  unfold holds
  split
  · split
    · exact .ret _
    · exact .refuse (fun _ _ => rfl) fun _ => rfl
  · split
    · exact .ret _
    · exact .ret _
    · exact .fail rfl
  · exact isAmong_plain _ _
  · exact isAmong_plain _ _
  · split
    · split
      · exact .ret _
      · exact .fail trivial
    · exact .ret _
  · refine .read (fun _ _ => rfl) fun h => ?_
    split
    · exact (key_plain item).bind fun _ => .ret _
    · exact (items_plain _).bind fun _ => isAmong_plain _ _
  · exact .refuse (fun _ _ => rfl) fun _ => rfl

theorem ordered_plain (op : Comparator) (v w : Value) : Plain (ordered op v w) := by
  refine .read (fun h b => ?_) fun h => ?_
  · simp only [compare?_under, Funded.under]
    rfl
  · split
    · exact .ret _
    · exact .ret _
    · exact .fail trivial
    · exact .fail rfl

theorem comparison_plain (op : Comparator) (v w : Value) : Plain (comparison op v w) := by
  cases op with
  | eq => exact equal_plain v w
  | notEq => exact (equal_plain v w).map
  | is => exact .ret _
  | isNot => exact .ret _
  | isIn => exact holds_plain w v
  | notIn => exact (holds_plain w v).map
  | _ => exact ordered_plain _ v w

end Heap

/-! ## Indexing -/

namespace Index

open Heap

theorem position_plain (kind : String) (length : Nat) (index : Value) :
    Plain (position kind length index) := by
  unfold position
  split
  · exact .fail rfl
  · split
    · exact .ret _
    · exact .fail rfl

theorem slice_plain {α : Type} (items : Array α) (start stop step : Option Int64) :
    Plain (slice items start stop step) := by
  unfold slice
  split
  · exact .ret _
  · exact .fail rfl
  · exact .fail trivial

theorem sequence_plain {α : Type} (kind : String) (items : Array α) (one : α → Value)
    (many : List α → Value) (index : Value) : Plain (sequence kind items one many index) := by
  unfold sequence
  split
  · exact (slice_plain _ _ _ _).bind fun _ => .ret _
  · exact (position_plain _ _ _).bind fun _ => .ret _
  · exact .refuse (fun _ _ => rfl) fun _ => rfl

theorem get_plain (object index : Value) : Plain (get object index) := by
  unfold get
  split
  · exact sequence_plain _ _ _ _ _
  · exact sequence_plain _ _ _ _ _
  · exact sequence_plain _ _ _ _ _
  · exact sequence_plain _ _ _ _ _
  · split
    · exact (slice_plain _ _ _ _).bind fun _ => .ret _
    · exact (position_plain _ _ _).bind fun _ => .ret _
  · refine .read (fun _ _ => rfl) fun h => ?_
    split
    · split
      · exact (slice_plain _ _ _ _).bind fun _ => allocList_plain _
      · exact sequence_plain _ _ _ _ _
    · refine (key_plain index).bind fun key => ?_
      split
      · exact .ret _
      · refine .refuse (fun h b => ?_) fun _ => rfl
        exact congrArg (Failure.exception .keyError) (literal_under h b index)
    · exact .refuse (fun _ _ => rfl) fun _ => rfl
  · exact .refuse (fun _ _ => rfl) fun _ => rfl

theorem unpack_plain (v : Value) (n : Nat) : Plain (unpack v n) := by
  refine .read (fun _ _ => rfl) fun h => ?_
  split
  · exact .fail rfl
  · exact .fork (fun _ => .fail rfl) fun _ => .fork (fun _ => .fail rfl) fun _ => .ret _

end Index

/-! ## Conversions to numbers -/

namespace Numeral

theorem radixOf_plain (v : Value) : Plain (radixOf v) := by
  unfold radixOf
  split
  · exact .fork (fun _ => .ret _) fun _ => .fail rfl
  · exact .refuse (fun _ _ => rfl) fun _ => rfl

theorem truncate_plain (x : Float) : Plain (truncate x) :=
  .fork (fun _ => .fail rfl) fun _ => .fork (fun _ => .fail rfl) fun _ =>
    .fork (fun _ => .fail rfl) fun _ => .ret _

theorem toInteger_plain (v : Value) (radix : Option Value) : Plain (toInteger v radix) := by
  unfold toInteger
  split
  · have hradix : Plain (radix.elim (pure 10) radixOf) := by
      cases radix with
      | none => exact .ret _
      | some v => exact radixOf_plain v
    refine hradix.bind fun _ => ?_
    split
    · exact .ret _
    · exact .fail rfl
  · exact .fail rfl
  · exact truncate_plain _
  · split
    · exact .ret _
    · exact .refuse (fun _ _ => rfl) fun _ => rfl

theorem int_plain (args : Arguments) : Plain (int args) := by
  unfold int
  refine (Arguments.between_plain _ _ _ _).bind fun vs => ?_
  cases vs with
  | nil => exact .fork (fun _ => .fail rfl) fun _ => .ret _
  | cons v vs => exact (toInteger_plain _ _).bind fun _ => .ret _

theorem float_plain (args : Arguments) : Plain (float args) := by
  refine (Arguments.atMostOne_plain _ _).bind fun v => ?_
  split
  · exact .ret _
  · split
    · exact .ret _
    · exact .fail rfl
  · split
    · exact .ret _
    · exact .refuse (fun _ _ => rfl) fun _ => rfl

theorem roundTo_plain (v : Value) (places : Option Int64) : Plain (roundTo v places) := by
  unfold roundTo
  split
  · exact .ret _
  · exact .fork (fun _ => .ret _) fun _ => .fail rfl
  · exact .ret _
  · exact .refuse (fun _ _ => rfl) fun _ => rfl

theorem round_plain (args : Arguments) : Plain (round args) := by
  refine (Arguments.oneOrTwo_plain _ _).bind fun (v, places) => ?_
  simp only
  split
  · exact roundTo_plain v none
  · exact roundTo_plain v none
  · exact roundTo_plain v _
  · exact .refuse (fun _ _ => rfl) fun _ => rfl

theorem magnitude_plain (v : Value) : Plain (magnitude v) := by
  unfold magnitude
  split
  · split
    · exact .ret _
    · exact .fail rfl
  · exact .ret _
  · exact .ret _
  · exact .refuse (fun _ _ => rfl) fun _ => rfl

end Numeral

/-! ## Methods of texts -/

/-- The action of a method is plain. -/
def PlainMethod (method? : Option (Heap.Action Value)) : Prop := ∀ act ∈ method?, Plain act

theorem PlainMethod.of {act : Heap.Action Value} (hact : Plain act) : PlainMethod (some act) := by
  rintro _ ⟨⟩
  exact hact

theorem PlainMethod.none : PlainMethod none := nofun

/-- From a heap, the action of a method has a course and pays for what it adds. -/
def ObedientMethod (h : Heap) (method? : Option (Heap.Action Value)) : Prop :=
  ∀ act ∈ method?, ObedientAt h act

section
variable {h : Heap} {act : Heap.Action Value}

theorem ObedientMethod.of (hact : Obedient act) : ObedientMethod h (some act) := by
  rintro _ ⟨⟩
  exact hact h

theorem ObedientMethod.plain (hact : Plain act) : ObedientMethod h (some act) := .of hact.obedient

/-- The action of a method of a container whose slot is in use. -/
theorem ObedientMethod.on {id : Nat} (hid : (h.cell? id).isSome) (hact : Heap.ObedientOn id act) :
    ObedientMethod h (some act) := by
  rintro _ ⟨⟩
  exact hact h hid

theorem ObedientMethod.none : ObedientMethod h none := nofun

theorem PlainMethod.obedient {method? : Option (Heap.Action Value)} (hmethod : PlainMethod method?)
    (h : Heap) : ObedientMethod h method? := fun act hact => (hmethod act hact).obedient h

end

namespace TextMethod

open Heap Arguments

theorem textOf_plain (method : String) (v : Value) : Plain (textOf method v) := by
  unfold textOf
  split
  · exact .ret _
  · exact .refuse (fun _ _ => rfl) fun _ => rfl

theorem strip_plain (s method : String) (args : Arguments) : Plain (strip s method args) := by
  refine (atMostOne_plain _ _).bind fun v => ?_
  cases v with
  | none => exact .ret _
  | some v =>
    have given := textOf_plain method v
    cases v with
    | none => exact .ret _
    | _ => exact given.bind fun _ => .ret _

theorem splitLimit_plain (v : Option Value) : Plain (splitLimit v) := by
  unfold splitLimit
  split
  · exact .ret _
  · exact .ret _
  · exact .refuse (fun _ _ => rfl) fun _ => rfl

theorem splitBy_plain (s : String) (limit : Option Nat) (separator : Value) :
    Plain (splitBy s limit separator) := by
  unfold splitBy
  split
  · exact allocList_plain _
  · refine (textOf_plain _ _).bind fun _ => ?_
    exact .fork (fun _ => .fail rfl) fun _ => allocList_plain _

theorem split_plain (s : String) (args : Arguments) : Plain (split s args) := by
  unfold split
  refine (between_plain _ _ _ _).bind fun _ => ?_
  exact (splitLimit_plain _).bind fun _ => splitBy_plain _ _ _

theorem textsOf_plain (texts : List (List Char)) (index : Nat) (vs : List Value) :
    Plain (textsOf texts index vs) := by
  induction vs generalizing texts index with
  | nil => exact .ret _
  | cons v vs ih =>
    cases v with
    | str s => exact ih _ _
    | _ => exact .refuse (fun _ _ => rfl) fun _ => rfl

theorem join_plain (s : String) (args : Arguments) : Plain (join s args) := by
  refine (one_plain _ _).bind fun _ => (items_plain _).bind fun _ => ?_
  refine (textsOf_plain _ _ _).bind fun _ => ?_
  exact (Plain.checkResult _).bind fun _ => .ret _

theorem hasAffix_plain (s method : String) (args : Arguments) :
    Plain (hasAffix s method args) := by
  refine (one_plain _ _).bind fun _ => ?_
  exact (Plain.mapM (textOf_plain method) _).bind fun _ => .ret _

theorem replace_plain (s : String) (args : Arguments) : Plain (replace s args) := by
  refine (between_plain _ _ _ _).bind fun vs => ?_
  split
  · refine (textOf_plain _ _).bind fun _ => (textOf_plain _ _).bind fun _ => ?_
    exact (Plain.checkResult _).bind fun _ => .ret _
  · exact .ret _

theorem decode_plain (data : List UInt8) : Plain (decode data) := by
  unfold decode
  split
  · exact .ret _
  · exact .fail rfl

theorem call_plain (s name : String) (args : Arguments) : PlainMethod (call s name args) := by
  unfold call
  split
  · exact .of ((nothing_plain _ _).bind fun _ => .ret _)
  · exact .of ((nothing_plain _ _).bind fun _ => .ret _)
  · exact .of (strip_plain _ _ _)
  · exact .of (strip_plain _ _ _)
  · exact .of (strip_plain _ _ _)
  · exact .of (split_plain _ _)
  · exact .of ((nothing_plain _ _).bind fun _ => allocList_plain _)
  · exact .of (join_plain _ _)
  · exact .of (hasAffix_plain _ _ _)
  · exact .of (hasAffix_plain _ _ _)
  · exact .of (replace_plain _ _)
  · exact .of ((between_plain _ _ _ _).bind fun _ => .ret _)
  · refine .of ((one_plain _ _).bind fun _ => (textOf_plain _ _).bind fun _ => ?_)
    split
    · exact .ret _
    · exact .ret _
  · exact .of ((one_plain _ _).bind fun _ => (textOf_plain _ _).bind fun _ => .ret _)
  · exact .of ((nothing_plain _ _).bind fun _ => .ret _)
  · exact .none

theorem callBytes_plain (data : List UInt8) (name : String) (args : Arguments) :
    PlainMethod (callBytes data name args) := by
  unfold callBytes
  split
  · exact .of ((between_plain _ _ _ _).bind fun _ => decode_plain data)
  · exact .none

end TextMethod

/-! ## Methods of paths -/

namespace PathMethod

open Arguments

theorem notAPath_plain {α : Type} (v : Value) :
    Plain (do throw (← notAPath v) : Heap.Action α) := by
  unfold notAPath
  rw [bind_assoc]
  exact .read (fun _ _ => rfl) fun _ => .fail rfl

theorem joinAll_plain (path : List Char) (vs : List Value) : Plain (joinAll path vs) := by
  induction vs generalizing path with
  | nil => exact .ret _
  | cons v vs ih =>
    cases v with
    | str s => exact ih _
    | path s => exact ih _
    | _ => exact notAPath_plain _

theorem withName_plain (path : String) (newName : List Char) :
    Plain (withName path newName) := by
  unfold withName
  split
  · exact .ret _
  · exact .fail rfl

theorem withSuffix_plain (path suffix : String) : Plain (withSuffix path suffix) :=
  .fork (fun _ => withName_plain _ _) fun _ => .fail rfl

theorem call_plain (path name : String) (args : Arguments) : PlainMethod (call path name args) := by
  unfold call
  split
  · exact .of ((between_plain _ _ _ _).bind fun _ =>
      (joinAll_plain _ _).bind fun _ => .ret _)
  · refine .of ((one_plain _ _).bind fun v => ?_)
    split
    · exact withSuffix_plain _ _
    · exact notAPath_plain _
  · refine .of ((one_plain _ _).bind fun v => ?_)
    split
    · exact withName_plain _ _
    · exact notAPath_plain _
  · exact .of ((nothing_plain _ _).bind fun _ => .ret _)
  · exact .of ((nothing_plain _ _).bind fun _ => .ret _)
  · exact .none

end PathMethod

end Resumable
