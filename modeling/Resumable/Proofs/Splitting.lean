import Resumable.Operation.TextMethods
import Resumable.Proofs.IntegerOrder

/-!
# Texts that are taken apart

Cutting a text at the first occurrence of a separator leaves no occurrence in front of the cut, and
what is behind it is cut again (`Text.Pieces`). So the text is its pieces with the separator between
them. The fields of a text are its longest runs of characters that are not blanks (`Text.words`); a
limit leaves the text from the next field on in one piece (`Text.CutAtField`). Main statement:
`TextMethod.split_keeps_text`.
-/

namespace Resumable

namespace Text

/-! ## The first occurrence -/

section
variable {α : Type} [BEq α] [LawfulBEq α] {needle start xs before rest : List α}

theorem afterPrefix?_eq_some_iff : afterPrefix? start xs = some rest ↔ xs = start ++ rest := by
  fun_induction afterPrefix? start xs with
  | case1 xs => simp
  | case2 a start => simp
  | case3 a start x xs h ih =>
    obtain rfl := eq_of_beq h
    simpa using ih
  | case4 a start x xs h =>
    have hne : x ≠ a := fun hx => h (beq_iff_eq.mpr hx.symm)
    simp [hne]

theorem cut?_go_eq_some {passed : List α}
    (h : cut?.go needle passed xs = some (before, rest)) :
    ∃ between, before = passed.reverse ++ between ∧ xs = between ++ needle ++ rest ∧
      ∀ a b, xs = a ++ needle ++ b → between.length ≤ a.length := by
  induction xs generalizing passed with
  | nil =>
    unfold cut?.go at h
    split at h
    · next hrest =>
      cases h
      exact ⟨[], by simp, by simpa using afterPrefix?_eq_some_iff.mp hrest, by simp⟩
    · cases h
  | cons x xs ih =>
    unfold cut?.go at h
    split at h
    · next hrest =>
      cases h
      exact ⟨[], by simp, by simpa using afterPrefix?_eq_some_iff.mp hrest, by simp⟩
    · next hnone =>
      obtain ⟨between, hbefore, hxs, hfirst⟩ := ih h
      refine ⟨x :: between, by simpa using hbefore, by simp [hxs], fun a b hab => ?_⟩
      -- the needle is not at the start, so that each occurrence is one in the rest
      cases a with
      | nil =>
        have hsome := afterPrefix?_eq_some_iff.mpr hab
        rw [List.nil_append] at hsome
        rw [hnone] at hsome
        cases hsome
      | cons y a =>
        have hle := hfirst a b (List.cons.inj hab).2
        simpa using hle

theorem cut?_go_eq_none {passed : List α} (h : cut?.go needle passed xs = none) :
    ¬ needle <:+: xs := by
  induction xs generalizing passed with
  | nil =>
    unfold cut?.go at h
    split at h
    · cases h
    · next hnone =>
      rintro ⟨a, b, hab⟩
      obtain ⟨rfl, -⟩ : needle = [] ∧ b = [] := by
        have hnil : a = [] ∧ needle = [] ∧ b = [] := by simpa using hab
        exact hnil.2
      cases hnone
  | cons x xs ih =>
    unfold cut?.go at h
    split at h
    · cases h
    · next hnone =>
      rw [List.infix_cons_iff]
      rintro (⟨b, hb⟩ | hinfix)
      · rw [afterPrefix?_eq_some_iff.mpr hb.symm] at hnone
        cases hnone
      · exact ih h hinfix

theorem eq_of_cut? (h : cut? needle xs = some (before, rest)) : xs = before ++ needle ++ rest := by
  obtain ⟨between, hbefore, hxs, -⟩ := cut?_go_eq_some h
  rw [hbefore]
  exact hxs

theorem not_infix_of_cut? (hne : needle ≠ []) (h : cut? needle xs = some (before, rest)) :
    ¬ needle <:+: before := by
  obtain ⟨between, hbefore, hxs, hfirst⟩ := cut?_go_eq_some h
  obtain rfl : before = between := hbefore
  rintro ⟨a, b, rfl⟩
  have hle := hfirst a (b ++ needle ++ rest) (by simp [hxs])
  have hpos := List.length_pos_iff.mpr hne
  simp only [List.length_append] at hle
  omega

end

/-! ## Pieces -/

section
variable {α : Type} {separator xs : List α} {limit : Option Nat} {pieces : List (List α)}

/-- A text is taken apart at the first occurrence of the separator, and so on behind that, until
nothing is left of the limit or there is no other occurrence. -/
inductive Pieces (separator : List α) : Option Nat → List α → List (List α) → Prop
  | whole {limit : Option Nat} {xs : List α} (h : limit = some 0 ∨ ¬ separator <:+: xs) :
    Pieces separator limit xs [xs]
  | cut {limit : Option Nat} {before rest : List α} {pieces : List (List α)}
    (hlimit : limit ≠ some 0) (hbefore : ¬ separator <:+: before)
    (hrest : Pieces separator (limit.map (· - 1)) rest pieces) :
    Pieces separator limit (before ++ separator ++ rest) (before :: pieces)

namespace Pieces

theorem ne_nil (h : Pieces separator limit xs pieces) : pieces ≠ [] := by
  cases h <;> exact List.cons_ne_nil _ _

theorem intercalate_eq (h : Pieces separator limit xs pieces) :
    separator.intercalate pieces = xs := by
  induction h with
  | whole => exact List.intercalate_singleton
  | cut _ _ hrest ih => rw [List.intercalate_cons_of_ne_nil hrest.ne_nil, ih, List.append_assoc]

theorem length_le (h : Pieces separator limit xs pieces) :
    ∀ n ∈ limit, pieces.length ≤ n + 1 := by
  induction h with
  | whole => simp
  | @cut limit _ _ _ hlimit _ _ ih =>
    rintro n rfl
    have hn : n ≠ 0 := fun h => hlimit (by rw [h])
    have hle := ih (n - 1) rfl
    simp only [List.length_cons]
    omega

/-- Every piece but the last one ends where the separator occurs first. -/
theorem not_infix_of_mem_dropLast (h : Pieces separator limit xs pieces) :
    ∀ piece ∈ pieces.dropLast, ¬ separator <:+: piece := by
  induction h with
  | whole => simp
  | cut _ hbefore hrest ih =>
    rw [List.dropLast_cons_of_ne_nil hrest.ne_nil]
    exact List.forall_mem_cons.mpr ⟨hbefore, ih⟩

/-- Where something is left of the limit, the separator does not occur in the last piece either. -/
theorem not_infix_of_mem (h : Pieces separator limit xs pieces)
    (hlimit : ∀ n ∈ limit, pieces.length ≤ n) : ∀ piece ∈ pieces, ¬ separator <:+: piece := by
  induction h with
  | whole h =>
    obtain rfl | h := h
    · exact absurd (hlimit 0 rfl) (by simp)
    · simpa using h
  | @cut limit _ _ _ _ hbefore _ ih =>
    refine List.forall_mem_cons.mpr ⟨hbefore, ih fun n hn => ?_⟩
    obtain ⟨m, hm, rfl⟩ := Option.map_eq_some_iff.mp hn
    have hle := hlimit m hm
    simp only [List.length_cons] at hle
    omega

end Pieces

variable [BEq α] [LawfulBEq α]

theorem split_go_pieces (hne : separator ≠ []) (done : List (List α)) (limit : Option Nat)
    (xs : List α) : ∃ pieces, split.go separator done limit xs = done.reverse ++ pieces ∧
      Pieces separator limit xs pieces := by
  fun_induction split.go separator done limit xs with
  | case1 done limit xs hstop =>
    have hlimit : limit = some 0 := by simpa [hne] using hstop
    exact ⟨[xs], by simp, .whole (.inl hlimit)⟩
  | case2 done limit xs hgo hcut =>
    exact ⟨[xs], by simp, .whole (.inr (cut?_go_eq_none hcut))⟩
  | case3 done limit xs hgo before rest hcut ih =>
    obtain ⟨pieces, heq, hpieces⟩ := ih
    have hlimit : limit ≠ some 0 := by
      rintro rfl
      exact hgo (by simp)
    refine ⟨before :: pieces, by simp [heq], ?_⟩
    rw [eq_of_cut? hcut]
    exact .cut hlimit (not_infix_of_cut? hne hcut) hpieces

theorem split_pieces (hne : separator ≠ []) (limit : Option Nat) (xs : List α) :
    Pieces separator limit xs (split separator limit xs) := by
  obtain ⟨pieces, heq, hpieces⟩ := split_go_pieces hne [] limit xs
  rw [split, heq]
  exact hpieces

end

/-! ## Fields -/

variable {cs field rest more : List Char} {c : Char} {limit : Option Nat}

/-- The longest runs of characters that are not blanks. -/
def words (cs : List Char) : List (List Char) := (cs.splitOnP isBlank).filter (!·.isEmpty)

theorem words_cons_of_blank (h : isBlank c = true) : words (c :: cs) = words cs := by
  have hsplit : (c :: cs).splitOnP isBlank = [] :: cs.splitOnP isBlank :=
    List.splitOnP_append_cons_of_forall_mem (fun _ hmem => absurd hmem List.not_mem_nil) c h cs
  simp [words, hsplit]

theorem words_dropStart (cs : List Char) : words (dropStart isBlank cs) = words cs := by
  induction cs with
  | nil => rfl
  | cons c cs ih =>
    cases h : isBlank c with
    | true => rw [words_cons_of_blank h, ← ih, dropStart, dropStart, List.dropWhile_cons_of_pos h]
    | false => rw [dropStart, List.dropWhile_cons_of_neg (by simp [h])]

/-- A run that is not followed by more of it is the first one. -/
theorem words_append (hne : field ≠ []) (hfield : ∀ c ∈ field, isBlank c = false)
    (hrest : ∀ c ∈ rest.head?, isBlank c = true) : words (field ++ rest) = field :: words rest := by
  cases rest with
  | nil => simp [words, List.splitOnP_eq_singleton hfield, hne]
  | cons c rest =>
    have hc : isBlank c = true := hrest c rfl
    rw [words_cons_of_blank hc, words, List.splitOnP_append_cons_of_forall_mem hfield c hc, words]
    simp [hne]

theorem words_eq_nil (h : dropStart isBlank cs = []) : words cs = [] := by
  rw [← words_dropStart, h]
  rfl

theorem isBlank_of_dropStart (h : dropStart isBlank cs = c :: more) : isBlank c = false := by
  have hhead := List.head?_dropWhile_not isBlank cs
  rw [dropStart] at h
  rw [h] at hhead
  simpa using hhead

/-- A text that is not blank begins with its first field, which blanks may stand in front of. -/
theorem exists_field (h : dropStart isBlank cs = c :: more) :
    ∃ blanks field rest, cs = blanks ++ (field ++ rest) ∧ words blanks = [] ∧
      field = (c :: more).takeWhile (!isBlank ·) ∧ rest = (c :: more).dropWhile (!isBlank ·) ∧
      ∀ start, start <+: rest →
        words (blanks ++ (field ++ start)) = field :: words start := by
  have hc := isBlank_of_dropStart h
  have hblanks : ∀ d ∈ cs.takeWhile isBlank, isBlank d = true := fun d hd =>
    List.mem_takeWhile_imp hd
  have hdrop : ∀ after, words (cs.takeWhile isBlank ++ after) = words after := by
    intro after
    rw [← words_dropStart, dropStart, List.dropWhile_append_of_pos hblanks]
    exact words_dropStart after
  have hnil : words (cs.takeWhile isBlank) = [] := by
    rw [← List.append_nil (cs.takeWhile isBlank)]
    exact hdrop []
  refine ⟨cs.takeWhile isBlank, _, _, ?_, hnil, rfl, rfl, ?_⟩
  · rw [List.takeWhile_append_dropWhile, ← h]
    exact List.takeWhile_append_dropWhile.symm
  · intro start hstart
    rw [hdrop]
    apply words_append
    · simp [hc]
    · intro d hd
      simpa using List.mem_takeWhile_imp hd
    · intro d hd
      have hhead := List.head?_dropWhile_not (!isBlank ·) (c :: more)
      obtain ⟨after, hafter⟩ := hstart
      rw [← hafter, List.head?_append, Option.mem_def.mp hd] at hhead
      simpa using hhead

theorem fields_go_eq {done : List (List Char)} (hlimit : ∀ m ∈ limit, (words cs).length ≤ m) :
    fields.go done limit cs = done.reverse ++ words cs := by
  fun_induction fields.go done limit cs with
  | case1 done limit cs h => simp [words_eq_nil h]
  | case2 done limit cs c more h hzero =>
    obtain ⟨blanks, field, rest, hcs, -, -, -, hwords⟩ := exists_field h
    have hle := hlimit 0 (by simpa using hzero)
    rw [hcs, hwords rest List.prefix_rfl] at hle
    simp at hle
  | case3 done limit cs c more h hzero field ih =>
    obtain ⟨blanks, _, _, hcs, -, rfl, rfl, hwords⟩ := exists_field h
    have hwords := hwords _ List.prefix_rfl
    rw [← hcs] at hwords
    rw [ih, hwords]
    · simp [field]
    · intro n hn
      obtain ⟨m, hm, rfl⟩ := Option.map_eq_some_iff.mp hn
      have hle := hlimit m hm
      rw [hwords, List.length_cons] at hle
      omega

/-- A text is cut in front of a field. -/
structure CutAtField (cs : List Char) (n : Nat) (before rest : List Char) : Prop where
  eq_append : cs = before ++ rest
  begins : ∃ c more, rest = c :: more ∧ isBlank c = false
  before : words before = (words cs).take n
  rest : words rest = (words cs).drop n

theorem fields_go_limited (done : List (List Char)) (limit : Option Nat) (cs : List Char) :
    ∀ n ∈ limit, n < (words cs).length → ∃ before rest, CutAtField cs n before rest ∧
      fields.go done limit cs = done.reverse ++ ((words cs).take n ++ [rest]) := by
  fun_induction fields.go done limit cs with
  | case1 done limit cs h =>
    rw [words_eq_nil h]
    exact fun n _ hn => absurd hn (Nat.not_lt_zero n)
  | case2 done limit cs c more h hzero =>
    rintro n rfl -
    obtain rfl : n = 0 := by simpa using hzero
    obtain ⟨blanks, _, _, hcs, hblanks, rfl, rfl, -⟩ := exists_field h
    rw [List.takeWhile_append_dropWhile] at hcs
    refine ⟨blanks, c :: more, ⟨hcs, ⟨c, more, rfl, isBlank_of_dropStart h⟩, hblanks, ?_⟩, by simp⟩
    rw [← h, words_dropStart, List.drop_zero]
  | case3 done limit cs c more h hzero field ih =>
    obtain ⟨blanks, _, _, hcs, -, rfl, rfl, hwords⟩ := exists_field h
    have hall := hwords _ List.prefix_rfl
    rw [← hcs] at hall
    rintro n rfl hn
    obtain ⟨k, rfl⟩ : ∃ k, n = k + 1 := Nat.exists_eq_succ_of_ne_zero (by simpa using hzero)
    rw [hall, List.length_cons] at hn
    obtain ⟨before, rest, hcut, heq⟩ := ih k rfl (by omega)
    refine ⟨blanks ++ (field ++ before), rest, ⟨?_, hcut.begins, ?_, ?_⟩, ?_⟩
    · rw [hcs, hcut.eq_append]
      simp [field]
    · rw [hwords before (hcut.eq_append ▸ List.prefix_append before rest), hcut.before, hall]
      rfl
    · rw [hcut.rest, hall]
      rfl
    · rw [heq, hall]
      simp [field]

theorem fields_eq_words (h : ∀ m ∈ limit, (words cs).length ≤ m) : fields limit cs = words cs :=
  fields_go_eq h

theorem fields_limited {n : Nat} (hn : n < (words cs).length) :
    ∃ before rest, CutAtField cs n before rest ∧
      fields (some n) cs = (words cs).take n ++ [rest] :=
  fields_go_limited [] (some n) cs n rfl hn

end Text

/-! ## The methods -/

namespace TextMethod

open Text (words CutAtField)

variable {s separator : String} {limit : Option Int64} {pieces : List String} {v : Value}
  {heap : Heap}

/-- The number of splits that a limit allows; any number where it is negative. -/
def allowed (limit : Option Int64) : Option Nat :=
  limit.bind fun n => if n ≥ 0 then some n.toInt.toNat else none

theorem mem_allowed {m : Nat} : m ∈ allowed limit ↔ ∃ n ∈ limit, n.toInt = m := by
  have hnat : ∀ n : Int64, (if n ≥ 0 then some n.toInt.toNat else none) = some m ↔
      n.toInt = m := by
    intro n
    have hpos : n ≥ 0 ↔ 0 ≤ n.toInt := Int64.le_iff_toInt_le
    split
    · next h =>
      rw [hpos] at h
      rw [Option.some.injEq]
      omega
    · next h =>
      rw [hpos] at h
      simp only [reduceCtorEq, false_iff]
      omega
  simp only [allowed, Option.mem_def, Option.bind_eq_some_iff, hnat]

theorem split_run (v : Value) : split s ⟨v :: (limit.map Value.int).toList, []⟩ heap =
    splitBy s (allowed limit) v heap := by
  cases limit <;> rfl

theorem splitBy_str (hne : separator ≠ "") (limit : Option Nat) :
    splitBy s limit (.str separator) heap =
      listOfTexts (Text.split separator.toList limit s.toList) heap := by
  have hempty : separator.isEmpty = false := by simpa using hne
  have htext : textOf "split" (.str separator) heap = .ok separator heap := rfl
  unfold splitBy
  simp only
  rw [bind_ok htext, hempty]
  rfl

theorem textsOf_run (texts : List (List Char)) (index : Nat) (pieces : List String) :
    textsOf texts index (pieces.map .str) heap =
      .ok (texts.reverse ++ pieces.map String.toList) heap := by
  induction pieces generalizing texts index with
  | nil => simp [textsOf]; rfl
  | cons piece pieces ih => simp [textsOf, ih]

theorem join_run (h : heap.items? v = some (pieces.map Value.str).toArray) :
    join separator ⟨[v], []⟩ heap = (do
      Heap.checkResult (Text.utf8Size (separator.intercalate pieces))
      return .str (separator.intercalate pieces) : Heap.Action Value) heap := by
  have hone : Arguments.one ⟨[v], []⟩ "join" heap = .ok v heap := rfl
  have htexts : String.ofList (separator.toList.intercalate (pieces.map String.toList)) =
      separator.intercalate pieces := by
    rw [← String.toList_inj, String.toList_ofList, String.toList_intercalate]
  unfold join
  rw [bind_ok hone, bind_ok (Heap.items_eq h), bind_ok (textsOf_run [] 0 pieces)]
  simp only [List.reverse_nil, List.nil_append, htexts]

/-- A text is taken apart at a separator: there is one piece more than the limit allows at most, and
the separator occurs in none of them, unless the limit is used up and leaves it in the last one. -/
structure SplitInto (s separator : String) (limit : Option Int64) (pieces : List String) :
    Prop where
  length_le : ∀ n ∈ limit, ∀ m : Nat, n.toInt = m → pieces.length ≤ m + 1
  separated : ∀ piece ∈ pieces.dropLast, ¬ separator.toList <:+: piece.toList
  last : (∀ n ∈ limit, ∀ m : Nat, n.toInt = m → pieces.length ≤ m) →
    ∀ piece ∈ pieces, ¬ separator.toList <:+: piece.toList
  joined : separator.intercalate pieces = s

theorem splitInto_of_pieces {texts : List (List Char)}
    (h : Text.Pieces separator.toList (allowed limit) s.toList texts) :
    SplitInto s separator limit (texts.map String.ofList) where
  length_le n hn m hm := by
    rw [List.length_map]
    exact h.length_le m (mem_allowed.mpr ⟨n, hn, hm⟩)
  separated piece hpiece := by
    rw [← List.map_dropLast, List.mem_map] at hpiece
    obtain ⟨text, htext, rfl⟩ := hpiece
    rw [String.toList_ofList]
    exact h.not_infix_of_mem_dropLast text htext
  last hlimit := by
    have hleft : ∀ m ∈ allowed limit, texts.length ≤ m := by
      intro m hm
      obtain ⟨n, hn, hm⟩ := mem_allowed.mp hm
      simpa using hlimit n hn m hm
    simpa using h.not_infix_of_mem hleft
  joined := by
    have htexts : (texts.map String.ofList).map String.toList = texts := by simp
    rw [← String.toList_inj, String.toList_intercalate, htexts, h.intercalate_eq]

/-- `split` with a separator makes a list of pieces, and the separator joins them to the text again.
Without a separator it makes a list of fields. A limit that is less than their number leaves the
text from the next field on in one piece, and any other one changes nothing. -/
theorem split_keeps_text (s : String) :
    (∀ separator, separator ≠ "" → ∀ limit : Option Int64, ∃ action pieces,
      call s "split" ⟨.str separator :: (limit.map Value.int).toList, []⟩ = some action ∧
      (∀ heap, action heap = Heap.allocList (pieces.map Value.str).toArray heap) ∧
      SplitInto s separator limit pieces ∧
      ∀ v heap, heap.items? v = some (pieces.map Value.str).toArray →
        ∃ action, call separator "join" ⟨[v], []⟩ = some action ∧ action heap = (do
          Heap.checkResult (Text.utf8Size s)
          return .str s : Heap.Action Value) heap) ∧
    (∃ action, call s "split" ⟨[], []⟩ = some action ∧
      ∀ heap, action heap = listOfTexts (words s.toList) heap) ∧
    ∀ (n : Int64) (m : Nat), n.toInt = m → ∃ action texts,
      call s "split" ⟨[.none, .int n], []⟩ = some action ∧
      (∀ heap, action heap = listOfTexts texts heap) ∧
      if (words s.toList).length ≤ m then texts = words s.toList
      else ∃ before rest, CutAtField s.toList m before rest ∧
        texts = (words s.toList).take m ++ [rest] := by
  refine ⟨fun separator hne limit => ?_, ⟨_, rfl, fun heap => ?_⟩, fun n m hm => ?_⟩
  · have hinto : SplitInto s separator limit _ :=
      splitInto_of_pieces (Text.split_pieces (by simpa using hne) _ _)
    refine ⟨_, _, rfl, fun heap => ?_, hinto, fun v heap hv => ⟨_, rfl, ?_⟩⟩
    · rw [split_run, splitBy_str hne, listOfTexts, List.map_map]
      rfl
    · rw [join_run hv, hinto.joined]
  · exact congrArg (listOfTexts · heap) (Text.fields_eq_words (by simp))
  · have hallowed : allowed (some n) = some m := mem_allowed.mpr ⟨n, rfl, hm⟩
    have hrun : ∀ heap, split s ⟨[.none, .int n], []⟩ heap =
        listOfTexts (Text.fields (some m) s.toList) heap := by
      intro heap
      rw [← hallowed]
      rfl
    refine ⟨_, _, rfl, hrun, ?_⟩
    split
    · next hle => exact Text.fields_eq_words (by simpa using hle)
    · next hlt => exact Text.fields_limited (Nat.lt_of_not_le hlt)

theorem split_phrase :
    (∃ action pieces, call "a, b, c d " "split" ⟨[.str ", ", .int 1], []⟩ = some action ∧
      SplitInto "a, b, c d " ", " (some 1) pieces) ∧
    ∃ action rest, call "a, b, c d " "split" ⟨[.none, .int 2], []⟩ = some action ∧
      (∀ heap, action heap = listOfTexts ["a,".toList, "b,".toList, rest] heap) ∧
      words rest = ["c".toList, "d".toList] := by
  obtain ⟨hseparator, -, hblank⟩ := split_keeps_text "a, b, c d "
  refine ⟨?_, ?_⟩
  · obtain ⟨action, pieces, hcall, -, hinto, -⟩ := hseparator ", " (by decide) (some 1)
    exact ⟨action, pieces, hcall, hinto⟩
  · have hwords : words "a, b, c d ".toList =
        ["a,".toList, "b,".toList, "c".toList, "d".toList] := by decide
    obtain ⟨action, texts, hcall, hlist, hcut⟩ := hblank 2 2 rfl
    rw [hwords, if_neg (by decide)] at hcut
    obtain ⟨before, rest, hcut, rfl⟩ := hcut
    have hrest := hcut.rest
    rw [hwords] at hrest
    exact ⟨action, rest, hcall, hlist, hrest⟩

end TextMethod

end Resumable
