import Mathlib.Data.List.DropRight
import Resumable.Token.Lexer

/-!
# Places of a text

Bisection finds the line of a byte offset, because the offsets of line feeds that are in front of it
stand first in the index (`partitionPoint_append`), and the last of them leads to the start of the
line (`LineIndex.start?_eq`). So a place counts the line feeds in front of a position and the
characters behind the last one, and the places of a text are ordered as its positions are
(`LineIndex.places_exact`). The offsets that the reader of tokens keeps are positions of the text,
so that each of its tokens has a place (`Token.scan_placed`).
-/

namespace Resumable

/-! ## Bisection -/

section
variable {α : Type} {p : α → Bool} {xs : Array α} {n : Nat}

theorem partitionPoint_go_eq {low high : Nat} {inside : high ≤ xs.size} (hlow : low ≤ n)
    (hhigh : n ≤ high) (hbelow : ∀ i (hi : i < xs.size), i < n → p xs[i] = true)
    (habove : ∀ i (hi : i < xs.size), n ≤ i → p xs[i] = false) :
    partitionPoint.go p xs low high inside = n := by
  fun_induction partitionPoint.go p xs low high inside with
  | case1 low high inside h middle hp ih =>
    have hn : middle < n := by
      by_contra hle
      rw [habove middle _ (Nat.le_of_not_lt hle)] at hp
      cases hp
    exact ih hn hhigh
  | case2 low high inside h middle hp ih =>
    have hn : n ≤ middle := by
      by_contra hlt
      exact hp (hbelow middle _ (Nat.lt_of_not_le hlt))
    exact ih hlow hn
  | case3 low high inside h => omega

/-- Where the elements that satisfy `p` stand in front of those that do not, bisection counts
them. -/
theorem partitionPoint_append {as bs : List α} (hxs : xs.toList = as ++ bs)
    (has : ∀ a ∈ as, p a = true) (hbs : ∀ b ∈ bs, p b = false) :
    partitionPoint p xs = as.length := by
  obtain ⟨xs⟩ := xs
  obtain rfl : xs = as ++ bs := hxs
  apply partitionPoint_go_eq (Nat.zero_le _) (by simp)
  · intro i hi hlt
    rw [List.getElem_toArray, List.getElem_append_left hlt]
    exact has _ (List.getElem_mem _)
  · intro i hi hle
    rw [List.getElem_toArray, List.getElem_append_right hle]
    exact hbs _ (List.getElem_mem _)

end

namespace LineIndex

/-! ## The offsets of line feeds -/

section
variable {offset x : Nat} {as bs cs : List Char}

/-- The number of bytes of a text. -/
def bytes (cs : List Char) : Nat := (String.ofList cs).utf8ByteSize

@[simp] theorem bytes_nil : bytes [] = 0 := rfl

@[simp] theorem bytes_append : bytes (as ++ bs) = bytes as + bytes bs := by
  simp [bytes, String.ofList_append]

@[simp] theorem bytes_cons {c : Char} : bytes (c :: cs) = c.utf8Size + bytes cs := by
  rw [← List.singleton_append, bytes_append]
  simp [bytes]

theorem length_le_bytes : cs.length ≤ bytes cs := by
  induction cs with
  | nil => simp
  | cons c cs ih =>
    have := c.utf8Size_pos
    simp only [List.length_cons, bytes_cons]
    omega

theorem toList_collect (found : Array Nat) (offset : Nat) (cs : List Char) :
    (collect found offset cs).toList = found.toList ++ (collect #[] offset cs).toList := by
  induction cs generalizing found offset with
  | nil => simp [collect]
  | cons c cs ih =>
    simp only [collect]
    rw [ih, ih (if c == '\n' then #[].push offset else #[])]
    split <;> simp

theorem toList_collect_feed (offset : Nat) (cs : List Char) :
    (collect #[] offset ('\n' :: cs)).toList =
      offset :: (collect #[] (offset + 1) cs).toList := by
  rw [collect, toList_collect]
  rfl

theorem toList_collect_append (offset : Nat) (as bs : List Char) :
    (collect #[] offset (as ++ bs)).toList =
      (collect #[] offset as).toList ++ (collect #[] (offset + bytes as) bs).toList := by
  induction as generalizing offset with
  | nil => simp [collect]
  | cons c as ih =>
    simp only [List.cons_append, collect, bytes_cons]
    rw [toList_collect, ih, ← List.append_assoc, Nat.add_assoc]
    rw [toList_collect (if c == '\n' then #[].push offset else #[]) _ as]

theorem mem_collect (h : x ∈ (collect #[] offset cs).toList) :
    offset ≤ x ∧ x < offset + bytes cs := by
  induction cs generalizing offset with
  | nil => simp [collect] at h
  | cons c cs ih =>
    have hc := c.utf8Size_pos
    simp only [collect] at h
    rw [toList_collect, List.mem_append] at h
    simp only [bytes_cons]
    obtain h | h := h
    · split at h
      · obtain rfl : x = offset := by simpa using h
        omega
      · simp at h
    · have := ih h
      omega

theorem length_collect (offset : Nat) (cs : List Char) :
    (collect #[] offset cs).toList.length = cs.count '\n' := by
  induction cs generalizing offset with
  | nil => simp [collect]
  | cons c cs ih =>
    simp only [collect]
    rw [toList_collect, List.length_append, ih, List.count_cons, Nat.add_comm]
    split <;> simp

end

/-! ## Places -/

section
variable {index : LineIndex} {line : Nat} {a b c : String}

theorem pos?_of_isValid {s : String} {offset : String.Pos.Raw} (h : offset.IsValid s) :
    s.pos? offset = some (s.pos offset h) := by
  have hslice : offset.isValidForSlice s.toSlice = true := by
    simpa using h
  simp [String.pos?, String.Slice.pos?, hslice]
  rfl

/-- What is cut out of a text between the places of two of its parts. -/
theorem exists_extract (a b c : String) :
    ∃ p q : (a ++ b ++ c).Pos, (a ++ b ++ c).pos? ⟨a.utf8ByteSize⟩ = some p ∧
      (a ++ b ++ c).pos? ⟨(a ++ b).utf8ByteSize⟩ = some q ∧ p ≤ q ∧
      (a ++ b ++ c).extract p q = b := by
  have hp : (⟨a.utf8ByteSize⟩ : String.Pos.Raw).IsValid (a ++ b ++ c) := by
    rw [String.append_assoc]
    exact String.Pos.Raw.isValid_rawEndPos.append_right _
  have hq : (⟨(a ++ b).utf8ByteSize⟩ : String.Pos.Raw).IsValid (a ++ b ++ c) :=
    String.Pos.Raw.isValid_rawEndPos.append_right _
  have hstart : (String.pos _ _ hp).Splits a (b ++ c) := ⟨String.append_assoc .., rfl⟩
  have hstop : (String.pos _ _ hq).Splits (a ++ b) c := ⟨rfl, rfl⟩
  obtain ⟨hle, hcopy⟩ := String.copy_slice_eq_iff_splits.mpr ⟨a, c, hstart, hstop⟩
  exact ⟨_, _, pos?_of_isValid hp, pos?_of_isValid hq, hle,
    (String.extract_eq_copy_slice _ _ hle).trans hcopy⟩

theorem locate?_eq_some (htext : index.text = a ++ b ++ c)
    (hline : partitionPoint (· < (a ++ b).utf8ByteSize) index.ends = line)
    (hstart : index.start? line = some a.utf8ByteSize) :
    index.locate? (a ++ b).utf8ByteSize = some ⟨line + 1, b.length + 1⟩ := by
  obtain ⟨text, ends⟩ := index
  subst htext
  obtain ⟨p, q, hp, hq, hle, hextract⟩ := exists_extract a b c
  have hclamp : min (a ++ b).utf8ByteSize (a ++ b ++ c).utf8ByteSize = (a ++ b).utf8ByteSize := by
    rw [String.utf8ByteSize_append (s := a ++ b)]
    exact Nat.min_eq_left (Nat.le_add_right _ _)
  simp only [locate?, hline, hstart, hclamp, hp, hq, hextract, hle, Option.bind_eq_bind,
    Option.bind_some, if_true]

/-- The last line of a text begins behind its last line feed. -/
theorem rdropWhile_cases (cs : List Char) :
    cs.rdropWhile (· != '\n') = [] ∨ ∃ pre, cs.rdropWhile (· != '\n') = pre ++ ['\n'] := by
  obtain h | ⟨pre, c, h⟩ := (cs.rdropWhile (· != '\n')).eq_nil_or_concat'
  · exact .inl h
  · have hlast := List.rdropWhile_last_not (· != '\n') cs (by simp [h])
    obtain rfl : c = '\n' := by simpa [h] using hlast
    exact .inr ⟨pre, h⟩

theorem count_rtakeWhile (cs : List Char) : (cs.rtakeWhile (· != '\n')).count '\n' = 0 := by
  rw [List.count_eq_zero]
  intro hmem
  simpa using List.mem_rtakeWhile_imp hmem

/-- The offset of the last line feed in front of a place leads to the start of the line. -/
theorem start?_eq {as bs : List Char} (htext : index.ends = collect #[] 0 (as ++ bs)) :
    index.start? (as.count '\n') = some (bytes (as.rdropWhile (· != '\n'))) := by
  have hparts : as.rdropWhile (· != '\n') ++ as.rtakeWhile (· != '\n') = as :=
    List.rdropWhile_append_rtakeWhile
  have hlast : (as.rtakeWhile (· != '\n')).count '\n' = 0 := count_rtakeWhile as
  generalize as.rtakeWhile (· != '\n') = line at hparts hlast
  obtain h | ⟨pre, h⟩ := rdropWhile_cases as
  · rw [h, List.nil_append] at hparts
    rw [← hparts, hlast, hparts, h]
    rfl
  · rw [h] at hparts ⊢
    have hcount : as.count '\n' = (collect #[] 0 pre).toList.length + 1 := by
      rw [length_collect, ← hparts]
      simp [hlast]
    have hends : index.ends.toList = (collect #[] 0 pre).toList ++ bytes pre ::
        (collect #[] (bytes pre + 1) (line ++ bs)).toList := by
      rw [htext, ← hparts, List.append_assoc, List.append_assoc, List.singleton_append,
        toList_collect_append, toList_collect_feed, Nat.zero_add]
    have hfeed : bytes ['\n'] = 1 := rfl
    rw [hcount, start?, ← Array.getElem?_toList, hends, List.getElem?_append_right le_rfl,
      bytes_append, hfeed]
    simp

/-- The place behind a text: its line feeds are counted, and the characters behind the last one. -/
def placeBehind (cs : List Char) : Location :=
  ⟨1 + cs.count '\n', 1 + (cs.rtakeWhile (· != '\n')).length⟩

theorem locate?_append (before after : String) :
    (ofText (before ++ after)).locate? before.utf8ByteSize = some (placeBehind before.toList) := by
  have hends : (ofText (before ++ after)).ends = collect #[] 0 (before.toList ++ after.toList) := by
    rw [ofText, String.toList_append]
  have hsize : bytes before.toList = before.utf8ByteSize := by simp [bytes]
  have hline : partitionPoint (· < before.utf8ByteSize) (ofText (before ++ after)).ends =
      before.toList.count '\n' := by
    rw [hends, ← length_collect 0]
    apply partitionPoint_append (toList_collect_append 0 before.toList after.toList)
    · intro x hx
      have := mem_collect hx
      simp only [decide_eq_true_eq]
      omega
    · intro x hx
      have := mem_collect hx
      simp only [decide_eq_false_iff_not]
      omega
  have hparts : String.ofList (before.toList.rdropWhile (· != '\n')) ++
      String.ofList (before.toList.rtakeWhile (· != '\n')) = before := by
    rw [← String.ofList_append, List.rdropWhile_append_rtakeWhile, String.ofList_toList]
  have htext : (ofText (before ++ after)).text =
      String.ofList (before.toList.rdropWhile (· != '\n')) ++
        String.ofList (before.toList.rtakeWhile (· != '\n')) ++ after := by
    rw [hparts]
    rfl
  have hplace := locate?_eq_some htext (by rw [hparts]; exact hline) (start?_eq hends)
  rw [hparts, String.length_ofList] at hplace
  rw [hplace, placeBehind, Nat.add_comm 1, Nat.add_comm 1]

end

end LineIndex

/-! ## The order of places -/

namespace Location

/-- One place is on an earlier line than another one, or further left on the same line. -/
def Before (l m : Location) : Prop := l.line < m.line ∨ l.line = m.line ∧ l.column < m.column

theorem Before.trans {k l m : Location} (hkl : k.Before l) (hlm : l.Before m) : k.Before m := by
  unfold Before at *
  omega

theorem not_before_self (l : Location) : ¬ l.Before l := by
  unfold Before
  omega

end Location

namespace LineIndex

theorem placeBehind_le (cs : List Char) :
    (placeBehind cs).line ≤ bytes cs + 1 ∧ (placeBehind cs).column ≤ bytes cs + 1 := by
  have hbytes : cs.length ≤ bytes cs := length_le_bytes
  have hfeeds : cs.count '\n' ≤ cs.length := List.count_le_length
  have hline : (cs.rtakeWhile (· != '\n')).length ≤ cs.length :=
    (List.rtakeWhile_suffix _ cs).length_le
  simp only [placeBehind]
  omega

theorem before_concat (cs : List Char) (c : Char) :
    (placeBehind cs).Before (placeBehind (cs ++ [c])) := by
  by_cases hc : c = '\n'
  · left
    simp [placeBehind, hc]
  · right
    simp [placeBehind, hc]

theorem before_append (cs : List Char) {ds : List Char} (h : ds ≠ []) :
    (placeBehind cs).Before (placeBehind (cs ++ ds)) := by
  induction ds generalizing cs with
  | nil => exact absurd rfl h
  | cons d ds ih =>
    by_cases hds : ds = []
    · simpa [hds] using before_concat cs d
    · simpa using (before_concat cs d).trans (ih (cs ++ [d]) hds)

section
variable {text before after : String}

theorem locate?_of_splits {p : text.Pos} (h : p.Splits before after) :
    (ofText text).locate? p.offset.byteIdx = some (placeBehind before.toList) := by
  rw [h.offset_eq_rawEndPos]
  obtain rfl := h.eq_append
  exact locate?_append before after

theorem locate?_pos (p : text.Pos) : (ofText text).locate? p.offset.byteIdx =
    some (placeBehind (text.sliceTo p).copy.toList) :=
  locate?_of_splits p.splits

theorem bytes_sliceTo (p : text.Pos) : bytes (text.sliceTo p).copy.toList = p.offset.byteIdx := by
  rw [p.splits.offset_eq_rawEndPos, bytes, String.ofList_toList]
  rfl

theorem before_of_lt {p q : text.Pos} (h : p < q) :
    (placeBehind (text.sliceTo p).copy.toList).Before
      (placeBehind (text.sliceTo q).copy.toList) := by
  obtain ⟨between, hne, hq, -⟩ := (p.splits.lt_iff_exists_eq_append q.splits).mp h
  rw [hq, String.toList_append]
  exact before_append _ (by simpa using hne)

end

/-- The place of a position in a text has the number of line feeds in front of it, plus one, as its
line, and as its column the number of characters behind the last of these, plus one. Neither is
greater than the offset plus one, so that it fits 32 bits where that does. Positions further on have
places further on, and no two have the same place. -/
theorem places_exact (text : String) :
    (∀ p : text.Pos, ∃ l, (ofText text).locate? p.offset.byteIdx = some l ∧
      l.line = 1 + (text.sliceTo p).copy.toList.count '\n' ∧
      l.column = 1 + ((text.sliceTo p).copy.toList.rtakeWhile (· != '\n')).length ∧
      l.line ≤ p.offset.byteIdx + 1 ∧ l.column ≤ p.offset.byteIdx + 1) ∧
    (∀ p q : text.Pos, p < q → ∃ l m, (ofText text).locate? p.offset.byteIdx = some l ∧
      (ofText text).locate? q.offset.byteIdx = some m ∧ l.Before m) ∧
    ∀ p q : text.Pos, (ofText text).locate? p.offset.byteIdx =
      (ofText text).locate? q.offset.byteIdx → p = q := by
  have hmono : ∀ p q : text.Pos, p < q → ∃ l m,
      (ofText text).locate? p.offset.byteIdx = some l ∧
      (ofText text).locate? q.offset.byteIdx = some m ∧ l.Before m :=
    fun p q h => ⟨_, _, locate?_pos p, locate?_pos q, before_of_lt h⟩
  have hne : ∀ p q : text.Pos, p < q →
      (ofText text).locate? p.offset.byteIdx ≠ (ofText text).locate? q.offset.byteIdx := by
    intro p q h heq
    obtain ⟨l, m, hp, hq, hbefore⟩ := hmono p q h
    rw [heq, hq, Option.some.injEq] at hp
    exact l.not_before_self (hp ▸ hbefore)
  refine ⟨fun p => ?_, hmono, fun p q h => ?_⟩
  · have hle := placeBehind_le (text.sliceTo p).copy.toList
    rw [bytes_sliceTo] at hle
    exact ⟨_, locate?_pos p, rfl, rfl, hle⟩
  · obtain hlt | heq | hlt := Nat.lt_trichotomy p.offset.byteIdx q.offset.byteIdx
    · exact absurd h (hne p q hlt)
    · exact String.Pos.ext (String.Pos.Raw.ext heq)
    · exact absurd h.symm (hne q p hlt)

/-- The start and the end of two lines, the second of which has two bytes. -/
theorem places_of_two_lines :
    "a\nβ".startPos < "a\nβ".endPos ∧
    ∃ l m, (ofText "a\nβ").locate? 0 = some l ∧ (ofText "a\nβ").locate? 4 = some m ∧
      l.Before m := by
  have hlt : "a\nβ".startPos < "a\nβ".endPos := by decide
  exact ⟨hlt, (places_exact "a\nβ").2.1 _ _ hlt⟩

end LineIndex

/-! ## Tokens -/

namespace Token

variable {text : String} {cur : Cursor} {s t : ScanState} {n : Nat}

/-- A cursor stands in a text: what is left is the end of the text from the offset on. -/
def Cursor.On (text : String) (cur : Cursor) : Prop :=
  ∃ before, text = before ++ String.ofList cur.rest ∧ cur.offset = before.utf8ByteSize

theorem Cursor.On.bump (h : cur.On text) : cur.bump.On text := by
  obtain ⟨before, htext, hoffset⟩ := h
  obtain ⟨rest, offset⟩ := cur
  cases rest with
  | nil => exact ⟨before, htext, hoffset⟩
  | cons c rest =>
    refine ⟨before.push c, ?_, ?_⟩
    · rw [htext, ← String.append_singleton, String.append_assoc]
      simp [Cursor.bump]
    · simp [Cursor.bump, String.utf8ByteSize_push, ← hoffset]

theorem Cursor.On.skip (h : cur.On text) (n : Nat) : (cur.skip n).On text := by
  induction n generalizing cur with
  | zero => exact h
  | succ n ih => exact ih h.bump

theorem Cursor.On.isValid (h : cur.On text) : (⟨cur.offset⟩ : String.Pos.Raw).IsValid text := by
  obtain ⟨before, rfl, hoffset⟩ := h
  rw [hoffset]
  exact String.Pos.Raw.isValid_rawEndPos.append_right _

/-- The cursor stands in the text, and the tokens have been read between offsets of it. -/
structure ScanState.Placed (text : String) (s : ScanState) : Prop where
  cursor : s.cursor.On text
  readings : ∀ r ∈ s.readings, (⟨r.start⟩ : String.Pos.Raw).IsValid text ∧
    (⟨r.stop⟩ : String.Pos.Raw).IsValid text

namespace ScanState.Placed

theorem start (text : String) : (ScanState.start text.toList).Placed text := by
  have hstart : Cursor.On text ⟨text.toList, 0⟩ := ⟨"", by simp, rfl⟩
  refine ⟨?_, by simp [ScanState.start]⟩
  unfold ScanState.start
  dsimp only
  split
  · exact hstart.bump
  · exact hstart

theorem emit (h : s.Placed text) (token : Token) (hcur : cur.On text) :
    (s.emit token cur).Placed text := by
  refine ⟨hcur, fun r hr => ?_⟩
  obtain rfl | hr := List.mem_cons.mp hr
  · exact ⟨h.cursor.isValid, hcur.isValid⟩
  · exact h.readings r hr

theorem emitLayout (h : s.Placed text) (token : Token) : (s.emitLayout token).Placed text := by
  refine ⟨h.cursor, fun r hr => ?_⟩
  obtain rfl | hr := List.mem_cons.mp hr
  · exact ⟨h.cursor.isValid, h.cursor.isValid⟩
  · exact h.readings r hr

/-- Only the cursor and the tokens have places. -/
theorem congr (h : s.Placed text) (hcur : t.cursor.On text) (hread : t.readings = s.readings) :
    t.Placed text :=
  ⟨hcur, hread ▸ h.readings⟩

theorem closeBlocks {i : Indentation} {blocks : List Indentation} (h : s.Placed text)
    (ht : Token.closeBlocks s i blocks = some t) : t.Placed text := by
  fun_induction Token.closeBlocks s i blocks with
  | case1 s hi =>
    cases ht
    exact h.congr h.cursor rfl
  | case2 s hi => cases ht
  | case3 s top outer ih =>
    rw [Option.bind_eq_bind, Option.bind_eq_some_iff] at ht
    obtain ⟨o, -, ht⟩ := ht
    cases o with
    | eq =>
      cases ht
      exact h.congr h.cursor rfl
    | gt => cases ht
    | lt => exact ih (h.emitLayout _) ht

theorem readIndentation (h : s.Placed text) (ht : Token.readIndentation s = some t) :
    t.Placed text := by
  unfold Token.readIndentation at ht
  rw [Option.bind_eq_bind, Option.bind_eq_some_iff] at ht
  obtain ⟨⟨i, passed⟩, -, ht⟩ := ht
  have hskip : ({ s with cursor := s.cursor.skip passed, lineStart := false } : ScanState).Placed
      text := h.congr (h.cursor.skip passed) rfl
  dsimp only at ht
  split at ht
  any_goals
    cases ht
    exact hskip
  rw [Option.bind_eq_bind, Option.bind_eq_some_iff] at ht
  obtain ⟨o, -, ht⟩ := ht
  cases o with
  | eq =>
    cases ht
    exact hskip
  | gt =>
    cases ht
    exact (hskip.emitLayout .indent).congr hskip.cursor rfl
  | lt => exact hskip.closeBlocks ht

theorem readLineEnd (h : s.Placed text) (hcur : cur.On text) :
    (Token.readLineEnd s cur).Placed text := by
  unfold Token.readLineEnd
  split
  · exact h.congr hcur rfl
  · dsimp only
    split
    · exact (h.emitLayout .newline).congr hcur rfl
    · exact h.congr hcur rfl

theorem readString {kind : StringKind} {letters : Nat} (h : s.Placed text)
    (ht : Token.readString s kind letters = some t) : t.Placed text := by
  unfold Token.readString at ht
  have hcur : (s.cursor.skip letters).On text := h.cursor.skip letters
  dsimp only at ht
  split at ht
  · cases ht
  · split at ht
    · cases ht
      exact (h.emit _ (hcur.skip _)).congr (hcur.skip _) rfl
    · rw [Option.bind_eq_bind, Option.bind_eq_some_iff] at ht
      obtain ⟨body, -, ht⟩ := ht
      rw [Option.bind_eq_bind, Option.bind_eq_some_iff] at ht
      obtain ⟨token, -, ht⟩ := ht
      cases ht
      exact h.emit _ ((hcur.skip _).skip _)

theorem closeSpec (h : s.Placed text) : (Token.closeSpec s).Placed text := by
  unfold Token.closeSpec
  split
  · split
    · exact h.congr h.cursor rfl
    · exact h
  · exact h

theorem readSymbol_general (h : s.Placed text) (ht : Token.readSymbol.general s = some t) :
    t.Placed text := by
  unfold Token.readSymbol.general at ht
  rw [Option.bind_eq_bind, Option.bind_eq_some_iff] at ht
  obtain ⟨cs, -, ht⟩ := ht
  have hnext : (s.emit (.symbol (String.ofList cs)) (s.cursor.skip cs.length)).Placed text :=
    h.emit _ (h.cursor.skip _)
  dsimp only at ht
  split at ht
  all_goals cases ht
  any_goals exact hnext.congr hnext.cursor rfl
  exact hnext.closeSpec.congr hnext.closeSpec.cursor rfl

theorem readSymbol (h : s.Placed text) (ht : Token.readSymbol s = some t) : t.Placed text := by
  unfold Token.readSymbol at ht
  split at ht
  · split at ht
    · cases ht
      exact (h.emit (.symbol ":") h.cursor.bump).congr h.cursor.bump rfl
    · exact h.readSymbol_general ht
  · split at ht
    · cases ht
    · exact h.readSymbol_general ht
  · exact h.readSymbol_general ht

theorem readPlain (h : s.Placed text) (ht : Token.readPlain s = some t) : t.Placed text := by
  have passes : ∀ {cur}, cur.On text → ({ s with cursor := cur } : ScanState).Placed text :=
    fun hcur => h.congr hcur rfl
  unfold Token.readPlain at ht
  split at ht
  · cases ht
    exact h
  · split at ht
    · cases ht
      exact passes h.cursor.bump
    split at ht
    · cases ht
      exact passes (h.cursor.skip _)
    split at ht
    · cases ht
      exact h.readLineEnd h.cursor.bump
    split at ht
    · cases ht
      exact h.readLineEnd (h.cursor.skip _)
    split at ht
    · dsimp only at ht
      split at ht <;> split at ht <;> cases ht <;> exact passes (h.cursor.skip _)
    split at ht
    · dsimp only at ht
      split at ht
      · exact h.readString ht
      · cases ht
        exact h.emit _ (h.cursor.skip _)
    split at ht
    · rw [Option.bind_eq_bind, Option.bind_eq_some_iff] at ht
      obtain ⟨⟨token, width⟩, -, ht⟩ := ht
      cases ht
      exact h.emit _ (h.cursor.skip _)
    split at ht
    · exact h.readString ht
    · exact h.readSymbol ht

theorem readFormat {f : OpenFormat} (h : s.Placed text) (ht : Token.readFormat s f = some t) :
    t.Placed text := by
  unfold Token.readFormat at ht
  split at ht
  · cases ht
    exact (h.emit .formatStop (h.cursor.skip _)).congr (h.cursor.skip _) rfl
  · rw [Option.bind_eq_bind, Option.bind_eq_some_iff] at ht
    obtain ⟨⟨body, width⟩, -, ht⟩ := ht
    dsimp only at ht
    split at ht
    · exact h.readPlain ht
    · have hemit : ∀ {cs : Option (List Char)},
          (cs.bind fun cs => some (s.emit (.formatText (String.ofList cs)) (s.cursor.skip width))) =
            some t → t.Placed text := by
        intro cs heq
        obtain ⟨_, -, heq⟩ := Option.bind_eq_some_iff.mp heq
        cases heq
        exact h.emit _ (h.cursor.skip _)
      split at ht <;> exact hemit ht

theorem readStep (h : s.Placed text) (ht : Token.readStep s = some t) : t.Placed text := by
  unfold Token.readStep at ht
  split at ht
  · split at ht
    · exact h.readPlain ht
    · exact h.readFormat ht
  · split at ht
    · exact h.readIndentation ht
    · exact h.readPlain ht

theorem readEnd (h : s.Placed text) (ht : Token.readEnd s = some t) : t.Placed text := by
  have hdedents : ∀ {s : ScanState} (blocks : List Indentation), s.Placed text →
      (blocks.foldl (fun s _ => s.emitLayout .dedent) s).Placed text := by
    intro s blocks hs
    induction blocks generalizing s with
    | nil => exact hs
    | cons i blocks ih => exact ih (hs.emitLayout .dedent)
  unfold Token.readEnd at ht
  split at ht
  · cases ht
  · cases ht
    split
    · exact hdedents _ (h.emitLayout .newline)
    · exact hdedents _ h

theorem readAll (h : s.Placed text) (ht : Token.readAll n s = some t) : t.Placed text := by
  induction n generalizing s with
  | zero => exact h.readEnd ht
  | succ n ih =>
    unfold Token.readAll at ht
    split at ht
    · exact h.readEnd ht
    · rw [Option.bind_eq_bind, Option.bind_eq_some_iff] at ht
      obtain ⟨u, hu, ht⟩ := ht
      exact ih (h.readStep hu) ht

end ScanState.Placed

/-- The span between two positions of a text. -/
def spanOf (p q : text.Pos) : Span :=
  ⟨LineIndex.placeBehind (text.sliceTo p).copy.toList,
    LineIndex.placeBehind (text.sliceTo q).copy.toList⟩

theorem ScanState.Placed.exists_lexeme? (h : s.Placed text) {r : Reading} (hr : r ∈ s.readings) :
    ∃ l, r.lexeme? (.ofText text) = some l ∧ ∃ p q : text.Pos, l.span = spanOf p q := by
  obtain ⟨hstart, hstop⟩ := h.readings r hr
  have hp := LineIndex.locate?_pos ⟨_, hstart⟩
  have hq := LineIndex.locate?_pos ⟨_, hstop⟩
  refine ⟨⟨r.token, spanOf ⟨_, hstart⟩ ⟨_, hstop⟩⟩, ?_, _, _, rfl⟩
  simp only [Reading.lexeme?, LineIndex.span?, hp, hq]
  rfl

theorem exists_mapM {α β : Type} {f : α → Option β} {P : β → Prop} {xs : List α}
    (h : ∀ x ∈ xs, ∃ y, f x = some y ∧ P y) :
    ∃ ys, xs.mapM f = some ys ∧ ∀ y ∈ ys, P y := by
  induction xs with
  | nil => exact ⟨[], rfl, by simp⟩
  | cons x xs ih =>
    obtain ⟨y, hy, hP⟩ := h x List.mem_cons_self
    obtain ⟨ys, hys, hall⟩ := ih fun x hx => h x (List.mem_cons_of_mem _ hx)
    refine ⟨y :: ys, ?_, by simpa using ⟨hP, hall⟩⟩
    rw [List.mapM_cons, hy, hys]
    rfl

/-- A text is taken apart into tokens if the reader comes to its end: each token that it reads has a
place, and each span is the one between two positions. -/
theorem scan_placed (text : String) :
    (scan text).isSome = (readAll (2 * text.toList.length + 2) (.start text.toList)).isSome ∧
      ∀ lexemes, scan text = some lexemes →
        ∀ l ∈ lexemes, ∃ p q : text.Pos, l.span = spanOf p q := by
  cases hread : readAll (2 * text.toList.length + 2) (.start text.toList) with
  | none =>
    have hscan : scan text = none := by simp [scan, hread]
    simp [hscan]
  | some s =>
    have hplaced : s.Placed text := (ScanState.Placed.start text).readAll hread
    obtain ⟨lexemes, hmap, hspans⟩ := exists_mapM fun r (hr : r ∈ s.readings.reverse) =>
      hplaced.exists_lexeme? (List.mem_reverse.mp hr)
    have hscan : scan text = some lexemes := by simp [scan, hread, hmap]
    refine ⟨by rw [hscan]; rfl, fun lexemes' heq => ?_⟩
    obtain rfl : lexemes = lexemes' := Option.some.inj (hscan.symm.trans heq)
    exact hspans

end Token

end Resumable
