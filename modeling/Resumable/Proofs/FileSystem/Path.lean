import Mathlib.Data.List.Basic
import Mathlib.Data.List.DropRight
import Mathlib.Logic.Function.Iterate
import Resumable.FileSystem.FullPath

/-!
# Normal paths

A path is normal if it is the one that its text names. The normal paths are those that are made of
segments (`isNormal_iff`), and on them the operations on texts are operations on lists of segments:
`parent?` drops the last one, and a path lies below a directory if its segments go on where those of
the directory end. What is followed from a path is followed piece by piece, so that a text may be
cut at any slash and what is in front of it be followed first (`ofText_slash`). Main statement:
`ofString_canonical`.
-/

namespace Resumable

/-! ## The pieces of a text -/

namespace Path

theorem cut?_go_of_not_mem {passed a : List Char} (ha : '/' ∉ a) :
    Text.cut?.go ['/'] passed a = none := by
  induction a generalizing passed with
  | nil => simp [Text.cut?.go, Text.afterPrefix?]
  | cons c a ih =>
    simp only [List.mem_cons, not_or] at ha
    obtain ⟨hc, ha⟩ := ha
    simp [Text.cut?.go, Text.afterPrefix?, hc, ih ha]

theorem cut?_go_of_slash {passed a : List Char} (ha : '/' ∉ a) (b : List Char) :
    Text.cut?.go ['/'] passed (a ++ '/' :: b) = some (passed.reverse ++ a, b) := by
  induction a generalizing passed with
  | nil => simp [Text.cut?.go, Text.afterPrefix?]
  | cons c a ih =>
    simp only [List.mem_cons, not_or] at ha
    obtain ⟨hc, ha⟩ := ha
    simp [Text.cut?.go, Text.afterPrefix?, hc, ih ha]

theorem split_go_of_not_mem {done : List (List Char)} {a : List Char} (ha : '/' ∉ a) :
    Text.split.go ['/'] done none a = done.reverse ++ [a] := by
  unfold Text.split.go
  have hcut : Text.cut? ['/'] a = none := cut?_go_of_not_mem ha
  split
  · simp
  · split
    · simp
    · simp_all

theorem split_go_of_slash {done : List (List Char)} {a : List Char} (ha : '/' ∉ a)
    (b : List Char) : Text.split.go ['/'] done none (a ++ '/' :: b) =
      Text.split.go ['/'] (a :: done) none b := by
  have hcut : Text.cut? ['/'] (a ++ '/' :: b) = some (a, b) := cut?_go_of_slash ha b
  rw [Text.split.go]
  split
  · simp_all
  · split <;> simp_all

/-- A text is free of slashes, or begins with a piece that a slash ends. -/
theorem eq_or_slash (s : List Char) : '/' ∉ s ∨ ∃ a b, '/' ∉ a ∧ s = a ++ '/' :: b := by
  induction s with
  | nil => simp
  | cons c s ih =>
    by_cases hc : c = '/'
    · exact .inr ⟨[], s, by simp, by simp [hc]⟩
    · obtain h | ⟨a, b, ha, rfl⟩ := ih
      · exact .inl (by simp [h, Ne.symm hc])
      · exact .inr ⟨c :: a, b, by simp [ha, Ne.symm hc], rfl⟩

theorem split_go_eq (done : List (List Char)) (s : List Char) :
    Text.split.go ['/'] done none s = done.reverse ++ pieces s := by
  obtain h | ⟨a, b, ha, rfl⟩ := eq_or_slash s
  · simp [pieces, Text.split, split_go_of_not_mem h]
  · have hb := split_go_eq (a :: done) b
    have hb' := split_go_eq [a] b
    simp only [pieces, Text.split] at hb hb' ⊢
    rw [split_go_of_slash ha, split_go_of_slash ha, hb, hb']
    simp
termination_by s.length
decreasing_by all_goals simp +arith [*]

theorem pieces_of_not_mem {a : List Char} (ha : '/' ∉ a) : pieces a = [a] :=
  split_go_of_not_mem ha

theorem pieces_of_slash {a : List Char} (ha : '/' ∉ a) (b : List Char) :
    pieces (a ++ '/' :: b) = a :: pieces b := by
  rw [pieces, Text.split, split_go_of_slash ha, split_go_eq]
  rfl

/-- The pieces of a text are those in front of any of its slashes and those behind it. -/
theorem pieces_append (a b : List Char) : pieces (a ++ '/' :: b) = pieces a ++ pieces b := by
  obtain h | ⟨x, rest, hx, rfl⟩ := eq_or_slash a
  · rw [pieces_of_slash h, pieces_of_not_mem h, List.singleton_append]
  · rw [List.append_assoc, List.cons_append, pieces_of_slash hx, pieces_of_slash hx,
      pieces_append rest b, List.cons_append]
termination_by a.length
decreasing_by simp +arith [*]

theorem not_mem_of_mem_pieces {s a : List Char} (h : a ∈ pieces s) : '/' ∉ a := by
  obtain hs | ⟨x, b, hx, rfl⟩ := eq_or_slash s
  · rw [pieces_of_not_mem hs, List.mem_singleton] at h
    rwa [h]
  · rw [pieces_of_slash hx, List.mem_cons] at h
    obtain rfl | h := h
    · exact hx
    · exact not_mem_of_mem_pieces h
termination_by s.length
decreasing_by simp +arith [*]

theorem pieces_ne_nil (s : List Char) : pieces s ≠ [] := by
  obtain h | ⟨a, b, ha, rfl⟩ := eq_or_slash s
  · simp [pieces_of_not_mem h]
  · simp [pieces_of_slash ha]

/-- The pieces of a text that goes on behind segments. -/
theorem pieces_segments {a : List Char} (ha : '/' ∉ a) {segments : List (List Char)}
    (h : ∀ s ∈ segments, '/' ∉ s) (b : List Char) :
    pieces (a ++ segments.flatMap ('/' :: ·) ++ '/' :: b) = a :: segments ++ pieces b := by
  induction segments generalizing a with
  | nil => simpa using pieces_of_slash ha b
  | cons s segments ih =>
    have hs := ih (h s (by simp)) fun t ht => h t (by simp [ht])
    simpa [List.append_assoc, pieces_of_slash ha] using hs

/-- The pieces of a text of segments. -/
theorem pieces_flatMap {segments : List (List Char)} (h : ∀ s ∈ segments, '/' ∉ s)
    (hne : segments ≠ []) : pieces (segments.flatMap ('/' :: ·)) = [] :: segments := by
  obtain ⟨init, last, rfl⟩ := (List.eq_nil_or_concat' segments).resolve_left hne
  have hlast := pieces_of_not_mem (h last (by simp))
  have hinit : ∀ s ∈ init, '/' ∉ s := fun s hs => h s (by simp [hs])
  have := pieces_segments (a := []) (by simp) hinit last
  simpa [hlast] using this

end Path

namespace FullPath

/-! ## Paths of segments -/

/-- A segment of a path. -/
structure IsSegment (s : List Char) : Prop where
  not_nil : s ≠ []
  not_here : s ≠ ['.']
  not_up : s ≠ ['.', '.']
  not_slash : '/' ∉ s

/-- A normal path is the one that its text names. -/
def IsNormal (p : FullPath) : Prop := ofText p.text = p

theorem follow_isSegment {back pieces : List (List Char)} (hb : ∀ s ∈ back, IsSegment s)
    (hp : ∀ s ∈ pieces, '/' ∉ s) : ∀ s ∈ follow back pieces, IsSegment s := by
  fun_induction follow back pieces with
  | case1 => exact hb
  | case2 back piece rest _ ih => exact ih hb fun s hs => hp s (by simp [hs])
  | case3 back piece rest _ _ ih =>
    exact ih (fun s hs => hb s (List.mem_of_mem_tail hs)) fun s hs => hp s (by simp [hs])
  | case4 back piece rest hhere hup ih =>
    refine ih (fun s hs => ?_) fun s hs => hp s (by simp [hs])
    obtain rfl | hs := List.mem_cons.mp hs
    · simp only [Bool.or_eq_true, beq_iff_eq, not_or] at hhere hup
      exact ⟨hhere.1, hhere.2, hup, hp s (by simp)⟩
    · exact hb s hs

theorem follow_segments {back segments : List (List Char)} (h : ∀ s ∈ segments, IsSegment s) :
    follow back segments = segments.reverse ++ back := by
  induction segments generalizing back with
  | nil => rfl
  | cons s segments ih =>
    have hs := h s (by simp)
    simp [follow, hs.not_nil, hs.not_here, hs.not_up, ih fun t ht => h t (by simp [ht])]

theorem text_ofSegments {segments : List (List Char)} (h : segments ≠ []) :
    (ofSegments segments).text = segments.flatMap ('/' :: ·) := by
  cases segments with
  | nil => exact absurd rfl h
  | cons s segments => rfl

theorem follow_pieces_text {segments : List (List Char)} (h : ∀ s ∈ segments, IsSegment s) :
    follow [] (Path.pieces (ofSegments segments).text) = segments.reverse := by
  by_cases hne : segments = []
  · have hpieces : Path.pieces ['/'] = [] :: Path.pieces [] :=
      Path.pieces_of_slash (a := []) (by simp) []
    rw [Path.pieces_of_not_mem (a := []) (by simp)] at hpieces
    simp [hne, ofSegments, root, hpieces, follow]
  · rw [text_ofSegments hne, Path.pieces_flatMap (fun s hs => (h s hs).not_slash) hne]
    simp [follow, follow_segments h]

theorem isNormal_ofSegments {segments : List (List Char)} (h : ∀ s ∈ segments, IsSegment s) :
    (ofSegments segments).IsNormal := by
  rw [IsNormal, ofText, follow_pieces_text h, List.reverse_reverse]

theorem isNormal_iff {p : FullPath} :
    p.IsNormal ↔ ∃ segments, (∀ s ∈ segments, IsSegment s) ∧ p = ofSegments segments := by
  constructor
  · intro h
    refine ⟨_, fun s hs => ?_, h.symm⟩
    exact follow_isSegment (by simp) (fun _ => Path.not_mem_of_mem_pieces) s
      (List.mem_reverse.mp hs)
  · rintro ⟨segments, h, rfl⟩
    exact isNormal_ofSegments h

/-- What a text names is normal. -/
theorem isNormal_ofText (s : List Char) : (ofText s).IsNormal :=
  isNormal_iff.mpr ⟨_, fun s hs => follow_isSegment (by simp)
    (fun _ => Path.not_mem_of_mem_pieces) s (List.mem_reverse.mp hs), rfl⟩

theorem isNormal_root : root.IsNormal := isNormal_iff.mpr ⟨[], by simp, rfl⟩

theorem ofSegments_injective {a b : List (List Char)} (ha : ∀ s ∈ a, IsSegment s)
    (hb : ∀ s ∈ b, IsSegment s) (h : ofSegments a = ofSegments b) : a = b := by
  have := follow_pieces_text ha
  rw [h, follow_pieces_text hb] at this
  exact (List.reverse_inj.mp this).symm

/-! ## The directory of a path -/

theorem beforeLast?_of_not_mem {s : List Char} (h : '/' ∉ s) : beforeLast? '/' s = none := by
  induction s with
  | nil => rfl
  | cons c s ih =>
    simp only [List.mem_cons, not_or] at h
    simp [beforeLast?, ih h.2, Ne.symm h.1]

theorem beforeLast?_slash (a : List Char) {s : List Char} (h : '/' ∉ s) :
    beforeLast? '/' (a ++ '/' :: s) = some a := by
  induction a with
  | nil => simp [beforeLast?, beforeLast?_of_not_mem h]
  | cons c a ih => simp [beforeLast?, ih]

theorem exists_of_beforeLast? {c : Char} {s before : List Char}
    (h : beforeLast? c s = some before) : ∃ after, s = before ++ c :: after := by
  fun_induction beforeLast? c s generalizing before with
  | case1 => cases h
  | case2 x s rest hrest ih =>
    cases h
    obtain ⟨after, rfl⟩ := ih hrest
    exact ⟨after, rfl⟩
  | case3 x s hrest hx =>
    cases h
    exact ⟨s, by simp [beq_iff_eq.mp hx]⟩
  | case4 => cases h

/-- A path lies below its directory, whatever its text is. -/
theorem isBelow_parent? {p dir : FullPath} (h : p.parent? = some dir) : p.isBelow dir := by
  unfold parent? at h
  split at h
  · cases h
  · obtain ⟨before, hbefore, rfl⟩ := Option.map_eq_some_iff.mp h
    obtain ⟨after, hafter⟩ := exists_of_beforeLast? hbefore
    unfold isBelow childPrefix
    rw [List.isPrefixOf_iff_prefix, hafter]
    split
    · rename_i hnil
      simp [List.isEmpty_iff.mp hnil]
    · split
      · -- two slashes at the start
        rename_i hroot
        simp only [root, beq_iff_eq, FullPath.mk.injEq] at hroot
        simp [hroot]
      · simp

theorem text_prefix_childPrefix (dir : FullPath) : dir.text <+: dir.childPrefix := by
  unfold childPrefix
  split
  · rename_i h
    simp [beq_iff_eq.mp h, root]
  · exact List.prefix_append _ _

theorem isBelow_trans {p dir dir' : FullPath} (h : p.isBelow dir) (h' : dir.isBelow dir') :
    p.isBelow dir' := by
  unfold isBelow at *
  rw [List.isPrefixOf_iff_prefix] at *
  exact (h'.trans (text_prefix_childPrefix dir)).trans h

theorem not_isBelow_self {p : FullPath} (h : p ≠ root) : ¬ p.isBelow p := by
  unfold isBelow childPrefix
  rw [List.isPrefixOf_iff_prefix, if_neg (by simpa using h)]
  intro h
  have := h.length_le
  simp only [List.length_append, List.length_cons] at this
  omega

theorem ofSegments_concat_ne_root {init : List (List Char)} {last : List Char}
    (h : last ≠ []) : ofSegments (init ++ [last]) ≠ root := by
  intro heq
  have := congrArg (fun p => p.text.length) heq
  rw [text_ofSegments (by simp)] at this
  have hlast := List.length_pos_iff.mpr h
  simp [root] at this
  omega

theorem parent?_root : root.parent? = none := rfl

theorem parent?_ofSegments {init : List (List Char)} {last : List Char}
    (h : ∀ s ∈ init, IsSegment s) (hlast : IsSegment last) :
    (ofSegments (init ++ [last])).parent? = some (ofSegments init) := by
  have htext : (ofSegments (init ++ [last])).text = init.flatMap ('/' :: ·) ++ '/' :: last := by
    simp [text_ofSegments]
  unfold parent?
  rw [htext, beforeLast?_slash _ hlast.not_slash,
    if_neg (by simpa using ofSegments_concat_ne_root hlast.not_nil)]
  cases init with
  | nil => rfl
  | cons s init => rfl

/-- A normal path is the root, or lies directly in a normal path. -/
theorem IsNormal.cases {p : FullPath} (h : p.IsNormal) :
    p = root ∨ ∃ init last, (∀ s ∈ init, IsSegment s) ∧ IsSegment last ∧
      p = ofSegments (init ++ [last]) ∧ p.parent? = some (ofSegments init) := by
  obtain ⟨segments, hs, rfl⟩ := isNormal_iff.mp h
  obtain rfl | ⟨init, last, rfl⟩ := List.eq_nil_or_concat' segments
  · exact .inl rfl
  · have hinit : ∀ s ∈ init, IsSegment s := fun s hm => hs s (by simp [hm])
    have hlast : IsSegment last := hs last (by simp)
    exact .inr ⟨init, last, hinit, hlast, by simp, parent?_ofSegments hinit hlast⟩

theorem IsNormal.exists_parent? {p : FullPath} (h : p.IsNormal) (hroot : p ≠ root) :
    ∃ dir, p.parent? = some dir := by
  obtain rfl | ⟨_, _, _, _, _, hp⟩ := h.cases
  · exact absurd rfl hroot
  · exact ⟨_, hp⟩

theorem IsNormal.of_parent? {p dir : FullPath} (h : p.IsNormal) (hdir : p.parent? = some dir) :
    dir.IsNormal := by
  obtain rfl | ⟨init, last, hinit, _, _, hp⟩ := h.cases
  · cases hdir
  · rw [hp] at hdir
    cases hdir
    exact isNormal_ofSegments hinit

/-! ## The directories above a path -/

theorem ancestors_of_parent? {p dir : FullPath} (h : p.parent? = some dir) :
    p.ancestors = dir :: dir.ancestors := by
  rw [ancestors]
  split
  · simp_all
  · simp_all

theorem ancestors_of_none {p : FullPath} (h : p.parent? = none) : p.ancestors = [] := by
  rw [ancestors]
  split <;> simp_all

/-- The directories above a path, one at a time. -/
theorem mem_ancestors {p a : FullPath} :
    a ∈ p.ancestors ↔ ∃ dir, p.parent? = some dir ∧ (a = dir ∨ a ∈ dir.ancestors) := by
  cases h : p.parent? with
  | none => simp [ancestors_of_none h]
  | some dir => simp [ancestors_of_parent? h]

/-- What holds of the directory of a path, and with a path of its directory, holds above it. -/
theorem forall_ancestors {motive : FullPath → Prop} {p : FullPath}
    (h : ∀ dir, p.parent? = some dir → motive dir)
    (hup : ∀ q dir, motive q → q.parent? = some dir → motive dir) :
    ∀ a ∈ p.ancestors, motive a := by
  intro a ha
  obtain ⟨dir, hdir, ha⟩ := mem_ancestors.mp ha
  obtain rfl | ha := ha
  · exact h a hdir
  · exact forall_ancestors (fun e he => hup dir e (h dir hdir) he) hup a ha
termination_by p.text.length
decreasing_by exact length_of_parent? hdir

theorem mem_ancestors_of_parent? {p a dir : FullPath} (ha : a ∈ p.ancestors)
    (hdir : a.parent? = some dir) : dir ∈ p.ancestors := by
  obtain ⟨e, he, ha⟩ := mem_ancestors.mp ha
  refine mem_ancestors.mpr ⟨e, he, .inr ?_⟩
  obtain rfl | ha := ha
  · exact mem_ancestors.mpr ⟨dir, hdir, .inl rfl⟩
  · exact mem_ancestors_of_parent? ha hdir
termination_by p.text.length
decreasing_by exact length_of_parent? he

theorem isBelow_of_mem_ancestors {p a : FullPath} (h : a ∈ p.ancestors) : p.isBelow a :=
  forall_ancestors (fun _ => isBelow_parent?)
    (fun _ _ hq hdir => isBelow_trans hq (isBelow_parent? hdir)) a h

theorem not_mem_ancestors_self (p : FullPath) : p ∉ p.ancestors := by
  intro h
  by_cases hp : p = root
  · rw [hp, ancestors_of_none parent?_root] at h
    cases h
  · exact not_isBelow_self hp (isBelow_of_mem_ancestors h)

theorem IsNormal.of_mem_ancestors {p a : FullPath} (h : p.IsNormal) (ha : a ∈ p.ancestors) :
    a.IsNormal :=
  forall_ancestors (fun _ => h.of_parent?) (fun _ _ => IsNormal.of_parent?) a ha

theorem ofSegments_mem_ancestors {a b : List (List Char)} {s : List Char}
    (h : ∀ x ∈ a ++ s :: b, IsSegment x) :
    ofSegments a ∈ (ofSegments (a ++ s :: b)).ancestors := by
  obtain rfl | ⟨init, last, rfl⟩ := List.eq_nil_or_concat' b
  · have hp := parent?_ofSegments (fun x (hx : x ∈ a) => h x (by simp [hx])) (h s (by simp))
    exact mem_ancestors.mpr ⟨_, hp, .inl rfl⟩
  · have hsplit : a ++ s :: (init ++ [last]) = (a ++ s :: init) ++ [last] := by simp
    have hinit : ∀ x ∈ a ++ s :: init, IsSegment x := fun x hx => h x (by
      simp only [List.mem_append, List.mem_cons] at hx ⊢; grind)
    have hp := parent?_ofSegments hinit (h last (by simp))
    rw [hsplit]
    exact mem_ancestors.mpr ⟨_, hp, .inr (ofSegments_mem_ancestors hinit)⟩
termination_by b.length
decreasing_by simp +arith [*]

/-- Below a normal path, the segments go on behind its own. -/
theorem exists_of_isBelow {a b : List (List Char)} (ha : ∀ s ∈ a, IsSegment s)
    (hb : ∀ s ∈ b, IsSegment s) (h : (ofSegments b).isBelow (ofSegments a))
    (hne : b ≠ a) : ∃ s rest, b = a ++ s :: rest := by
  cases a with
  | nil =>
    obtain ⟨s, rest, rfl⟩ := List.exists_cons_of_ne_nil hne
    exact ⟨s, rest, rfl⟩
  | cons x xs =>
    have hroot : ofSegments (x :: xs) ≠ root := fun heq =>
      absurd (ofSegments_injective ha (b := []) (by simp) heq) (by simp)
    unfold isBelow childPrefix at h
    rw [List.isPrefixOf_iff_prefix, if_neg (by simpa using hroot),
      text_ofSegments (by simp)] at h
    obtain ⟨t, ht⟩ := h
    have hbne : b ≠ [] := by
      rintro rfl
      have := congrArg List.length ht
      simp [ofSegments, root] at this
    rw [text_ofSegments hbne] at ht
    -- both sides have the same pieces
    have hpieces := congrArg Path.pieces ht
    have hleft := Path.pieces_segments (a := []) (by simp)
      (fun s hs => (ha s hs).not_slash) t
    rw [Path.pieces_flatMap (fun s hs => (hb s hs).not_slash) hbne] at hpieces
    simp only [List.nil_append, List.append_assoc, List.cons_append] at hleft hpieces
    rw [hleft] at hpieces
    obtain ⟨s, rest, hs⟩ := List.exists_cons_of_ne_nil (Path.pieces_ne_nil t)
    rw [hs] at hpieces
    exact ⟨s, rest, (List.cons.inj hpieces).2.symm⟩

theorem mem_ancestors_of_isBelow {p dir : FullPath} (hp : p.IsNormal) (hdir : dir.IsNormal)
    (h : p.isBelow dir) (hne : p ≠ dir) : dir ∈ p.ancestors := by
  obtain ⟨b, hb, rfl⟩ := isNormal_iff.mp hp
  obtain ⟨a, ha, rfl⟩ := isNormal_iff.mp hdir
  obtain ⟨s, rest, rfl⟩ := exists_of_isBelow ha hb h fun heq => hne (heq ▸ rfl)
  exact ofSegments_mem_ancestors hb

/-- No normal path ends as the texts of paths below a directory begin. -/
theorem IsNormal.text_ne_childPrefix {p dir : FullPath} (hp : p.IsNormal) (hdir : dir.IsNormal)
    (hroot : dir ≠ root) : p.text ≠ dir.childPrefix := by
  intro heq
  have hbelow : p.isBelow dir :=
    List.isPrefixOf_iff_prefix.mpr (heq ▸ List.prefix_rfl)
  have htext : p.text = dir.text ++ ['/'] := by
    rw [heq, childPrefix, if_neg (by simpa using hroot)]
  obtain ⟨b, hb, rfl⟩ := isNormal_iff.mp hp
  obtain ⟨a, ha, rfl⟩ := isNormal_iff.mp hdir
  have hne : b ≠ a := by
    rintro rfl
    simp at htext
  obtain ⟨s, rest, rfl⟩ := exists_of_isBelow ha hb hbelow hne
  have hane : a ≠ [] := by
    rintro rfl
    exact hroot rfl
  have hs := (hb s (by simp)).not_nil
  rw [text_ofSegments (by simp), text_ofSegments hane] at htext
  simp [hs] at htext

/-! ## Paths below a directory -/

theorem childPrefix_eq {dir : FullPath} (h : dir ≠ root) : dir.childPrefix = dir.text ++ ['/'] :=
  if_neg (by simpa using h)

theorem isBelow_iff {p dir : FullPath} (h : dir ≠ root) :
    p.isBelow dir ↔ ∃ rest, p.text = dir.text ++ '/' :: rest := by
  rw [isBelow, List.isPrefixOf_iff_prefix, childPrefix_eq h]
  constructor
  · rintro ⟨rest, hrest⟩
    exact ⟨rest, by simpa using hrest.symm⟩
  · rintro ⟨rest, hrest⟩
    exact ⟨rest, by simp [hrest]⟩

/-- What lies below a normal path other than the root has it among its directories. -/
theorem isBelow_iff_mem_ancestors {p dir : FullPath} (hp : p.IsNormal) (hdir : dir.IsNormal)
    (hroot : dir ≠ root) : p.isBelow dir ↔ dir ∈ p.ancestors := by
  refine ⟨fun hbelow => mem_ancestors_of_isBelow hp hdir hbelow ?_, isBelow_of_mem_ancestors⟩
  rintro rfl
  exact not_isBelow_self hroot hbelow

/-- A path lies below two directories only if one of them lies below the other. -/
theorem isBelow_or_isBelow {p s t : FullPath} (hs : s ≠ root) (ht : t ≠ root)
    (hps : p.isBelow s) (hpt : p.isBelow t) : s = t ∨ s.isBelow t ∨ t.isBelow s := by
  have compare : ∀ {s t : FullPath}, s ≠ root → t ≠ root → s.childPrefix <+: t.childPrefix →
      s = t ∨ t.isBelow s := by
    intro s t hs ht h
    rw [childPrefix_eq ht, List.prefix_concat_iff] at h
    obtain h | h := h
    · rw [childPrefix_eq hs] at h
      exact .inl (congrArg FullPath.mk (List.append_cancel_right h))
    · exact .inr (List.isPrefixOf_iff_prefix.mpr h)
  rw [isBelow, List.isPrefixOf_iff_prefix] at hps hpt
  obtain h | h := List.prefix_or_prefix_of_prefix hps hpt
  · obtain h | h := compare hs ht h
    · exact .inl h
    · exact .inr (.inr h)
  · obtain h | h := compare ht hs h
    · exact .inl h.symm
    · exact .inr (.inl h)

section
variable {segments : List (List Char)}

/-! ## Following a text -/

theorem follow_append (back pieces more : List (List Char)) :
    follow back (pieces ++ more) = follow (follow back pieces) more := by
  fun_induction follow back pieces with
  | case1 => rfl
  | case2 back piece rest hhere ih => rw [List.cons_append, follow, if_pos hhere, ih]
  | case3 back piece rest hhere hup ih =>
    rw [List.cons_append, follow, if_neg hhere, if_pos hup, ih]
  | case4 back piece rest hhere hup ih =>
    rw [List.cons_append, follow, if_neg hhere, if_neg hup, ih]

/-- The path of a text leads back to where the text led. -/
theorem follow_pieces_ofText (a : List Char) :
    follow [] (Path.pieces (ofText a).text) = follow [] (Path.pieces a) := by
  have hsegments : ∀ s ∈ (follow [] (Path.pieces a)).reverse, IsSegment s := fun s hs =>
    follow_isSegment (by simp) (fun _ => Path.not_mem_of_mem_pieces) s (List.mem_reverse.mp hs)
  rw [ofText, follow_pieces_text hsegments, List.reverse_reverse]

/-- What is in front of a slash can be normalized first. -/
theorem ofText_slash (a b : List Char) :
    ofText (a ++ '/' :: b) = ofText ((ofText a).text ++ '/' :: b) := by
  unfold ofText
  rw [Path.pieces_append, Path.pieces_append, follow_append, follow_append, ← ofText,
    follow_pieces_ofText]

/-! ## The directories that a path lies in -/

theorem take_succ_ofSegments {n : Nat} (h : ∀ s ∈ segments, IsSegment s)
    (hn : n < segments.length) :
    (ofSegments (segments.take (n + 1))).parent? = some (ofSegments (segments.take n)) := by
  rw [List.take_add_one, List.getElem?_eq_getElem hn]
  exact parent?_ofSegments (fun s hs => h s (List.mem_of_mem_take hs)) (h _ (List.getElem_mem hn))

/-- Going up from a path drops its segments, the last one first; above the root there is nothing. -/
theorem iterate_parent? (h : ∀ s ∈ segments, IsSegment s) (n : Nat) :
    (Option.bind · parent?)^[n] (some (ofSegments segments)) =
      if n ≤ segments.length then some (ofSegments (segments.take (segments.length - n)))
      else none := by
  induction n with
  | zero => simp
  | succ n ih =>
    rw [Function.iterate_succ_apply', ih]
    obtain hlt | rfl | hgt := Nat.lt_trichotomy n segments.length
    · obtain ⟨m, hm⟩ := Nat.exists_eq_add_of_lt hlt
      have hleft : segments.length - n = m + 1 := by omega
      have hleft' : segments.length - (n + 1) = m := by omega
      rw [if_pos (by omega), if_pos (by omega), hleft, hleft', Option.bind_some,
        take_succ_ofSegments h (by omega)]
    · rw [if_pos le_rfl, if_neg (by omega), Nat.sub_self, List.take_zero]
      exact parent?_root
    · rw [if_neg (by omega), if_neg (by omega), Option.bind_none]

/-- The directories that a path lies in are those of the beginnings of its segments. -/
theorem ancestors_ofSegments (h : ∀ s ∈ segments, IsSegment s) :
    (ofSegments segments).ancestors =
      ((List.range segments.length).map fun n => ofSegments (segments.take n)).reverse := by
  have htake : ∀ n ≤ segments.length, (ofSegments (segments.take n)).ancestors =
      ((List.range n).map fun n => ofSegments (segments.take n)).reverse := by
    intro n
    induction n with
    | zero => exact fun _ => ancestors_of_none parent?_root
    | succ n ih =>
      intro hn
      rw [ancestors_of_parent? (take_succ_ofSegments h hn), ih (by omega), List.range_succ,
        List.map_append, List.reverse_append]
      rfl
  simpa using htake segments.length le_rfl

/-! ## Normal texts -/

theorem toString_ofSegments (segments : List (List Char)) :
    toString (ofSegments segments) =
      if segments = [] then "/" else String.ofList (segments.flatMap ('/' :: ·)) := by
  by_cases h : segments = []
  · rw [if_pos h, h]
    rfl
  · rw [if_neg h, ← text_ofSegments h]
    rfl

theorem ofString_toString (p : FullPath) : ofString (toString p) = ofText p.text :=
  congrArg ofText String.toList_ofList

/-- A text is normalized to its segments, each behind a slash, and a path that is normalized is
normalized to itself. What is in front of a slash can be normalized first. Going up from a path
leads to the paths that its segments begin with, one after another, and no further than to the
root. -/
theorem ofString_canonical (a b : String) :
    (∃ segments, (∀ s ∈ segments, IsSegment s) ∧
      toString (ofString a) =
        (if segments = [] then "/" else String.ofList (segments.flatMap ('/' :: ·))) ∧
      (∀ n, (Option.bind · parent?)^[n] (some (ofString a)) =
        if n ≤ segments.length then some (ofSegments (segments.take (segments.length - n)))
        else none) ∧
      (ofString a).ancestors =
        ((List.range segments.length).map fun n => ofSegments (segments.take n)).reverse) ∧
    ofString (toString (ofString a)) = ofString a ∧
    ofString (a ++ "/" ++ b) = ofString (toString (ofString a) ++ "/" ++ b) := by
  have hnormal : (ofString a).IsNormal := isNormal_ofText a.toList
  refine ⟨?_, ?_, ?_⟩
  · obtain ⟨segments, hsegments, heq⟩ := isNormal_iff.mp hnormal
    rw [heq]
    exact ⟨segments, hsegments, toString_ofSegments segments, iterate_parent? hsegments,
      ancestors_ofSegments hsegments⟩
  · rw [ofString_toString]
    exact hnormal
  · have hslash := ofText_slash a.toList b.toList
    simpa [ofString, toString] using hslash

example : ofString "/../a//./b/../c/" = ⟨['/', 'a', '/', 'c']⟩ := by decide +kernel

end

end FullPath

end Resumable
