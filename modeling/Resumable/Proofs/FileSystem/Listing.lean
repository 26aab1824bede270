import Resumable.Proofs.FileSystem.Effect

/-!
# Listings

A listing looks at the texts of paths only: it takes the paths below a directory that have no slash
behind what they all begin with. In a sound file system these are the files and directories that lie
directly in it (`mem_children`), and there are none of them exactly where nothing lies below it at
any depth (`children_eq_nil_iff`). Main statement: `Reached.list_exact`.
-/

namespace Resumable

namespace FullPath

/-! ## The order of paths -/

theorem lt_asymm {p q : FullPath} (h : p < q) : ¬ q < p := fun h' => lt_irrefl p (lt_trans h h')

theorem not_lt_trans {p q r : FullPath} (hpq : ¬ q < p) (hqr : ¬ r < q) : ¬ r < p := by
  intro hrp
  obtain rfl | hne := eq_or_ne p q
  · exact hqr hrp
  · exact hqr (lt_trans hrp (lt_of_not_lt hpq hne.symm))

/-! ## The texts of paths in a directory -/

section
variable {a rest : List (List Char)} {s : List Char}

theorem childPrefix_ofSegments (ha : ∀ x ∈ a, IsSegment x) :
    (ofSegments a).childPrefix = a.flatMap ('/' :: ·) ++ ['/'] := by
  by_cases hnil : a = []
  · rw [hnil]
    rfl
  · have hroot : ofSegments a ≠ root := fun heq =>
      hnil (ofSegments_injective ha (b := []) (by simp) heq)
    rw [childPrefix_eq hroot, text_ofSegments hnil]

/-- Behind what all texts below a directory begin with stand the segments that are its own. -/
theorem text_eq_childPrefix_append (h : ∀ x ∈ a ++ s :: rest, IsSegment x) :
    (ofSegments (a ++ s :: rest)).text =
      (ofSegments a).childPrefix ++ (s ++ rest.flatMap ('/' :: ·)) := by
  rw [text_ofSegments (by simp), childPrefix_ofSegments fun x hx => h x (by simp [hx])]
  simp

theorem isChild_ofSegments (h : ∀ x ∈ a ++ s :: rest, IsSegment x) :
    FileSystem.isChild (ofSegments a) (ofSegments (a ++ s :: rest)) ↔ rest = [] := by
  have hs := h s (by simp)
  unfold FileSystem.isChild
  rw [text_eq_childPrefix_append h, List.drop_left]
  cases rest with
  | nil => simp [hs.not_nil, hs.not_slash]
  | cons x rest => simp

end

/-- What lies below a directory by its text, and further than that text begins, is another path. -/
theorem ne_of_isBelow {p dir : FullPath} (hbelow : p.isBelow dir)
    (htext : p.text ≠ dir.childPrefix) : p ≠ dir := by
  rintro rfl
  by_cases hroot : p = root
  · rw [hroot] at htext
    exact htext rfl
  · exact not_isBelow_self hroot hbelow

/-- Below a normal directory, the texts without a further slash are those of what lies in it. -/
theorem IsNormal.isChild_iff {p dir : FullPath} (hp : p.IsNormal) (hdir : dir.IsNormal) :
    ((p.isBelow dir ∧ p.text ≠ dir.childPrefix) ∧ FileSystem.isChild dir p) ↔
      p.parent? = some dir := by
  obtain ⟨a, ha, rfl⟩ := isNormal_iff.mp hdir
  constructor
  · rintro ⟨⟨hbelow, htext⟩, hchild⟩
    obtain ⟨b, hb, rfl⟩ := isNormal_iff.mp hp
    obtain ⟨s, rest, rfl⟩ := exists_of_isBelow ha hb hbelow fun heq =>
      ne_of_isBelow hbelow htext (heq ▸ rfl)
    obtain rfl := (isChild_ofSegments hb).mp hchild
    exact parent?_ofSegments ha (hb s (by simp))
  · intro hparent
    obtain rfl | ⟨init, last, hinit, hlast, rfl, hinitParent⟩ := hp.cases
    · rw [parent?_root] at hparent
      cases hparent
    · obtain rfl : init = a :=
        ofSegments_injective hinit ha (Option.some.inj (hinitParent.symm.trans hparent))
      have hsegments : ∀ x ∈ init ++ [last], IsSegment x := by
        intro x hx
        obtain hx | hx := List.mem_append.mp hx
        · exact hinit x hx
        · rwa [List.mem_singleton.mp hx]
      refine ⟨⟨isBelow_parent? hparent, fun heq => ?_⟩, (isChild_ofSegments hsegments).mpr rfl⟩
      rw [text_eq_childPrefix_append hsegments] at heq
      simp [hlast.not_nil] at heq

/-- On the way from a directory to a path below it there is one that lies in the directory. -/
theorem IsNormal.exists_child {p dir : FullPath} (hp : p.IsNormal) (hdir : dir.IsNormal)
    (hbelow : p.isBelow dir) (hne : p ≠ dir) :
    ∃ q, q.parent? = some dir ∧ (q = p ∨ q ∈ p.ancestors) := by
  obtain ⟨b, hb, rfl⟩ := isNormal_iff.mp hp
  obtain ⟨a, ha, rfl⟩ := isNormal_iff.mp hdir
  obtain ⟨s, rest, rfl⟩ := exists_of_isBelow ha hb hbelow fun heq => hne (heq ▸ rfl)
  refine ⟨ofSegments (a ++ [s]), parent?_ofSegments ha (hb s (by simp)), ?_⟩
  cases rest with
  | nil => exact .inl rfl
  | cons x rest =>
    have hsplit : a ++ s :: x :: rest = (a ++ [s]) ++ x :: rest := by simp
    rw [hsplit] at hb ⊢
    exact .inr (ofSegments_mem_ancestors hb)

end FullPath

namespace FileSystem

open FullPath PathMap

variable {fs : FileSystem} {p dir : FullPath}

/-! ## What is listed -/

theorem mem_children_iff : p ∈ fs.children dir ↔
    fs.contains p ∧ (p.isBelow dir ∧ p.text ≠ dir.childPrefix) ∧ isChild dir p := by
  rw [children, List.mem_mergeSort, List.mem_filter, List.mem_append, mem_keys_below,
    mem_keys_below, contains_iff, isFile, isDir]
  tauto

namespace Sound

variable (h : fs.Sound)
include h

/-- A directory lists what lies directly in it. -/
theorem mem_children (hdir : dir.IsNormal) :
    p ∈ fs.children dir ↔ fs.contains p ∧ p.parent? = some dir := by
  rw [mem_children_iff]
  constructor
  · rintro ⟨hp, hchild⟩
    exact ⟨hp, ((h.normal p hp).isChild_iff hdir).mp hchild⟩
  · rintro ⟨hp, hparent⟩
    exact ⟨hp, ((h.normal p hp).isChild_iff hdir).mpr hparent⟩

/-- No path is listed twice, because no path is both a file and a directory. -/
theorem nodup_children (dir : FullPath) : (fs.children dir).Nodup := by
  refine (List.mergeSort_perm _ _).nodup_iff.mpr (List.Pairwise.filter _ ?_)
  refine List.nodup_append.mpr ⟨nodup_keys_below dir, nodup_keys_below dir, ?_⟩
  rintro p hfile _ hfolder rfl
  exact h.disjoint p (mem_keys_below.mp hfile).1 (mem_keys_below.mp hfolder).1

theorem children_sorted (dir : FullPath) : (fs.children dir).Pairwise (· < ·) := by
  have hordered : (fs.children dir).Pairwise fun p q => !(q < p : Bool) := by
    refine List.pairwise_mergeSort ?_ ?_ _
    · intro p q r hpq hqr
      simp only [Bool.not_eq_true', decide_eq_false_iff_not] at hpq hqr ⊢
      exact not_lt_trans hpq hqr
    · intro p q
      by_cases hlt : q < p
      · simp [lt_asymm hlt]
      · simp [hlt]
  refine (hordered.and (h.nodup_children dir)).imp ?_
  rintro p q ⟨hle, hne⟩
  have hnot : ¬ q < p := by simpa using hle
  exact lt_of_not_lt hnot hne.symm

/-- A directory that lists nothing has nothing below it. -/
theorem children_eq_nil_iff (hdir : dir.IsNormal) :
    fs.children dir = [] ↔ ¬ fs.isOccupied dir := by
  rw [isOccupied_iff, List.eq_nil_iff_forall_not_mem]
  constructor
  · rintro hnone ⟨p, hp, hbelow, htext⟩
    obtain ⟨q, hq, hway⟩ :=
      (h.normal p hp).exists_child hdir hbelow (ne_of_isBelow hbelow htext)
    refine hnone q ((h.mem_children hdir).mpr ⟨?_, hq⟩)
    obtain rfl | hway := hway
    · exact hp
    · exact contains_iff.mpr (.inr (h.isDir_of_mem_ancestors hp hway))
  · rintro hfree p hp
    obtain ⟨hp, hchild⟩ := mem_children_iff.mp hp
    exact hfree ⟨p, hp, hchild.1⟩

end Sound

theorem list_of_isDir (hdir : fs.isDir dir) : fs.list dir = .ok (fs.children dir) := if_pos hdir

/-- A directory is removed exactly if it is not the root and nothing lies below it. -/
theorem removeDir_succeeds_iff :
    (∃ fs', fs.removeDir dir = .ok fs') ↔ fs.isDir dir ∧ dir ≠ .root ∧ ¬ fs.isOccupied dir := by
  unfold removeDir
  by_cases hdir : fs.isDir dir
  · by_cases hroot : dir = .root
    · subst hroot
      simp [hdir]
    · by_cases hfree : fs.isOccupied dir
      · simp [hdir, hroot, hfree]
      · simp [hdir, hroot, hfree]
  · by_cases hfile : fs.isFile dir
    · simp [hdir, hfile]
    · simp [hdir, hfile]

/-- A directory is listed with what lies directly in it, each path once and in their order, and can
be removed exactly if it is not the root and its list is empty. -/
theorem Reached.list_exact (h : Reached fs) (dir : FullPath) :
    (fs.isDir dir → ∃ l, fs.list dir = .ok l ∧ l.Pairwise (· < ·) ∧
      ∀ p, p ∈ l ↔ (fs.isFile p ∨ fs.isDir p) ∧ p.parent? = some dir) ∧
    ((∃ fs', fs.removeDir dir = .ok fs') ↔
      fs.isDir dir ∧ dir ≠ .root ∧ fs.list dir = .ok []) := by
  have hs := h.sound
  have hnormal : fs.isDir dir → dir.IsNormal := fun hdir =>
    hs.normal dir (contains_iff.mpr (.inr hdir))
  constructor
  · intro hdir
    refine ⟨_, list_of_isDir hdir, hs.children_sorted dir, fun p => ?_⟩
    rw [hs.mem_children (hnormal hdir), contains_iff]
  · rw [removeDir_succeeds_iff]
    refine and_congr_right fun hdir => and_congr_right fun _ => ?_
    rw [list_of_isDir hdir, Except.ok.injEq, hs.children_eq_nil_iff (hnormal hdir)]

/-- A directory with a directory in it, and a file beside it whose text stands between theirs. -/
def besideDir : FileSystem :=
  (FileSystem.empty.withFile (.ofString "a/b/c") [] 0).withFile (.ofString "a-b") [] 0

/-- The list of `/a` has `/a/b`, but neither `/a-b` nor `/a/b/c`. -/
theorem Reached.list_exact_beside :
    Reached besideDir ∧ besideDir.isDir ⟨['/', 'a']⟩ ∧
    ∃ l, besideDir.list ⟨['/', 'a']⟩ = .ok l ∧ ⟨['/', 'a', '/', 'b']⟩ ∈ l ∧
      ⟨['/', 'a', '-', 'b']⟩ ∉ l ∧ ⟨['/', 'a', '/', 'b', '/', 'c']⟩ ∉ l := by
  have hbefore : Reached (FileSystem.empty.withFile (.ofString "a/b/c") [] 0) :=
    .withFile _ _ _ .empty
  have hreached : Reached besideDir := .withFile _ _ _ hbefore
  have hname : FullPath.ofString "a-b" = ⟨['/', 'a', '-', 'b']⟩ := by cbv
  have hway : (FullPath.ofString "a/b/c").ancestors =
      [⟨['/', 'a', '/', 'b']⟩, ⟨['/', 'a']⟩, .root] := by cbv
  have hroot : FullPath.ofString "a/b/c" ≠ .root := by
    intro heq
    rw [heq, ancestors_of_none parent?_root] at hway
    cases hway
  -- a directory on the way to the first file stays where nothing of it is below the second one
  have hstays : ∀ dir ∈ (FullPath.ofString "a/b/c").ancestors, dir ≠ ⟨['/', 'a', '-', 'b']⟩ →
      ⟨['/', 'a', '-', 'b']⟩ ∉ dir.ancestors → besideDir.isDir dir := by
    intro dir hdir hne hnot
    have hfirst := sound_empty.withFile_becomes (isNormal_ofText "a/b/c".toList) hroot [] 0
    have hsecond := hbefore.sound.withFile_becomes (isNormal_ofText "a-b".toList)
      (by rw [← FullPath.ofString, hname]; decide) [] 0
    rw [← FullPath.ofString, hname] at hsecond
    rw [besideDir, hname]
    exact (hsecond.dir dir).mpr (.inr ⟨(hfirst.dir dir).mpr (.inl hdir), hne, hnot⟩)
  have ha : besideDir.isDir ⟨['/', 'a']⟩ := by
    refine hstays _ (by simp [hway]) (by decide) ?_
    have : (FullPath.mk ['/', 'a']).ancestors = [.root] := by cbv
    rw [this]
    decide
  have hb : besideDir.isDir ⟨['/', 'a', '/', 'b']⟩ := by
    refine hstays _ (by simp [hway]) (by decide) ?_
    have : (FullPath.mk ['/', 'a', '/', 'b']).ancestors = [⟨['/', 'a']⟩, .root] := by cbv
    rw [this]
    decide
  obtain ⟨l, hl, -, hmem⟩ := (hreached.list_exact ⟨['/', 'a']⟩).1 ha
  exact ⟨hreached, ha, l, hl, (hmem _).mpr ⟨.inr hb, by decide⟩,
    fun h => absurd ((hmem _).mp h).2 (by decide), fun h => absurd ((hmem _).mp h).2 (by decide)⟩

end FileSystem

end Resumable
