import Resumable.FileSystem.Change
import Resumable.Proofs.FileSystem.Map
import Resumable.Proofs.FileSystem.Path

/-!
# What changes of file systems leave

Each change is described by the files and the directories that there are after it. What is moved
with a directory has the text of its path from the new place on, and stays in its own directory
(`parent?_relocated`).
-/

namespace Resumable.FileSystem

open FullPath PathMap

variable {fs : FileSystem} {p q : FullPath}

theorem contains_iff : fs.contains p ↔ fs.isFile p ∨ fs.isDir p := by
  simp only [contains, Bool.or_eq_true]

/-! ## Files and directories after a change -/

theorem isFile_makeAncestors : (fs.makeAncestors p).isFile q ↔
    fs.isFile q ∧ (q ∈ p.ancestors → fs.isDir q) := by
  simp only [isFile, makeAncestors, contains_foldl_erase, List.mem_filter]
  grind

theorem isDir_makeAncestors :
    (fs.makeAncestors p).isDir q ↔ q ∈ p.ancestors ∨ fs.isDir q := by
  simp only [isDir, makeAncestors, contains_foldl_insert, List.mem_filter]
  grind

theorem isFile_removeWithin : (fs.removeWithin p).isFile q ↔
    fs.isFile q ∧ q ≠ p ∧ ¬ (q.isBelow p ∧ q.text ≠ p.childPrefix) := contains_erase_below

theorem isDir_removeWithin : (fs.removeWithin p).isDir q ↔
    fs.isDir q ∧ q ≠ p ∧ ¬ (q.isBelow p ∧ q.text ≠ p.childPrefix) := contains_erase_below

theorem isFile_putFile {entry : FileEntry} :
    (fs.putFile p entry).isFile q ↔ q = p ∨ fs.isFile q := contains_insert entry

theorem isDir_putDir : (fs.putDir p).isDir q ↔ q = p ∨ fs.isDir q := contains_insert ()

theorem isFile_erase : ({ fs with entries := fs.entries.erase p } : FileSystem).isFile q ↔
    q ≠ p ∧ fs.isFile q := contains_erase

theorem isDir_erase : ({ fs with folders := fs.folders.erase p } : FileSystem).isDir q ↔
    q ≠ p ∧ fs.isDir q := contains_erase

theorem isFile_moveFile {source target : FullPath} (h : fs.isFile source) :
    (fs.moveFile source target).isFile q ↔ q = target ∨ (q ≠ source ∧ fs.isFile q) :=
  contains_move h

/-- Something lies below a directory that is occupied, and conversely. -/
theorem isOccupied_iff : fs.isOccupied p ↔
    ∃ q, fs.contains q ∧ q.isBelow p ∧ q.text ≠ p.childPrefix := by
  have hmem : ∀ {α : Type} {m : PathMap α}, (m.below p).isEmpty = false ↔
      ∃ q, m.contains q ∧ q.isBelow p ∧ q.text ≠ p.childPrefix := by
    intro α m
    rw [List.isEmpty_eq_false_iff_exists_mem]
    constructor
    · rintro ⟨⟨q, a⟩, hq⟩
      exact ⟨q, mem_keys_below.mp (List.mem_map_of_mem hq)⟩
    · rintro ⟨q, hq⟩
      obtain ⟨x, hx, -⟩ := List.mem_map.mp (mem_keys_below.mpr hq)
      exact ⟨x, hx⟩
  simp only [isOccupied, Bool.or_eq_true, Bool.not_eq_true', hmem, contains_iff, isFile, isDir]
  constructor
  · rintro (⟨q, hq, hb⟩ | ⟨q, hq, hb⟩)
    · exact ⟨q, .inl hq, hb⟩
    · exact ⟨q, .inr hq, hb⟩
  · rintro ⟨q, hq | hq, hb⟩
    · exact .inl ⟨q, hq, hb⟩
    · exact .inr ⟨q, hq, hb⟩

/-! ## Renaming -/

/-- When a path is renamed, and what becomes of the file system. -/
theorem rename_eq_ok_iff {fs' : FileSystem} {source target : FullPath} :
    fs.rename source target = .ok fs' ↔ fs.contains source ∧
    ((source = target ∧ fs = fs') ∨
      (source ≠ target ∧ source ≠ .root ∧ ¬ target.isBelow source ∧ ¬ fs.isBlocked target ∧
        (∃ dir, target.parent? = some dir ∧ fs.isDir dir) ∧
        ((fs.isDir source ∧ ¬ fs.isFile target ∧ ¬ (fs.isDir target ∧ fs.isOccupied target) ∧
            fs.moveDir source target = fs') ∨
          (¬ fs.isDir source ∧ ¬ fs.isDir target ∧ fs.moveFile source target = fs')))) := by
  have hgone : (!fs.isDir source && !fs.isFile source) = !fs.contains source := by
    rw [contains, Bool.not_or, Bool.and_comm]
  rw [← Option.any_eq_true, rename, hgone]
  by_cases hexists : fs.contains source
  · by_cases heq : source = target
    · subst heq
      simp [hexists]
    by_cases hroot : source = .root
    · rw [hroot] at hexists heq ⊢
      simp [hexists, heq]
    by_cases hbelow : target.isBelow source
    · simp [hexists, heq, hroot, hbelow]
    by_cases hway : fs.isBlocked target
    · simp [hexists, heq, hroot, hbelow, hway]
    by_cases hup : target.parent?.any fs.isDir
    · cases fs.isDir source <;> cases fs.isFile target <;> cases fs.isDir target <;>
        cases fs.isOccupied target <;> simp [hexists, heq, hroot, hbelow, hway, hup]
    · simp [hexists, heq, hroot, hbelow, hway, hup]
  · simp [hexists]
/-! ## Moving a directory -/

section
variable {source target a : FullPath} (hs : source ≠ .root) (ht : target ≠ .root)
include hs

theorem text_relocated (target : FullPath) (ha : a.isBelow source) :
    ∃ rest, a.text = source.text ++ '/' :: rest ∧
      relocated source target a = ⟨target.text ++ '/' :: rest⟩ := by
  obtain ⟨rest, hrest⟩ := (isBelow_iff hs).mp ha
  exact ⟨rest, hrest, by simp [relocated, hrest]⟩

theorem relocated_injective {b : FullPath} (ha : a.isBelow source) (hb : b.isBelow source)
    (h : relocated source target a = relocated source target b) : a = b := by
  obtain ⟨r, har, hr⟩ := text_relocated hs target ha
  obtain ⟨t, hbt, ht⟩ := text_relocated hs target hb
  rw [hr, ht] at h
  have hrt := List.append_cancel_left (congrArg FullPath.text h)
  exact congrArg FullPath.mk (by rw [har, hbt, hrt])

include ht

theorem relocated_isBelow (ha : a.isBelow source) :
    (relocated source target a).isBelow target := by
  obtain ⟨rest, -, hrest⟩ := text_relocated hs target ha
  exact (isBelow_iff ht).mpr ⟨rest, by rw [hrest]⟩

/-- Where a directory is moved to a place apart from it, nothing of it is moved into it. -/
theorem not_isBelow_relocated (hne : source ≠ target) (hbelow : ¬ target.isBelow source)
    (habove : ¬ source.isBelow target) (ha : a.isBelow source) :
    ¬ (relocated source target a).isBelow source := by
  intro h
  obtain h | h | h := isBelow_or_isBelow hs ht h (relocated_isBelow hs ht ha)
  · exact hne h
  · exact habove h
  · exact hbelow h

end

theorem relocated_ofSegments {s t r : List (List Char)} (hs : s ≠ []) (ht : t ≠ []) :
    relocated (ofSegments s) (ofSegments t) (ofSegments (s ++ r)) = ofSegments (t ++ r) := by
  have htr : ofSegments (t ++ r) = ⟨(t ++ r).flatMap ('/' :: ·)⟩ :=
    congrArg FullPath.mk (text_ofSegments (by simp [ht]))
  rw [htr, relocated, text_ofSegments hs, text_ofSegments ht, text_ofSegments (by simp [hs])]
  simp

/-- A path that is moved with a directory stays in its own directory. -/
theorem parent?_relocated {source target a dir : FullPath} (hsource : source.IsNormal)
    (hs : source ≠ .root) (htarget : target.IsNormal) (ht : target ≠ .root) (ha : a.IsNormal)
    (hbelow : a.isBelow source) (hdir : a.parent? = some dir) :
    (relocated source target a).IsNormal ∧
      (relocated source target a).parent? = some (relocated source target dir) ∧
      (dir = source ∨ dir.isBelow source) := by
  obtain ⟨s, hss, rfl⟩ := isNormal_iff.mp hsource
  obtain ⟨t, hts, rfl⟩ := isNormal_iff.mp htarget
  obtain ⟨b, hbs, rfl⟩ := isNormal_iff.mp ha
  have hsne : s ≠ [] := fun h => hs (by rw [h]; rfl)
  have htne : t ≠ [] := fun h => ht (by rw [h]; rfl)
  have hbne : b ≠ s := by
    rintro rfl
    exact not_isBelow_self hs hbelow
  obtain ⟨x, rest, rfl⟩ := exists_of_isBelow hss hbs hbelow hbne
  obtain ⟨init, last, hrest⟩ := (List.eq_nil_or_concat' (x :: rest)).resolve_left (by simp)
  rw [hrest] at hbs hdir ⊢
  have hinit : ∀ y ∈ s ++ init, IsSegment y := fun y hy => hbs y (by
    simp only [List.mem_append, List.mem_singleton] at hy ⊢; grind)
  have hlast : IsSegment last := hbs last (by simp)
  have htinit : ∀ y ∈ t ++ init, IsSegment y := fun y hy => by
    obtain hy | hy := List.mem_append.mp hy
    · exact hts y hy
    · exact hinit y (by simp [hy])
  rw [← List.append_assoc, parent?_ofSegments hinit hlast] at hdir
  cases hdir
  rw [relocated_ofSegments hsne htne, relocated_ofSegments hsne htne, ← List.append_assoc]
  refine ⟨isNormal_ofSegments ?_, parent?_ofSegments htinit hlast, ?_⟩
  · intro y hy
    obtain hy | hy := List.mem_append.mp hy
    · exact htinit y hy
    · rwa [List.mem_singleton.mp hy]
  · cases init with
    | nil => exact .inl (by rw [List.append_nil])
    | cons y init => exact .inr (isBelow_of_mem_ancestors (ofSegments_mem_ancestors hinit))

end Resumable.FileSystem
