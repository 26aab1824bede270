import Resumable.Proofs.FileSystem.Call
import Resumable.Proofs.FileSystem.Change

/-!
# The invariant of file systems

A file system is sound if its files and directories form one tree of normal paths: the root is a
directory, no path is both a file and a directory, and everything but the root lies in a directory.
The empty file system is sound, and every change keeps a file system sound (`Reached.sound`).
-/

namespace Resumable.FileSystem

open FullPath PathMap

variable {fs : FileSystem} {p q : FullPath}

/-! ## Sound file systems -/

/-- The files and directories are a tree of normal paths. -/
structure Sound (fs : FileSystem) : Prop where
  root : fs.isDir .root
  normal : ∀ p, fs.contains p → p.IsNormal
  disjoint : ∀ p, fs.isFile p → ¬ fs.isDir p
  parent : ∀ p, fs.contains p → p ≠ .root → ∃ dir, p.parent? = some dir ∧ fs.isDir dir

theorem sound_empty : empty.Sound := by
  have hdir : ∀ p, empty.isDir p ↔ p = .root := fun p => by
    simp [empty, isDir, PathMap.contains]
  have hfile : ∀ p, ¬ empty.isFile p := fun p => by simp [empty, isFile, PathMap.contains]
  constructor
  · exact (hdir _).mpr rfl
  · intro p hp
    obtain hp | hp := contains_iff.mp hp
    · exact absurd hp (hfile p)
    · rw [(hdir p).mp hp]; exact isNormal_root
  · exact fun p hp => absurd hp (hfile p)
  · intro p hp hroot
    obtain hp | hp := contains_iff.mp hp
    · exact absurd hp (hfile p)
    · exact absurd ((hdir p).mp hp) hroot

namespace Sound

theorem of_eq {fs' : FileSystem} (h : fs.Sound) (he : fs'.entries = fs.entries)
    (hf : fs'.folders = fs.folders) : fs'.Sound := by
  obtain ⟨entries, folders, _, _⟩ := fs
  obtain ⟨_, _, _, _⟩ := fs'
  subst he hf
  exact ⟨h.root, h.normal, h.disjoint, h.parent⟩

/-- Everything on the way to a file or directory is a directory. -/
theorem isDir_of_mem_ancestors (h : fs.Sound) {a : FullPath} (hp : fs.contains p)
    (ha : a ∈ p.ancestors) : fs.isDir a := by
  have hup : ∀ q dir, fs.contains q → q.parent? = some dir → fs.isDir dir := by
    intro q dir hq hdir
    have hroot : q ≠ .root := by
      rintro rfl
      cases hdir
    obtain ⟨d, hd, hisDir⟩ := h.parent q hq hroot
    rw [hdir] at hd
    cases hd
    exact hisDir
  exact forall_ancestors (motive := fun a => fs.isDir a) (fun dir => hup p dir hp)
    (fun q dir hq => hup q dir (contains_iff.mpr (.inr hq))) a ha

theorem isDir_of_isBelow (h : fs.Sound) {dir : FullPath} (hp : fs.contains p)
    (hdir : dir.IsNormal) (hbelow : p.isBelow dir) (hne : p ≠ dir) : fs.isDir dir :=
  h.isDir_of_mem_ancestors hp (mem_ancestors_of_isBelow (h.normal p hp) hdir hbelow hne)

theorem makeAncestors (h : fs.Sound) (hp : p.IsNormal) : (fs.makeAncestors p).Sound := by
  constructor
  · exact isDir_makeAncestors.mpr (.inr h.root)
  · intro q hq
    rw [contains_iff, isFile_makeAncestors, isDir_makeAncestors] at hq
    obtain ⟨hq, -⟩ | hq | hq := hq
    · exact h.normal q (contains_iff.mpr (.inl hq))
    · exact hp.of_mem_ancestors hq
    · exact h.normal q (contains_iff.mpr (.inr hq))
  · intro q hfile hdir
    rw [isFile_makeAncestors] at hfile
    rw [isDir_makeAncestors] at hdir
    obtain hdir | hdir := hdir
    · exact h.disjoint q hfile.1 (hfile.2 hdir)
    · exact h.disjoint q hfile.1 hdir
  · intro q hq hroot
    have hold : fs.contains q → ∃ dir, q.parent? = some dir ∧
        (fs.makeAncestors p).isDir dir := by
      intro hq
      obtain ⟨dir, hdir, hisDir⟩ := h.parent q hq hroot
      exact ⟨dir, hdir, isDir_makeAncestors.mpr (.inr hisDir)⟩
    rw [contains_iff, isFile_makeAncestors, isDir_makeAncestors] at hq
    obtain ⟨hq, -⟩ | hq | hq := hq
    · exact hold (contains_iff.mpr (.inl hq))
    · obtain ⟨dir, hdir⟩ := (hp.of_mem_ancestors hq).exists_parent? hroot
      exact ⟨dir, hdir, isDir_makeAncestors.mpr (.inl (mem_ancestors_of_parent? hq hdir))⟩
    · exact hold (contains_iff.mpr (.inr hq))

/-- A file in a directory, at a path where no directory is. -/
theorem putFile (h : fs.Sound) (hp : p.IsNormal) (hdir : ¬ fs.isDir p)
    (hparent : ∀ dir, p.parent? = some dir → fs.isDir dir) (entry : FileEntry) :
    (fs.putFile p entry).Sound := by
  have hroot : p ≠ .root := by
    rintro rfl
    exact hdir h.root
  constructor
  · exact h.root
  · intro q hq
    rw [contains_iff, isFile_putFile] at hq
    obtain (rfl | hq) | hq := hq
    · exact hp
    · exact h.normal q (contains_iff.mpr (.inl hq))
    · exact h.normal q (contains_iff.mpr (.inr hq))
  · intro q hq
    obtain rfl | hq := isFile_putFile.mp hq
    · exact hdir
    · exact h.disjoint q hq
  · intro q hq hqroot
    rw [contains_iff, isFile_putFile] at hq
    obtain (rfl | hq) | hq := hq
    · obtain ⟨dir, hd⟩ := hp.exists_parent? hroot
      exact ⟨dir, hd, hparent dir hd⟩
    · exact h.parent q (contains_iff.mpr (.inl hq)) hqroot
    · exact h.parent q (contains_iff.mpr (.inr hq)) hqroot

/-- A directory in a directory, at a path where no file is. -/
theorem putDir (h : fs.Sound) (hp : p.IsNormal) (hfile : ¬ fs.isFile p)
    (hparent : ∀ dir, p.parent? = some dir → fs.isDir dir) : (fs.putDir p).Sound := by
  constructor
  · exact isDir_putDir.mpr (.inr h.root)
  · intro q hq
    rw [contains_iff, isDir_putDir] at hq
    obtain hq | rfl | hq := hq
    · exact h.normal q (contains_iff.mpr (.inl hq))
    · exact hp
    · exact h.normal q (contains_iff.mpr (.inr hq))
  · intro q hq hdir
    obtain rfl | hdir := isDir_putDir.mp hdir
    · exact hfile hq
    · exact h.disjoint q hq hdir
  · intro q hq hroot
    have hold : fs.contains q → ∃ dir, q.parent? = some dir ∧ (fs.putDir p).isDir dir := by
      intro hq
      obtain ⟨dir, hd, hisDir⟩ := h.parent q hq hroot
      exact ⟨dir, hd, isDir_putDir.mpr (.inr hisDir)⟩
    rw [contains_iff, isDir_putDir] at hq
    obtain hq | rfl | hq := hq
    · exact hold (contains_iff.mpr (.inl hq))
    · obtain ⟨dir, hd⟩ := hp.exists_parent? hroot
      exact ⟨dir, hd, isDir_putDir.mpr (.inr (hparent dir hd))⟩
    · exact hold (contains_iff.mpr (.inr hq))

theorem eraseFile (h : fs.Sound) (p : FullPath) :
    ({ fs with entries := fs.entries.erase p } : FileSystem).Sound := by
  have hold : ∀ q, ({ fs with entries := fs.entries.erase p } : FileSystem).contains q →
      fs.contains q := by
    intro q hq
    rw [contains_iff, isFile_erase] at hq
    exact contains_iff.mpr (hq.imp_left (·.2))
  constructor
  · exact h.root
  · exact fun q hq => h.normal q (hold q hq)
  · exact fun q hq => h.disjoint q (isFile_erase.mp hq).2
  · exact fun q hq => h.parent q (hold q hq)

theorem eraseDir (h : fs.Sound) (hroot : p ≠ .root) (hp : p.IsNormal)
    (hempty : ¬ fs.isOccupied p) :
    ({ fs with folders := fs.folders.erase p } : FileSystem).Sound := by
  have hold : ∀ q, ({ fs with folders := fs.folders.erase p } : FileSystem).contains q →
      fs.contains q := by
    intro q hq
    rw [contains_iff, isDir_erase] at hq
    exact contains_iff.mpr (hq.imp_right (·.2))
  constructor
  · exact isDir_erase.mpr ⟨hroot.symm, h.root⟩
  · exact fun q hq => h.normal q (hold q hq)
  · exact fun q hq hdir => h.disjoint q hq (isDir_erase.mp hdir).2
  · intro q hq hqroot
    obtain ⟨dir, hdir, hisDir⟩ := h.parent q (hold q hq) hqroot
    refine ⟨dir, hdir, isDir_erase.mpr ⟨?_, hisDir⟩⟩
    rintro rfl
    exact hempty (isOccupied_iff.mpr ⟨q, hold q hq, isBelow_parent? hdir,
      (h.normal q (hold q hq)).text_ne_childPrefix hp hroot⟩)

theorem removeWithin (h : fs.Sound) (hp : p.IsNormal) (hroot : p ≠ .root) :
    (fs.removeWithin p).Sound := by
  have hold : ∀ q, (fs.removeWithin p).contains q →
      fs.contains q ∧ q ≠ p ∧ ¬ q.isBelow p := by
    intro q hq
    rw [contains_iff, isFile_removeWithin, isDir_removeWithin, ← or_and_right,
      ← contains_iff] at hq
    refine ⟨hq.1, hq.2.1, fun hbelow => hq.2.2 ⟨hbelow, ?_⟩⟩
    exact (h.normal q hq.1).text_ne_childPrefix hp hroot
  constructor
  · refine isDir_removeWithin.mpr ⟨h.root, hroot.symm, fun hbelow => ?_⟩
    exact absurd (mem_ancestors_of_isBelow isNormal_root hp hbelow.1 hroot.symm)
      (by simp [ancestors_of_none parent?_root])
  · exact fun q hq => h.normal q (hold q hq).1
  · exact fun q hq hdir => h.disjoint q (isFile_removeWithin.mp hq).1 (isDir_removeWithin.mp hdir).1
  · intro q hq hqroot
    obtain ⟨hq, -, hbelow⟩ := hold q hq
    obtain ⟨dir, hdir, hisDir⟩ := h.parent q hq hqroot
    refine ⟨dir, hdir, isDir_removeWithin.mpr ⟨hisDir, ?_, ?_⟩⟩
    · rintro rfl
      exact hbelow (isBelow_parent? hdir)
    · exact fun hd => hbelow (isBelow_trans (isBelow_parent? hdir) hd.1)

theorem moveFile (h : fs.Sound) {source target : FullPath} (hsource : fs.isFile source)
    (htarget : target.IsNormal) (hdir : ¬ fs.isDir target)
    (hparent : ∀ dir, target.parent? = some dir → fs.isDir dir) :
    (fs.moveFile source target).Sound := by
  have hroot : target ≠ .root := by
    rintro rfl
    exact hdir h.root
  have hold : ∀ q, (fs.moveFile source target).contains q → q = target ∨ fs.contains q := by
    intro q hq
    rw [contains_iff, isFile_moveFile hsource] at hq
    obtain (hq | hq) | hq := hq
    · exact .inl hq
    · exact .inr (contains_iff.mpr (.inl hq.2))
    · exact .inr (contains_iff.mpr (.inr hq))
  constructor
  · exact h.root
  · intro q hq
    obtain rfl | hq := hold q hq
    · exact htarget
    · exact h.normal q hq
  · intro q hq
    obtain rfl | hq := (isFile_moveFile hsource).mp hq
    · exact hdir
    · exact h.disjoint q hq.2
  · intro q hq hqroot
    obtain rfl | hq := hold q hq
    · obtain ⟨dir, hd⟩ := htarget.exists_parent? hroot
      exact ⟨dir, hd, hparent dir hd⟩
    · exact h.parent q hq hqroot

section
variable {source target : FullPath} (h : fs.Sound) (hs : source ≠ .root) (ht : target ≠ .root)
  (hsource : source.IsNormal) (htarget : target.IsNormal) (hne : source ≠ target)
  (hbelow : ¬ target.isBelow source) (habove : ¬ source.isBelow target)
include h hs ht hsource hne hbelow habove

/-- The files and the directories that a directory takes with it are moved one after another: each
ends at its new place, and nothing is left below the old one. -/
theorem get?_moves {α : Type} {m : PathMap α} (hm : ∀ q, m.contains q → fs.contains q)
    {f : PathMap α → FullPath → PathMap α} (hf : ∀ m a, m.contains a → ∀ p, (f m a).get? p =
      if p = relocated source target a then m.get? a else if p = a then none else m.get? p)
    {n : PathMap α} (hn : ∀ q, q ≠ source → n.get? q = m.get? q) :
    (∀ a, m.contains a → a.isBelow source →
      (((m.below source).map (·.1)).foldl f n).get? (relocated source target a) = m.get? a) ∧
    ∀ q, (∀ a, m.contains a → a.isBelow source → relocated source target a ≠ q) →
      (((m.below source).map (·.1)).foldl f n).get? q =
        if q.isBelow source then none else n.get? q := by
  have hmem : ∀ a, a ∈ (m.below source).map (·.1) ↔ m.contains a ∧ a.isBelow source := by
    intro a
    rw [mem_keys_below, and_congr_right_iff, and_iff_left_iff_imp]
    exact fun ha _ => (h.normal a (hm a ha)).text_ne_childPrefix hsource hs
  have hold : ∀ a, a.isBelow source → n.get? a = m.get? a := fun a hb => hn a fun heq => by
    rw [heq] at hb
    exact not_isBelow_self hs hb
  obtain ⟨hmoved, hother⟩ := get?_foldl_moves (m := n) hf (nodup_keys_below source)
    (l := (m.below source).map (·.1))
    (fun a ha => by
      obtain ⟨ha, hb⟩ := (hmem a).mp ha
      rw [PathMap.contains_iff, hold a hb]
      exact PathMap.contains_iff.mp ha)
    (fun a ha hmoved =>
      not_isBelow_relocated hs ht hne hbelow habove ((hmem a).mp ha).2 ((hmem _).mp hmoved).2)
    fun a ha b hb => relocated_injective hs ((hmem a).mp ha).2 ((hmem b).mp hb).2
  constructor
  · exact fun a ha hb => (hmoved a ((hmem a).mpr ⟨ha, hb⟩)).trans (hold a hb)
  · intro q hq
    rw [hother q fun a ha => hq a ((hmem a).mp ha).1 ((hmem a).mp ha).2]
    by_cases hb : q.isBelow source
    · by_cases hc : m.contains q
      · simp [(hmem q).mpr ⟨hc, hb⟩, hb]
      · have hnone : m.get? q = none := Option.not_isSome_iff_eq_none.mp hc
        simp [hold q hb, hnone]
    · have hnot : q ∉ (m.below source).map (·.1) := fun hq => hb ((hmem q).mp hq).2
      simp [hnot, hb]

theorem contains_moves {α : Type} {m : PathMap α} (hm : ∀ q, m.contains q → fs.contains q)
    {f : PathMap α → FullPath → PathMap α} (hf : ∀ m a, m.contains a → ∀ p, (f m a).get? p =
      if p = relocated source target a then m.get? a else if p = a then none else m.get? p)
    {n : PathMap α} (hn : ∀ q, q ≠ source → n.get? q = m.get? q) :
    (((m.below source).map (·.1)).foldl f n).contains q ↔
      (∃ a, m.contains a ∧ a.isBelow source ∧ q = relocated source target a) ∨
        (n.contains q ∧ ¬ q.isBelow source) := by
  obtain ⟨hmoved, hother⟩ := h.get?_moves hs ht hsource hne hbelow habove hm hf hn
  by_cases hq : ∃ a, m.contains a ∧ a.isBelow source ∧ q = relocated source target a
  · obtain ⟨a, ha, hb, rfl⟩ := hq
    rw [PathMap.contains_iff, hmoved a ha hb]
    exact iff_of_true (PathMap.contains_iff.mp ha) (.inl ⟨a, ha, hb, rfl⟩)
  · rw [PathMap.contains_iff, hother q fun a ha hb heq => hq ⟨a, ha, hb, heq.symm⟩, or_iff_right hq,
      PathMap.contains_iff]
    by_cases hb : q.isBelow source <;> simp [hb]

theorem isFile_moveDir : (fs.moveDir source target).isFile q ↔
    (∃ a, fs.isFile a ∧ a.isBelow source ∧ q = relocated source target a) ∨
      (fs.isFile q ∧ ¬ q.isBelow source) :=
  h.contains_moves hs ht hsource hne hbelow habove (fun _ hq => contains_iff.mpr (.inl hq))
    (fun _ _ ha _ => get?_move ha) fun _ _ => rfl

theorem isDir_moveDir : (fs.moveDir source target).isDir q ↔ q = target ∨
    (∃ a, fs.isDir a ∧ a.isBelow source ∧ q = relocated source target a) ∨
      ((q ≠ source ∧ fs.isDir q) ∧ ¬ q.isBelow source) := by
  have hmoves := h.contains_moves (q := q) hs ht hsource hne hbelow habove
    (m := fs.folders) (n := fs.folders.erase source)
    (f := fun m old => (m.erase old).insert (relocated source target old) ())
    (fun _ hq => contains_iff.mpr (.inr hq))
    (fun m a ha p => by
      obtain ⟨u, hu⟩ := PathMap.contains_iff.mp ha
      simp [hu])
    fun q hq => by simp [hq]
  rw [isDir, moveDir, contains_insert, hmoves, contains_erase]
  rfl

include htarget

/-- A directory that takes the place of nothing, or of an empty directory. -/
theorem moveDir (hdir : fs.isDir source) (hfile : ¬ fs.isFile target)
    (hempty : ∀ q, fs.contains q → ¬ q.isBelow target)
    (hparent : ∀ dir, target.parent? = some dir → fs.isDir dir) :
    (fs.moveDir source target).Sound := by
  have hFile := fun q => h.isFile_moveDir (q := q) hs ht hsource hne hbelow habove
  have hDir := fun q => h.isDir_moveDir (q := q) hs ht hsource hne hbelow habove
  have hstays : ∀ q, fs.isDir q → q ≠ source → ¬ q.isBelow source →
      (fs.moveDir source target).isDir q :=
    fun q hq hqs hb => (hDir q).mpr (.inr (.inr ⟨⟨hqs, hq⟩, hb⟩))
  have hold : ∀ q, (fs.moveDir source target).contains q → q = target ∨
      (∃ a, fs.contains a ∧ a.isBelow source ∧ q = relocated source target a) ∨
        (fs.contains q ∧ q ≠ source ∧ ¬ q.isBelow source) := by
    intro q hq
    simp only [contains_iff, hFile, hDir] at hq ⊢
    obtain (⟨a, ha, hb⟩ | ⟨hq, hb⟩) | rfl | ⟨a, ha, hb⟩ | ⟨hq, hb⟩ := hq
    · exact .inr (.inl ⟨a, .inl ha, hb⟩)
    · refine .inr (.inr ⟨.inl hq, ?_, hb⟩)
      rintro rfl
      exact h.disjoint _ hq hdir
    · exact .inl rfl
    · exact .inr (.inl ⟨a, .inr ha, hb⟩)
    · exact .inr (.inr ⟨.inr hq.2, hq.1, hb⟩)
  have hrelocated : ∀ a, fs.contains a → a.isBelow source →
      (relocated source target a).IsNormal ∧ ∃ dir,
        (relocated source target a).parent? = some dir ∧
          (fs.moveDir source target).isDir dir := by
    intro a ha hb
    have haroot : a ≠ .root := by
      rintro rfl
      have := mem_ancestors_of_isBelow isNormal_root hsource hb hs.symm
      simp [ancestors_of_none parent?_root] at this
    obtain ⟨dir, hd, hisDir⟩ := h.parent a ha haroot
    obtain ⟨hnormal, hparent', hcases⟩ :=
      parent?_relocated hsource hs htarget ht (h.normal a ha) hb hd
    refine ⟨hnormal, _, hparent', (hDir _).mpr ?_⟩
    obtain rfl | hdb := hcases
    · exact .inl (by simp [relocated])
    · exact .inr (.inl ⟨dir, hisDir, hdb, rfl⟩)
  constructor
  · refine hstays _ h.root hs.symm fun hb => ?_
    have := mem_ancestors_of_isBelow isNormal_root hsource hb hs.symm
    simp [ancestors_of_none parent?_root] at this
  · intro q hq
    obtain rfl | ⟨a, ha, hb, rfl⟩ | ⟨hq, -⟩ := hold q hq
    · exact htarget
    · exact (hrelocated a ha hb).1
    · exact h.normal q hq
  · intro q hqf hqd
    obtain ⟨a, ha, hab, rfl⟩ | ⟨hf, -⟩ := (hFile q).mp hqf
    · have hin := relocated_isBelow hs ht hab
      obtain heq | ⟨b, hb, hbb, heq⟩ | ⟨⟨-, hd⟩, -⟩ := (hDir _).mp hqd
      · exact not_isBelow_self ht (by rwa [heq] at hin)
      · rw [relocated_injective hs hab hbb heq] at ha
        exact h.disjoint b ha hb
      · exact hempty _ (contains_iff.mpr (.inr hd)) hin
    · obtain rfl | ⟨b, hb, hbb, rfl⟩ | ⟨⟨-, hd⟩, -⟩ := (hDir q).mp hqd
      · exact hfile hf
      · exact hempty _ (contains_iff.mpr (.inl hf)) (relocated_isBelow hs ht hbb)
      · exact h.disjoint q hf hd
  · intro q hq hroot
    obtain rfl | ⟨a, ha, hb, rfl⟩ | ⟨hq, hqs, hqb⟩ := hold q hq
    · obtain ⟨dir, hd⟩ := htarget.exists_parent? hroot
      refine ⟨dir, hd, hstays dir (hparent dir hd) ?_ ?_⟩
      · rintro rfl
        exact hbelow (isBelow_parent? hd)
      · exact fun hdb => hbelow (isBelow_trans (isBelow_parent? hd) hdb)
    · exact (hrelocated a ha hb).2
    · obtain ⟨dir, hd, hisDir⟩ := h.parent q hq hroot
      refine ⟨dir, hd, hstays dir hisDir ?_ ?_⟩
      · rintro rfl
        exact hqb (isBelow_parent? hd)
      · exact fun hdb => hqb (isBelow_trans (isBelow_parent? hd) hdb)

end

/-! ## Every change keeps a file system sound -/

theorem withFile (h : fs.Sound) (hp : p.IsNormal) (content : List UInt8) (mode : Nat) :
    (fs.withFile p content mode).Sound := by
  unfold FileSystem.withFile
  split
  · exact h
  · rename_i hroot
    have hremoved := h.removeWithin hp (by simpa using hroot)
    refine (hremoved.makeAncestors hp).putFile hp ?_ ?_ _
    · rw [isDir_makeAncestors, isDir_removeWithin]
      exact fun hdir => hdir.elim (not_mem_ancestors_self p) fun hdir => hdir.2.1 rfl
    · intro dir hdir
      exact isDir_makeAncestors.mpr (.inl (mem_ancestors.mpr ⟨dir, hdir, .inl rfl⟩))

theorem withDir (h : fs.Sound) (hp : p.IsNormal) : (fs.withDir p).Sound := by
  refine ((h.eraseFile p).makeAncestors hp).putDir hp ?_ ?_
  · rw [isFile_makeAncestors, isFile_erase]
    exact fun hfile => hfile.1.1 rfl
  · intro dir hdir
    exact isDir_makeAncestors.mpr (.inl (mem_ancestors.mpr ⟨dir, hdir, .inl rfl⟩))

variable {fs' : FileSystem}

theorem write (h : fs.Sound) (hp : p.IsNormal) {content : List UInt8}
    (hfs : fs.write p content = .ok fs') : fs'.Sound := by
  unfold FileSystem.write at hfs
  split at hfs
  · cases hfs
  · rename_i hdir
    split at hfs
    · cases hfs
    · cases hfs
      refine (h.makeAncestors hp).putFile hp ?_ ?_ _
      · rw [isDir_makeAncestors]
        exact fun hd => hd.elim (not_mem_ancestors_self p) hdir
      · intro dir hd
        exact isDir_makeAncestors.mpr (.inl (mem_ancestors.mpr ⟨dir, hd, .inl rfl⟩))

theorem createDir (h : fs.Sound) (hp : p.IsNormal) {parents mayExist : Bool}
    (hfs : fs.createDir p parents mayExist = .ok fs') : fs'.Sound := by
  unfold FileSystem.createDir at hfs
  split at hfs
  · split at hfs <;> cases hfs
    exact h
  · split at hfs
    · cases hfs
    · rename_i hfile
      split at hfs
      · cases hfs
      · split at hfs
        · cases hfs
        · cases hfs
          refine (h.makeAncestors hp).putDir hp ?_ ?_
          · rw [isFile_makeAncestors]
            exact fun hf => hfile hf.1
          · intro dir hd
            exact isDir_makeAncestors.mpr (.inl (mem_ancestors.mpr ⟨dir, hd, .inl rfl⟩))

theorem removeFile (h : fs.Sound) (hfs : fs.removeFile p = .ok fs') : fs'.Sound := by
  unfold FileSystem.removeFile at hfs
  split at hfs
  · cases hfs
  · split at hfs <;> cases hfs
    exact h.eraseFile p

theorem removeDir (h : fs.Sound) (hp : p.IsNormal) (hfs : fs.removeDir p = .ok fs') :
    fs'.Sound := by
  unfold FileSystem.removeDir at hfs
  split at hfs
  · split at hfs <;> cases hfs
  · split at hfs
    · cases hfs
    · rename_i hroot
      split at hfs
      · cases hfs
      · rename_i hempty
        cases hfs
        exact h.eraseDir (by simpa using hroot) hp hempty

/-- Nothing lies below a path that is no directory, or one with nothing below it. -/
theorem not_isBelow_of_free (h : fs.Sound) {target : FullPath} (htarget : target.IsNormal)
    (ht : target ≠ .root) (hfree : ¬ (fs.isDir target ∧ fs.isOccupied target)) :
    ∀ q, fs.contains q → ¬ q.isBelow target := by
  intro q hq hb
  have hqne : q ≠ target := by
    rintro rfl
    exact not_isBelow_self ht hb
  exact hfree ⟨h.isDir_of_isBelow hq htarget hb hqne,
    isOccupied_iff.mpr ⟨q, hq, hb, (h.normal q hq).text_ne_childPrefix htarget ht⟩⟩

theorem rename (h : fs.Sound) {source target : FullPath} (hsource : source.IsNormal)
    (htarget : target.IsNormal) (hfs : fs.rename source target = .ok fs') : fs'.Sound := by
  obtain ⟨hexists, ⟨-, rfl⟩ | ⟨hne, hs, hbelow, -, ⟨up, hup, hupDir⟩, hmove⟩⟩ :=
    rename_eq_ok_iff.mp hfs
  · exact h
  have hparent : ∀ dir, target.parent? = some dir → fs.isDir dir := by
    intro dir hd
    rw [hup] at hd
    cases hd
    exact hupDir
  have ht : target ≠ .root := by
    rintro rfl
    simp [parent?_root] at hup
  obtain ⟨hdir, hfile, hfree, rfl⟩ | ⟨hdir, htdir, rfl⟩ := hmove
  · have hempty := h.not_isBelow_of_free htarget ht hfree
    exact h.moveDir hs ht hsource htarget hne hbelow (hempty source hexists) hdir hfile hempty
      hparent
  · exact h.moveFile ((contains_iff.mp hexists).resolve_right hdir) htarget htdir hparent

end Sound

/-! ## The file systems that there can be -/

theorem Sound.changes {fs' : FileSystem} (h : fs.Sound) (hfs : fs.Changes fs') : fs'.Sound := by
  have hnormal : ∀ s : String, (FullPath.ofString s).IsNormal := fun s => isNormal_ofText s.toList
  cases hfs with
  | write path content hwrite => exact h.write (hnormal path) hwrite
  | createDir path parents mayExist hcreate => exact h.createDir (hnormal path) hcreate
  | removeFile path hremove => exact h.removeFile hremove
  | removeDir path hremove => exact h.removeDir (hnormal path) hremove
  | rename source target hrename => exact h.rename (hnormal source) (hnormal target) hrename

/-- The file systems that building, operations and the calls of programs lead to, with any texts
for paths. -/
inductive Reached : FileSystem → Prop
  | empty : Reached empty
  | withFile {fs : FileSystem} (path : String) (content : List UInt8) (mode : Nat) :
    Reached fs → Reached (fs.withFile (.ofString path) content mode)
  | withDir {fs : FileSystem} (path : String) : Reached fs → Reached (fs.withDir (.ofString path))
  | withVariable {fs : FileSystem} (name value : String) :
      Reached fs → Reached (fs.withVariable name value)
  | withTime {fs : FileSystem} (time : Float) : Reached fs → Reached (fs.withTime time)
  | write {fs fs' : FileSystem} {path : String} {content : List UInt8} :
    Reached fs → fs.write (.ofString path) content = .ok fs' → Reached fs'
  | createDir {fs fs' : FileSystem} {path : String} {parents mayExist : Bool} :
    Reached fs → fs.createDir (.ofString path) parents mayExist = .ok fs' → Reached fs'
  | removeFile {fs fs' : FileSystem} {path : String} :
    Reached fs → fs.removeFile (.ofString path) = .ok fs' → Reached fs'
  | removeDir {fs fs' : FileSystem} {path : String} :
    Reached fs → fs.removeDir (.ofString path) = .ok fs' → Reached fs'
  | rename {fs fs' : FileSystem} {source target : String} :
    Reached fs → fs.rename (.ofString source) (.ofString target) = .ok fs' → Reached fs'
  | handle {fs fs' : FileSystem} {r : OsRequest} {result : HandlerResult} :
    Reached fs → fs.handle r = (result, some fs') → Reached fs'

theorem Reached.sound (h : Reached fs) : fs.Sound := by
  have hnormal : ∀ s : String, (FullPath.ofString s).IsNormal := fun s => isNormal_ofText s.toList
  induction h with
  | empty => exact sound_empty
  | withFile path content mode _ ih => exact ih.withFile (hnormal path) content mode
  | withDir path _ ih => exact ih.withDir (hnormal path)
  | withVariable name value _ ih => exact ih.of_eq rfl rfl
  | withTime time _ ih => exact ih.of_eq rfl rfl
  | write _ hfs ih => exact ih.write (hnormal _) hfs
  | createDir _ hfs ih => exact ih.createDir (hnormal _) hfs
  | removeFile _ hfs ih => exact ih.removeFile hfs
  | removeDir _ hfs ih => exact ih.removeDir (hnormal _) hfs
  | rename _ hfs ih => exact ih.rename (hnormal _) (hnormal _) hfs
  | handle _ hfs ih => exact ih.changes (changes_of_handle hfs)

/-- In every file system that there can be, the root is a directory, files and directories are at
normal paths, none at the path of another, and each lies in a directory, so that there is no file
on the way to anything. -/
theorem Reached.tree (h : Reached fs) :
    fs.isDir .root ∧
    (∀ p, fs.isFile p ∨ fs.isDir p → FullPath.ofText p.text = p) ∧
    (∀ p, ¬ (fs.isFile p ∧ fs.isDir p)) ∧
    (∀ p, fs.isFile p ∨ (fs.isDir p ∧ p ≠ .root) →
      ∃ dir, p.parent? = some dir ∧ fs.isDir dir) ∧
    ∀ p, fs.isFile p ∨ fs.isDir p → ∀ a ∈ p.ancestors, ¬ fs.isFile a := by
  have hs := h.sound
  refine ⟨hs.root, fun p hp => hs.normal p (contains_iff.mpr hp), ?_, ?_, ?_⟩
  · rintro p ⟨hfile, hdir⟩
    exact hs.disjoint p hfile hdir
  · rintro p (hfile | ⟨hdir, hroot⟩)
    · refine hs.parent p (contains_iff.mpr (.inl hfile)) ?_
      rintro rfl
      exact hs.disjoint _ hfile hs.root
    · exact hs.parent p (contains_iff.mpr (.inr hdir)) hroot
  · intro p hp a ha hfile
    exact hs.disjoint a hfile (hs.isDir_of_mem_ancestors (contains_iff.mpr hp) ha)

/-- A directory below a file makes the file a directory. -/
theorem Reached.tree_of_dir_below_file :
    let fs := (FileSystem.empty.withFile (.ofString "a/b") [] 0).withDir (.ofString "a//b/./c")
    Reached fs ∧ fs.isDir ⟨['/', 'a', '/', 'b']⟩ ∧ ¬ fs.isFile ⟨['/', 'a', '/', 'b']⟩ := by
  intro fs
  have hreached : Reached fs := .withDir _ (.withFile _ _ _ .empty)
  have habove : ⟨['/', 'a', '/', 'b']⟩ ∈ (FullPath.ofString "a//b/./c").ancestors := by
    have : (FullPath.ofString "a//b/./c").ancestors =
        [⟨['/', 'a', '/', 'b']⟩, ⟨['/', 'a']⟩, .root] := by cbv
    simp [this]
  have hdir : fs.isDir ⟨['/', 'a', '/', 'b']⟩ :=
    isDir_putDir.mpr (.inr (isDir_makeAncestors.mpr (.inl habove)))
  exact ⟨hreached, hdir, fun hfile => hreached.tree.2.2.1 _ ⟨hfile, hdir⟩⟩
end Resumable.FileSystem
