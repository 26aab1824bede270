import Resumable.Proofs.FileSystem.Listing

/-!
# Renaming

A path is renamed to one that is apart from it, or it is left where it is. What a map has at a path
and below it is then found at the new path, and no more at the old one (`Relocates`). This holds of
the files and of the directories alike, whether a file is renamed or a directory with everything in
it. Main statement: `Reached.rename_exact`.
-/

namespace Resumable

/-- A path is within another one if it is the same or lies below it. -/
def FullPath.IsWithin (p dir : FullPath) : Prop := p = dir ∨ dir ∈ p.ancestors

namespace FileSystem

open FullPath PathMap

variable {fs fs' : FileSystem} {p q source target : FullPath}

/-- A file system becomes another one by a move of everything within `source` to the path `target`:
at each path the part `source` at its start has become `target`. -/
structure Moves (fs fs' : FileSystem) (source target : FullPath) : Prop where
  moved : ∀ p, p.IsWithin source →
    fs'.entries.get? (relocated source target p) = fs.entries.get? p ∧
      (fs'.isDir (relocated source target p) ↔ fs.isDir p)
  gone : ∀ p, p.IsWithin source → ¬ fs'.contains p
  kept : ∀ p, fs.contains p → ¬ p.IsWithin source → p ≠ target →
    fs'.entries.get? p = fs.entries.get? p ∧ (fs'.isDir p ↔ fs.isDir p)
  only : ∀ p, fs'.contains p → ¬ p.IsWithin target → fs.contains p
  env : fs'.env = fs.env
  time : fs'.time = fs.time

/-! ## Maps of which a part is moved -/

/-- In the second map, all that the first one has at `source` and below it is at `target`. -/
structure Relocates {α : Type} (m m' : PathMap α) (source target : FullPath) : Prop where
  moved : ∀ a, a = source ∨ a.isBelow source →
    m'.get? (relocated source target a) = m.get? a
  other : ∀ q, q ≠ target → ¬ q.isBelow target →
    m'.get? q = if q = source ∨ q.isBelow source then none else m.get? q

theorem relocated_self : relocated source target source = target := by simp [relocated]

/-- A move of a single path, below which there is nothing. -/
theorem relocates_single {α : Type} {m m' : PathMap α} (hs : source ≠ .root)
    (ht : target ≠ .root) (hexists : fs.contains source)
    (hempty : ∀ q, fs.contains q → ¬ q.isBelow target)
    (hm : ∀ q, m.contains q → fs.contains q) (hleaf : ∀ q, m.contains q → ¬ q.isBelow source)
    (hmove : ∀ q, m'.get? q =
      if q = target then m.get? source else if q = source then none else m.get? q) :
    Relocates m m' source target := by
  constructor
  · rintro a (rfl | hb)
    · rw [relocated_self, hmove, if_pos rfl]
    · have hbt := relocated_isBelow hs ht hb
      have hat : relocated source target a ≠ target := fun heq => by
        rw [heq] at hbt
        exact not_isBelow_self ht hbt
      have has : relocated source target a ≠ source := fun heq =>
        hempty source hexists (heq ▸ hbt)
      have hold : m.get? a = none := Option.not_isSome_iff_eq_none.mp fun hc => hleaf a hc hb
      have hnew : m.get? (relocated source target a) = none :=
        Option.not_isSome_iff_eq_none.mp fun hc => hempty _ (hm _ hc) hbt
      rw [hmove, if_neg hat, if_neg has, hnew, hold]
  · intro q hq _
    rw [hmove, if_neg hq]
    by_cases hb : q.isBelow source
    · have hold : m.get? q = none := Option.not_isSome_iff_eq_none.mp fun hc => hleaf q hc hb
      simp [hb, hold]
    · simp [hb]

section
variable (h : fs.Sound) (hs : source ≠ .root) (ht : target ≠ .root)
  (hsource : source.IsNormal) (hne : source ≠ target) (hbelow : ¬ target.isBelow source)
  (hexists : fs.contains source) (hempty : ∀ q, fs.contains q → ¬ q.isBelow target)
include h hs ht hsource hne hbelow hexists hempty

/-- Where nothing lies below the new path, what is found there afterwards has been moved there. -/
theorem Sound.get?_moves_exact {α : Type} {m : PathMap α}
    (hm : ∀ q, m.contains q → fs.contains q)
    {f : PathMap α → FullPath → PathMap α} (hf : ∀ m a, m.contains a → ∀ p, (f m a).get? p =
      if p = relocated source target a then m.get? a else if p = a then none else m.get? p)
    {n : PathMap α} (hn : ∀ q, q ≠ source → n.get? q = m.get? q) :
    (∀ a, a.isBelow source →
      (((m.below source).map (·.1)).foldl f n).get? (relocated source target a) = m.get? a) ∧
    ∀ q, ¬ q.isBelow target → (((m.below source).map (·.1)).foldl f n).get? q =
      if q.isBelow source then none else n.get? q := by
  have habove := hempty source hexists
  obtain ⟨hmoved, hother⟩ := h.get?_moves hs ht hsource hne hbelow habove hm hf hn
  constructor
  · intro a hb
    by_cases ha : m.contains a
    · exact hmoved a ha hb
    · have hbt := relocated_isBelow hs ht hb
      have hns : relocated source target a ≠ source := fun heq => habove (heq ▸ hbt)
      have hnone : m.get? a = none := Option.not_isSome_iff_eq_none.mp ha
      have hfree : m.get? (relocated source target a) = none :=
        Option.not_isSome_iff_eq_none.mp fun hc => hempty _ (hm _ hc) hbt
      rw [hother _ fun b hbm hb' heq => ha (relocated_injective hs hb' hb heq ▸ hbm),
        if_neg (not_isBelow_relocated hs ht hne hbelow habove hb), hn _ hns, hfree, hnone]
  · intro q hq
    refine hother q fun a _ hb heq => hq ?_
    rw [← heq]
    exact relocated_isBelow hs ht hb

theorem Sound.relocates_moveDir (hdir : fs.isDir source) (hfile : ¬ fs.isFile target) :
    Relocates fs.entries (fs.moveDir source target).entries source target ∧
      Relocates fs.folders (fs.moveDir source target).folders source target := by
  obtain ⟨hfiles, hotherFiles⟩ := h.get?_moves_exact hs ht hsource hne hbelow hexists hempty
    (m := fs.entries) (n := fs.entries)
    (f := fun m old => m.move old (relocated source target old))
    (fun _ hq => contains_iff.mpr (.inl hq)) (fun _ _ ha _ => get?_move ha) fun _ _ => rfl
  obtain ⟨hdirs, hotherDirs⟩ := h.get?_moves_exact hs ht hsource hne hbelow hexists hempty
    (m := fs.folders) (n := fs.folders.erase source)
    (f := fun m old => (m.erase old).insert (relocated source target old) ())
    (fun _ hq => contains_iff.mpr (.inr hq))
    (fun m a ha p => by
      obtain ⟨u, hu⟩ := PathMap.contains_iff.mp ha
      simp [hu])
    fun q hq => by simp [hq]
  have hsourceFile := h.get?_of_isDir hdir
  have hself : ¬ target.isBelow target := not_isBelow_self ht
  refine ⟨⟨?_, fun q hq hqt => ?_⟩, ⟨?_, fun q hq hqt => ?_⟩⟩
  · rintro a (rfl | hb)
    · rw [relocated_self, FileSystem.moveDir, hotherFiles target hself, if_neg hbelow, hsourceFile,
        get?_of_not_isFile hfile]
    · exact hfiles a hb
  · rw [FileSystem.moveDir, hotherFiles q hqt]
    by_cases hqs : q = source
    · simp [hqs, hsourceFile]
    · simp [hqs]
  · rintro a (rfl | hb)
    · rw [relocated_self, FileSystem.moveDir, get?_insert, if_pos rfl]
      exact (PathMap.contains_iff.mp hdir).choose_spec.symm
    · have hat : relocated source target a ≠ target := fun heq => by
        have hbt := relocated_isBelow hs ht hb
        exact hself (by rwa [heq] at hbt)
      rw [FileSystem.moveDir, get?_insert, if_neg hat]
      exact hdirs a hb
  · rw [FileSystem.moveDir, get?_insert, if_neg hq, hotherDirs q hqt, get?_erase]
    by_cases hqs : q = source <;> simp [hqs]

theorem Sound.relocates_moveFile (hfile : fs.isFile source) (hdir : ¬ fs.isDir target) :
    Relocates fs.entries (fs.moveFile source target).entries source target ∧
      Relocates fs.folders (fs.moveFile source target).folders source target := by
  have hsourceDir : ¬ fs.isDir source := h.disjoint source hfile
  have hleaf : ∀ q, fs.contains q → ¬ q.isBelow source := fun q hq hb => by
    refine hsourceDir (h.isDir_of_isBelow hq hsource hb ?_)
    rintro rfl
    exact not_isBelow_self hs hb
  constructor
  · exact relocates_single hs ht hexists hempty
      (fun q hq => contains_iff.mpr (.inl hq)) (fun q hq => hleaf q (contains_iff.mpr (.inl hq)))
      fun q => get?_move hfile
  · refine relocates_single hs ht hexists hempty
      (fun q hq => contains_iff.mpr (.inr hq)) (fun q hq => hleaf q (contains_iff.mpr (.inr hq)))
      fun q => ?_
    have hsourceNone : fs.folders.get? source = none := Option.not_isSome_iff_eq_none.mp hsourceDir
    have htargetNone : fs.folders.get? target = none := Option.not_isSome_iff_eq_none.mp hdir
    by_cases hq : q = target
    · simp [FileSystem.moveFile, hq, htargetNone, hsourceNone]
    · by_cases hqs : q = source <;> simp [FileSystem.moveFile, hq, hqs, hsourceNone]

end

/-! ## File systems of which a part is moved -/

theorem isBelow_of_isWithin (h : p.IsWithin q) : p = q ∨ p.isBelow q :=
  h.imp_right isBelow_of_mem_ancestors

theorem isWithin_of_isBelow (hp : p.IsNormal) (hq : q.IsNormal) (hroot : q ≠ .root)
    (h : p = q ∨ p.isBelow q) : p.IsWithin q :=
  h.imp_right (isBelow_iff_mem_ancestors hp hq hroot).mp

theorem contains_eq_false_of_get? (hfile : fs.entries.get? p = none)
    (hdir : fs.folders.get? p = none) : ¬ fs.contains p := by
  rw [contains_iff, isFile, isDir, PathMap.contains_iff, PathMap.contains_iff, hfile, hdir]
  simp

theorem isDir_congr (h : fs'.folders.get? p = fs.folders.get? q) : fs'.isDir p ↔ fs.isDir q := by
  rw [isDir, isDir, PathMap.contains_iff, PathMap.contains_iff, h]

/-- Where files and directories are relocated alike, a part of the file system is moved. -/
theorem Sound.moves (h : fs.Sound) (h' : fs'.Sound) (hs : source ≠ .root) (ht : target ≠ .root)
    (hsource : source.IsNormal) (htarget : target.IsNormal) (hne : source ≠ target)
    (hbelow : ¬ target.isBelow source) (hexists : fs.contains source)
    (hempty : ∀ q, fs.contains q → ¬ q.isBelow target)
    (hfiles : Relocates fs.entries fs'.entries source target)
    (hdirs : Relocates fs.folders fs'.folders source target)
    (henv : fs'.env = fs.env) (htime : fs'.time = fs.time) : Moves fs fs' source target := by
  have habove := hempty source hexists
  refine ⟨fun p hp => ?_, fun p hp => ?_, fun p hp hout hpt => ?_, fun p hp hout => ?_, henv,
    htime⟩
  · have hp := isBelow_of_isWithin hp
    exact ⟨hfiles.moved p hp, isDir_congr (hdirs.moved p hp)⟩
  · have hp := isBelow_of_isWithin hp
    -- what is within the one path is not within the other
    have hpt : p ≠ target := by
      rintro rfl
      exact hp.elim (fun heq => hne heq.symm) hbelow
    have hpb : ¬ p.isBelow target := by
      intro hpt
      obtain rfl | hps := hp
      · exact habove hpt
      · exact (isBelow_or_isBelow hs ht hps hpt).elim hne fun hor => hor.elim habove hbelow
    refine contains_eq_false_of_get? ?_ ?_
    · rw [hfiles.other p hpt hpb, if_pos hp]
    · rw [hdirs.other p hpt hpb, if_pos hp]
  · have hps : ¬ (p = source ∨ p.isBelow source) := fun hps =>
      hout (isWithin_of_isBelow (h.normal p hp) hsource hs hps)
    have hpb := hempty p hp
    refine ⟨?_, isDir_congr ?_⟩
    · rw [hfiles.other p hpt hpb, if_neg hps]
    · rw [hdirs.other p hpt hpb, if_neg hps]
  · have hpt : ¬ (p = target ∨ p.isBelow target) := fun hpt =>
      hout (isWithin_of_isBelow (h'.normal p hp) htarget ht hpt)
    obtain ⟨hpt, hpb⟩ := not_or.mp hpt
    rw [contains_iff, isFile, isDir, PathMap.contains_iff, PathMap.contains_iff] at hp ⊢
    rw [hfiles.other p hpt hpb, hdirs.other p hpt hpb] at hp
    by_cases hps : p = source ∨ p.isBelow source
    · simp [hps] at hp
    · simpa [hps] using hp

/-! ## Renaming -/

theorem Sound.rename_moves (h : fs.Sound) (hsource : source.IsNormal) (htarget : target.IsNormal)
    (hne : source ≠ target) (hfs : fs.rename source target = .ok fs') :
    Moves fs fs' source target := by
  have h' := h.rename hsource htarget hfs
  obtain ⟨hexists, ⟨heq, -⟩ | ⟨-, hs, hbelow, -, ⟨up, hup, -⟩, hmove⟩⟩ := rename_eq_ok_iff.mp hfs
  · exact absurd heq hne
  have ht : target ≠ .root := by
    rintro rfl
    simp [parent?_root] at hup
  obtain ⟨hdir, hfile, hfree, rfl⟩ | ⟨hdir, htdir, rfl⟩ := hmove
  · have hempty := h.not_isBelow_of_free htarget ht hfree
    obtain ⟨hfiles, hdirs⟩ :=
      h.relocates_moveDir hs ht hsource hne hbelow hexists hempty hdir hfile
    exact h.moves h' hs ht hsource htarget hne hbelow hexists hempty hfiles hdirs rfl rfl
  · have hempty := h.not_isBelow_of_free htarget ht fun hfree => htdir hfree.1
    obtain ⟨hfiles, hdirs⟩ := h.relocates_moveFile hs ht hsource hne hbelow hexists hempty
      ((contains_iff.mp hexists).resolve_right hdir) htdir
    exact h.moves h' hs ht hsource htarget hne hbelow hexists hempty hfiles hdirs rfl rfl

/-- Everything on the way to a path in a directory is a directory. -/
theorem Sound.not_isBlocked (h : fs.Sound) {dir : FullPath} (hdir : p.parent? = some dir)
    (hisDir : fs.isDir dir) : ¬ fs.isBlocked p := by
  intro hway
  obtain ⟨a, ha, hfile⟩ := isBlocked_iff.mp hway
  obtain ⟨d, hd, ha⟩ := mem_ancestors.mp ha
  rw [hdir] at hd
  cases hd
  obtain rfl | ha := ha
  · exact h.disjoint _ hfile hisDir
  · exact h.disjoint _ hfile (h.isDir_of_mem_ancestors (contains_iff.mpr (.inr hisDir)) ha)

/-- What is at a path can be replaced by what is at another one. -/
theorem Sound.replaceable_iff (h : fs.Sound) (hexists : fs.contains source)
    (htarget : target.IsNormal) :
    ((fs.isDir source ∧ ¬ fs.isFile target ∧ ¬ (fs.isDir target ∧ fs.isOccupied target)) ∨
      (¬ fs.isDir source ∧ ¬ fs.isDir target)) ↔
    (¬ fs.contains target ∨ (fs.isFile source ∧ fs.isFile target) ∨
      (fs.isDir source ∧ fs.isDir target ∧ fs.list target = .ok [])) := by
  have hsource := h.disjoint source
  have hboth := h.disjoint target
  have hlist : fs.isDir target → (fs.list target = .ok [] ↔ ¬ fs.isOccupied target) := by
    intro hdir
    rw [list_of_isDir hdir, Except.ok.injEq, h.children_eq_nil_iff htarget]
  rw [contains_iff] at hexists ⊢
  by_cases htdir : fs.isDir target
  · rw [hlist htdir]
    tauto
  · tauto

theorem Sound.rename_succeeds_iff (h : fs.Sound) (hsource : source.IsNormal)
    (htarget : target.IsNormal) : (∃ fs', fs.rename source target = .ok fs') ↔
      fs.contains source ∧ (source = target ∨
        (source ≠ .root ∧ source ∉ target.ancestors ∧
          (∃ dir, target.parent? = some dir ∧ fs.isDir dir) ∧
          (¬ fs.contains target ∨ (fs.isFile source ∧ fs.isFile target) ∨
            (fs.isDir source ∧ fs.isDir target ∧ fs.list target = .ok [])))) := by
  have hside := fun hs => isBelow_iff_mem_ancestors htarget hsource hs
  constructor
  · rintro ⟨fs', hfs⟩
    obtain ⟨hexists, ⟨heq, -⟩ | ⟨-, hs, hbelow, -, hup, hmove⟩⟩ := rename_eq_ok_iff.mp hfs
    · exact ⟨hexists, .inl heq⟩
    refine ⟨hexists, .inr ⟨hs, fun hmem => hbelow ((hside hs).mpr hmem), hup, ?_⟩⟩
    refine (h.replaceable_iff hexists htarget).mp ?_
    obtain ⟨hdir, hfile, hfree, -⟩ | ⟨hdir, htdir, -⟩ := hmove
    · exact .inl ⟨hdir, hfile, hfree⟩
    · exact .inr ⟨hdir, htdir⟩
  · rintro ⟨hexists, hrest⟩
    by_cases heq : source = target
    · exact ⟨fs, rename_eq_ok_iff.mpr ⟨hexists, .inl ⟨heq, rfl⟩⟩⟩
    obtain ⟨hs, hbelow, ⟨dir, hdir, hisDir⟩, hkinds⟩ := hrest.resolve_left heq
    have hapart : ¬ target.isBelow source := fun hb => hbelow ((hside hs).mp hb)
    have hway := h.not_isBlocked hdir hisDir
    obtain ⟨hsdir, hfile, hfree⟩ | ⟨hsdir, htdir⟩ := (h.replaceable_iff hexists htarget).mpr hkinds
    · exact ⟨_, rename_eq_ok_iff.mpr ⟨hexists, .inr ⟨heq, hs, hapart, hway, ⟨dir, hdir, hisDir⟩,
        .inl ⟨hsdir, hfile, hfree, rfl⟩⟩⟩⟩
    · exact ⟨_, rename_eq_ok_iff.mpr ⟨hexists, .inr ⟨heq, hs, hapart, hway, ⟨dir, hdir, hisDir⟩,
        .inr ⟨hsdir, htdir, rfl⟩⟩⟩⟩

/-- A successful renaming moves everything within the old path, and nothing else; and a renaming is
successful exactly if there is something at the old path and either it stays there, or it is not
moved into itself, the new path lies in a directory, and what is at it can be replaced. -/
theorem Reached.rename_exact (h : Reached fs) (old new : String) :
    let source := FullPath.ofString old
    let target := FullPath.ofString new
    (∀ fs', fs.rename source target = .ok fs' →
      (source = target → fs' = fs) ∧ (source ≠ target → Moves fs fs' source target)) ∧
    ((∃ fs', fs.rename source target = .ok fs') ↔
      (fs.isFile source ∨ fs.isDir source) ∧ (source = target ∨
        (source ≠ .root ∧ source ∉ target.ancestors ∧
          (∃ dir, target.parent? = some dir ∧ fs.isDir dir) ∧
          (¬ (fs.isFile target ∨ fs.isDir target) ∨ (fs.isFile source ∧ fs.isFile target) ∨
            (fs.isDir source ∧ fs.isDir target ∧ fs.list target = .ok []))))) := by
  intro source target
  have hsource : source.IsNormal := isNormal_ofText old.toList
  have htarget : target.IsNormal := isNormal_ofText new.toList
  refine ⟨fun fs' hfs => ⟨fun heq => ?_, fun hne => ?_⟩, ?_⟩
  · obtain ⟨-, ⟨-, hsame⟩ | ⟨hne, -⟩⟩ := rename_eq_ok_iff.mp hfs
    · exact hsame.symm
    · exact absurd heq hne
  · exact h.sound.rename_moves hsource htarget hne hfs
  · rw [← contains_iff, ← contains_iff]
    exact h.sound.rename_succeeds_iff hsource htarget

/-- A directory moves beside where it was, to a path whose text begins with that of the old one. -/
theorem Reached.rename_exact_beside :
    let fs := FileSystem.empty.withFile (.ofString "a/x") [1] 0o600
    Reached fs ∧ ∃ fs', fs.rename (.ofString "a") (.ofString "ab") = .ok fs' ∧
      fs'.entries.get? ⟨['/', 'a', 'b', '/', 'x']⟩ = some ⟨[1], 0o600⟩ ∧
      ¬ fs'.contains (.ofString "a") := by
  intro fs
  have hreached : Reached fs := .withFile _ _ _ .empty
  have hold : FullPath.ofString "a" = ⟨['/', 'a']⟩ := by cbv
  have hnew : FullPath.ofString "ab" = ⟨['/', 'a', 'b']⟩ := by cbv
  have hfile : FullPath.ofString "a/x" = ⟨['/', 'a', '/', 'x']⟩ := by cbv
  have hway : (FullPath.mk ['/', 'a', '/', 'x']).ancestors = [⟨['/', 'a']⟩, .root] := by cbv
  have habove : (FullPath.mk ['/', 'a', 'b']).ancestors = [.root] := by cbv
  have hbuilt := sound_empty.withFile_becomes (isNormal_ofText "a/x".toList)
    (by rw [← FullPath.ofString, hfile]; decide) [1] 0o600
  rw [← FullPath.ofString] at hbuilt
  have hdir : fs.isDir ⟨['/', 'a']⟩ := (hbuilt.dir _).mpr (.inl (by simp [hfile, hway]))
  have habsent : ¬ (fs.isFile ⟨['/', 'a', 'b']⟩ ∨ fs.isDir ⟨['/', 'a', 'b']⟩) := by
    rintro (hthere | hthere)
    · obtain ⟨entry, hentry⟩ := PathMap.contains_iff.mp hthere
      rw [hbuilt.file, hfile, if_neg (by decide)] at hentry
      split at hentry <;> cases hentry
    · obtain hthere | ⟨hthere, -⟩ := (hbuilt.dir _).mp hthere
      · rw [hfile, hway] at hthere
        exact absurd hthere (by decide)
      · exact absurd hthere (by decide)
  have hexact := hreached.rename_exact "a" "ab"
  rw [hold, hnew] at hexact ⊢
  obtain ⟨fs', hfs⟩ := hexact.2.mpr ⟨.inr hdir, .inr ⟨by decide, by rw [habove]; decide,
    ⟨.root, by decide, hreached.sound.root⟩, .inl habsent⟩⟩
  have hmoves := (hexact.1 fs' hfs).2 (by decide)
  refine ⟨hreached, fs', hfs, ?_, hmoves.gone _ (.inl rfl)⟩
  have hmoved := (hmoves.moved ⟨['/', 'a', '/', 'x']⟩ (.inr (by simp [hway]))).1
  refine hmoved.trans ((hbuilt.file _).trans ?_)
  rw [if_pos hfile.symm]

end FileSystem

end Resumable
