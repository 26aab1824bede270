import Resumable.Proofs.FileSystem.Invariant
import Resumable.Proofs.Utf8

/-!
# What changes of file systems do

A change is exact if it is known of every path which file and whether a directory is there after it,
and if it leaves the environment and the time as they are (`Becomes`). The parts of a change are
described for all paths first; that nothing else is touched then rests on the tree that files and
directories form. Main statement: `Reached.changes_exact`.
-/

namespace Resumable.FileSystem

open FullPath PathMap

variable {fs fs' : FileSystem} {p q : FullPath} {content : List UInt8}

/-- After a change there are these files and these directories, and nothing else is changed. -/
structure Becomes (fs fs' : FileSystem) (file : FullPath → Option FileEntry)
    (dir : FullPath → Prop) : Prop where
  file : ∀ q, fs'.entries.get? q = file q
  dir : ∀ q, fs'.isDir q ↔ dir q
  env : fs'.env = fs.env
  time : fs'.time = fs.time

/-! ## Files and what is read -/

theorem get?_of_not_isFile (h : ¬ fs.isFile p) : fs.entries.get? p = none :=
  Option.not_isSome_iff_eq_none.mp h

theorem readBytes_eq_ok_iff :
    fs.readBytes p = .ok content ↔ ∃ mode, fs.entries.get? p = some ⟨content, mode⟩ := by
  unfold readBytes
  cases hget : fs.entries.get? p with
  | none => by_cases hdir : fs.isDir p <;> simp [hdir]
  | some entry =>
    obtain ⟨bytes, mode⟩ := entry
    simp

theorem readText_eq_ok_iff {text : String} : fs.readText p = .ok text ↔
    ∃ bytes, fs.readBytes p = .ok bytes ∧ Text.ofUtf8 bytes = .ok text := by
  unfold readText
  cases fs.readBytes p with
  | error e => simp [bind, Except.bind]
  | ok bytes => cases h : Text.ofUtf8 bytes <;> simp [bind, Except.bind, pure, Except.pure, h]

/-- What is read at a path depends on the file that is there alone. -/
theorem reads_of_get?_eq (h : fs'.entries.get? p = fs.entries.get? p) :
    (∀ content, fs'.readBytes p = .ok content ↔ fs.readBytes p = .ok content) ∧
      ∀ text, fs'.readText p = .ok text ↔ fs.readText p = .ok text := by
  have hbytes : ∀ content, fs'.readBytes p = .ok content ↔ fs.readBytes p = .ok content :=
    fun content => by rw [readBytes_eq_ok_iff, readBytes_eq_ok_iff, h]
  exact ⟨hbytes, fun text => by simp only [readText_eq_ok_iff, hbytes]⟩

/-! ## The parts of a change -/

theorem get?_putFile {entry : FileEntry} : (fs.putFile p entry).entries.get? q =
    if q = p then some entry else fs.entries.get? q := get?_insert entry

theorem isBlocked_iff : fs.isBlocked p ↔ ∃ dir ∈ p.ancestors, fs.isFile dir := List.any_eq_true

namespace Sound

variable (h : fs.Sound)
include h

/-- On the way to what is there, there are directories only. -/
theorem not_isBlocked_of_contains (hp : fs.contains p) : ¬ fs.isBlocked p := by
  intro hway
  obtain ⟨dir, hdir, hfile⟩ := isBlocked_iff.mp hway
  exact h.disjoint dir hfile (h.isDir_of_mem_ancestors hp hdir)

theorem get?_of_isDir (hdir : fs.isDir p) : fs.entries.get? p = none :=
  get?_of_not_isFile fun hfile => h.disjoint p hfile hdir

/-- On the way to a path, directories take the place of the files. -/
theorem get?_makeAncestors : (fs.makeAncestors p).entries.get? q =
    if q ∈ p.ancestors then none else fs.entries.get? q := by
  unfold FileSystem.makeAncestors
  simp only [get?_foldl_erase, List.mem_filter]
  by_cases hq : q ∈ p.ancestors
  · by_cases hdir : fs.isDir q
    · simp [hq, hdir, h.get?_of_isDir hdir]
    · simp [hq, hdir]
  · simp [hq]

/-- Where no file stands on the way to a path, making the way to it leaves all files. -/
theorem get?_makeAncestors_of_not_isBlocked (hway : ¬ fs.isBlocked p) :
    (fs.makeAncestors p).entries.get? q = fs.entries.get? q := by
  rw [h.get?_makeAncestors]
  split
  · rename_i hq
    exact (get?_of_not_isFile fun hfile => hway (isBlocked_iff.mpr ⟨q, hq, hfile⟩)).symm
  · rfl

section
variable (hp : p.IsNormal) (hroot : p ≠ .root)
include hp hroot

theorem isBelow_iff (hq : fs.contains q) :
    (q.isBelow p ∧ q.text ≠ p.childPrefix) ↔ p ∈ q.ancestors := by
  have hnormal := h.normal q hq
  rw [isBelow_iff_mem_ancestors hnormal hp hroot,
    and_iff_left (hnormal.text_ne_childPrefix hp hroot)]

theorem get?_removeWithin : (fs.removeWithin p).entries.get? q =
    if q = p ∨ p ∈ q.ancestors then none else fs.entries.get? q := by
  unfold FileSystem.removeWithin
  simp only [get?_foldl_erase, get?_erase, mem_keys_below]
  by_cases hfile : fs.isFile q
  · have hbelow := h.isBelow_iff hp hroot (contains_iff.mpr (.inl hfile))
    rw [isFile] at hfile
    simp only [hfile, hbelow, true_and]
    by_cases hq : q = p <;> simp [hq]
  · simp [get?_of_not_isFile hfile]

theorem isDir_removeWithin_iff : (fs.removeWithin p).isDir q ↔
    fs.isDir q ∧ q ≠ p ∧ p ∉ q.ancestors := by
  rw [isDir_removeWithin]
  refine and_congr_right fun hdir => ?_
  rw [h.isBelow_iff hp hroot (contains_iff.mpr (.inr hdir))]

end

/-! ## Changes -/

/-- What is written is at its path, in directories, and nothing else is touched. -/
theorem write_becomes (hfs : fs.write p content = .ok fs') :
    fs.Becomes fs'
      (fun q => if q = p then
        some ⟨content, ((fs.entries.get? p).map (·.mode)).getD 0o644⟩ else fs.entries.get? q)
      (fun q => q ∈ p.ancestors ∨ fs.isDir q) := by
  unfold FileSystem.write at hfs
  split at hfs
  · cases hfs
  split at hfs
  · cases hfs
  rename_i hway
  cases hfs
  refine ⟨fun q => ?_, fun q => isDir_makeAncestors, rfl, rfl⟩
  rw [get?_putFile, h.get?_makeAncestors_of_not_isBlocked hway]
  rfl

theorem createDir_becomes {parents mayExist : Bool}
    (hfs : fs.createDir p parents mayExist = .ok fs') :
    fs.Becomes fs' fs.entries.get? (fun q => q = p ∨ q ∈ p.ancestors ∨ fs.isDir q) := by
  unfold FileSystem.createDir at hfs
  split at hfs
  · rename_i hdir
    split at hfs <;> cases hfs
    refine ⟨fun q => rfl, fun q => ⟨fun hq => .inr (.inr hq), ?_⟩, rfl, rfl⟩
    rintro (rfl | hq | hq)
    · exact hdir
    · exact h.isDir_of_mem_ancestors (contains_iff.mpr (.inr hdir)) hq
    · exact hq
  split at hfs
  · cases hfs
  split at hfs
  · cases hfs
  rename_i hway
  split at hfs
  · cases hfs
  cases hfs
  refine ⟨fun q => h.get?_makeAncestors_of_not_isBlocked hway, fun q => ?_, rfl, rfl⟩
  rw [isDir_putDir, isDir_makeAncestors]

theorem withFile_becomes (hp : p.IsNormal) (hroot : p ≠ .root) (content : List UInt8)
    (mode : Nat) :
    fs.Becomes (fs.withFile p content mode)
      (fun q => if q = p then some ⟨content, mode % 0o10000⟩
        else if q ∈ p.ancestors ∨ p ∈ q.ancestors then none else fs.entries.get? q)
      (fun q => q ∈ p.ancestors ∨ (fs.isDir q ∧ q ≠ p ∧ p ∉ q.ancestors)) := by
  have hremoved := h.removeWithin hp hroot
  rw [FileSystem.withFile, if_neg (by simpa using hroot)]
  refine ⟨fun q => ?_, fun q => ?_, rfl, rfl⟩
  · rw [get?_putFile, hremoved.get?_makeAncestors, h.get?_removeWithin hp hroot]
    by_cases hq : q = p
    · rw [if_pos hq, if_pos hq]
    · by_cases hway : q ∈ p.ancestors <;> simp [hq, hway]
  · exact isDir_makeAncestors.trans (or_congr_right (h.isDir_removeWithin_iff hp hroot))

theorem withDir_becomes : fs.Becomes (fs.withDir p)
    (fun q => if q = p ∨ q ∈ p.ancestors then none else fs.entries.get? q)
    (fun q => q = p ∨ q ∈ p.ancestors ∨ fs.isDir q) := by
  refine ⟨fun q => ?_, fun q => ?_, rfl, rfl⟩
  · refine (h.eraseFile p).get?_makeAncestors.trans ?_
    rw [get?_erase]
    by_cases hq : q = p <;> by_cases hway : q ∈ p.ancestors <;> simp [hq, hway]
  · exact isDir_putDir.trans (or_congr_right isDir_makeAncestors)

end Sound

theorem removeFile_becomes (hfs : fs.removeFile p = .ok fs') :
    fs.isFile p ∧ fs.Becomes fs' (fun q => if q = p then none else fs.entries.get? q)
      (fun q => fs.isDir q) := by
  unfold removeFile at hfs
  split at hfs
  · cases hfs
  split at hfs
  · cases hfs
  rename_i hfile
  cases hfs
  exact ⟨by simpa using hfile, fun q => get?_erase, fun q => Iff.rfl, rfl, rfl⟩

theorem removeDir_becomes (hfs : fs.removeDir p = .ok fs') :
    fs.isDir p ∧ fs.Becomes fs' fs.entries.get? (fun q => q ≠ p ∧ fs.isDir q) := by
  unfold removeDir at hfs
  split at hfs
  · split at hfs <;> cases hfs
  rename_i hdir
  split at hfs
  · cases hfs
  split at hfs
  · cases hfs
  cases hfs
  exact ⟨by simpa using hdir, fun q => rfl, fun q => isDir_erase, rfl, rfl⟩

/-- What is written is read back at every name of its path; elsewhere is read what was before. -/
theorem reads_of_write (h : fs.Sound) (hfs : fs.write p content = .ok fs') :
    (fs'.readBytes p = .ok content ∧
      ∀ text, content = Text.utf8 text → fs'.readText p = .ok text) ∧
    ∀ q, q ≠ p →
      (∀ bytes, fs'.readBytes q = .ok bytes ↔ fs.readBytes q = .ok bytes) ∧
      ∀ text, fs'.readText q = .ok text ↔ fs.readText q = .ok text := by
  have hfile := (h.write_becomes hfs).file
  have hread : fs'.readBytes p = .ok content :=
    readBytes_eq_ok_iff.mpr ⟨_, (hfile p).trans (if_pos rfl)⟩
  refine ⟨⟨hread, fun text htext => readText_eq_ok_iff.mpr ⟨content, hread, ?_⟩⟩, fun q hq => ?_⟩
  · rw [htext, Text.ofUtf8_utf8]
  · exact reads_of_get?_eq ((hfile q).trans (if_neg hq))

/-- Every change of a file system that there can be has exactly the effect that it is made for, on
the files, on the directories and on what is read, whatever text names the path. -/
theorem Reached.changes_exact (h : Reached fs) (name : String) :
    let p := FullPath.ofString name
    (∀ content fs', fs.write p content = .ok fs' →
      fs.Becomes fs'
        (fun q => if q = p then
          some ⟨content, ((fs.entries.get? p).map (·.mode)).getD 0o644⟩ else fs.entries.get? q)
        (fun q => q ∈ p.ancestors ∨ fs.isDir q) ∧
      (∀ other, FullPath.ofString other = p →
        fs'.readBytes (.ofString other) = .ok content ∧
        ∀ text, content = Text.utf8 text → fs'.readText (.ofString other) = .ok text) ∧
      ∀ other, FullPath.ofString other ≠ p →
        (∀ bytes, fs'.readBytes (.ofString other) = .ok bytes ↔
          fs.readBytes (.ofString other) = .ok bytes) ∧
        ∀ text, fs'.readText (.ofString other) = .ok text ↔
          fs.readText (.ofString other) = .ok text) ∧
    (∀ parents mayExist fs', fs.createDir p parents mayExist = .ok fs' →
      fs.Becomes fs' fs.entries.get? (fun q => q = p ∨ q ∈ p.ancestors ∨ fs.isDir q)) ∧
    (∀ fs', fs.removeFile p = .ok fs' → fs.isFile p ∧
      fs.Becomes fs' (fun q => if q = p then none else fs.entries.get? q) (fun q => fs.isDir q)) ∧
    (∀ fs', fs.removeDir p = .ok fs' → fs.isDir p ∧
      fs.Becomes fs' fs.entries.get? (fun q => q ≠ p ∧ fs.isDir q)) ∧
    (∀ content mode,
      (p = .root → fs.withFile p content mode = fs) ∧
      (p ≠ .root → fs.Becomes (fs.withFile p content mode)
        (fun q => if q = p then some ⟨content, mode % 0o10000⟩
          else if q ∈ p.ancestors ∨ p ∈ q.ancestors then none else fs.entries.get? q)
        (fun q => q ∈ p.ancestors ∨ (fs.isDir q ∧ q ≠ p ∧ p ∉ q.ancestors)))) ∧
    fs.Becomes (fs.withDir p)
      (fun q => if q = p ∨ q ∈ p.ancestors then none else fs.entries.get? q)
      (fun q => q = p ∨ q ∈ p.ancestors ∨ fs.isDir q) := by
  intro p
  have hs := h.sound
  have hp : p.IsNormal := isNormal_ofText name.toList
  refine ⟨fun content fs' hfs => ⟨hs.write_becomes hfs, ?_, ?_⟩,
    fun _ _ _ hfs => hs.createDir_becomes hfs, fun _ hfs => removeFile_becomes hfs,
    fun _ hfs => removeDir_becomes hfs, fun content mode => ⟨fun hroot => ?_, fun hroot => ?_⟩,
    hs.withDir_becomes⟩
  · intro other hother
    rw [hother]
    exact (reads_of_write hs hfs).1
  · exact fun other hother => (reads_of_write hs hfs).2 _ hother
  · exact if_pos (by simpa using hroot)
  · exact hs.withFile_becomes hp hroot content mode

/-- A file that is written again by another name of its path keeps its mode. -/
theorem Reached.changes_exact_again :
    let fs := FileSystem.empty.withFile (.ofString "a/b") [1] 0o600
    Reached fs ∧ ∃ fs', fs.write (.ofString "/a//./b") [2] = .ok fs' ∧
      fs'.entries.get? (.ofString "a/b") = some ⟨[2], 0o600⟩ ∧
      fs'.readBytes (.ofString "x/../a/b") = .ok [2] := by
  intro fs
  have hreached : Reached fs := .withFile _ _ _ .empty
  have hname : FullPath.ofString "/a//./b" = .ofString "a/b" := by cbv
  have hother : FullPath.ofString "x/../a/b" = .ofString "a/b" := by decide +kernel
  have hroot : FullPath.ofString "a/b" ≠ .root := by
    have htext : FullPath.ofString "a/b" = ⟨['/', 'a', '/', 'b']⟩ := by cbv
    rw [htext]
    decide
  have hbefore : FileSystem.empty.Becomes fs _ _ :=
    (Reached.empty.changes_exact "a/b").2.2.2.2.1 [1] 0o600 |>.2 hroot
  have hfile : fs.entries.get? (.ofString "a/b") = some ⟨[1], 0o600⟩ :=
    (hbefore.file _).trans (if_pos rfl)
  have hisFile : fs.isFile (.ofString "a/b") := PathMap.contains_iff.mpr ⟨_, hfile⟩
  have hdir : ¬ fs.isDir (.ofString "a/b") := hreached.sound.disjoint _ hisFile
  have hway : ¬ fs.isBlocked (.ofString "a/b") :=
    hreached.sound.not_isBlocked_of_contains (contains_iff.mpr (.inl hisFile))
  rw [hname]
  obtain ⟨fs', hwrite⟩ : ∃ fs', fs.write (.ofString "a/b") [2] = .ok fs' := by
    unfold FileSystem.write
    rw [if_neg hdir, if_neg hway]
    exact ⟨_, rfl⟩
  obtain ⟨hafter, hread, -⟩ := (hreached.changes_exact "a/b").1 [2] fs' hwrite
  refine ⟨hreached, fs', hwrite, ?_, (hread _ hother).1⟩
  rw [hafter.file, if_pos rfl, hfile]
  rfl

end Resumable.FileSystem
