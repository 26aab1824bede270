import Mathlib.Logic.ExistsUnique
import Resumable.Proofs.FileSystem.Effect

/-!
# Kinds of paths

What an operation on a path comes to depends on what the path is: a file, a directory, blocked by a
file on the way to it, or missing. Each operation looks at the files, the directories and the way to
a path in an order of its own; that they all agree rests on the tree that files and directories
form, in which each path is of exactly one kind. Main statement: `Reached.outcomes_by_kind`.
-/

namespace Resumable

/-- What a path is in a file system. -/
inductive PathKind where
  | file
  | dir
  /-- A file stands where a directory on the way to the path should be. -/
  | blocked
  | missing
deriving DecidableEq, Repr

namespace PathKind

/-! ## What operations come to

Each error names the path of the operation. -/

/-- Reading or removing a file. -/
def onFile (p : FullPath) : PathKind → Except FileError Unit
  | .file => .ok ()
  | .dir => .error (.isDirectory p)
  | .blocked => .error (.notDirectory p)
  | .missing => .error (.notFound p)

/-- Asking for the status. -/
def onStatus (p : FullPath) : PathKind → Except FileError Unit
  | .file | .dir => .ok ()
  | .blocked => .error (.notDirectory p)
  | .missing => .error (.notFound p)

/-- Listing a directory. -/
def onList (p : FullPath) : PathKind → Except FileError Unit
  | .dir => .ok ()
  | .file | .blocked => .error (.notDirectory p)
  | .missing => .error (.notFound p)

/-- Writing a file. -/
def onWrite (p : FullPath) : PathKind → Except FileError Unit
  | .file | .missing => .ok ()
  | .dir => .error (.isDirectory p)
  | .blocked => .error (.notDirectory p)

/-- Making a directory, in a place that is a directory or not. -/
def onCreateDir (p : FullPath) (parents mayExist inDir : Bool) : PathKind → Except FileError Unit
  | .file => .error (.alreadyExists p)
  | .dir => if mayExist then .ok () else .error (.alreadyExists p)
  | .blocked => .error (.notDirectory p)
  | .missing => if parents || inDir then .ok () else .error (.notFound p)

end PathKind

namespace FileSystem

open FullPath

variable {fs : FileSystem} {p : FullPath} {k : PathKind}

/-- Whether a path is of a kind. -/
def IsOfKind (fs : FileSystem) (p : FullPath) : PathKind → Prop
  | .file => fs.isFile p
  | .dir => fs.isDir p
  | .blocked => ∃ a ∈ p.ancestors, fs.isFile a
  | .missing => ¬ fs.isFile p ∧ ¬ fs.isDir p ∧ ¬ ∃ a ∈ p.ancestors, fs.isFile a

/-- Whether an operation succeeds, and how it fails if it does not. -/
def outcome {α : Type} (r : Except FileError α) : Except FileError Unit := r.map fun _ => ()

namespace Sound

/-- The kind of a path decides each of the questions that the operations ask. -/
theorem isOfKind_iff (h : fs.Sound) : fs.IsOfKind p k ↔
    fs.isFile p = (k == .file) ∧ fs.isDir p = (k == .dir) ∧ fs.isBlocked p = (k == .blocked) := by
  have hfile := h.disjoint p
  have hway : fs.isFile p ∨ fs.isDir p → ¬ fs.isBlocked p := fun hp =>
    h.not_isBlocked_of_contains (contains_iff.mpr hp)
  cases k <;> simp only [IsOfKind, ← isBlocked_iff] <;> grind

theorem existsUnique_kind (h : fs.Sound) (p : FullPath) : ∃! k, fs.IsOfKind p k := by
  refine existsUnique_of_exists_of_unique ?_ fun k k' hk hk' => ?_
  · by_cases hfile : fs.isFile p
    · exact ⟨.file, hfile⟩
    by_cases hdir : fs.isDir p
    · exact ⟨.dir, hdir⟩
    by_cases hway : ∃ a ∈ p.ancestors, fs.isFile a
    · exact ⟨.blocked, hway⟩
    · exact ⟨.missing, hfile, hdir, hway⟩
  · obtain ⟨hfile, hdir, hway⟩ := h.isOfKind_iff.mp hk
    obtain ⟨hfile', hdir', hway'⟩ := h.isOfKind_iff.mp hk'
    rw [hfile] at hfile'
    rw [hdir] at hdir'
    rw [hway] at hway'
    cases k <;> cases k' <;> first | rfl | contradiction

/-! ## Operations on a path of a kind -/

section
variable (h : fs.Sound) (hk : fs.IsOfKind p k)
include h hk

/-- Only a file has an entry. -/
theorem entry_or_none : (k = .file ∧ ∃ entry, fs.entries.get? p = some entry) ∨
    (k ≠ .file ∧ fs.entries.get? p = none) := by
  have hfile := (h.isOfKind_iff.mp hk).1
  by_cases hkind : k = .file
  · refine .inl ⟨hkind, PathMap.contains_iff.mp (hfile.trans ?_)⟩
    simpa using hkind
  · refine .inr ⟨hkind, get?_of_not_isFile fun hisFile => hkind ?_⟩
    simpa [hisFile] using hfile

theorem outcome_readBytes : outcome (fs.readBytes p) = k.onFile p := by
  obtain ⟨-, hdir, hway⟩ := h.isOfKind_iff.mp hk
  obtain ⟨rfl, entry, hentry⟩ | ⟨hkind, hnone⟩ := h.entry_or_none hk
  · rw [readBytes, hentry]
    rfl
  · rw [readBytes, hnone, missing, hdir, hway]
    cases k
    case file => exact absurd rfl hkind
    all_goals rfl

theorem outcome_status : outcome (fs.status p) = k.onStatus p := by
  obtain ⟨-, hdir, hway⟩ := h.isOfKind_iff.mp hk
  obtain ⟨rfl, entry, hentry⟩ | ⟨hkind, hnone⟩ := h.entry_or_none hk
  · rw [status, hentry]
    rfl
  · rw [status, hnone, missing, hdir, hway]
    cases k
    case file => exact absurd rfl hkind
    all_goals rfl

theorem outcome_list : outcome (fs.list p) = k.onList p := by
  obtain ⟨hfile, hdir, hway⟩ := h.isOfKind_iff.mp hk
  unfold list missing
  rw [hfile, hdir, hway]
  cases k <;> rfl

theorem outcome_write (content : List UInt8) : outcome (fs.write p content) = k.onWrite p := by
  obtain ⟨-, hdir, hway⟩ := h.isOfKind_iff.mp hk
  unfold FileSystem.write
  rw [hdir, hway]
  cases k <;> rfl

theorem outcome_removeFile : outcome (fs.removeFile p) = k.onFile p := by
  obtain ⟨hfile, hdir, hway⟩ := h.isOfKind_iff.mp hk
  unfold FileSystem.removeFile missing
  rw [hfile, hdir, hway]
  cases k <;> rfl

theorem outcome_createDir (parents mayExist : Bool) :
    outcome (fs.createDir p parents mayExist) =
      k.onCreateDir p parents mayExist (p.parent?.any fs.isDir) := by
  obtain ⟨hfile, hdir, hway⟩ := h.isOfKind_iff.mp hk
  unfold FileSystem.createDir
  rw [hfile, hdir, hway]
  cases k
  case file | blocked => rfl
  case dir => cases mayExist <;> rfl
  case missing => cases p.parent?.any fs.isDir <;> cases parents <;> rfl

end

end Sound

/-- In every file system that there can be, each path is a file, a directory, blocked or missing,
and only one of these. What an operation comes to is decided by that alone, whatever text names the
path, and all errors name the path. -/
theorem Reached.outcomes_by_kind (h : Reached fs) :
    (∀ p, ∃! k, fs.IsOfKind p k) ∧
    ∀ (path : String) k, fs.IsOfKind (.ofString path) k →
      let p := FullPath.ofString path
      outcome (fs.readBytes p) = k.onFile p ∧
      outcome (fs.removeFile p) = k.onFile p ∧
      outcome (fs.status p) = k.onStatus p ∧
      outcome (fs.list p) = k.onList p ∧
      (∀ content, outcome (fs.write p content) = k.onWrite p) ∧
      ∀ parents mayExist, outcome (fs.createDir p parents mayExist) =
        k.onCreateDir p parents mayExist (p.parent?.any fs.isDir) := by
  have hs := h.sound
  exact ⟨hs.existsUnique_kind, fun path k hk => ⟨hs.outcome_readBytes hk, hs.outcome_removeFile hk,
    hs.outcome_status hk, hs.outcome_list hk, hs.outcome_write hk, hs.outcome_createDir hk⟩⟩

/-- Below a file nothing can be read or made, whatever name the path is given. -/
theorem Reached.outcomes_by_kind_below_file :
    let fs := FileSystem.empty.withFile (.ofString "f") [1] 0
    let p : FullPath := ⟨['/', 'f', '/', 'x']⟩
    Reached fs ∧ fs.IsOfKind p .blocked ∧
      outcome (fs.readBytes (.ofString "f/./x")) = .error (.notDirectory p) ∧
      outcome (fs.createDir (.ofString "f/./x") true true) = .error (.notDirectory p) := by
  intro fs p
  have hreached : Reached fs := .withFile _ _ _ .empty
  have hp : FullPath.ofString "f/./x" = p := by cbv
  have hf : FullPath.ofString "f" = ⟨['/', 'f']⟩ := by cbv
  have habove : p.ancestors = [⟨['/', 'f']⟩, .root] := by cbv
  have hfile : fs.isFile ⟨['/', 'f']⟩ := by
    have hroot : FullPath.ofString "f" ≠ .root := by
      rw [hf]
      decide
    have hfs := sound_empty.withFile_becomes (isNormal_ofText _) hroot [1] 0
    rw [← hf]
    exact PathMap.contains_iff.mpr ⟨_, (hfs.file _).trans (if_pos rfl)⟩
  have hkind : fs.IsOfKind (.ofString "f/./x") .blocked := by
    rw [hp]
    exact ⟨_, by simp [habove], hfile⟩
  obtain ⟨hread, -, -, -, -, hcreate⟩ := hreached.outcomes_by_kind.2 _ _ hkind
  rw [hp] at hread hcreate hkind
  refine ⟨hreached, hkind, ?_, ?_⟩
  · rw [hp]
    exact hread
  · rw [hp]
    exact hcreate true true

end FileSystem

end Resumable
