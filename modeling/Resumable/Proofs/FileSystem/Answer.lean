import Mathlib.Data.String.Basic
import Mathlib.Logic.ExistsUnique
import Resumable.Proofs.FileSystem.Effect
import Resumable.Proofs.Pointwise

/-!
# Answers to requests

A request of a program, with whatever arguments, is answered as the operations on typed arguments
answer the one call that it asks for; a new file system comes with the answer exactly if the call is
one for a change and succeeds, so that no change is lost. A request that asks for no call is refused
for an argument. The environment is answered as a whole, in the order of the names: no operation
changes it, and setting a variable puts away its former value. Main statement: `handle_refines`.
-/

namespace Resumable

namespace OsRequest

/-! ## One call at most -/

variable {r : OsRequest} {position : Nat} {name : String}

theorem GivesPath.unique {path path' : String} (h : r.GivesPath position name path)
    (h' : r.GivesPath position name path') : path = path' := by
  obtain h | h := h <;> obtain h' | h' := h' <;> cases h.unique h' <;> rfl

theorem GivesFlag.unique {b b' : Bool} (h : r.GivesFlag position name b)
    (h' : r.GivesFlag position name b') : b = b' :=
  (flag_of_gives h).symm.trans (flag_of_gives h')

/-- A request asks for no more than one call. -/
theorem Asks.unique {c c' : OsCall} (h : r.Asks c) (h' : r.Asks c') : c = c' := by
  obtain ⟨hfunction, hargs⟩ := h
  obtain ⟨hfunction', hargs'⟩ := h'
  have hsame : c.function = c'.function := hfunction.symm.trans hfunction'
  cases c <;> cases c' <;> try cases hsame
  case writeText =>
    rw [hargs.1.unique hargs'.1, Object.string.inj (hargs.2.unique hargs'.2)]
  case writeBytes =>
    rw [hargs.1.unique hargs'.1, Object.bytes.inj (hargs.2.unique hargs'.2)]
  case mkdir =>
    rw [hargs.1.unique hargs'.1, hargs.2.1.unique hargs'.2.1, hargs.2.2.unique hargs'.2.2]
  case rename => rw [hargs.1.unique hargs'.1, hargs.2.unique hargs'.2]
  case getenv default _ default' =>
    have hdefault : default = default' := Option.ext fun v => (hargs.2 v).trans (hargs'.2 v).symm
    rw [Object.string.inj (hargs.1.unique hargs'.1), hdefault]
  case getEnviron => rfl
  all_goals rw [GivesPath.unique hargs hargs']

end OsRequest

namespace FileSystem

variable {fs fs' : FileSystem} {r : OsRequest} {c : OsCall}

/-! ## The environment -/

theorem env_of_rename {source target : FullPath} (h : fs.rename source target = .ok fs') :
    fs'.env = fs.env := by
  obtain ⟨-, ⟨-, rfl⟩ | ⟨-, -, -, -, -, ⟨-, -, -, rfl⟩ | ⟨-, -, rfl⟩⟩⟩ := rename_eq_ok_iff.mp h <;>
    rfl

theorem Sound.env_of_changes (h : fs.Sound) (hfs : fs.Changes fs') : fs'.env = fs.env := by
  cases hfs with
  | write path content hwrite => exact (h.write_becomes hwrite).env
  | createDir path parents mayExist hcreate => exact (h.createDir_becomes hcreate).env
  | removeFile path hremove => exact (removeFile_becomes hremove).2.env
  | removeDir path hremove => exact (removeDir_becomes hremove).2.env
  | rename source target hrename => exact env_of_rename hrename

/-- No variable has two values. -/
theorem Reached.nodup_names (h : Reached fs) : (fs.env.map (·.1)).Nodup := by
  induction h with
  | empty => exact .nil
  | withFile path content mode _ ih =>
    unfold FileSystem.withFile
    split
    · exact ih
    · exact ih
  | withDir path _ ih => exact ih
  | withVariable name value _ ih =>
    refine List.nodup_cons.mpr ⟨?_, (List.filter_sublist.map _).nodup ih⟩
    simp
  | withTime time _ ih => exact ih
  | write hfs hwrite ih => exact hfs.sound.env_of_changes (.write _ _ hwrite) ▸ ih
  | createDir hfs hcreate ih => exact hfs.sound.env_of_changes (.createDir _ _ _ hcreate) ▸ ih
  | removeFile hfs hremove ih => exact hfs.sound.env_of_changes (.removeFile _ hremove) ▸ ih
  | removeDir hfs hremove ih => exact hfs.sound.env_of_changes (.removeDir _ hremove) ▸ ih
  | rename hfs hrename ih => exact hfs.sound.env_of_changes (.rename _ _ hrename) ▸ ih
  | handle hfs hhandle ih => exact hfs.sound.env_of_changes (changes_of_handle hhandle) ▸ ih

theorem names_of_environment (fs : FileSystem) :
    (fs.environment.map (·.1)).Pairwise (· ≤ ·) := by
  have hordered : fs.environment.Pairwise fun x y => !(y.1 < x.1 : Bool) := by
    refine List.pairwise_mergeSort ?_ ?_ _
    · intro x y z hxy hyz
      simp only [Bool.not_eq_true', decide_eq_false_iff_not, not_lt] at hxy hyz ⊢
      exact hxy.trans hyz
    · intro x y
      simp only [Bool.or_eq_true, Bool.not_eq_true', decide_eq_false_iff_not, not_lt]
      exact le_total x.1 y.1
  rw [List.pairwise_map]
  refine hordered.imp fun h => ?_
  simpa only [Bool.not_eq_true', decide_eq_false_iff_not, not_lt] using h

theorem Reached.environment_sorted (h : Reached fs) :
    (fs.environment.map (·.1)).Pairwise (· < ·) := by
  have hnodup : (fs.environment.map (·.1)).Nodup :=
    ((List.mergeSort_perm _ _).map _).nodup_iff.mpr h.nodup_names
  exact (names_of_environment fs).and hnodup |>.imp fun ⟨hle, hne⟩ => lt_of_le_of_ne hle hne

theorem Reached.mem_environment (h : Reached fs) {name value : String} :
    (name, value) ∈ fs.environment ↔ fs.valueOf? name = some value := by
  rw [environment, List.mem_mergeSort, valueOf?, List.lookup_eq_some_iff_mem h.nodup_names]

/-! ## Answers -/

theorem isSome_of_handle (fs : FileSystem) (r : OsRequest) : (fs.handle r).2.isSome ↔
    r.function.isMutating ∧ ∃ v, (fs.handle r).1 = .success v := by
  obtain ⟨c, hasks, hhandle⟩ | ⟨-, -, f, -, hhandle⟩ := asks_or_faults fs r
  · rw [hhandle, hasks.1]
    cases hperform : fs.perform c with
    | error e => simp [reply]
    | ok answered =>
      obtain ⟨v, next⟩ := answered
      simp [reply, isSome_of_perform hperform]
  · simp [hhandle]

/-- Whatever a program asks for with whatever arguments: a new file system comes with the answer if
and only if a change is asked for and succeeds; with all arguments that are needed one call is asked
for, and it is answered as its operation comes out, errors by their type and message; without them
the request is refused; and the environment is the variables with their values, by their names. -/
theorem handle_refines (fs : FileSystem) (r : OsRequest) :
    ((fs.handle r).2.isSome ↔
      r.function.isMutating ∧ ∃ v, (fs.handle r).1 = .success v) ∧
    ((∃! c, r.Asks c) ↔ ∀ q ∈ r.function.parameters, r.Supplies q) ∧
    (∀ c, r.Asks c →
      (∀ v next, fs.perform c = .ok (v, next) → fs.handle r = (.success v, next)) ∧
      ∀ e, fs.perform c = .error e →
        fs.handle r = (.failure ⟨e.exceptionType, e.message⟩, none)) ∧
    ((∃ q ∈ r.function.parameters, ¬ r.Supplies q) →
      ∃ q ∈ r.function.parameters, ∃ f, r.Faults q f ∧ f.kind = .typeError ∧
        fs.handle r = (.failure f, none)) ∧
    (Reached fs → (fs.environment.map (·.1)).Pairwise (· < ·) ∧
      ∀ name value, (name, value) ∈ fs.environment ↔ fs.valueOf? name = some value) := by
  refine ⟨isSome_of_handle fs r, ?_, fun c hasks => ?_, fun h => ?_, fun h => ?_⟩
  · rw [← exists_asks_iff]
    exact ⟨ExistsUnique.exists,
      fun h => existsUnique_of_exists_of_unique h fun c c' => OsRequest.Asks.unique⟩
  · rw [handle_of_asks hasks]
    exact ⟨fun v next h => by rw [h]; rfl, fun e h => by rw [h]; rfl⟩
  · obtain ⟨q, hq, f, hf, herror⟩ := exists_answer_error h
    exact ⟨q, hq, f, hf, hf.kind_eq, handle_of_answer_error herror⟩
  · exact ⟨h.environment_sorted, fun name value => h.mem_environment⟩

/-- The first of two arguments of a name is written, to the file that the path leads to; a request
without its second argument is refused. -/
theorem handle_refines_of_write :
    let fs := FileSystem.empty.withVariable "HOME" "/a"
    let write : OsRequest :=
      ⟨.writeText, [.path "/a/../b"], [("data", .string "é"), ("data", .none)]⟩
    let rename : OsRequest := ⟨.rename, [.string "/b"], []⟩
    Reached fs ∧ write.Asks (.writeText "/a/../b" "é") ∧
      (∃ next, fs.write ⟨['/', 'b']⟩ [195, 169] = .ok next ∧
        fs.handle write = (.success (.int 2), some next)) ∧
      (∃ f, f.kind = .typeError ∧ fs.handle rename = (.failure f, none)) ∧
      ("HOME", "/a") ∈ fs.environment := by
  intro fs write rename
  have hreached : Reached fs := .withVariable _ _ .empty
  have hasks : write.Asks (.writeText "/a/../b" "é") :=
    ⟨rfl, .inl (.positional rfl), .named [] [("data", .none)] (by decide) rfl (by simp)⟩
  have hpath : FullPath.ofString "/a/../b" = ⟨['/', 'b']⟩ := by decide +kernel
  have hway : FullPath.ancestors ⟨['/', 'b']⟩ = [.root] := by cbv
  have hdata : Text.utf8 "é" = [195, 169] := by decide
  have hdir : fs.isDir ⟨['/', 'b']⟩ = false := rfl
  have hfree : fs.isBlocked ⟨['/', 'b']⟩ = false := by
    rw [isBlocked, hway]
    rfl
  obtain ⟨next, hnext⟩ : ∃ next, fs.write ⟨['/', 'b']⟩ [195, 169] = .ok next := by
    rw [FileSystem.write, hdir, hfree]
    exact ⟨_, rfl⟩
  have hperform : fs.perform (.writeText "/a/../b" "é") = .ok (.int 2, some next) := by
    simp only [perform, hpath, hdata, hnext]
    rfl
  have hlacks : ∃ q ∈ rename.function.parameters, ¬ rename.Supplies q := by
    refine ⟨⟨1, "target", .path⟩, by simp [rename, OsFunction.parameters], ?_⟩
    rintro ⟨v, hv, -⟩
    cases OsRequest.gives_iff.mp hv
  obtain ⟨-, -, hanswer, -, henv⟩ := handle_refines fs write
  obtain ⟨-, -, f, -, hkind, hrefused⟩ := (handle_refines fs rename).2.2.2.1 hlacks
  exact ⟨hreached, hasks, ⟨next, hnext, (hanswer _ hasks).1 _ _ hperform⟩, ⟨f, hkind, hrefused⟩,
    ((henv hreached).2 _ _).mpr rfl⟩

end FileSystem

end Resumable
