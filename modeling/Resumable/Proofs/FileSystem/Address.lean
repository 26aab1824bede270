import Resumable.Operation.Builtins
import Resumable.Proofs.FileSystem.Path
import Resumable.Proofs.Lockstep.Basic

/-!
# What the paths of programs address

A program computes with paths as texts of components, where `..` stands for itself and a path may be
relative; a file system follows a text from its root. They agree about components: what a file
system follows are the components of a text alone (`FullPath.ofText_eq_follow`), and joining paths
puts their components one behind the other. So a path that a program builds from parts addresses
what the parts lead to, from the last absolute one on (`Builds.addresses`). The one exception is an
empty text that a path is put below: it counts as the root then, though not in front of other parts
(`not_addresses_below_empty`).
-/

namespace Resumable

namespace Path

/-! ## Components of texts -/

theorem components_nil : components [] = [] := by
  rw [components, pieces_of_not_mem (by simp)]
  rfl

theorem components_here : components ['.'] = [] := by
  rw [components, pieces_of_not_mem (by simp)]
  rfl

theorem components_append (a b : List Char) :
    components (a ++ '/' :: b) = components a ++ components b := by
  simp only [components, pieces_append, List.filter_append]

theorem components_slash (s : List Char) : components ('/' :: s) = components s := by
  rw [← List.nil_append ('/' :: s), components_append, components_nil, List.nil_append]

theorem components_intercalate (parts : List (List Char)) :
    components (['/'].intercalate parts) = parts.flatMap components := by
  induction parts with
  | nil => exact components_nil
  | cons part rest ih =>
    cases rest with
    | nil => simp
    | cons next rest =>
      rw [List.intercalate_cons_cons, List.append_assoc, List.singleton_append, components_append,
        ih]
      rfl

/-- A text that is one component. -/
structure IsComponent (s : List Char) : Prop where
  not_nil : s ≠ []
  not_here : s ≠ ['.']
  not_slash : '/' ∉ s

theorem isComponent_of_mem {s piece : List Char} (h : piece ∈ components s) :
    IsComponent piece := by
  obtain ⟨hmem, hkept⟩ := List.mem_filter.mp h
  obtain ⟨hempty, hhere⟩ : piece ≠ [] ∧ piece ≠ ['.'] := by simpa using hkept
  exact ⟨hempty, hhere, not_mem_of_mem_pieces hmem⟩

theorem IsComponent.components_eq {s : List Char} (h : IsComponent s) : components s = [s] := by
  rw [components, pieces_of_not_mem h.not_slash]
  simp [h.not_nil, h.not_here]

section
variable {absolute : Bool} {parts : List (List Char)}

theorem components_ofComponents (h : ∀ s ∈ parts, IsComponent s) :
    components (ofComponents absolute parts) = parts := by
  have hjoined : components (['/'].intercalate parts) = parts := by
    rw [components_intercalate, List.flatMap_congr fun s hs => (h s hs).components_eq]
    simp
  simp only [ofComponents]
  split
  · rw [components_slash, hjoined]
  split
  · rename_i hempty
    rw [components_here, ← hjoined, List.isEmpty_iff.mp hempty, components_nil]
  · exact hjoined

theorem ofComponents_ne_nil : ofComponents absolute parts ≠ [] := by
  simp only [ofComponents]
  split
  · exact List.cons_ne_nil _ _
  split
  · exact List.cons_ne_nil _ _
  · rename_i hjoined
    simpa using hjoined

theorem isAbsolute_ofComponents (h : ∀ s ∈ parts, IsComponent s) :
    isAbsolute (ofComponents absolute parts) = absolute := by
  unfold ofComponents
  split
  · rename_i habsolute
    rw [habsolute]
    rfl
  · rename_i hrelative
    rw [Bool.eq_false_iff.mpr hrelative]
    cases hparts : parts with
    | nil => rfl
    | cons piece rest =>
      obtain ⟨hempty, -, hslash⟩ := h piece (hparts ▸ List.mem_cons_self)
      obtain ⟨c, piece, rfl⟩ := List.exists_cons_of_ne_nil hempty
      have hc : c ≠ '/' := fun hc => hslash (by simp [hc])
      cases rest <;> simp [isAbsolute, List.intercalate_cons_cons, hc]

end

theorem components_normalize (s : List Char) : components (normalize s) = components s :=
  components_ofComponents fun _ => isComponent_of_mem

theorem normalize_ne_nil (s : List Char) : normalize s ≠ [] := ofComponents_ne_nil

theorem isAbsolute_normalize (s : List Char) : isAbsolute (normalize s) = isAbsolute s :=
  isAbsolute_ofComponents fun _ => isComponent_of_mem

/-! ## Joining -/

variable {base part : List Char}

theorem join_of_absolute (h : isAbsolute part) : join base part = normalize part := by
  simp [join, h]

theorem join_here (part : List Char) : join ['.'] part = normalize part := by
  simp [join]

theorem join_of_relative (h : ¬ isAbsolute part) (hbase : base ≠ ['.']) :
    join base part = normalize (base ++ '/' :: part) := by
  simp [join, h, hbase]

theorem components_join : components (join base part) =
    if isAbsolute part then components part else components base ++ components part := by
  split
  · rename_i habsolute
    rw [join_of_absolute habsolute, components_normalize]
  · rename_i hrelative
    by_cases hbase : base = ['.']
    · rw [hbase, join_here, components_normalize, components_here, List.nil_append]
    · rw [join_of_relative hrelative hbase, components_normalize, components_append]

/-- A path below another one begins where that one begins, unless that one is an empty text. -/
theorem isAbsolute_join (h : base ≠ []) :
    isAbsolute (join base part) = (isAbsolute part || isAbsolute base) := by
  by_cases habsolute : isAbsolute part
  · rw [join_of_absolute habsolute, isAbsolute_normalize, habsolute, Bool.true_or]
  rw [Bool.eq_false_iff.mpr habsolute, Bool.false_or]
  by_cases hbase : base = ['.']
  · rw [hbase, join_here, isAbsolute_normalize, Bool.eq_false_iff.mpr habsolute]
    rfl
  · obtain ⟨c, base, rfl⟩ := List.exists_cons_of_ne_nil h
    rw [join_of_relative habsolute hbase, isAbsolute_normalize]
    rfl

theorem join_ne_nil : join base part ≠ [] := by
  unfold join
  split <;> exact normalize_ne_nil _

end Path

/-! ## What a file system follows -/

namespace FullPath

/-- Pieces that are no components lead nowhere. -/
theorem follow_filter (back pieces : List (List Char)) :
    follow back (pieces.filter fun piece => !piece.isEmpty && piece != ['.']) =
      follow back pieces := by
  induction pieces generalizing back with
  | nil => rfl
  | cons piece rest ih =>
    by_cases hhere : piece == [] || piece == ['.']
    · rw [List.filter_cons_of_neg (by simpa [or_iff_not_imp_left] using hhere), ih, follow,
        if_pos hhere]
    · rw [List.filter_cons_of_pos (by simpa using hhere), follow, follow, if_neg hhere,
        if_neg hhere, ih, ih]

/-- A text leads to where its components lead. -/
theorem ofText_eq_follow (s : List Char) :
    ofText s = ofSegments (follow [] (Path.components s)).reverse := by
  rw [Path.components, follow_filter]
  rfl

theorem ofText_eq_of_components {s t : List Char} (h : Path.components s = Path.components t) :
    ofText s = ofText t := by
  rw [ofText_eq_follow, h, ← ofText_eq_follow]

theorem ofText_normalize (s : List Char) : ofText (Path.normalize s) = ofText s :=
  ofText_eq_of_components (Path.components_normalize s)

theorem ofText_join (base part : List Char) : ofText (Path.join base part) =
    if Path.isAbsolute part then ofText part else ofText (base ++ '/' :: part) := by
  split
  · rename_i habsolute
    exact ofText_eq_of_components (by rw [Path.components_join, if_pos habsolute])
  · rename_i hrelative
    refine ofText_eq_of_components ?_
    rw [Path.components_join, if_neg hrelative, Path.components_append]

end FullPath

/-! ## Paths that are built from parts -/

namespace Path

/-- The parts from the last absolute one on, or all of them if none is absolute. -/
def fromLastAbsolute : List (List Char) → List (List Char)
  | [] => []
  | part :: rest => if rest.any isAbsolute then fromLastAbsolute rest else part :: rest

theorem fromLastAbsolute_of_relative {parts : List (List Char)} (h : ¬ parts.any isAbsolute) :
    fromLastAbsolute parts = parts := by
  cases parts with
  | nil => rfl
  | cons part rest =>
    rw [List.any_cons, Bool.or_eq_true, not_or] at h
    rw [fromLastAbsolute, if_neg h.2]

theorem fromLastAbsolute_append (before after : List (List Char)) :
    fromLastAbsolute (before ++ after) =
      if after.any isAbsolute then fromLastAbsolute after
      else fromLastAbsolute before ++ after := by
  induction before with
  | nil =>
    split
    · rfl
    · rename_i hafter
      exact fromLastAbsolute_of_relative hafter
  | cons part before ih =>
    rw [List.cons_append, fromLastAbsolute, fromLastAbsolute, List.any_append, ih]
    by_cases hafter : after.any isAbsolute
    · simp [hafter]
    · by_cases hbefore : before.any isAbsolute <;> simp [hafter, hbefore]

/-- A text has the components of parts from the last absolute one on, and is absolute if one of them
is. -/
structure Spells (s : List Char) (parts : List (List Char)) : Prop where
  components : components s = (fromLastAbsolute parts).flatMap Path.components
  absolute : isAbsolute s = parts.any isAbsolute

theorem spells_self (s : List Char) : Spells s [s] := ⟨by simp [fromLastAbsolute], by simp⟩

theorem spells_here : Spells ['.'] [] := ⟨components_here, rfl⟩

theorem Spells.join {base part : List Char} {parts more : List (List Char)} (hb : Spells base parts)
    (hp : Spells part more) (h : base ≠ []) : Spells (join base part) (parts ++ more) := by
  constructor
  · rw [components_join, fromLastAbsolute_append, hp.absolute]
    split
    · exact hp.components
    · rename_i hmore
      rw [List.flatMap_append, hb.components, hp.components, fromLastAbsolute_of_relative hmore]
  · rw [isAbsolute_join h, hb.absolute, hp.absolute, List.any_append, Bool.or_comm]

/-- What is spelled out by parts leads to where their texts do, one behind the other. -/
theorem Spells.ofText_eq {s : List Char} {parts : List (List Char)} (h : Spells s parts) :
    FullPath.ofText s = FullPath.ofText (['/'].intercalate (fromLastAbsolute parts)) :=
  FullPath.ofText_eq_of_components (h.components.trans (components_intercalate _).symm)

/-- A text or a path that parts spell out; a path is never empty. -/
inductive Stands : Value → List (List Char) → Prop
  | text {s : String} {parts : List (List Char)} (h : Spells s.toList parts) :
    Stands (.str s) parts
  | path {s : String} {parts : List (List Char)} (h : Spells s.toList parts) (hne : s ≠ "") :
    Stands (.path s) parts

theorem stands_path {s : List Char} {parts : List (List Char)} (h : Spells s parts)
    (hne : s ≠ []) : Stands (.path (String.ofList s)) parts :=
  .path (by rwa [String.toList_ofList]) (by simpa using hne)

variable {heap : Heap}

theorem joinAll_spells (heap : Heap) {args : List (Value × List (List Char))}
    (h : ∀ a ∈ args, Stands a.1 a.2) {base : List Char} {parts : List (List Char)}
    (hb : Spells base parts) (hne : base ≠ []) :
    ∃ s, PathMethod.joinAll base (args.map (·.1)) heap = .ok s heap ∧ s ≠ [] ∧
      Spells s (parts ++ args.flatMap (·.2)) := by
  induction args generalizing base parts with
  | nil => exact ⟨base, rfl, hne, by simpa using hb⟩
  | cons a args ih =>
    obtain ⟨v, more⟩ := a
    have hv := h _ List.mem_cons_self
    have hargs := fun b hb => h b (List.mem_cons_of_mem _ hb)
    rw [List.flatMap_cons, ← List.append_assoc]
    cases hv with
    | text hs => exact ih hargs (hb.join hs hne) join_ne_nil
    | path hs _ => exact ih hargs (hb.join hs hne) join_ne_nil

/-! ## The operations of programs -/

theorem call_path_stands {args : List (Value × List (List Char))}
    (h : ∀ a ∈ args, Stands a.1 a.2) :
    ∃ s, BuiltinCall.call .path ⟨args.map (·.1), []⟩ heap = .ok (.value (.path s)) heap ∧
      Stands (.path s) (args.flatMap (·.2)) := by
  obtain ⟨s, hrun, hne, hs⟩ := joinAll_spells heap h spells_here (by simp)
  have hnamed : Arguments.noNamed ⟨args.map (·.1), []⟩ "Path" heap = .ok () heap := rfl
  refine ⟨_, ?_, stands_path hs hne⟩
  simp only [BuiltinCall.call, map_eq_pure_bind, bind_assoc]
  rw [bind_ok hnamed, bind_ok hrun]
  rfl

theorem call_joinpath_stands {path : String} {parts : List (List Char)}
    (hp : Stands (.path path) parts) {args : List (Value × List (List Char))}
    (h : ∀ a ∈ args, Stands a.1 a.2) :
    ∃ action s, PathMethod.call path "joinpath" ⟨args.map (·.1), []⟩ = some action ∧
      action heap = .ok (.path s) heap ∧ Stands (.path s) (parts ++ args.flatMap (·.2)) := by
  cases hp with
  | path hpath hne =>
    obtain ⟨s, hrun, hsne, hs⟩ := joinAll_spells heap h hpath (by simpa using hne)
    have hall : Arguments.between ⟨args.map (·.1), []⟩ "joinpath" 0 none heap =
      .ok (args.map (·.1)) heap := rfl
    refine ⟨_, _, rfl, ?_, stands_path hs hsne⟩
    rw [bind_ok hall, bind_ok hrun]
    rfl

theorem binary_div_stands {a b : Value} {parts more : List (List Char)} (ha : Stands a parts)
    (hb : Stands b more) (hne : a ≠ .str "") (hpath : (∃ s, a = .path s) ∨ ∃ s, b = .path s) :
    ∃ s, Heap.binary .div a b heap = .ok (.path s) heap ∧
      Stands (.path s) (parts ++ more) := by
  cases ha with
  | text ha =>
    cases hb with
    | text hb => simp at hpath
    | path hb _ => exact ⟨_, rfl, stands_path (ha.join hb (by simpa using hne)) join_ne_nil⟩
  | path ha hbase =>
    have hbase := mt String.toList_eq_nil_iff.mp hbase
    cases hb with
    | text hb => exact ⟨_, rfl, stands_path (ha.join hb hbase) join_ne_nil⟩
    | path hb _ => exact ⟨_, rfl, stands_path (ha.join hb hbase) join_ne_nil⟩

/-- A value that a program builds from parts. A text is a part; paths are built by calls of `Path`
with parts and paths, by putting these below one another with `/`, and by `joinpath`. Nothing is put
below an empty text. -/
inductive Builds : Value → List (List Char) → Prop
  | part (s : String) : Builds (.str s) [s.toList]
  | path {args : List (Value × List (List Char))} {v : Value} {heap heap' : Heap}
    (hargs : ∀ a ∈ args, Builds a.1 a.2)
    (hrun : BuiltinCall.call .path ⟨args.map (·.1), []⟩ heap = .ok (.value v) heap') :
    Builds v (args.flatMap (·.2))
  | div {a b v : Value} {parts more : List (List Char)} {heap heap' : Heap} (ha : Builds a parts)
    (hb : Builds b more) (hne : a ≠ .str "") (hrun : Heap.binary .div a b heap = .ok v heap') :
    Builds v (parts ++ more)
  | joinpath {path : String} {parts : List (List Char)} {args : List (Value × List (List Char))}
    {action : Heap.Action Value} {v : Value} {heap heap' : Heap} (hp : Builds (.path path) parts)
    (hargs : ∀ a ∈ args, Builds a.1 a.2)
    (hcall : PathMethod.call path "joinpath" ⟨args.map (·.1), []⟩ = some action)
    (hrun : action heap = .ok v heap') : Builds v (parts ++ args.flatMap (·.2))

theorem Builds.stands {v : Value} {parts : List (List Char)} (h : Builds v parts) :
    Stands v parts := by
  induction h with
  | part s => exact .text (spells_self _)
  | path _ hrun ih =>
    obtain ⟨s, hs, hstands⟩ := call_path_stands ih
    rw [hs] at hrun
    cases hrun
    exact hstands
  | @div a b _ _ _ _ _ _ _ hne hrun iha ihb =>
    by_cases hpath : (∃ s, a = .path s) ∨ ∃ s, b = .path s
    · obtain ⟨s, hs, hstands⟩ := binary_div_stands iha ihb hne hpath
      rw [hs] at hrun
      cases hrun
      exact hstands
    · -- two texts are not divided
      cases iha with
      | path => exact absurd (.inl ⟨_, rfl⟩) hpath
      | text =>
        cases ihb with
        | path => exact absurd (.inr ⟨_, rfl⟩) hpath
        | text => cases hrun
  | joinpath _ _ hcall hrun ihp ihargs =>
    obtain ⟨action, s, haction, hs, hstands⟩ := call_joinpath_stands ihp ihargs
    rw [hcall] at haction
    cases haction
    rw [hs] at hrun
    cases hrun
    exact hstands

/-- A path that is built from parts leads to where their texts do, one behind the other and from the
last absolute one on. -/
theorem Builds.addresses {p : String} {parts : List (List Char)} (h : Builds (.path p) parts) :
    FullPath.ofString p = FullPath.ofText (['/'].intercalate (fromLastAbsolute parts)) := by
  cases h.stands with
  | path hspells _ => exact hspells.ofText_eq

/-- A path below an empty text is at the root, where the parts with `/a` in front lead to `/a/x`. -/
theorem not_addresses_below_empty (heap : Heap) :
    Heap.binary .div (.str "") (.path "x") heap = .ok (.path "/x") heap ∧
    Heap.binary .div (.str "/a") (.path "/x") heap = .ok (.path "/x") heap ∧
    FullPath.ofString "/x" ≠
      FullPath.ofText (['/'].intercalate (fromLastAbsolute [['/', 'a'], [], ['x']])) := by
  have hempty : String.ofList (join "".toList "x".toList) = "/x" := by cbv
  have hbelow : String.ofList (join "/a".toList "/x".toList) = "/x" := by cbv
  refine ⟨congrArg (fun s => EStateM.Result.ok (Value.path s) heap) hempty,
    congrArg (fun s => EStateM.Result.ok (Value.path s) heap) hbelow, ?_⟩
  have hnamed : FullPath.ofString "/x" = ⟨['/', 'x']⟩ := by cbv
  have hmeant : FullPath.ofText (['/'].intercalate (fromLastAbsolute [['/', 'a'], [], ['x']])) =
      ⟨['/', 'a', '/', 'x']⟩ := by cbv
  rw [hnamed, hmeant]
  decide

end Path

end Resumable
