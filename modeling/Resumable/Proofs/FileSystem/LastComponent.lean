import Resumable.Operation.PathMethods
import Resumable.Proofs.FileSystem.Address

/-!
# The last component of a path

A normal path is made of components (`isNormal_iff`), of which the last one is its name and those in
front of it are its parent. `with_name` joins a text to the parent, and so do `with_suffix` and the
stem with a suffix. That changes the name alone if the text is one component; any other text is
spread over the path, or replaces it (`parent_name_join_iff`). What takes a path apart gives what
puts it together again: the parent and the name, the stem and the suffix, and the parts. Main
statements: `components_recompose`, `PathMethod.with_name_changes_name_iff`,
`PathMethod.with_suffix_changes_suffix_iff`.
-/

namespace Resumable

namespace Path

/-- A path is normal if it is the one that its text means. -/
def IsNormal (p : List Char) : Prop := normalize p = p

variable {absolute : Bool} {parts init : List (List Char)} {last s p : List Char}

/-! ## Paths of components -/

theorem normalize_ofComponents (h : ∀ c ∈ parts, IsComponent c) :
    normalize (ofComponents absolute parts) = ofComponents absolute parts := by
  rw [normalize, isAbsolute_ofComponents h, components_ofComponents h]

theorem isNormal_iff : IsNormal p ↔
    ∃ absolute parts, (∀ c ∈ parts, IsComponent c) ∧ p = ofComponents absolute parts := by
  constructor
  · intro h
    exact ⟨isAbsolute p, components p, fun _ => isComponent_of_mem, h.symm⟩
  · rintro ⟨absolute, parts, h, rfl⟩
    exact normalize_ofComponents h

theorem isNormal_normalize (s : List Char) : IsNormal (normalize s) :=
  normalize_ofComponents fun _ => isComponent_of_mem

theorem isNormal_join (base s : List Char) : IsNormal (join base s) := by
  unfold join
  split <;> exact isNormal_normalize _

/-- Joining puts components behind those of the base, unless what is joined is absolute. -/
theorem join_ofComponents (h : ∀ c ∈ parts, IsComponent c) (s : List Char) :
    join (ofComponents absolute parts) s =
      if isAbsolute s then ofComponents true (components s)
      else ofComponents absolute (parts ++ components s) := by
  rw [← isNormal_join (ofComponents absolute parts) s, normalize,
    isAbsolute_join ofComponents_ne_nil, components_join, isAbsolute_ofComponents h,
    components_ofComponents h]
  cases hs : isAbsolute s with
  | true => simp
  | false => simp

/-- The text of a path with a name is that of its parent, a slash and the name. -/
theorem ofComponents_concat (h : ∀ c ∈ init, IsComponent c) (hlast : IsComponent last) :
    ofComponents absolute (init ++ [last]) =
      if init = [] then (if absolute then '/' :: last else last)
      else ofComponents absolute init ++ '/' :: last := by
  have hconcat : ∀ init : List (List Char), init ≠ [] →
      ['/'].intercalate (init ++ [last]) = ['/'].intercalate init ++ '/' :: last := by
    intro init hinit
    induction init with
    | nil => exact absurd rfl hinit
    | cons c init ih =>
      by_cases hrest : init = []
      · simp [hrest]
      · rw [List.cons_append, List.intercalate_cons_of_ne_nil (by simp),
          List.intercalate_cons_of_ne_nil hrest, ih hrest]
        simp
  by_cases hinit : init = []
  · simp [hinit, ofComponents, hlast.not_nil]
  · have hne : ['/'].intercalate init ≠ [] := by
      obtain ⟨c, rest, rfl⟩ := List.exists_cons_of_ne_nil hinit
      obtain ⟨x, c, rfl⟩ := List.exists_cons_of_ne_nil (h c (by simp)).not_nil
      simp
    cases absolute <;> simp [ofComponents, hconcat init hinit, hinit, hne]

theorem isBare_ofComponents (h : ∀ c ∈ parts, IsComponent c) :
    isBare (ofComponents absolute parts) ↔ parts = [] := by
  constructor
  · intro hbare
    have hparts : components (ofComponents absolute parts) = parts := components_ofComponents h
    unfold isBare at hbare
    rw [Bool.or_eq_true, beq_iff_eq, beq_iff_eq] at hbare
    obtain hroot | hhere := hbare
    · rw [← hparts, hroot, components_slash, components_nil]
    · rw [← hparts, hhere, components_here]
  · rintro rfl
    cases absolute <;> rfl

/-! ## Name and parent -/

section
variable {c : Char}

theorem behindLast_append (before : List Char) (h : c ∉ s) :
    behindLast c (before ++ c :: s) = s := by
  have htake : (s.reverse ++ c :: before.reverse).takeWhile (· != c) = s.reverse := by
    rw [List.takeWhile_append_of_pos (by simpa using fun d hd => ne_of_mem_of_not_mem hd h)]
    simp
  simp [behindLast, htake]

theorem behindLast_of_not_mem (h : c ∉ s) : behindLast c s = s := by
  have htake : s.reverse.takeWhile (· != c) = s.reverse := by
    rw [List.takeWhile_eq_self_iff]
    simpa using fun d hd => ne_of_mem_of_not_mem hd h
  simp [behindLast, htake]

theorem eq_append_of_mem (h : c ∈ s) : ∃ before after, s = before ++ c :: after ∧ c ∉ after := by
  obtain ⟨after, before, hs, hafter⟩ := List.eq_append_cons_of_mem (List.mem_reverse.mpr h)
  refine ⟨before.reverse, after.reverse, ?_, by simpa using hafter⟩
  rw [← s.reverse_reverse, hs]
  simp

end

theorem not_isBare_concat (h : ∀ c ∈ init, IsComponent c) (hlast : IsComponent last) :
    isBare (ofComponents absolute (init ++ [last])) = false := by
  have hparts : ∀ c ∈ init ++ [last], IsComponent c := by
    simpa [or_imp, forall_and] using ⟨h, hlast⟩
  rw [Bool.eq_false_iff]
  intro hbare
  simpa using (isBare_ofComponents hparts).mp hbare

theorem name_concat (h : ∀ c ∈ init, IsComponent c) (hlast : IsComponent last) :
    name (ofComponents absolute (init ++ [last])) = last := by
  rw [name, not_isBare_concat h hlast, ofComponents_concat h hlast]
  by_cases hinit : init = []
  · cases absolute with
    | true => simpa [hinit] using behindLast_append [] hlast.not_slash
    | false => simpa [hinit] using behindLast_of_not_mem hlast.not_slash
  · simpa [hinit] using behindLast_append _ hlast.not_slash

/-- The parent of a text that is not bare is what is in front of its last slash, or the root. -/
theorem parent_append (before : List Char) (h : '/' ∉ s)
    (hbare : isBare (before ++ '/' :: s) = false) :
    parent (before ++ '/' :: s) = if before = [] then ['/'] else before := by
  have hdrop : (before ++ '/' :: s).reverse.dropWhile (· != '/') = '/' :: before.reverse := by
    rw [List.reverse_append, List.reverse_cons, List.append_assoc,
      List.dropWhile_append_of_pos (by simpa using fun c hc => ne_of_mem_of_not_mem hc h)]
    simp
  rw [parent, hbare, hdrop]
  cases hrest : before.reverse with
  | nil => simp [List.reverse_eq_nil_iff.mp hrest]
  | cons c rest =>
    have hne : before ≠ [] := by
      rintro rfl
      cases hrest
    simp [hne, ← hrest]

theorem parent_of_not_mem (h : '/' ∉ s) (hbare : isBare s = false) : parent s = ['.'] := by
  have hdrop : s.reverse.dropWhile (· != '/') = [] := by
    rw [List.dropWhile_eq_nil_iff]
    simpa using fun c hc => ne_of_mem_of_not_mem hc h
  simp [parent, hbare, hdrop]

theorem parent_concat (h : ∀ c ∈ init, IsComponent c) (hlast : IsComponent last) :
    parent (ofComponents absolute (init ++ [last])) = ofComponents absolute init := by
  have hbare : isBare (ofComponents absolute (init ++ [last])) = false :=
    not_isBare_concat h hlast
  rw [ofComponents_concat h hlast] at hbare ⊢
  by_cases hinit : init = []
  · subst hinit
    cases absolute with
    | true => exact parent_append [] hlast.not_slash hbare
    | false => exact parent_of_not_mem hlast.not_slash hbare
  · rw [if_neg hinit] at hbare ⊢
    rw [parent_append _ hlast.not_slash hbare, if_neg ofComponents_ne_nil]

theorem name_of_isBare (h : isBare p) : name p = [] := if_pos h

theorem parent_of_isBare (h : isBare p) : parent p = p := if_pos h

/-- A normal path is bare, or is its parent with its name below. -/
theorem IsNormal.cases (h : IsNormal p) :
    isBare p ∨ ∃ absolute init last, (∀ c ∈ init, IsComponent c) ∧ IsComponent last ∧
      p = ofComponents absolute (init ++ [last]) ∧ name p = last ∧
      parent p = ofComponents absolute init := by
  obtain ⟨absolute, parts, hparts, rfl⟩ := isNormal_iff.mp h
  obtain rfl | ⟨init, last, rfl⟩ := List.eq_nil_or_concat' parts
  · exact .inl ((isBare_ofComponents hparts).mpr rfl)
  · have hinit : ∀ c ∈ init, IsComponent c := fun c hc => hparts c (by simp [hc])
    have hlast : IsComponent last := hparts last (by simp)
    exact .inr ⟨absolute, init, last, hinit, hlast, rfl, name_concat hinit hlast,
      parent_concat hinit hlast⟩

/-! ## Another last component -/

theorem IsComponent.not_isAbsolute (h : IsComponent s) : isAbsolute s = false := by
  obtain ⟨c, s, rfl⟩ := List.exists_cons_of_ne_nil h.not_nil
  have hc : c ≠ '/' := by
    rintro rfl
    exact h.not_slash List.mem_cons_self
  simpa [isAbsolute] using hc

theorem join_nil (h : ∀ c ∈ parts, IsComponent c) :
    join (ofComponents absolute parts) [] = ofComponents absolute parts := by
  rw [join_ofComponents h, components_nil, List.append_nil]
  rfl

/-- A path with a text joined to it has the text as its name, and is the parent, if the text is one
component. The empty text is none, but it is the name of a bare path. -/
theorem parent_name_join_iff (h : ∀ c ∈ parts, IsComponent c) (s : List Char) :
    parent (join (ofComponents absolute parts) s) = ofComponents absolute parts ∧
        name (join (ofComponents absolute parts) s) = s ↔
      IsComponent s ∨ s = [] ∧ isBare (ofComponents absolute parts) := by
  constructor
  · rintro ⟨-, hname⟩
    -- the name of a normal path is empty or a component, and the text is that name
    have hnormal : IsNormal (join (ofComponents absolute parts) s) := isNormal_join _ s
    obtain hbare | ⟨_, _, last, -, hlast, -, hlastName, -⟩ := hnormal.cases
    · have hs : s = [] := hname ▸ name_of_isBare hbare
      rw [hs, join_nil h] at hbare
      exact .inr ⟨hs, hbare⟩
    · exact .inl (hname ▸ hlastName ▸ hlast)
  · rintro (hs | ⟨rfl, hbare⟩)
    · rw [join_ofComponents h, hs.not_isAbsolute, if_neg Bool.false_ne_true, hs.components_eq]
      exact ⟨parent_concat h hs, name_concat h hs⟩
    · rw [join_nil h]
      exact ⟨parent_of_isBare hbare, name_of_isBare hbare⟩

/-- A normal path with a name gets another one by joining it to the parent. -/
theorem withName?_iff (hp : IsNormal p) (hbare : isBare p = false) (s : List Char) :
    ∃ q, withName? p s = some q ∧ IsNormal q ∧
      (parent q = parent p ∧ name q = s ↔ IsComponent s ∨ s = [] ∧ isBare (parent p)) := by
  obtain h | ⟨absolute, init, last, hinit, hlast, -, hname, hparent⟩ := hp.cases
  · rw [hbare] at h
    cases h
  · have hsome : withName? p s = some (join (ofComponents absolute init) s) := by
      simp [withName?, hname, hparent, hlast.not_nil]
    refine ⟨_, hsome, isNormal_join _ s, ?_⟩
    rw [hparent]
    exact parent_name_join_iff hinit s

theorem IsNormal.name_ne_nil (hp : IsNormal p) (hbare : isBare p = false) : name p ≠ [] := by
  obtain h | ⟨_, _, last, -, hlast, -, hname, -⟩ := hp.cases
  · rw [hbare] at h
    cases h
  · rw [hname]
    exact hlast.not_nil

theorem withName?_of_isBare (h : isBare p) (s : List Char) : withName? p s = none := by
  simp [withName?, name_of_isBare h]

/-! ## Stems -/

theorem length_suffix_lt (h : name p ≠ []) : (suffix p).length < (name p).length := by
  have hpos := List.length_pos_iff.mpr h
  simp only [suffix]
  split
  · simpa using hpos
  · next hlong =>
    simp only [Bool.or_eq_true, decide_eq_true_eq, not_or] at hlong
    simp only [List.length_cons]
    omega

theorem stem_prefix_name (p : List Char) : stem p <+: name p := List.take_prefix _ _

theorem stem_ne_nil (h : name p ≠ []) : stem p ≠ [] := by
  have hlt := length_suffix_lt h
  intro hnil
  have hlength := congrArg List.length hnil
  simp only [stem, List.length_take, List.length_nil] at hlength
  omega

/-- A stem with a suffix is one component if the suffix has no slash, unless both are a single
point together. -/
theorem isComponent_stem_append_iff (hp : IsNormal p) (hbare : isBare p = false) (s : List Char) :
    IsComponent (stem p ++ s) ↔ '/' ∉ s ∧ stem p ++ s ≠ ['.'] := by
  obtain h | ⟨_, _, last, -, hlast, -, hname, -⟩ := hp.cases
  · rw [hbare] at h
    cases h
  · have hstem : '/' ∉ stem p := fun hmem =>
      hlast.not_slash (hname ▸ (stem_prefix_name p).subset hmem)
    have hne : stem p ≠ [] := stem_ne_nil (hname ▸ hlast.not_nil)
    constructor
    · intro h
      exact ⟨fun hs => h.not_slash (List.mem_append_right _ hs), h.not_here⟩
    · rintro ⟨hs, hhere⟩
      refine ⟨by simp [hne], hhere, ?_⟩
      rw [List.mem_append, not_or]
      exact ⟨hstem, hs⟩

/-! ## Recomposition -/

theorem IsNormal.isBare_of_name (hp : IsNormal p) (h : name p = []) : isBare p = true := by
  by_contra hbare
  exact hp.name_ne_nil (Bool.eq_false_iff.mpr hbare) h

theorem IsNormal.parent (hp : IsNormal p) : IsNormal (parent p) := by
  obtain h | ⟨absolute, init, last, hinit, -, -, -, hparent⟩ := hp.cases
  · rwa [parent_of_isBare h]
  · rw [hparent]
    exact normalize_ofComponents hinit

theorem IsNormal.join_parent_name (hp : IsNormal p) (h : name p ≠ []) :
    join (Path.parent p) (name p) = p := by
  obtain hbare | ⟨absolute, init, last, hinit, hlast, hpath, hname, hparent⟩ := hp.cases
  · exact absurd (name_of_isBare hbare) h
  · rw [hname, hparent, join_ofComponents hinit, hlast.not_isAbsolute, if_neg Bool.false_ne_true,
      hlast.components_eq, hpath]

theorem suffix_of_not_mem (h : '.' ∉ name p) : suffix p = [] := by
  simp [suffix, behindLast_of_not_mem h]

/-- A suffix begins at the last point of a name, but not if that is at the start or at the end. -/
theorem suffix_of_name {before extension : List Char}
    (h : name p = before ++ '.' :: extension) (hpoint : '.' ∉ extension) :
    suffix p = if before = [] ∨ extension = [] then [] else '.' :: extension := by
  simp only [suffix, h, behindLast_append before hpoint]
  by_cases hbefore : before = []
  · simp [hbefore]
  · by_cases hextension : extension = []
    · simp [hextension]
    · have := List.length_pos_iff.mpr hbefore
      have hlong : ¬ before.length + (extension.length + 1) ≤ extension.length + 1 := by omega
      simp [hbefore, hextension, hlong]

/-- The suffix of a path is empty, or it is what its name ends in from the last point on. -/
theorem suffix_cases (p : List Char) : suffix p = [] ∨ ∃ before extension, extension ≠ [] ∧
    '.' ∉ extension ∧ suffix p = '.' :: extension ∧ name p = before ++ '.' :: extension := by
  by_cases hpoint : '.' ∈ name p
  · obtain ⟨before, extension, hname, hextension⟩ := eq_append_of_mem hpoint
    have hsuffix := suffix_of_name hname hextension
    by_cases hends : before = [] ∨ extension = []
    · exact .inl (by rw [hsuffix, if_pos hends])
    · rw [if_neg hends] at hsuffix
      exact .inr ⟨before, extension, fun h => hends (.inr h), hextension, hsuffix, hname⟩
  · exact .inl (suffix_of_not_mem hpoint)

theorem stem_append_suffix (p : List Char) : stem p ++ suffix p = name p := by
  obtain h | ⟨before, extension, -, -, h, hname⟩ := suffix_cases p
  · simp [stem, h]
  · have hlength : (before ++ '.' :: extension).length - ('.' :: extension).length =
        before.length := by simp
    simp only [stem, h, hname, hlength, List.take_left]

theorem foldl_join (hinit : ∀ c ∈ init, IsComponent c) (h : ∀ c ∈ parts, IsComponent c) :
    parts.foldl join (ofComponents absolute init) = ofComponents absolute (init ++ parts) := by
  induction parts generalizing init with
  | nil => simp
  | cons c parts ih =>
    obtain ⟨hc, hparts⟩ := List.forall_mem_cons.mp h
    have hconcat : ∀ d ∈ init ++ [c], IsComponent d := by
      simpa [or_imp, forall_and] using ⟨hinit, hc⟩
    rw [List.foldl_cons, join_ofComponents hinit, hc.not_isAbsolute, if_neg Bool.false_ne_true,
      hc.components_eq, ih hconcat hparts, List.append_assoc, List.singleton_append]

/-- Joining the parts of a text one after the other makes the path that it means. -/
theorem foldl_join_parts (s : List Char) : (Path.parts s).foldl join ['.'] = normalize s := by
  have hcomponents : ∀ c ∈ components s, IsComponent c := fun _ => isComponent_of_mem
  have hfold : ∀ absolute, (components s).foldl join (ofComponents absolute []) =
      ofComponents absolute (components s) := fun _ => foldl_join (by simp) hcomponents
  unfold Path.parts normalize
  cases isAbsolute s with
  | false => exact hfold false
  | true =>
    have hroot : join ['.'] ['/'] = ofComponents true [] := by
      rw [join_here, normalize, components_slash, components_nil]
      rfl
    rw [if_pos rfl, List.singleton_append, List.foldl_cons, hroot]
    exact hfold true

/-- What the operations on paths take apart goes together again. They make normal paths. A normal
path is its parent with its name below, if it has a name, which only the root and the empty path
have not; a name is a stem with a suffix behind it, which is empty or begins at the last point; and
the path is made of its parts. -/
theorem components_recompose (hp : IsNormal p) :
    (∀ s, IsNormal (normalize s)) ∧ IsNormal (parent p) ∧ (∀ base s, IsNormal (join base s)) ∧
    (name p = [] ↔ p = ['/'] ∨ p = ['.']) ∧ (name p ≠ [] → join (parent p) (name p) = p) ∧
    stem p ++ suffix p = name p ∧ (name p ≠ [] → stem p ≠ []) ∧
    (suffix p = [] ∨ ∃ extension, suffix p = '.' :: extension ∧ extension ≠ [] ∧
      '.' ∉ extension) ∧
    (∀ before extension, before ≠ [] → extension ≠ [] → '.' ∉ extension →
      name p = before ++ '.' :: extension → suffix p = '.' :: extension) ∧
    (Path.parts p).foldl join ['.'] = p := by
  have hbare : isBare p = true ↔ p = ['/'] ∨ p = ['.'] := by simp [isBare]
  have hname : name p = [] ↔ p = ['/'] ∨ p = ['.'] :=
    ⟨fun h => hbare.mp (hp.isBare_of_name h), fun h => name_of_isBare (hbare.mpr h)⟩
  refine ⟨isNormal_normalize, hp.parent, isNormal_join, hname, hp.join_parent_name,
    stem_append_suffix p, stem_ne_nil, ?_, ?_, ?_⟩
  · obtain h | ⟨_, extension, hne, hpoint, h, -⟩ := suffix_cases p
    · exact .inl h
    · exact .inr ⟨extension, h, hne, hpoint⟩
  · intro before extension hbefore hne hpoint h
    rw [suffix_of_name h hpoint, if_neg (by simp [hbefore, hne])]
  · rw [foldl_join_parts]
    exact hp

/-- The path of an archive in a hidden directory: `/data/.old/a.tar.gz`. -/
theorem archive_recomposes :
    IsNormal "/data/.old/a.tar.gz".toList ∧
    join (parent "/data/.old/a.tar.gz".toList) "a.tar.gz".toList = "/data/.old/a.tar.gz".toList ∧
    suffix "/data/.old/a.tar.gz".toList = ".gz".toList ∧
    [['/'], "data".toList, ".old".toList, "a.tar.gz".toList].foldl join ['.'] =
      "/data/.old/a.tar.gz".toList := by
  have hp : IsNormal "/data/.old/a.tar.gz".toList := by cbv
  have hname : name "/data/.old/a.tar.gz".toList = "a.tar.gz".toList := by cbv
  have hparts : Path.parts "/data/.old/a.tar.gz".toList =
      [['/'], "data".toList, ".old".toList, "a.tar.gz".toList] := by cbv
  obtain ⟨-, -, -, -, hjoin, -, -, -, hsuffix, hfold⟩ := components_recompose hp
  rw [hname] at hjoin hsuffix
  rw [hparts] at hfold
  exact ⟨hp, hjoin (by decide), hsuffix "a.tar".toList "gz".toList (by decide) (by decide)
    (by decide) rfl, hfold⟩

end Path

/-! ## The methods -/

namespace PathMethod

open Resumable.Path (IsNormal IsComponent isBare)

variable {p : String}

theorem withName_of_isBare (hbare : isBare p.toList) (newName : List Char) (heap : Heap) :
    withName p newName heap = .error (.valueError s!"'{p}' has an empty name") heap := by
  unfold withName
  rw [Path.withName?_of_isBare hbare]
  rfl

theorem withName_of_some {newName q : List Char} (h : Path.withName? p.toList newName = some q)
    (heap : Heap) : withName p newName heap = .ok (.path (String.ofList q)) heap := by
  unfold withName
  rw [h]
  rfl

theorem attribute_parent_name_iff {q : List Char} {t : String} :
    (attribute? (String.ofList q) "parent" = attribute? p "parent" ∧
        attribute? (String.ofList q) "name" = some (.str t)) ↔
      Path.parent q = Path.parent p.toList ∧ Path.name q = t.toList := by
  have htext : ∀ (cs : List Char) (u : String), String.ofList cs = u ↔ cs = u.toList := by
    intro cs u
    rw [← String.toList_inj, String.toList_ofList]
  simp only [attribute?, String.toList_ofList, Option.some.injEq, Value.path.injEq,
    Value.str.injEq, htext]

/-- Of a normal path that has a name, `with_name` makes a path for every text. It has the same
parent, and the text as its name, if the text is one component, or is empty below a bare parent.
Other paths have no name to change. -/
theorem with_name_changes_name_iff (hp : IsNormal p.toList) (s : String) (heap : Heap) :
    ∃ action, call p "with_name" ⟨[.str s], []⟩ = some action ∧
      (if isBare p.toList then
        action heap = .error (.valueError s!"'{p}' has an empty name") heap
      else
        ∃ q, action heap = .ok (.path q) heap ∧ IsNormal q.toList ∧
          (attribute? q "parent" = attribute? p "parent" ∧ attribute? q "name" = some (.str s) ↔
            IsComponent s.toList ∨ s = "" ∧ isBare (Path.parent p.toList))) := by
  refine ⟨_, rfl, ?_⟩
  by_cases hbare : isBare p.toList = true
  · rw [if_pos hbare]
    exact withName_of_isBare hbare s.toList heap
  · rw [if_neg hbare]
    obtain ⟨q, hq, hnormal, hiff⟩ :=
      Path.withName?_iff hp (Bool.eq_false_iff.mpr hbare) s.toList
    refine ⟨String.ofList q, withName_of_some hq heap, ?_, ?_⟩
    · rwa [String.toList_ofList]
    · rw [String.toList_eq_nil_iff] at hiff
      rw [attribute_parent_name_iff, ← hiff]

/-- `with_suffix` takes texts that can take the place of a suffix, and puts them behind the stem of
a normal path that has a name. The parent stays, and the stem with the text is the name, if the text
has no slash and the name would not be a single point. -/
theorem with_suffix_changes_suffix_iff (hp : IsNormal p.toList) (s : String) (heap : Heap) :
    ∃ action, call p "with_suffix" ⟨[.str s], []⟩ = some action ∧
      (if Path.isSuffix s.toList = false then
        action heap = .error (.valueError s!"Invalid suffix '{s}'") heap
      else if isBare p.toList then
        action heap = .error (.valueError s!"'{p}' has an empty name") heap
      else
        ∃ q stem, action heap = .ok (.path q) heap ∧ IsNormal q.toList ∧
          attribute? p "stem" = some (.str stem) ∧
          (attribute? q "parent" = attribute? p "parent" ∧
              attribute? q "name" = some (.str (stem ++ s)) ↔
            '/' ∉ s.toList ∧ stem ++ s ≠ ".")) := by
  have hcall : ∃ action, call p "with_suffix" ⟨[.str s], []⟩ = some action ∧
      action heap = withSuffix p s heap := ⟨_, rfl, rfl⟩
  obtain ⟨action, haction, hrun⟩ := hcall
  refine ⟨action, haction, ?_⟩
  rw [hrun]
  by_cases hsuffix : Path.isSuffix s.toList = false
  · rw [if_pos hsuffix]
    unfold withSuffix
    rw [hsuffix]
    rfl
  rw [if_neg hsuffix]
  have hname : withSuffix p s = withName p (Path.stem p.toList ++ s.toList) :=
    if_pos (Bool.not_eq_false _ ▸ hsuffix)
  rw [hname]
  by_cases hbare : isBare p.toList = true
  · rw [if_pos hbare]
    exact withName_of_isBare hbare _ heap
  · rw [if_neg hbare]
    rw [Bool.not_eq_true] at hbare
    obtain ⟨q, hq, hnormal, hiff⟩ :=
      Path.withName?_iff hp hbare (Path.stem p.toList ++ s.toList)
    rw [Path.isComponent_stem_append_iff hp hbare] at hiff
    have hne : Path.stem p.toList ≠ [] := Path.stem_ne_nil (hp.name_ne_nil hbare)
    refine ⟨String.ofList q, String.ofList (Path.stem p.toList), withName_of_some hq heap, ?_,
      rfl, ?_⟩
    · rwa [String.toList_ofList]
    · have hstem : (String.ofList (Path.stem p.toList) ++ s).toList =
          Path.stem p.toList ++ s.toList := by
        rw [String.toList_append, String.toList_ofList]
      have hhere : String.ofList (Path.stem p.toList) ++ s ≠ "." ↔
          Path.stem p.toList ++ s.toList ≠ ['.'] := by
        rw [← hstem, ne_eq, ← String.toList_inj]
        rfl
      rw [attribute_parent_name_iff, hstem, hhere]
      simpa [hne] using hiff

/-- An absolute text takes the place of the whole path. -/
theorem with_name_absolute (heap : Heap) :
    ∃ action, call "/a/b" "with_name" ⟨[.str "/x/y"], []⟩ = some action ∧
      action heap = .ok (.path "/x/y") heap ∧
      attribute? "/a/b" "parent" = some (.path "/a") ∧
      attribute? "/x/y" "parent" = some (.path "/x") ∧
      attribute? "/x/y" "name" = some (.str "y") := by
  have hname : Path.withName? "/a/b".toList "/x/y".toList = some "/x/y".toList := by cbv
  refine ⟨_, rfl, withName_of_some hname heap, ?_, ?_, ?_⟩
  all_goals cbv

end PathMethod

end Resumable
