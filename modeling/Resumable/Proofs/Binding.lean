import Mathlib.Data.List.Nodup
import Mathlib.Data.Option.Basic
import Resumable.Machine.Call

/-!
# Binding of arguments

A call fills the slots of its parameters in three passes: positional arguments, then keyword
arguments, then defaults. Each pass gives values to slots that have none yet, and takes none away:
`Filled n given locals` says what has been given so far, and every pass adds to `given`
(`Filled.bindAllNamed`, `Filled.fillDefaults`). Main statement: `bindArguments_iff`.
-/

namespace Resumable

/-- The keyword argument for the parameter at a position. -/
def namedFor (params : List String) (named : List (String × Value)) (i : Nat) : Option Value :=
  params[i]?.bind fun name => named.lookup name

/-- The default of the parameter at a position. Defaults belong to the last parameters. -/
def defaultFor (params : List String) (defaults : List Value) (i : Nat) : Option Value :=
  if params.length - defaults.length ≤ i then defaults[i - (params.length - defaults.length)]?
  else none

/-- The arguments fit parameters of which the last ones have defaults. -/
structure Arguments.Fit (args : Arguments) (params : List String) (defaults : List Value) :
    Prop where
  /-- There is a parameter for each positional argument. -/
  positional : args.positional.length ≤ params.length
  /-- Each keyword names a parameter that has not been given by position. -/
  named : ∀ name ∈ args.named.map (·.1), ∃ i, args.positional.length ≤ i ∧ params[i]? = some name
  /-- Each parameter that is given neither way has a default. -/
  complete : ∀ i name, params[i]? = some name → args.positional.length ≤ i →
    name ∉ args.named.map (·.1) → params.length ≤ i + defaults.length

theorem findIdx?_eq_some_iff_of_nodup {names : List String} (hnames : names.Nodup)
    {name : String} {i : Nat} :
    names.findIdx? (· == name) = some i ↔ names[i]? = some name := by
  rw [List.findIdx?_eq_some_iff_getElem, List.getElem?_eq_some_iff]
  constructor
  · rintro ⟨hi, heq, -⟩
    exact ⟨hi, beq_iff_eq.mp heq⟩
  · rintro ⟨hi, rfl⟩
    refine ⟨hi, beq_self_eq_true _, fun j hj heq => ?_⟩
    exact Nat.ne_of_lt hj ((List.Nodup.getElem_inj_iff hnames).mp (beq_iff_eq.mp heq))

namespace Machine

variable {function name : String} {params : List String} {named : List (String × Value)}
  {defaults : List Value} {args : Arguments} {locals : Array Value} {v : Value} {n i : Nat}
  {given : Nat → Option Value}

/-- Of `n` slots those have a value that one is given for. -/
structure Filled (n : Nat) (given : Nat → Option Value) (locals : Array Value) : Prop where
  size : locals.size = n
  slot : ∀ i < n, locals[i]? = some ((given i).getD .undefined)
  value : ∀ i, given i ≠ some .undefined

theorem Filled.getElem?_eq_undefined_iff (h : Filled n given locals) :
    locals[i]? = some .undefined ↔ i < n ∧ given i = none := by
  by_cases hi : i < n
  · rw [h.slot i hi, Option.some_inj]
    cases hgiven : given i with
    | none => simp [hi]
    | some w =>
      have hw : w ≠ .undefined := by
        rintro rfl
        exact h.value i hgiven
      simp [hw]
  · have hnone : locals[i]? = none := Array.getElem?_eq_none (h.size ▸ Nat.le_of_not_lt hi)
    simp [hnone, hi]

theorem Filled.isUnset_iff (h : Filled n given locals) :
    isUnset locals i = true ↔ i < n ∧ given i = none := by
  rw [← h.getElem?_eq_undefined_iff]
  unfold isUnset
  split
  · next heq => simp [heq]
  · next hne => simpa using hne

/-! ## Positional arguments -/

theorem filled_positional {positional : List Value} (hvalue : Value.undefined ∉ positional)
    (hlength : positional.length ≤ n) :
    Filled n (positional[·]?)
      (positional ++ List.replicate (n - positional.length) Value.undefined).toArray where
  size := by
    rw [List.size_toArray, List.length_append, List.length_replicate]
    omega
  slot := by
    intro i hi
    rw [List.getElem?_toArray, List.getElem?_append]
    split
    · next hlt => rw [List.getElem?_eq_getElem hlt, Option.getD_some]
    · next hge =>
      have hrest : i - positional.length < n - positional.length := by omega
      rw [List.getElem?_eq_none (Nat.le_of_not_lt hge), Option.getD_none,
        List.getElem?_replicate_of_lt hrest]
  value := fun i h => hvalue (List.mem_of_getElem? h)

/-! ## Keyword arguments -/

theorem namedFor_cons (params : List String) (name : String) (v : Value)
    (named : List (String × Value)) (i : Nat) :
    namedFor params ((name, v) :: named) i =
      (if params[i]? = some name then some v else none).or (namedFor params named i) := by
  unfold namedFor
  cases params[i]? with
  | none => rfl
  | some name' =>
    rw [Option.bind_some, Option.bind_some, List.lookup_cons]
    by_cases heq : name' = name
    · subst heq
      simp
    · rw [if_neg (fun h => heq (Option.some.inj h)), Option.none_or, beq_eq_false_iff_ne.mpr heq]

/-- A keyword argument is taken if it names a parameter without a value. -/
theorem Filled.bindNamed (h : Filled n given locals) (function name : String)
    (hparams : params.Nodup) (hlength : params.length ≤ n) (hv : v ≠ .undefined) :
    match bindNamed function params locals name v with
    | .ok locals' => (∃ i, params[i]? = some name ∧ given i = none) ∧
        Filled n (fun i => (given i).or (if params[i]? = some name then some v else none)) locals'
    | .error _ => ¬ ∃ i, params[i]? = some name ∧ given i = none := by
  generalize hbind : Machine.bindNamed function params locals name v = r
  unfold Machine.bindNamed at hbind
  split at hbind
  · next hfind =>
    subst hbind
    rintro ⟨i, hi, -⟩
    rw [(findIdx?_eq_some_iff_of_nodup hparams).mpr hi] at hfind
    cases hfind
  · next i hfind =>
    have hi := (findIdx?_eq_some_iff_of_nodup hparams).mp hfind
    have honly : ∀ {j}, params[j]? = some name → j = i := fun hj =>
      Option.some.inj (((findIdx?_eq_some_iff_of_nodup hparams).mpr hj).symm.trans hfind)
    split at hbind
    · next hslot =>
      subst hbind
      obtain ⟨hin, hfree⟩ := h.getElem?_eq_undefined_iff.mp hslot
      refine ⟨⟨i, hi, hfree⟩, ⟨by rw [Array.size_setIfInBounds, h.size], fun j hj => ?_, ?_⟩⟩
      · by_cases hji : j = i
        · subst hji
          rw [Array.getElem?_setIfInBounds_self_of_lt (h.size ▸ hin), hfree, if_pos hi]
          rfl
        · rw [Array.getElem?_setIfInBounds_ne (Ne.symm hji), if_neg (fun hj => hji (honly hj)),
            Option.or_none, h.slot j hj]
      · intro j hj
        rcases Option.or_eq_some_iff.mp hj with hj | ⟨-, hj⟩
        · exact h.value j hj
        · split at hj
          · exact hv (Option.some.inj hj)
          · cases hj
    · next hslot =>
      subst hbind
      rintro ⟨j, hj, hfree⟩
      obtain rfl := honly hj
      have hlt : j < params.length := (List.getElem?_eq_some_iff.mp hj).1
      exact hslot (h.getElem?_eq_undefined_iff.mpr ⟨Nat.lt_of_lt_of_le hlt hlength, hfree⟩)

/-- Keyword arguments with different names are taken if each of them names a parameter without a
value. -/
theorem Filled.bindAllNamed (h : Filled n given locals) (function : String)
    (hparams : params.Nodup) (hlength : params.length ≤ n) (hnamed : (named.map (·.1)).Nodup)
    (hvalue : ∀ a ∈ named, a.2 ≠ .undefined) :
    match bindAllNamed function params locals named with
    | .ok locals' =>
        (∀ name ∈ named.map (·.1), ∃ i, params[i]? = some name ∧ given i = none) ∧
        Filled n (fun i => (given i).or (namedFor params named i)) locals'
    | .error _ => ¬ ∀ name ∈ named.map (·.1), ∃ i, params[i]? = some name ∧ given i = none := by
  induction named generalizing locals given with
  | nil =>
    have hnone : ∀ i, namedFor params [] i = none := by
      intro i
      unfold namedFor
      cases params[i]? <;> rfl
    simpa [Machine.bindAllNamed, hnone] using h
  | cons a named ih =>
    obtain ⟨name, v⟩ := a
    obtain ⟨hnew, hnamed⟩ := List.nodup_cons.mp hnamed
    obtain ⟨hv, hvalue⟩ := List.forall_mem_cons.mp hvalue
    have hone := h.bindNamed function name hparams hlength hv
    rw [Machine.bindAllNamed]
    cases hbind : Machine.bindNamed function params locals name v with
    | error e =>
      rw [hbind] at hone
      exact fun hall => hone (hall name List.mem_cons_self)
    | ok locals' =>
      rw [hbind] at hone
      obtain ⟨hfree, hfilled⟩ := hone
      -- the parameters of the other names are as free as before
      have hsame : ∀ name' ∈ named.map (·.1), ((∃ i, params[i]? = some name' ∧
          (given i).or (if params[i]? = some name then some v else none) = none) ↔
          ∃ i, params[i]? = some name' ∧ given i = none) := by
        intro name' hname'
        have hne : name' ≠ name := fun heq => hnew (heq ▸ hname')
        refine exists_congr fun i => and_congr_right fun hi => ?_
        rw [hi, if_neg (fun heq => hne (Option.some.inj heq)), Option.or_none]
      have hrest := ih hfilled hnamed hvalue
      simp only [List.map_cons, List.forall_mem_cons]
      cases hall : Machine.bindAllNamed function params locals' named with
      | error e =>
        rw [hall] at hrest
        exact fun h => hrest fun name' hname' => (hsame name' hname').mpr (h.2 name' hname')
      | ok locals'' =>
        rw [hall] at hrest
        refine ⟨⟨hfree, fun name' hname' => (hsame name' hname').mp (hrest.1 name' hname')⟩, ?_⟩
        simpa only [namedFor_cons, Option.or_assoc] using hrest.2

/-! ## Defaults -/

theorem Filled.missingParams_isEmpty_iff (h : Filled n given locals) (hlength : params.length ≤ n)
    (first : Nat) :
    (missingParams params first locals).isEmpty = true ↔
      ∀ i < params.length, given i = none → first ≤ i := by
  rw [List.isEmpty_iff, missingParams, List.filterMap_eq_nil_iff]
  constructor
  · intro hall i hi hgiven
    by_contra hlt
    have hmem : (params[i], i) ∈ params.zipIdx := List.mem_zipIdx_iff_getElem?.mpr (by simp [hi])
    have hunset := h.isUnset_iff.mpr ⟨Nat.lt_of_lt_of_le hi hlength, hgiven⟩
    simpa [hunset, Nat.lt_of_not_le hlt] using hall _ hmem
  · rintro hall ⟨name, i⟩ hmem
    have hi : i < params.length :=
      (List.getElem?_eq_some_iff.mp (List.mem_zipIdx_iff_getElem?.mp hmem)).1
    simp only [ite_eq_right_iff, Bool.and_eq_true, decide_eq_true_eq, reduceCtorEq, imp_false,
      not_and]
    intro hlt hunset
    exact absurd (hall i hi (h.isUnset_iff.mp hunset).2) (Nat.not_le_of_lt hlt)

theorem defaultFor_eq_none_of_ge (hdefaults : defaults.length ≤ params.length)
    (hi : params.length ≤ i) : defaultFor params defaults i = none := by
  unfold defaultFor
  split
  · exact List.getElem?_eq_none (by omega)
  · rfl

theorem Filled.fillDefaults (h : Filled n given locals) (hvalue : Value.undefined ∉ defaults)
    (hdefaults : defaults.length ≤ params.length) :
    Filled n (fun i => (given i).or (defaultFor params defaults i))
      (fillDefaults defaults (params.length - defaults.length) params.length locals) where
  size := by rw [Machine.fillDefaults, Array.size_mapIdx, h.size]
  slot := by
    intro i hi
    rw [Machine.fillDefaults, Array.getElem?_mapIdx, h.slot i hi, Option.map_some]
    cases hgiven : given i with
    | some w =>
      have hw : w ≠ .undefined := by
        rintro rfl
        exact h.value i hgiven
      rw [Option.getD_some, Option.some_or, Option.getD_some]
      split
      · exact absurd rfl hw
      · rfl
    | none =>
      simp only [Option.getD_none, Option.none_or, Bool.and_eq_true, decide_eq_true_eq]
      by_cases hlt : i < params.length
      · simp only [defaultFor, hlt, and_true]
        split <;> rfl
      · rw [defaultFor_eq_none_of_ge hdefaults (Nat.le_of_not_lt hlt), if_neg (fun h => hlt h.2),
          Option.getD_none]
  value := by
    intro i hi
    rcases Option.or_eq_some_iff.mp hi with hi | ⟨-, hi⟩
    · exact h.value i hi
    · unfold defaultFor at hi
      split at hi
      · exact hvalue (List.mem_of_getElem? hi)
      · cases hi

/-! ## All arguments -/

theorem namedFor_eq_none_iff (hi : params[i]? = some name) :
    namedFor params named i = none ↔ name ∉ named.map (·.1) := by
  rw [namedFor, hi, Option.bind_some, List.lookup_eq_none_iff, List.mem_map]
  simp only [bne_iff_ne, not_exists, not_and]
  exact forall_congr' fun a => imp_congr_right fun _ => ne_comm

theorem fit_iff (hlength : args.positional.length ≤ params.length)
    (hdefaults : defaults.length ≤ params.length) :
    args.Fit params defaults ↔
      (∀ name ∈ args.named.map (·.1),
        ∃ i : Nat, params[i]? = some name ∧ args.positional[i]? = none) ∧
      ∀ i < params.length, (args.positional[i]?).or (namedFor params args.named i) = none →
        params.length - defaults.length ≤ i := by
  constructor
  · intro h
    refine ⟨fun name hname => ?_, fun i hi hnone => ?_⟩
    · obtain ⟨i, hle, hi⟩ := h.named name hname
      exact ⟨i, hi, List.getElem?_eq_none hle⟩
    · obtain ⟨hpositional, hnamed⟩ := Option.or_eq_none_iff.mp hnone
      have hname := List.getElem?_eq_getElem hi
      have := h.complete i _ hname (List.getElem?_eq_none_iff.mp hpositional)
        ((namedFor_eq_none_iff hname).mp hnamed)
      omega
  · rintro ⟨hnamed, hcomplete⟩
    refine ⟨hlength, fun name hname => ?_, fun i name hi hle hname => ?_⟩
    · obtain ⟨i, hi, hfree⟩ := hnamed name hname
      exact ⟨i, List.getElem?_eq_none_iff.mp hfree, hi⟩
    · have := hcomplete i (List.getElem?_eq_some_iff.mp hi).1
        (Option.or_eq_none_iff.mpr ⟨List.getElem?_eq_none hle, (namedFor_eq_none_iff hi).mpr hname⟩)
      omega

/-- Arguments are taken if and only if they fit, and each pass fills the slots that the passes
before it have left. -/
theorem filled_bindArguments {c : Code} (hparams : c.params.Nodup)
    (hdefaults : defaults.length ≤ c.params.length) (hnamed : (args.named.map (·.1)).Nodup)
    (hpositional : Value.undefined ∉ args.positional)
    (hvalues : ∀ a ∈ args.named, a.2 ≠ .undefined) (hdefault : Value.undefined ∉ defaults) :
    match bindArguments c defaults args with
    | .ok locals => args.Fit c.params defaults ∧
        Filled c.locals.length
          (fun i => ((args.positional[i]?).or (namedFor c.params args.named i)).or
            (defaultFor c.params defaults i)) locals
    | .error _ => ¬ args.Fit c.params defaults := by
  have hlocals : c.params.length ≤ c.locals.length := List.length_take_le' ..
  unfold bindArguments
  dsimp only
  by_cases hmany : args.positional.length > c.params.length
  · rw [if_pos hmany]
    exact fun h => Nat.not_le_of_lt hmany h.positional
  · have hfew := Nat.le_of_not_lt hmany
    rw [if_neg hmany, fit_iff hfew hdefaults]
    have hkeywords := (filled_positional hpositional (Nat.le_trans hfew hlocals)).bindAllNamed
      c.name hparams hlocals hnamed hvalues
    cases hbind : Machine.bindAllNamed c.name c.params (args.positional ++
        List.replicate (c.locals.length - args.positional.length) Value.undefined).toArray
        args.named with
    | error e =>
      rw [hbind] at hkeywords
      exact fun h => hkeywords h.1
    | ok locals =>
      rw [hbind] at hkeywords
      obtain ⟨hnames, hfilled⟩ := hkeywords
      have hmissing :=
        hfilled.missingParams_isEmpty_iff hlocals (c.params.length - defaults.length)
      dsimp only
      by_cases hempty : (missingParams c.params (c.params.length - defaults.length)
          locals).isEmpty = true
      · rw [if_pos hempty]
        exact ⟨⟨hnames, hmissing.mp hempty⟩, hfilled.fillDefaults hdefault hdefaults⟩
      · rw [if_neg hempty]
        exact fun h => hempty (hmissing.mpr h.2)

/-- Arguments are taken if and only if they fit. Then a parameter has its positional argument, or
else the keyword argument with its name, or else its default, and the other slots have no value. -/
theorem bindArguments_iff {c : Code} (hparams : c.params.Nodup)
    (hdefaults : defaults.length ≤ c.params.length) (hnamed : (args.named.map (·.1)).Nodup)
    (hpositional : Value.undefined ∉ args.positional)
    (hvalues : ∀ a ∈ args.named, a.2 ≠ .undefined) (hdefault : Value.undefined ∉ defaults) :
    ((∃ locals, bindArguments c defaults args = .ok locals) ↔ args.Fit c.params defaults) ∧
    ∀ locals, bindArguments c defaults args = .ok locals →
      locals.size = c.locals.length ∧
      (∀ i < c.params.length, locals[i]? = (args.positional[i]?).or
        ((namedFor c.params args.named i).or (defaultFor c.params defaults i))) ∧
      ∀ i, c.params.length ≤ i → i < c.locals.length → locals[i]? = some .undefined := by
  have hbind := filled_bindArguments hparams hdefaults hnamed hpositional hvalues hdefault
  cases hlocals : bindArguments c defaults args with
  | error e =>
    rw [hlocals] at hbind
    refine ⟨iff_of_false nofun hbind, nofun⟩
  | ok locals =>
    rw [hlocals] at hbind
    obtain ⟨hfit, hfilled⟩ := hbind
    refine ⟨iff_of_true ⟨locals, rfl⟩ hfit, ?_⟩
    rintro _ ⟨⟩
    refine ⟨hfilled.size, fun i hi => ?_, fun i hi hn => ?_⟩
    · have hcomplete := ((fit_iff hfit.positional hdefaults).mp hfit).2 i hi
      rw [← Option.or_assoc, hfilled.slot i (Nat.lt_of_lt_of_le hi (List.length_take_le' ..))]
      cases hgiven : (args.positional[i]?).or (namedFor c.params args.named i) with
      | some w => rfl
      | none =>
        have hle := hcomplete hgiven
        have hdefined : i - (c.params.length - defaults.length) < defaults.length := by omega
        rw [Option.none_or, defaultFor, if_pos hle, List.getElem?_eq_getElem hdefined,
          Option.getD_some]
    · have hname : namedFor c.params args.named i = none := by
        rw [namedFor, List.getElem?_eq_none hi, Option.bind_none]
      rw [hfilled.slot i hn, List.getElem?_eq_none (Nat.le_trans hfit.positional hi), hname,
        defaultFor_eq_none_of_ge hdefaults hi]
      rfl

/-- Of a function with the parameters `a`, `b=2` and `c=3` and one more local slot, called with one
positional argument and the keyword `c`. -/
theorem bindArguments_positional_default_keyword :
    let f : Code := ⟨"f", #[], .empty, ["a", "b", "c", "x"], 3⟩
    let args : Arguments := ⟨[.int 1], [("c", .int 30)]⟩
    ∃ locals, bindArguments f [.int 2, .int 3] args = .ok locals ∧
      locals[0]? = some (.int 1) ∧ locals[1]? = some (.int 2) ∧ locals[2]? = some (.int 30) ∧
      locals[3]? = some .undefined := by
  intro f args
  obtain ⟨hiff, hbinds⟩ := @bindArguments_iff [.int 2, .int 3] args f (by decide) (by decide)
    (by decide) (by simp [args]) (by simp [args]) (by simp)
  have hfit : args.Fit f.params [.int 2, .int 3] := by
    refine ⟨by decide, fun name hname => ?_, fun i name _ hi _ => ?_⟩
    · obtain rfl := List.mem_singleton.mp hname
      exact ⟨2, by decide, rfl⟩
    · change 1 ≤ i at hi
      change 3 ≤ i + 2
      omega
  obtain ⟨locals, hlocals⟩ := hiff.mpr hfit
  obtain ⟨-, hparams, hrest⟩ := hbinds locals hlocals
  exact ⟨locals, hlocals, hparams 0 (by decide), hparams 1 (by decide), hparams 2 (by decide),
    hrest 3 (by decide) (by decide)⟩

end Machine

end Resumable
