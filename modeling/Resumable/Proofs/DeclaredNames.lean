import Resumable.Host.Program
import Resumable.Proofs.Binding
import Resumable.Proofs.Boundary
import Resumable.Proofs.Simulation.Program

/-!
# The names that a program is declared with

Names go through three orders: the one in which the host declares and supplies them, the sorted one
of the script, and that of the global slots, which grows while the program is compiled. Sorting and
supplying permute (`orderInputs_eq_ok_iff`), and compiling only adds slots behind those of the
declared names (`Script.Resolves`), so that each declared name has a slot of its own from the start,
whatever else the program mentions. Main statement: `Program.names_reached`.
-/

namespace Resumable

/-! ## Validation -/

theorem firstRepeated?_eq_none_iff {α : Type} [BEq α] [LawfulBEq α] {seen l : List α} :
    firstRepeated? seen l = none ↔ l.Nodup ∧ ∀ a ∈ l, a ∉ seen := by
  induction l generalizing seen with
  | nil => simp [firstRepeated?]
  | cons a l ih =>
    rw [firstRepeated?]
    by_cases ha : seen.contains a = true
    · rw [if_pos ha]
      simp [List.contains_iff_mem.mp ha]
    · rw [if_neg ha, ih, List.nodup_cons]
      rw [List.contains_iff_mem] at ha
      constructor
      · rintro ⟨hnodup, hseen⟩
        refine ⟨⟨fun hmem => hseen a hmem List.mem_cons_self, hnodup⟩, fun b hb => ?_⟩
        rcases List.mem_cons.mp hb with rfl | hb
        · exact ha
        · exact fun hmem => hseen b hb (List.mem_cons_of_mem _ hmem)
      · rintro ⟨⟨hnew, hnodup⟩, hseen⟩
        refine ⟨hnodup, fun b hb hmem => ?_⟩
        rcases List.mem_cons.mp hmem with rfl | hmem
        · exact hnew hb
        · exact hseen b (List.mem_cons_of_mem _ hb) hmem

namespace Declaration

variable {d : Declaration} {kind : NameKind} {names sorted inputs functions : List String}

theorem perm_of_sortedNames (h : sortedNames kind names = .ok sorted) : sorted.Perm names := by
  unfold sortedNames at h
  dsimp only at h
  split at h
  · cases h
  · split at h
    · cases h
    · cases h
      exact List.mergeSort_perm ..

theorem perm_of_validate (h : d.validate = .ok (inputs, functions)) :
    inputs.Perm d.inputs ∧ functions.Perm d.functions := by
  unfold validate at h
  cases hinputs : sortedNames .input d.inputs with
  | error e => rw [hinputs] at h; cases h
  | ok sortedInputs =>
    cases hfunctions : sortedNames .function d.functions with
    | error e => rw [hinputs, hfunctions] at h; cases h
    | ok sortedFunctions =>
      rw [hinputs, hfunctions] at h
      simp only [bind, Except.bind] at h
      split at h
      · cases h
      · cases h
        exact ⟨perm_of_sortedNames hinputs, perm_of_sortedNames hfunctions⟩

end Declaration

namespace Script

/-- The names that have the first global slots. -/
def preset (s : Script) : List String := s.functions ++ s.inputs

/-- A script comes of a source that a parser reads as a program, and its declared names are
different. -/
structure Comes (s : Script) (parse : Parser) (program : List Stmt) : Prop where
  read : readProgram s.source parse = .ok program
  compiled : Resumable.compile s.preset program = .ok s.bytecode
  nodup : s.preset.Nodup

theorem exists_comes {source name : String} {inputs functions : List String} {parse : Parser}
    {s : Script} (h : compile source name inputs functions parse = .ok s) :
    s.inputs = inputs ∧ s.functions = functions ∧ s.source = source ∧
      ∃ program, s.Comes parse program := by
  unfold compile at h
  split at h
  · cases h
  · next hrepeated =>
    cases hcompiled : compile.compiled source inputs functions parse with
    | error e => rw [hcompiled] at h; cases h
    | ok bytecode =>
      rw [hcompiled] at h
      cases h
      unfold compile.compiled at hcompiled
      cases hread : readProgram source parse with
      | error e => rw [hread] at hcompiled; cases hcompiled
      | ok program =>
        rw [hread] at hcompiled
        exact ⟨rfl, rfl, rfl, program, hread, hcompiled,
          (firstRepeated?_eq_none_iff.mp hrepeated).1⟩

end Script

theorem Program.exists_comes {source : String} {d : Declaration} {parse : Parser} {p : Program}
    (h : Program.compile source d parse = .ok p) : p.script.inputs.Perm d.inputs ∧
      p.script.functions.Perm d.functions ∧ p.script.source = source ∧
      ∃ program, p.script.Comes parse program := by
  unfold Program.compile at h
  cases hvalidate : d.validate with
  | error fault => rw [hvalidate] at h; cases h
  | ok names =>
    obtain ⟨inputs, functions⟩ := names
    rw [hvalidate] at h
    dsimp only at h
    cases hscript : Script.compile source (d.script.getD Declaration.defaultScript) inputs
        functions parse with
    | error e => rw [hscript] at h; cases h
    | ok script =>
      rw [hscript] at h
      cases h
      obtain ⟨rfl, rfl, hsource, hcomes⟩ := Script.exists_comes hscript
      obtain ⟨hinputs, hfunctions⟩ := Declaration.perm_of_validate hvalidate
      exact ⟨hinputs, hfunctions, hsource, hcomes⟩

/-! ## Supplied inputs -/

namespace Program

variable {p : Program} {seen supply collected : List (String × Object)} {values : List Object}

theorem collectInputs_eq_ok_iff : p.collectInputs seen supply = .ok collected ↔
    (∀ e ∈ supply, e.1 ∈ p.script.inputs ∧ e.1 ∉ seen.map (·.1)) ∧ (supply.map (·.1)).Nodup ∧
      collected = supply.reverse ++ seen := by
  induction supply generalizing seen with
  | nil =>
    rw [collectInputs]
    constructor
    · intro h
      cases h
      exact ⟨nofun, .nil, rfl⟩
    · rintro ⟨-, -, rfl⟩
      rfl
  | cons e supply ih =>
    obtain ⟨name, o⟩ := e
    have hseen : seen.any (·.1 == name) = true ↔ name ∈ seen.map (·.1) := by
      rw [List.any_eq_true, List.mem_map]
      simp only [beq_iff_eq]
    rw [collectInputs]
    by_cases hinput : name ∈ p.script.inputs
    · rw [if_neg (by simpa using hinput)]
      by_cases hrepeated : name ∈ seen.map (·.1)
      · rw [if_pos (hseen.mpr hrepeated)]
        constructor
        · intro h
          cases h
        · rintro ⟨hall, -, -⟩
          exact absurd hrepeated (hall _ List.mem_cons_self).2
      · rw [if_neg (hseen.not.mpr hrepeated), ih, List.forall_mem_cons, List.map_cons,
          List.map_cons, List.nodup_cons, List.reverse_cons, List.append_assoc,
          List.singleton_append]
        constructor
        · rintro ⟨hall, hnodup, rfl⟩
          refine ⟨⟨⟨hinput, hrepeated⟩, fun e he => ⟨(hall e he).1, fun hmem => ?_⟩⟩,
            ⟨fun hmem => ?_, hnodup⟩, rfl⟩
          · exact (hall e he).2 (List.mem_cons_of_mem _ hmem)
          · obtain ⟨e, he, heq⟩ := List.mem_map.mp hmem
            exact (hall e he).2 (heq ▸ List.mem_cons_self)
        · rintro ⟨⟨-, hall⟩, ⟨hnew, hnodup⟩, rfl⟩
          refine ⟨fun e he => ⟨(hall e he).1, fun hmem => ?_⟩, hnodup, rfl⟩
          rcases List.mem_cons.mp hmem with heq | hmem
          · exact hnew (heq ▸ List.mem_map_of_mem he)
          · exact (hall e he).2 hmem
    · rw [if_pos (by simpa using hinput)]
      constructor
      · intro h
        cases h
      · rintro ⟨hall, -, -⟩
        exact absurd (hall _ List.mem_cons_self).1 hinput

theorem lookup_collected (hdistinct : (supply.map (·.1)).Nodup) {name : String} {o : Object} :
    (supply.reverse ++ []).lookup name = some o ↔ (name, o) ∈ supply := by
  rw [List.append_nil, List.lookup_eq_some_iff_mem, List.mem_reverse]
  rw [List.map_reverse, List.nodup_reverse]
  exact hdistinct

/-- Inputs are taken if and only if they are the declared ones in some order; each value comes to
the place of its name. -/
theorem orderInputs_eq_ok_iff (hnodup : p.script.inputs.Nodup) :
    p.orderInputs supply = .ok values ↔
      values.length = p.script.inputs.length ∧ supply.Perm (p.script.inputs.zip values) := by
  unfold orderInputs
  constructor
  · intro h
    cases hcollect : p.collectInputs [] supply with
    | error e => rw [hcollect] at h; cases h
    | ok supplied =>
      obtain ⟨hdeclared, hdistinct, rfl⟩ := collectInputs_eq_ok_iff.mp hcollect
      rw [hcollect] at h
      obtain ⟨hlength, hzip⟩ := List.forall₂_iff_zip.mp (List.mapM_eq_ok_iff.mp h)
      have hkeys : (p.script.inputs.zip values).map (·.1) = p.script.inputs :=
        List.map_fst_zip hlength.le
      have hsupplied : ∀ e ∈ p.script.inputs.zip values, e ∈ supply := by
        intro e he
        have hread := hzip he
        split at hread
        · next v hv =>
          rw [Except.ok.inj hread] at hv
          exact (lookup_collected hdistinct).mp hv
        · cases hread
      have hplaced : ∀ e ∈ supply, e ∈ p.script.inputs.zip values := by
        -- the place of the name has the one value that is supplied for it
        intro e he
        obtain ⟨e', he', heq⟩ := List.mem_map.mp (hkeys ▸ (hdeclared e he).1)
        have hsame : e' = e := List.inj_on_of_nodup_map hdistinct (hsupplied e' he') he heq
        exact hsame ▸ he'
      refine ⟨hlength.symm, (List.perm_ext_iff_of_nodup hdistinct.of_map ?_).mpr fun e =>
        ⟨hplaced e, hsupplied e⟩⟩
      exact List.Nodup.of_map (·.1) (hkeys.symm ▸ hnodup)
  · rintro ⟨hlength, hperm⟩
    have hnames := hperm.map (·.1)
    rw [List.map_fst_zip hlength.ge] at hnames
    have hdistinct := hnames.nodup_iff.mpr hnodup
    have hcollect : p.collectInputs [] supply = .ok (supply.reverse ++ []) := by
      refine collectInputs_eq_ok_iff.mpr ⟨fun e he => ⟨?_, List.not_mem_nil⟩, hdistinct, rfl⟩
      exact hnames.mem_iff.mp (List.mem_map_of_mem he)
    rw [hcollect]
    refine List.mapM_eq_ok_iff.mpr (List.forall₂_iff_zip.mpr ⟨hlength.symm, fun he => ?_⟩)
    rw [(lookup_collected hdistinct).mpr (hperm.mem_iff.mpr he)]

end Program

/-! ## Global slots -/

theorem Scope.insertAll_of_nodup {names more : List String} (h : (names ++ more).Nodup) :
    Scope.insertAll names more = names ++ more := by
  induction more generalizing names with
  | nil => exact (List.append_nil names).symm
  | cons name more ih =>
    have hnew : name ∉ names := fun hmem =>
      (List.nodup_append.mp h).2.2 name hmem name List.mem_cons_self rfl
    change Scope.insertAll (Scope.insert names name) more = _
    rw [Scope.insert, if_neg (by simpa using hnew), ih (by simpa using h), List.append_assoc,
      List.singleton_append]

/-- Compiling keeps the slots that there are at the start. -/
theorem insertAll_prefix_globals {preset : List String} {program : List Stmt} {code : Bytecode}
    (h : compile preset program = .ok code) : Scope.insertAll [] preset <+: code.globals := by
  unfold compile at h
  simp only at h
  generalize hb : StateT.run _ _ = x at h
  cases x with
  | error e => cases h
  | ok x =>
    cases h
    obtain ⟨-, -, hwithin, -⟩ := Compile.main_adds program rfl rfl rfl rfl hb
    exact hwithin.globals

/-- The first slots belong to different names, whatever follows behind them. -/
theorem findIdx?_preset {preset slots : List String} {name : String} {slot : Nat}
    (hnodup : preset.Nodup) (hslot : preset[slot]? = some name) (hslots : preset <+: slots) :
    slots.findIdx? (· == name) = some slot := by
  obtain ⟨more, rfl⟩ := hslots
  rw [List.findIdx?_append, (findIdx?_eq_some_iff_of_nodup hnodup).mpr hslot]
  rfl

namespace Script

variable {s : Script} {parse : Parser} {program : List Stmt} {name : String} {slot : Nat}

/-- The functions that the code of a script is compiled from, and its names. -/
def meaning (s : Script) (program : List Stmt) : Semantics.Program :=
  .ofStmts s.preset s.bytecode.globals program

/-- A name has a global slot, wherever it is no local. -/
structure Resolves (s : Script) (program : List Stmt) (name : String) (slot : Nat) : Prop where
  named : s.bytecode.globals[slot]? = some name
  /-- The compiler takes the slot, whatever slots it has added so far, and adds none. -/
  compiled : ∀ (env : Compile.Env) (b : Compile.State), s.preset <+: b.globals →
    env.moduleNames = (s.meaning program).module →
    (∀ names, env.locals = some names → name ∉ names) →
    Compile.place env name b = .ok (.global slot, b)
  /-- Each function of the program, and its module body, means the slot. -/
  meant : ∀ d ∈ (s.meaning program).functions, d.isModule = true ∨ name ∉ d.locals →
    ((s.meaning program).names d).place name = .global slot

theorem bind_findIdx?_eq_none {locals : Option (List String)}
    (h : ∀ names, locals = some names → name ∉ names) :
    (locals.bind fun names => names.findIdx? (· == name)) = none := by
  cases locals with
  | none => rfl
  | some names =>
    rw [Option.bind_some, List.findIdx?_eq_none_iff]
    intro x hx
    rw [beq_eq_false_iff_ne]
    rintro rfl
    exact h names rfl hx

theorem Comes.prefix_globals (h : s.Comes parse program) : s.preset <+: s.bytecode.globals := by
  have hglobals := insertAll_prefix_globals h.compiled
  rwa [Scope.insertAll_of_nodup (by simpa using h.nodup), List.nil_append] at hglobals

theorem Comes.resolves (h : s.Comes parse program) (hslot : s.preset[slot]? = some name) :
    s.Resolves program name slot := by
  have hmodule : (s.meaning program).module.contains name = true := by
    change (Scope.moduleNames (Scope.insertAll [] s.preset) program).contains name = true
    rw [Scope.insertAll_of_nodup (by simpa using h.nodup), List.contains_iff_mem,
      Scope.moduleNames]
    simp only [List.mem_append, List.nil_append]
    exact .inl (.inl (.inl (List.mem_of_getElem? hslot)))
  refine ⟨?_, fun env b hb henv hlocals => ?_, fun d _ hlocal => ?_⟩
  · exact Compile.findIdx?_eq_some (findIdx?_preset h.nodup hslot h.prefix_globals)
  · rw [← henv] at hmodule
    unfold Compile.place
    rw [bind_findIdx?_eq_none hlocals, if_pos hmodule]
    change (Compile.globalSlot name b >>= fun x => .ok (Compile.Place.global x.1, x.2)) = _
    rw [Compile.globalSlot_eq, findIdx?_preset h.nodup hslot hb]
    rfl
  · have hlocals : ∀ names, ((s.meaning program).names d).locals = some names → name ∉ names := by
      intro names hnames
      rcases hlocal with hmain | hlocal
      · rw [Semantics.Program.names, if_pos hmain] at hnames
        cases hnames
      · rw [Semantics.Program.names] at hnames
        split at hnames
        · cases hnames
        · cases hnames
          exact hlocal
    have hfind : (s.meaning program).slots.findIdx? (· == name) = some slot :=
      findIdx?_preset h.nodup hslot h.prefix_globals
    unfold Semantics.Names.place
    rw [bind_findIdx?_eq_none hlocals]
    change (if (s.meaning program).module.contains name then
      Compile.Place.global (((s.meaning program).slots.findIdx? (· == name)).getD 0) else _) = _
    rw [if_pos hmodule, hfind]
    rfl

end Script

/-! ## Values at the start -/

theorem Heap.forall₂_of_ofObjects {h k : Heap} {done values : List Value} {os : List Object}
    (hvalues : ofObjects done os h = .ok values k) : ∃ new, values = done.reverse ++ new ∧
      List.Forall₂ (fun o v => ∃ h k, ofObject o h = .ok v k) os new := by
  induction os generalizing done h with
  | nil =>
    cases hvalues
    exact ⟨[], (List.append_nil _).symm, .nil⟩
  | cons o os ih =>
    rw [ofObjects] at hvalues
    obtain ⟨v, l, hv, hrest⟩ := ok_of_bind hvalues
    obtain ⟨new, rfl, hnew⟩ := ih hrest
    exact ⟨v :: new, by simp, .cons ⟨h, l, hv⟩ hnew⟩

theorem Script.exists_of_globals {s : Script} {inputs : List Object} {budget : Budget} {heap : Heap}
    {globals : Array Value} (h : s.globals inputs budget = .ok (heap, globals)) :
    ∃ values, Heap.ofObjects [] inputs (.ofBudget budget) = .ok values heap ∧
      (∀ k < s.functions.length, globals[k]? = some (.external k)) ∧
      ∀ i v, values[i]? = some v → globals[s.functions.length + i]? = some v := by
  unfold Script.globals at h
  split at h
  · cases h
  · cases hvalues : Heap.ofObjects [] inputs (.ofBudget budget) with
    | error e k => rw [hvalues] at h; cases h
    | ok values k =>
      rw [hvalues] at h
      cases h
      have hlength : ((List.range s.functions.length).map Value.external).length =
          s.functions.length := by simp
      refine ⟨values, rfl, fun i hi => ?_, fun i v hv => ?_⟩
      · rw [List.getElem?_toArray, List.append_assoc, List.getElem?_append_left (by simpa using hi)]
        simp [hi]
      · have hi := (List.getElem?_eq_some_iff.mp hv).1
        rw [List.getElem?_toArray, List.append_assoc, List.getElem?_append_right (by simp), hlength,
          Nat.add_sub_cancel_left, List.getElem?_append_left hi, hv]

/-! ## Calls of the host -/

theorem Machine.callValue_external (code : Bytecode) (k : Nat) (args : Arguments) (m : Machine) :
    ∃ call n, callValue code (.external k) args m =
      .ok (some (.externalCall k args call)) n :=
  ⟨_, _, rfl⟩

theorem Script.progressAt_externalCall {s : Script} {k : Nat} {name : String}
    (hname : s.functions[k]? = some name) (args : Arguments) (call : Nat) (m : Machine) :
    ∃ positional named run, s.progressAt (.externalCall k args call) m =
      .ok (.functionCall name positional named call run) := by
  simp only [progressAt, hname]
  exact ⟨_, _, _, rfl⟩

/-! ## Declared names -/

namespace Script

variable {s : Script} {parse : Parser} {program : List Stmt} {name : String} {inputs : List Object}
  {budget : Budget} {heap : Heap} {globals : Array Value}

/-- The slot of an input holds the value of the object at its place. -/
theorem Comes.input_reached (h : s.Comes parse program)
    (hglobals : s.globals inputs budget = .ok (heap, globals)) {i : Nat} {o : Object}
    (hname : s.inputs[i]? = some name) (ho : inputs[i]? = some o) :
    ∃ slot v, s.Resolves program name slot ∧ globals[slot]? = some v ∧
      (∃ before after, Heap.ofObject o before = .ok v after) ∧
      ((∀ o ∈ inputs, o.Plain) → heap.toObject v = o) := by
  obtain ⟨values, hvalues, -, hslots⟩ := exists_of_globals hglobals
  have hslot : s.preset[s.functions.length + i]? = some name := by
    rw [preset, List.getElem?_append_right (Nat.le_add_right ..), Nat.add_sub_cancel_left, hname]
  obtain ⟨_, rfl, hconverted⟩ := Heap.forall₂_of_ofObjects hvalues
  have hitem := hconverted.getElem? i
  rw [ho] at hitem
  obtain ⟨ho', -⟩ | ⟨_, v, hsome, hv, hconverts⟩ := hitem.elim
  · cases ho'
  · cases hsome
    refine ⟨_, v, h.resolves hslot, hslots i v (by simpa using hv), hconverts, fun hplain => ?_⟩
    obtain ⟨-, new, hnew, hdepict⟩ :=
      Heap.depict_of_ofObjects inputs (Heap.exact_ofBudget budget) hplain hvalues
    obtain rfl : values = new := by simpa using hnew
    have hback : values.map heap.toObject = inputs := hdepict.map_eq (.nil heap) nofun
    have hitem : (values.map heap.toObject)[i]? = some o := hback ▸ ho
    rw [List.getElem?_map, hv] at hitem
    exact Option.some.inj hitem

/-- The slot of a function of the host holds one whose call asks for the function of that name. -/
theorem Comes.function_reached (h : s.Comes parse program) (hname : name ∈ s.functions) :
    ∃ slot k, s.Resolves program name slot ∧
      (∀ inputs budget heap globals, s.globals inputs budget = .ok (heap, globals) →
        globals[slot]? = some (.external k)) ∧
      ∀ args m, ∃ call n,
        Machine.callValue s.bytecode (.external k) args m =
          .ok (some (.externalCall k args call)) n ∧
        ∀ l, ∃ positional named run, s.progressAt (.externalCall k args call) l =
          .ok (.functionCall name positional named call run) := by
  obtain ⟨k, hk, rfl⟩ := List.mem_iff_getElem.mp hname
  have hfunction := List.getElem?_eq_getElem hk
  refine ⟨k, k, h.resolves ((List.getElem?_append_left hk).trans hfunction), ?_, fun args m => ?_⟩
  · intro inputs budget heap globals hglobals
    obtain ⟨-, -, hexternal, -⟩ := exists_of_globals hglobals
    exact hexternal k hk
  · obtain ⟨call, n, hcall⟩ := Machine.callValue_external s.bytecode k args m
    exact ⟨call, n, hcall, progressAt_externalCall hfunction args call⟩

end Script

/-- Inputs that are supplied are taken if and only if they are the declared ones, in any order, and
the order does not matter. In the code of the program, which does what the program means that the
parser reads in the source, each declared name has a global slot that it is resolved to wherever it
is no local. At the start of a run, the slot of an input holds the value of the object that is
supplied under its name, and the slot of a function of the host holds one whose calls show the host
that name. -/
theorem Program.names_reached {source : String} {d : Declaration} {parse : Parser} {p : Program}
    (h : Program.compile source d parse = .ok p) :
    (∀ supply, (∃ values, p.orderInputs supply = .ok values) ↔
      (supply.map (·.1)).Perm d.inputs) ∧
    (∀ supply supply' values, supply.Perm supply' → p.orderInputs supply = .ok values →
      p.orderInputs supply' = .ok values) ∧
    ∃ program, readProgram source parse = .ok program ∧
      p.script.bytecode.Implements (p.script.meaning program) ∧
      p.script.preset <+: p.script.bytecode.globals ∧
      (∀ supply values budget heap globals, p.orderInputs supply = .ok values →
        p.script.globals values budget = .ok (heap, globals) → ∀ name o, (name, o) ∈ supply →
          ∃ slot v, p.script.Resolves program name slot ∧ globals[slot]? = some v ∧
            (∃ before after, Heap.ofObject o before = .ok v after) ∧
            ((∀ e ∈ supply, e.2.Plain) → heap.toObject v = o)) ∧
      ∀ name ∈ d.functions, ∃ slot k, p.script.Resolves program name slot ∧
        (∀ values budget heap globals, p.script.globals values budget = .ok (heap, globals) →
          globals[slot]? = some (.external k)) ∧
        ∀ args m, ∃ call n,
          Machine.callValue p.script.bytecode (.external k) args m =
            .ok (some (.externalCall k args call)) n ∧
          ∀ l, ∃ positional named run, p.script.progressAt (.externalCall k args call) l =
            .ok (.functionCall name positional named call run) := by
  obtain ⟨hinputs, hfunctions, rfl, program, hcomes⟩ := Program.exists_comes h
  have hnodup : p.script.inputs.Nodup := (List.nodup_append.mp hcomes.nodup).2.1
  refine ⟨fun supply => ⟨?_, fun hnames => ?_⟩, ?_, program, hcomes.read,
    compile_implements hcomes.compiled, hcomes.prefix_globals, ?_, ?_⟩
  · rintro ⟨values, hvalues⟩
    obtain ⟨hlength, hperm⟩ := (orderInputs_eq_ok_iff hnodup).mp hvalues
    have hnames := hperm.map (·.1)
    rw [List.map_fst_zip hlength.ge] at hnames
    exact hnames.trans hinputs
  · -- the supply in the order of the inputs
    obtain ⟨ordered, hordered, hperm⟩ :=
      (congrFun₂ (List.eq_map_comp_perm Prod.fst) p.script.inputs supply).mpr
        (hnames.trans hinputs.symm).symm
    refine ⟨ordered.map (·.2), (orderInputs_eq_ok_iff hnodup).mpr ⟨?_, ?_⟩⟩
    · rw [hordered, List.length_map, List.length_map]
    · rw [← List.zip_of_prod hordered.symm rfl]
      exact hperm.symm
  · intro supply supply' values hperm hvalues
    rw [orderInputs_eq_ok_iff hnodup] at hvalues ⊢
    exact ⟨hvalues.1, hperm.symm.trans hvalues.2⟩
  · intro supply values budget heap globals hvalues hglobals name o hsupplied
    obtain ⟨hlength, hperm⟩ := (orderInputs_eq_ok_iff hnodup).mp hvalues
    obtain ⟨i, hi⟩ := List.mem_iff_getElem?.mp (hperm.mem_iff.mp hsupplied)
    obtain ⟨hname, ho⟩ := List.getElem?_zip_eq_some.mp hi
    obtain ⟨slot, v, hresolves, hslot, hconverts, hback⟩ := hcomes.input_reached hglobals hname ho
    refine ⟨slot, v, hresolves, hslot, hconverts, fun hplain => hback fun o ho => ?_⟩
    have hobjects := hperm.map (·.2)
    rw [List.map_snd_zip hlength.le] at hobjects
    obtain ⟨e, he, rfl⟩ := List.mem_map.mp (hobjects.mem_iff.mpr ho)
    exact hplain e he
  · exact fun name hname => hcomes.function_reached (hfunctions.mem_iff.mpr hname)

/-- A start that can be evaluated. -/
theorem Program.exists_start {source : String} {d : Declaration} {inputs functions : List String}
    {supply : List (String × Object)} {budget : Budget}
    (hvalidate : d.validate = .ok (inputs, functions))
    (h : (match Script.compile source (d.script.getD Declaration.defaultScript) inputs
        functions with
      | .ok s => match (⟨s⟩ : Program).orderInputs supply with
        | .ok values => (s.globals values budget).isOk
        | .error _ => false
      | .error _ => false) = true) :
    ∃ p values heap globals, Program.compile source d = .ok p ∧
      p.orderInputs supply = .ok values ∧ p.script.globals values budget = .ok (heap, globals) := by
  split at h
  · next s hs =>
    split at h
    · next values hvalues =>
      cases hglobals : s.globals values budget with
      | error e => rw [hglobals] at h; cases h
      | ok start =>
        have hp : Program.compile source d = .ok ⟨s⟩ := by simp only [compile, hvalidate, hs]
        exact ⟨⟨s⟩, values, _, _, hp, hvalues, hglobals⟩
    · cases h
  · cases h

/-- The names of builtin functions, declared for an input and for a function of the host. -/
theorem Program.names_reached_builtins :
    let d : Declaration := ⟨["a", "print"], ["f", "len"], none⟩
    let supply : List (String × Object) := [("print", .int 1), ("a", .int 2)]
    ∃ p values program heap globals, Program.compile "len(print) + f(a)" d = .ok p ∧
      p.orderInputs supply = .ok values ∧
      p.script.globals values .free = .ok (heap, globals) ∧
      (∃ slot v, p.script.Resolves program "print" slot ∧ globals[slot]? = some v ∧
        heap.toObject v = .int 1) ∧
      ∃ slot k, p.script.Resolves program "len" slot ∧ globals[slot]? = some (.external k) := by
  intro d supply
  have hvalidate : d.validate = .ok (["a", "print"], ["f", "len"]) := by
    unfold Declaration.validate Declaration.sortedNames
    dsimp only [d]
    rw [List.mergeSort_of_pairwise, List.mergeSort_of_pairwise]
    · rfl
    · decide
    · decide
  have hstart : ∃ p values heap globals, Program.compile "len(print) + f(a)" d = .ok p ∧
      p.orderInputs supply = .ok values ∧
      p.script.globals values .free = .ok (heap, globals) :=
    Program.exists_start hvalidate (by decide +kernel)
  obtain ⟨p, values, heap, globals, hp, hvalues, hglobals⟩ := hstart
  obtain ⟨-, -, program, -, -, -, hinputs, hfunctions⟩ := Program.names_reached hp
  obtain ⟨slot, v, hresolves, hslot, -, hback⟩ := hinputs supply values .free heap globals hvalues
    hglobals "print" (.int 1) List.mem_cons_self
  obtain ⟨slot', k, hresolves', hexternal, -⟩ :=
    hfunctions "len" (List.mem_cons_of_mem _ List.mem_cons_self)
  have hplain : ∀ e ∈ supply, e.2.Plain := by
    simp only [supply, List.forall_mem_cons]
    exact ⟨.int 1, .int 2, nofun⟩
  exact ⟨p, values, program, heap, globals, hp, hvalues, hglobals,
    ⟨slot, v, hresolves, hslot, hback hplain⟩,
    slot', k, hresolves', hexternal values .free heap globals hglobals⟩

end Resumable
