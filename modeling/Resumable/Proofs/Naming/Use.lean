import Resumable.Proofs.Simulation.Build
import Resumable.Proofs.Semantics.Statement

/-!
# Uses of names

`Stmt.uses` lists the uses of names in a statement in the order in which the compiler comes to them,
outside the functions in the statement: a `finally` clause is compiled twice, and an `assert` reads
the class of its exception without a name. `NameUse.Resolves` says which instruction a use stands
for where names have given places; there is none for an assignment to a builtin. Main statement of
this module: `binds_of_store`, every name that a function of a program assigns to is a local of the
function or a name of the module, so such an assignment does not occur.
-/

namespace Resumable

open Semantics (Names Function functionsBy functionsIn functionsInHandlers)

/-! ## Uses -/

mutual

/-- The names that an expression reads. -/
def Expr.loads : Expr → List String
  | .mk _ form => form.loads

def ExprForm.loads : ExprForm → List String
  | .literal _ => []
  | .format parts => FormatPart.allLoads parts
  | .name id => [id]
  | .list items | .tuple items => Expr.allLoads items
  | .dict items => DictItem.allLoads items
  | .binary left _ right => left.loads ++ right.loads
  | .all first rest | .any first rest => first.loads ++ Expr.allLoads rest
  | .not operand | .neg operand | .pos operand | .await operand | .starred operand => operand.loads
  | .compare left rest => left.loads ++ Comparison.allLoads rest
  | .conditional test body orElse => test.loads ++ body.loads ++ orElse.loads
  | .call callee args kws => callee.loads ++ Expr.allLoads args ++ Keyword.allLoads kws
  | .methodCall object _ args kws => object.loads ++ Expr.allLoads args ++ Keyword.allLoads kws
  | .attribute object _ => object.loads
  | .subscript object index => object.loads ++ index.loads
  | .slice lower upper step =>
    Expr.maybeLoads lower ++ Expr.maybeLoads upper ++ Expr.maybeLoads step

def Expr.allLoads : List Expr → List String
  | [] => []
  | e :: rest => e.loads ++ Expr.allLoads rest

def Expr.maybeLoads : Option Expr → List String
  | none => []
  | some e => e.loads

def FormatPart.allLoads : List FormatPart → List String
  | [] => []
  | .text _ :: rest => FormatPart.allLoads rest
  | .field value _ _ :: rest => value.loads ++ FormatPart.allLoads rest

def DictItem.allLoads : List DictItem → List String
  | [] => []
  | .mk key value :: rest => key.loads ++ value.loads ++ DictItem.allLoads rest

def Comparison.allLoads : List Comparison → List String
  | [] => []
  | .mk _ right :: rest => right.loads ++ Comparison.allLoads rest

def Keyword.allLoads : List Keyword → List String
  | [] => []
  | .mk _ value :: rest => value.loads ++ Keyword.allLoads rest

end

def Param.allLoads : List Param → List String
  | [] => []
  | p :: rest => Expr.maybeLoads p.default ++ Param.allLoads rest

/-- A use of a name. -/
inductive NameUse where
  | load (name : String)
  | store (name : String)
  /-- The class of the exception of an `assert`, which no name stands for. -/
  | assertion

mutual

def Target.uses : Target → List NameUse
  | .name id => [.store id]
  | .subscript object index => (object.loads ++ index.loads).map .load
  | .tuple ts => Target.allUses ts

def Target.allUses : List Target → List NameUse
  | [] => []
  | t :: rest => t.uses ++ Target.allUses rest

end

/-- The target of an augmented assignment is read and then bound; `value` are the uses in
between. -/
def Target.augmentedUses (value : List NameUse) : Target → List NameUse
  | .name id => .load id :: value ++ [.store id]
  | .subscript object index => (object.loads ++ index.loads).map .load ++ value
  | .tuple _ => []

mutual

/-- The uses of names in a statement, outside the functions in it. -/
def Stmt.uses : Stmt → List NameUse
  | .expr value => value.loads.map .load
  | .assign first rest value => value.loads.map .load ++ first.uses ++ Target.allUses rest
  | .augAssign target _ value _ => target.augmentedUses (value.loads.map .load)
  | .ifElse test body orElse | .while test body orElse =>
    test.loads.map .load ++ Stmt.allUses body ++ Stmt.allUses orElse
  | .for target iter body orElse _ =>
    iter.loads.map .load ++ target.uses ++ Stmt.allUses body ++ Stmt.allUses orElse
  | .functionDef name params _ _ => (Param.allLoads params).map .load ++ [.store name]
  | .return value _ | .raise value _ => (Expr.maybeLoads value).map .load
  | .try body handlers orElse final =>
    Stmt.allUses body ++ Stmt.allUses orElse ++ Handler.allUses handlers ++ Stmt.allUses final ++
      Stmt.allUses final
  | .assert test message _ =>
    test.loads.map .load ++ .assertion :: (Expr.maybeLoads message).map .load
  | .import _ binding => [.store binding]
  | .importFrom _ names _ => names.map fun x => .store x.2
  | .break _ | .continue _ | .pass | .global _ => []

def Stmt.allUses : List Stmt → List NameUse
  | [] => []
  | s :: rest => s.uses ++ Stmt.allUses rest

def Handler.allUses : List Handler → List NameUse
  | [] => []
  | .mk type name body :: rest =>
    (Expr.maybeLoads type).map .load ++ name.toList.map .store ++ Stmt.allUses body ++
      Handler.allUses rest

end

/-- The uses of names in a function, outside the functions in it. -/
def Semantics.Function.uses (d : Function) : List NameUse := Stmt.allUses d.body

/-! ## Instructions for uses -/

/-- A name is local, or bound outside of the functions. -/
def Semantics.Names.Binds (ns : Names) (name : String) : Prop :=
  (∃ names, ns.locals = some names ∧ name ∈ names) ∨ name ∈ ns.module

/-- The instruction that binds a name of a place; builtins are not bound. -/
def Compile.Place.store? : Place → Option Op
  | .local slot => some (.storeLocal slot)
  | .global slot => some (.storeGlobal slot)
  | .builtin _ | .excClass _ => none

/-- An instruction reads or binds the place of the name that is used, and the slot of this place
belongs to the name. -/
def NameUse.Resolves (ns : Names) (op : Op) : NameUse → Prop
  | .load name => (ns.place name).Names ns name ∧ (ns.place name).load = op
  | .store name => (ns.place name).Names ns name ∧ (ns.place name).store? = some op
  | .assertion => op = .loadExcClass .assertionError

/-! ## The scan sees every assignment -/

section
variable {name : String}

theorem not_mem_loads {names : List String} : NameUse.store name ∉ names.map NameUse.load := by
  simp

mutual

theorem mem_ofTarget_of_store (t : Target) (h : .store name ∈ t.uses) :
    name ∈ Scope.ofTarget t := by
  match t with
  | .name id => simpa [Target.uses, Scope.ofTarget] using h
  | .subscript object index => exact (not_mem_loads h).elim
  | .tuple ts =>
    rw [Target.uses] at h
    rw [Scope.ofTarget]
    exact mem_ofTargets_of_store ts h

theorem mem_ofTargets_of_store (ts : List Target) (h : .store name ∈ Target.allUses ts) :
    name ∈ Scope.ofTargets ts := by
  match ts with
  | [] => simp [Target.allUses] at h
  | t :: rest =>
    rw [Target.allUses, List.mem_append] at h
    rw [Scope.ofTargets, List.mem_append]
    rcases h with h | h
    · exact .inl (mem_ofTarget_of_store t h)
    · exact .inr (mem_ofTargets_of_store rest h)

end

mutual

/-- What a statement assigns to is among the names that it is found to bind. -/
theorem mem_assignedBy_of_store (s : Stmt) (h : .store name ∈ s.uses) :
    name ∈ Scope.assignedBy s := by
  match s with
  | .assign first rest value =>
    simp only [Stmt.uses, List.mem_append, not_mem_loads, false_or] at h
    rw [Scope.assignedBy, List.mem_append]
    exact h.imp (mem_ofTarget_of_store first) (mem_ofTargets_of_store rest)
  | .augAssign (.name id) op value span =>
    simpa [Stmt.uses, Target.augmentedUses, Scope.assignedBy, Scope.ofTarget] using h
  | .augAssign (.subscript object index) op value span =>
    simp [Stmt.uses, Target.augmentedUses] at h
  | .augAssign (.tuple ts) op value span => simp [Stmt.uses, Target.augmentedUses] at h
  | .ifElse test body orElse | .while test body orElse =>
    simp only [Stmt.uses, List.mem_append, not_mem_loads, false_or] at h
    rw [Scope.assignedBy, List.mem_append]
    exact h.imp (mem_assigned_of_store body) (mem_assigned_of_store orElse)
  | .for target iter body orElse span =>
    simp only [Stmt.uses, List.mem_append, not_mem_loads, false_or] at h
    rw [Scope.assignedBy, List.mem_append, List.mem_append]
    exact h.imp (Or.imp (mem_ofTarget_of_store target) (mem_assigned_of_store body))
      (mem_assigned_of_store orElse)
  | .functionDef f params body span => simpa [Stmt.uses, Scope.assignedBy] using h
  | .try body hs orElse final =>
    simp only [Stmt.uses, List.mem_append] at h
    simp only [Scope.assignedBy, List.mem_append]
    rcases h with (((h | h) | h) | h) | h
    · exact .inl (.inl (.inl (mem_assigned_of_store body h)))
    · exact .inl (.inr (mem_assigned_of_store orElse h))
    · exact .inl (.inl (.inr (mem_assignedInHandlers_of_store hs h)))
    · exact .inr (mem_assigned_of_store final h)
    · exact .inr (mem_assigned_of_store final h)
  | .assert test message span => simp [Stmt.uses] at h
  | .import module binding => simpa [Stmt.uses, Scope.assignedBy] using h
  | .importFrom module names span => simpa [Stmt.uses, Scope.assignedBy] using h
  | .expr value | .return value span | .raise value span => simp [Stmt.uses] at h
  | .break span | .continue span | .pass | .global names => simp [Stmt.uses] at h

theorem mem_assigned_of_store (ss : List Stmt) (h : .store name ∈ Stmt.allUses ss) :
    name ∈ Scope.assigned ss := by
  match ss with
  | [] => simp [Stmt.allUses] at h
  | s :: rest =>
    rw [Stmt.allUses, List.mem_append] at h
    rw [Scope.assigned, List.mem_append]
    exact h.imp (mem_assignedBy_of_store s) (mem_assigned_of_store rest)

theorem mem_assignedInHandlers_of_store (hs : List Handler)
    (h : .store name ∈ Handler.allUses hs) : name ∈ Scope.assignedInHandlers hs := by
  match hs with
  | [] => simp [Handler.allUses] at h
  | .mk type bound body :: rest =>
    simp only [Handler.allUses, List.mem_append, not_mem_loads, false_or] at h
    simp only [Scope.assignedInHandlers, List.mem_append]
    refine h.imp (Or.imp (fun h => ?_) (mem_assigned_of_store body))
      (mem_assignedInHandlers_of_store rest)
    simpa using h

end

/-! ## The scan sees every declaration -/

theorem mem_insertAll {names more : List String} :
    name ∈ Scope.insertAll names more ↔ name ∈ names ∨ name ∈ more := by
  induction more generalizing names with
  | nil => simp [Scope.insertAll]
  | cons m more ih =>
    change name ∈ Scope.insertAll (Scope.insert names m) more ↔ _
    rw [ih, List.mem_cons, ← or_assoc]
    refine or_congr_left ?_
    unfold Scope.insert
    split
    · next hm =>
      rw [List.contains_iff_mem] at hm
      constructor
      · exact .inl
      · rintro (h | rfl)
        · exact h
        · exact hm
    · rw [List.mem_append, List.mem_singleton]

/-- What a function assigns to is local to it unless it declares it global. -/
theorem mem_locals_or_declared (params : List String) {body : List Stmt}
    (h : name ∈ Scope.assigned body) :
    name ∈ Scope.locals params body ∨ name ∈ Scope.declared body := by
  by_cases hdeclared : name ∈ Scope.declared body
  · exact .inr hdeclared
  · refine .inl (mem_insertAll.mpr (.inr (List.mem_filter.mpr ⟨h, ?_⟩)))
    simpa using hdeclared

/-- A function has the locals that the scan finds, and what it declares global is among `names`. -/
structure Semantics.Function.Scanned (d : Function) (names : List String) : Prop where
  isModule_eq : d.isModule = false
  locals_eq : ∃ params, d.locals = Scope.locals params d.body
  declared : ∀ name ∈ Scope.declared d.body, name ∈ names

theorem Semantics.Function.Scanned.mono {d : Function} {names more : List String}
    (h : d.Scanned names) (hmore : ∀ name ∈ names, name ∈ more) : d.Scanned more :=
  ⟨h.isModule_eq, h.locals_eq, fun name hname => hmore name (h.declared name hname)⟩

mutual

theorem scanned_by (k : Nat) (s : Stmt) {d : Function} (hd : d ∈ functionsBy k s) :
    d.Scanned (Scope.declaredInsideBy s) := by
  match s with
  | .functionDef f params body span =>
    rw [functionsBy, List.mem_cons] at hd
    rcases hd with rfl | hd
    · exact ⟨rfl, ⟨_, rfl⟩, fun name h => List.mem_append_left _ h⟩
    · exact (scanned_in _ body hd).mono fun name h => List.mem_append_right _ h
  | .ifElse test body orElse | .while test body orElse | .for target iter body orElse span =>
    simp only [functionsBy, List.mem_append] at hd
    rcases hd with hd | hd
    · exact (scanned_in _ body hd).mono fun name h => List.mem_append_left _ h
    · exact (scanned_in _ orElse hd).mono fun name h => List.mem_append_right _ h
  | .try body hs orElse final =>
    simp only [functionsBy, List.mem_append] at hd
    rw [Scope.declaredInsideBy]
    rcases hd with (((hd | hd) | hd) | hd) | hd
    · exact (scanned_in _ body hd).mono fun name h => by simp [h]
    · exact (scanned_in _ orElse hd).mono fun name h => by simp [h]
    · exact (scanned_inHandlers _ hs hd).mono fun name h => by simp [h]
    · exact (scanned_in _ final hd).mono fun name h => by simp [h]
    · exact (scanned_in _ final hd).mono fun name h => by simp [h]
  | .expr _ | .assign .. | .augAssign .. | .break _ | .continue _ | .pass | .return .. | .global _
  | .raise .. | .assert .. | .import .. | .importFrom .. => simp [functionsBy] at hd

/-- The scan sees a function wherever it stands. -/
theorem scanned_in (k : Nat) (ss : List Stmt) {d : Function} (hd : d ∈ functionsIn k ss) :
    d.Scanned (Scope.declaredInside ss) := by
  match ss with
  | [] => simp [functionsIn] at hd
  | s :: rest =>
    rw [functionsIn, List.mem_append] at hd
    rw [Scope.declaredInside]
    rcases hd with hd | hd
    · exact (scanned_by _ s hd).mono fun name h => List.mem_append_left _ h
    · exact (scanned_in _ rest hd).mono fun name h => List.mem_append_right _ h

theorem scanned_inHandlers (k : Nat) (hs : List Handler) {d : Function}
    (hd : d ∈ functionsInHandlers k hs) : d.Scanned (Scope.declaredInsideHandlers hs) := by
  match hs with
  | [] => simp [functionsInHandlers] at hd
  | .mk type bound body :: rest =>
    simp only [functionsInHandlers, List.mem_append] at hd
    rw [Scope.declaredInsideHandlers]
    rcases hd with hd | hd
    · exact (scanned_in _ body hd).mono fun name h => List.mem_append_left _ h
    · exact (scanned_inHandlers _ rest hd).mono fun name h => List.mem_append_right _ h

end

/-- Every name that a function of a program assigns to, or its module body, is a local of the
function or a name of the module. -/
theorem binds_of_store (preset slots : List String) (program : List Stmt) {d : Function}
    (hd : d ∈ (Semantics.Program.ofStmts preset slots program).functions)
    (h : .store name ∈ d.uses) :
    ((Semantics.Program.ofStmts preset slots program).names d).Binds name := by
  have hassigned := mem_assigned_of_store d.body h
  have hmodule : name ∈ Scope.assigned program ∨ name ∈ Scope.declaredInside program →
      name ∈ Scope.moduleNames (Scope.insertAll [] preset) program := by
    intro h
    simp only [Scope.moduleNames, List.mem_append]
    rcases h with h | h
    · exact .inl (.inl (.inr h))
    · exact .inr h
  rcases List.mem_cons.mp hd with rfl | hd
  · exact .inr (hmodule (.inl hassigned))
  · obtain ⟨hd, ⟨params, hlocals⟩, hdeclared⟩ := scanned_in 1 program hd
    rcases mem_locals_or_declared params hassigned with h | h
    · refine .inl ⟨d.locals, ?_, hlocals ▸ h⟩
      rw [Semantics.Program.names, hd]
      rfl
    · exact .inr (hmodule (.inr (hdeclared name h)))

end

end Resumable
