import Mathlib.Data.List.Basic
import Resumable.FileSystem.Request

/-!
# Calls with their arguments

A request of a program is a name with any list of arguments. What it asks for is a call with
arguments of the right types (`OsRequest.Asks`), and what a call comes to is said by the typed
operations alone (`FileSystem.perform`). A request that lacks an argument, or has one of another
type, has a fault (`OsRequest.Faults`). Every request asks for one call or has a fault, and is
answered accordingly (`asks_or_faults`); an answer comes with a new file system only if an operation
for a change has made it (`changes_of_handle`).
-/

namespace Resumable

/-- A call for an operation with its arguments; paths are any texts. -/
inductive OsCall where
  | exists (path : String)
  | isFile (path : String)
  | isDir (path : String)
  | isSymlink (path : String)
  | readText (path : String)
  | readBytes (path : String)
  | writeText (path text : String)
  | writeBytes (path : String) (data : List UInt8)
  | mkdir (path : String) (parents mayExist : Bool)
  | unlink (path : String)
  | rmdir (path : String)
  | iterdir (path : String)
  | stat (path : String)
  | rename (path target : String)
  | resolve (path : String)
  | absolute (path : String)
  | getenv (key : String) (default : Option Object)
  | getEnviron

/-- The operation of a call. -/
def OsCall.function : OsCall → OsFunction
  | .exists _ => .exists
  | .isFile _ => .isFile
  | .isDir _ => .isDir
  | .isSymlink _ => .isSymlink
  | .readText _ => .readText
  | .readBytes _ => .readBytes
  | .writeText .. => .writeText
  | .writeBytes .. => .writeBytes
  | .mkdir .. => .mkdir
  | .unlink _ => .unlink
  | .rmdir _ => .rmdir
  | .iterdir _ => .iterdir
  | .stat _ => .stat
  | .rename .. => .rename
  | .resolve _ => .resolve
  | .absolute _ => .absolute
  | .getenv .. => .getenv
  | .getEnviron => .getEnviron

/-- The types that an argument must have. -/
inductive ArgumentType where
  | path
  | text
  | bytes

namespace ArgumentType

/-- The name of a type in messages. -/
def name : ArgumentType → String
  | .path => "str or Path"
  | .text => "str"
  | .bytes => "bytes"

/-- Whether an argument is of a type; a path may be given as a text. -/
def Accepts : ArgumentType → Object → Prop
  | .path, .path _ | .path, .string _ | .text, .string _ | .bytes, .bytes _ => True
  | _, _ => False

end ArgumentType

/-- An argument that must be given. -/
structure Parameter where
  position : Nat
  name : String
  type : ArgumentType

/-- The arguments that an operation cannot do without. -/
def OsFunction.parameters : OsFunction → List Parameter
  | .writeText => [⟨0, "path", .path⟩, ⟨1, "data", .text⟩]
  | .writeBytes => [⟨0, "path", .path⟩, ⟨1, "data", .bytes⟩]
  | .rename => [⟨0, "path", .path⟩, ⟨1, "target", .path⟩]
  | .getenv => [⟨0, "key", .text⟩]
  | .getEnviron => []
  | _ => [⟨0, "path", .path⟩]

namespace OsRequest

/-! ## What a request asks for -/

/-- An argument is given at its position, or else as the first one of its name. -/
inductive Gives (r : OsRequest) (position : Nat) (name : String) (v : Object) : Prop
  | positional (h : r.args[position]? = some v)
  | named (before after : List (String × Object)) (hfew : r.args.length ≤ position)
    (hnamed : r.named = before ++ (name, v) :: after) (hfirst : ∀ x ∈ before, x.1 ≠ name)

/-- An argument is the text of a path. -/
def GivesPath (r : OsRequest) (position : Nat) (name path : String) : Prop :=
  r.Gives position name (.path path) ∨ r.Gives position name (.string path)

/-- A condition holds if it is given as an argument that counts as true. -/
def GivesFlag (r : OsRequest) (position : Nat) (name : String) (b : Bool) : Prop :=
  b = true ↔ ∃ v, r.Gives position name v ∧ v.isTruthy

/-- A request asks for a call. -/
def Asks (r : OsRequest) (c : OsCall) : Prop :=
  r.function = c.function ∧
  match c with
  | .writeText path text => r.GivesPath 0 "path" path ∧ r.Gives 1 "data" (.string text)
  | .writeBytes path data => r.GivesPath 0 "path" path ∧ r.Gives 1 "data" (.bytes data)
  | .mkdir path parents mayExist => r.GivesPath 0 "path" path ∧
      r.GivesFlag 2 "parents" parents ∧ r.GivesFlag 3 "exist_ok" mayExist
  | .rename path target => r.GivesPath 0 "path" path ∧ r.GivesPath 1 "target" target
  | .getenv key default => r.Gives 0 "key" (.string key) ∧
      ∀ v, default = some v ↔ r.Gives 1 "default" v
  | .getEnviron => True
  | .exists path | .isFile path | .isDir path | .isSymlink path | .readText path
  | .readBytes path | .unlink path | .rmdir path | .iterdir path | .stat path | .resolve path
  | .absolute path => r.GivesPath 0 "path" path

/-- A parameter has an argument of its type. -/
def Supplies (r : OsRequest) (q : Parameter) : Prop :=
  ∃ v, r.Gives q.position q.name v ∧ q.type.Accepts v

/-- The failure of a request in which the argument of a parameter is missing or of another type. -/
inductive Faults (r : OsRequest) (q : Parameter) : HandlerFailure → Prop
  | missing (h : ∀ v, ¬ r.Gives q.position q.name v) :
    Faults r q ⟨.typeError, s!"{r.function.name}() missing required argument: '{q.name}'"⟩
  | mistyped {v : Object} (h : r.Gives q.position q.name v) (hv : ¬ q.type.Accepts v) :
    Faults r q ⟨.typeError,
      s!"{r.function.name}() argument '{q.name}' must be {q.type.name}, not {v.typeName}"⟩

variable {r : OsRequest} {position : Nat} {name : String}

theorem Faults.kind_eq {q : Parameter} {f : HandlerFailure} (h : r.Faults q f) :
    f.kind = .typeError := by
  cases h <;> rfl

/-! ## How arguments are read -/

theorem gives_iff {v : Object} : r.Gives position name v ↔ r.arg? position name = some v := by
  unfold arg?
  constructor
  · rintro (h | ⟨before, after, hfew, hnamed, hfirst⟩)
    · rw [h]
    · rw [List.getElem?_eq_none hfew]
      refine List.lookup_eq_some_iff.mpr ⟨before, after, hnamed, fun x hx => ?_⟩
      simpa using (hfirst x hx).symm
  · intro h
    split at h
    · rename_i w hw
      cases h
      exact .positional hw
    · rename_i hnone
      obtain ⟨before, after, hnamed, hfirst⟩ := List.lookup_eq_some_iff.mp h
      refine .named before after (List.getElem?_eq_none_iff.mp hnone) hnamed fun x hx heq => ?_
      simpa [heq] using hfirst x hx

theorem Gives.unique {v w : Object} (h : r.Gives position name v) (h' : r.Gives position name w) :
    v = w :=
  Option.some.inj ((gives_iff.mp h).symm.trans (gives_iff.mp h'))

/-- A reading of an argument: it gives something only if the parameter is supplied, and is refused
only for a fault. -/
structure Reads {α : Type} (r : OsRequest) (q : Parameter) (x : Except HandlerFailure α) :
    Prop where
  supplied : ∀ a, x = .ok a → r.Supplies q
  faulty : ∀ f, x = .error f → r.Faults q f

section
variable {α β γ : Type} {read : Object → Option α} {q q' : Parameter}
  {x : Except HandlerFailure α} {y : Except HandlerFailure β}

theorem required_of_gives {expected : String} {v : Object} {a : α}
    (h : r.Gives position name v) (hread : read v = some a) :
    r.required position name expected read = .ok a := by
  simp only [required, gives_iff.mp h, hread]

theorem required_reads (hread : ∀ v, (read v).isSome ↔ q.type.Accepts v) :
    r.Reads q (r.required q.position q.name q.type.name read) := by
  unfold required
  cases harg : r.arg? q.position q.name with
  | none =>
    have hmissing : ∀ v, ¬ r.Gives q.position q.name v := fun v hv => by
      simp [gives_iff.mp hv] at harg
    constructor
    · intro a ha
      cases ha
    · intro f hf
      cases hf
      exact .missing hmissing
  | some v =>
    have hgives := gives_iff.mpr harg
    cases hv : read v with
    | none =>
      have hrefused : ¬ q.type.Accepts v := by simp [← hread, hv]
      constructor
      · intro a ha
        simp [hv] at ha
      · intro f hf
        simp only [hv, Except.error.injEq] at hf
        exact hf ▸ .mistyped hgives hrefused
    | some a =>
      constructor
      · exact fun _ _ => ⟨v, hgives, (hread v).mp (by simp [hv])⟩
      · intro f hf
        simp [hv] at hf

theorem Reads.refuses (hx : r.Reads q x) (h : ¬ r.Supplies q)
    (next : α → Except HandlerFailure γ) : ∃ f, r.Faults q f ∧ (x >>= next) = .error f := by
  cases x with
  | error f => exact ⟨f, hx.faulty f rfl, rfl⟩
  | ok a => exact absurd (hx.supplied a rfl) h

/-- Of two arguments that are read one after the other, the first one with a fault counts. -/
theorem Reads.refuses_either (hx : r.Reads q x) (hy : r.Reads q' y)
    (h : ¬ r.Supplies q ∨ ¬ r.Supplies q') (next : α → β → Except HandlerFailure γ) :
    ∃ f, (r.Faults q f ∨ r.Faults q' f) ∧
      (x >>= fun a => y >>= fun b => next a b) = .error f := by
  cases x with
  | error f => exact ⟨f, .inl (hx.faulty f rfl), rfl⟩
  | ok a =>
    obtain ⟨f, hf, hrefused⟩ :=
      hy.refuses (h.resolve_left fun hq => hq (hx.supplied a rfl)) (next a)
    exact ⟨f, .inr hf, hrefused⟩

end

theorem fullPath_of_gives {path : String} (h : r.GivesPath position name path) :
    r.fullPath position name = .ok (.ofString path) := by
  obtain h | h := h
  · exact required_of_gives h rfl
  · exact required_of_gives h rfl

theorem text_of_gives {s : String} (h : r.Gives position name (.string s)) :
    r.text position name = .ok s := required_of_gives h rfl

theorem bytes_of_gives {data : List UInt8} (h : r.Gives position name (.bytes data)) :
    r.bytes position name = .ok data := required_of_gives h rfl

theorem flag_given (r : OsRequest) (position : Nat) (name : String) :
    r.GivesFlag position name (r.flag position name) := by
  rw [GivesFlag, flag, Option.any_eq_true]
  simp only [gives_iff]

theorem flag_of_gives {b : Bool} (h : r.GivesFlag position name b) : r.flag position name = b :=
  Bool.eq_iff_iff.mpr ((r.flag_given position name).trans h.symm)

theorem supplies_path : r.Supplies ⟨position, name, .path⟩ ↔
    ∃ path, r.GivesPath position name path := by
  constructor
  · rintro ⟨v, hv, hacc⟩
    cases v <;> try exact hacc.elim
    · exact ⟨_, .inr hv⟩
    · exact ⟨_, .inl hv⟩
  · rintro ⟨path, h | h⟩
    · exact ⟨_, h, trivial⟩
    · exact ⟨_, h, trivial⟩

theorem supplies_text : r.Supplies ⟨position, name, .text⟩ ↔
    ∃ s, r.Gives position name (.string s) := by
  constructor
  · rintro ⟨v, hv, hacc⟩
    cases v <;> try exact hacc.elim
    exact ⟨_, hv⟩
  · rintro ⟨s, h⟩
    exact ⟨_, h, trivial⟩

theorem supplies_bytes : r.Supplies ⟨position, name, .bytes⟩ ↔
    ∃ data, r.Gives position name (.bytes data) := by
  constructor
  · rintro ⟨v, hv, hacc⟩
    cases v <;> try exact hacc.elim
    exact ⟨_, hv⟩
  · rintro ⟨data, h⟩
    exact ⟨_, h, trivial⟩

theorem fullPath_reads (r : OsRequest) (position : Nat) (name : String) :
    r.Reads ⟨position, name, .path⟩ (r.fullPath position name) :=
  required_reads fun v => by cases v <;> simp [ArgumentType.Accepts]

theorem text_reads (r : OsRequest) (position : Nat) (name : String) :
    r.Reads ⟨position, name, .text⟩ (r.text position name) :=
  required_reads fun v => by cases v <;> simp [ArgumentType.Accepts]

theorem bytes_reads (r : OsRequest) (position : Nat) (name : String) :
    r.Reads ⟨position, name, .bytes⟩ (r.bytes position name) :=
  required_reads fun v => by cases v <;> simp [ArgumentType.Accepts]

end OsRequest

namespace FileSystem

/-! ## What a call comes to -/

/-- What the operation of a call comes to: a value, and the new file system if it makes one. -/
def perform (fs : FileSystem) : OsCall → Except FileError (Object × Option FileSystem)
  | .exists path => .ok (.bool (fs.contains (.ofString path)), none)
  | .isFile path => .ok (.bool (fs.isFile (.ofString path)), none)
  | .isDir path => .ok (.bool (fs.isDir (.ofString path)), none)
  | .isSymlink _ => .ok (.bool false, none)
  | .readText path => (fs.readText (.ofString path)).map fun text => (.string text, none)
  | .readBytes path => (fs.readBytes (.ofString path)).map fun data => (.bytes data, none)
  | .writeText path text =>
    let data := Text.utf8 text
    (fs.write (.ofString path) data).map fun next =>
      (.int (Int64.ofNat data.length), some next)
  | .writeBytes path data =>
    (fs.write (.ofString path) data).map fun next =>
      (.int (Int64.ofNat data.length), some next)
  | .mkdir path parents mayExist =>
    (fs.createDir (.ofString path) parents mayExist).map fun next => (.none, some next)
  | .unlink path => (fs.removeFile (.ofString path)).map fun next => (.none, some next)
  | .rmdir path => (fs.removeDir (.ofString path)).map fun next => (.none, some next)
  | .iterdir path =>
    (fs.list (.ofString path)).map fun paths =>
      (.list (paths.map fun p => .path (toString p)), none)
  | .stat path => (fs.status (.ofString path)).map fun status => (status.toObject, none)
  | .rename path target =>
    (fs.rename (.ofString path) (.ofString target)).map fun next =>
      (.path (toString (FullPath.ofString target)), some next)
  | .resolve path | .absolute path => .ok (.path (toString (FullPath.ofString path)), none)
  | .getenv key default => .ok ((((fs.valueOf? key).map .string).or default).getD .none, none)
  | .getEnviron =>
    .ok (.dict (fs.environment.map fun (name, value) => (.string name, .string value)), none)

/-- The answer to a call of which this is what it comes to. An error is a failure of its type with
its message, and leaves no new file system. -/
def reply : Except FileError (Object × Option FileSystem) → HandlerResult × Option FileSystem
  | .ok (v, next) => (.success v, next)
  | .error e => (.failure ⟨e.exceptionType, e.message⟩, none)

variable {fs : FileSystem} {r : OsRequest} {c : OsCall}

theorem ok_of_map {ε α β : Type} {x : Except ε α} {f : α → β} {b : β} (h : x.map f = .ok b) :
    ∃ a, x = .ok a ∧ f a = b := by
  cases x with
  | error e => cases h
  | ok a => exact ⟨a, rfl, Except.ok.inj h⟩

/-- The calls that come with a new file system when they succeed are those for a change. -/
theorem isSome_of_perform {v : Object} {next : Option FileSystem}
    (h : fs.perform c = .ok (v, next)) : next.isSome = c.function.isMutating := by
  cases c
  case «exists» | isFile | isDir | isSymlink | resolve | absolute | getenv | getEnviron =>
    cases h
    rfl
  all_goals
    obtain ⟨a, -, ha⟩ := ok_of_map h
    cases ha
    rfl

theorem orFailure_map {α β : Type} (x : Except FileError α) (f : α → β) :
    (orFailure x >>= fun a => pure (f a)) = orFailure (x.map f) := by
  cases x <;> rfl

theorem answer_of_asks (h : r.Asks c) : fs.answer r = orFailure (fs.perform c) := by
  obtain ⟨hfunction, hargs⟩ := h
  unfold answer
  cases c <;> simp only [hfunction, OsCall.function] <;> dsimp only at hargs
  case «exists» | isFile | isDir | isSymlink | resolve | absolute =>
    rw [OsRequest.target, OsRequest.fullPath_of_gives hargs]
    rfl
  case readText | readBytes | iterdir | stat | unlink | rmdir =>
    rw [OsRequest.target, OsRequest.fullPath_of_gives hargs]
    exact orFailure_map _ _
  case writeText =>
    rw [OsRequest.text_of_gives hargs.2, OsRequest.target, OsRequest.fullPath_of_gives hargs.1]
    exact orFailure_map _ _
  case writeBytes =>
    rw [OsRequest.bytes_of_gives hargs.2, OsRequest.target, OsRequest.fullPath_of_gives hargs.1]
    exact orFailure_map _ _
  case mkdir =>
    obtain ⟨hpath, hparents, hexist⟩ := hargs
    rw [OsRequest.target, OsRequest.fullPath_of_gives hpath, OsRequest.flag_of_gives hparents,
      OsRequest.flag_of_gives hexist]
    exact orFailure_map _ _
  case rename =>
    rw [OsRequest.fullPath_of_gives hargs.2, OsRequest.target, OsRequest.fullPath_of_gives hargs.1]
    exact orFailure_map _ _
  case getenv key default =>
    obtain ⟨hkey, hdefault⟩ := hargs
    have harg : r.arg? 1 "default" = default :=
      Option.ext fun v => OsRequest.gives_iff.symm.trans (hdefault v).symm
    rw [OsRequest.text_of_gives hkey, harg, perform]
    dsimp only [bind, Except.bind]
    cases fs.valueOf? key <;> rfl
  case getEnviron => rfl

/-- A request is answered by the operation that it asks for. -/
theorem handle_of_asks (h : r.Asks c) : fs.handle r = reply (fs.perform c) := by
  rw [handle, answer_of_asks h]
  cases fs.perform c <;> rfl

/-! ## Which requests ask for a call -/

/-- A request asks for a call exactly if each argument that must be given is of its type. -/
theorem exists_asks_iff : (∃ c, r.Asks c) ↔ ∀ q ∈ r.function.parameters, r.Supplies q := by
  constructor
  · rintro ⟨c, hfunction, hargs⟩
    rw [hfunction]
    cases c <;> dsimp only at hargs <;>
      simp only [OsCall.function, OsFunction.parameters, List.forall_mem_cons, List.not_mem_nil,
        false_implies, implies_true, and_true, OsRequest.supplies_path, OsRequest.supplies_text,
        OsRequest.supplies_bytes]
    case writeText | writeBytes | rename => exact ⟨⟨_, hargs.1⟩, _, hargs.2⟩
    case mkdir | getenv => exact ⟨_, hargs.1⟩
    all_goals exact ⟨_, hargs⟩
  · intro h
    cases hfunction : r.function <;> rw [hfunction] at h <;>
      simp only [OsFunction.parameters, List.forall_mem_cons, List.not_mem_nil, false_implies,
        implies_true, and_true, OsRequest.supplies_path, OsRequest.supplies_text,
        OsRequest.supplies_bytes] at h
    case «exists» => exact h.elim fun path hpath => ⟨.exists path, hfunction, hpath⟩
    case isFile => exact h.elim fun path hpath => ⟨.isFile path, hfunction, hpath⟩
    case isDir => exact h.elim fun path hpath => ⟨.isDir path, hfunction, hpath⟩
    case isSymlink => exact h.elim fun path hpath => ⟨.isSymlink path, hfunction, hpath⟩
    case readText => exact h.elim fun path hpath => ⟨.readText path, hfunction, hpath⟩
    case readBytes => exact h.elim fun path hpath => ⟨.readBytes path, hfunction, hpath⟩
    case unlink => exact h.elim fun path hpath => ⟨.unlink path, hfunction, hpath⟩
    case rmdir => exact h.elim fun path hpath => ⟨.rmdir path, hfunction, hpath⟩
    case iterdir => exact h.elim fun path hpath => ⟨.iterdir path, hfunction, hpath⟩
    case stat => exact h.elim fun path hpath => ⟨.stat path, hfunction, hpath⟩
    case resolve => exact h.elim fun path hpath => ⟨.resolve path, hfunction, hpath⟩
    case absolute => exact h.elim fun path hpath => ⟨.absolute path, hfunction, hpath⟩
    case writeText =>
      obtain ⟨⟨path, hpath⟩, text, htext⟩ := h
      exact ⟨.writeText path text, hfunction, hpath, htext⟩
    case writeBytes =>
      obtain ⟨⟨path, hpath⟩, data, hdata⟩ := h
      exact ⟨.writeBytes path data, hfunction, hpath, hdata⟩
    case rename =>
      obtain ⟨⟨path, hpath⟩, target, htarget⟩ := h
      exact ⟨.rename path target, hfunction, hpath, htarget⟩
    case mkdir =>
      obtain ⟨path, hpath⟩ := h
      exact ⟨.mkdir path _ _, hfunction, hpath, r.flag_given 2 "parents", r.flag_given 3 "exist_ok"⟩
    case getenv =>
      obtain ⟨key, hkey⟩ := h
      exact ⟨.getenv key (r.arg? 1 "default"), hfunction, hkey, fun v => OsRequest.gives_iff.symm⟩
    case getEnviron => exact ⟨.getEnviron, hfunction, trivial⟩

/-- A request that asks for no call is refused for one of its arguments. -/
theorem exists_answer_error (h : ∃ q ∈ r.function.parameters, ¬ r.Supplies q) :
    ∃ q ∈ r.function.parameters, ∃ f, r.Faults q f ∧ fs.answer r = .error f := by
  unfold answer
  cases hfunction : r.function <;> rw [hfunction] at h <;>
    simp only [OsFunction.parameters, List.mem_cons, List.not_mem_nil, or_false,
      exists_eq_or_imp, exists_eq_left, false_and, exists_false] at h ⊢
  case writeText =>
    obtain ⟨f, hf, herror⟩ := (r.text_reads 1 "data").refuses_either (r.fullPath_reads 0 "path")
      h.symm _
    exact hf.symm.imp (fun hf => ⟨f, hf, herror⟩) fun hf => ⟨f, hf, herror⟩
  case writeBytes =>
    obtain ⟨f, hf, herror⟩ := (r.bytes_reads 1 "data").refuses_either (r.fullPath_reads 0 "path")
      h.symm _
    exact hf.symm.imp (fun hf => ⟨f, hf, herror⟩) fun hf => ⟨f, hf, herror⟩
  case rename =>
    obtain ⟨f, hf, herror⟩ := (r.fullPath_reads 1 "target").refuses_either
      (r.fullPath_reads 0 "path") h.symm _
    exact hf.symm.imp (fun hf => ⟨f, hf, herror⟩) fun hf => ⟨f, hf, herror⟩
  case getenv => exact (r.text_reads 0 "key").refuses h _
  all_goals exact (r.fullPath_reads 0 "path").refuses h _

theorem handle_of_answer_error {f : HandlerFailure} (h : fs.answer r = .error f) :
    fs.handle r = (.failure f, none) := by
  rw [handle, h]

/-- A request asks for a call and is answered by it, or is refused for one of its arguments. -/
theorem asks_or_faults (fs : FileSystem) (r : OsRequest) :
    (∃ c, r.Asks c ∧ fs.handle r = reply (fs.perform c)) ∨
      ∃ q ∈ r.function.parameters, ∃ f, r.Faults q f ∧ fs.handle r = (.failure f, none) := by
  by_cases h : ∀ q ∈ r.function.parameters, r.Supplies q
  · obtain ⟨c, hc⟩ := exists_asks_iff.mpr h
    exact .inl ⟨c, hc, handle_of_asks hc⟩
  · have hnot : ∃ q ∈ r.function.parameters, ¬ r.Supplies q := by simpa using h
    obtain ⟨q, hq, f, hf, herror⟩ := exists_answer_error hnot
    exact .inr ⟨q, hq, f, hf, handle_of_answer_error herror⟩

/-! ## New file systems -/

/-- A file system comes of another one by an operation for a change. -/
inductive Changes (fs fs' : FileSystem) : Prop
  | write (path : String) (content : List UInt8) (h : fs.write (.ofString path) content = .ok fs')
  | createDir (path : String) (parents mayExist : Bool)
    (h : fs.createDir (.ofString path) parents mayExist = .ok fs')
  | removeFile (path : String) (h : fs.removeFile (.ofString path) = .ok fs')
  | removeDir (path : String) (h : fs.removeDir (.ofString path) = .ok fs')
  | rename (source target : String)
    (h : fs.rename (.ofString source) (.ofString target) = .ok fs')

theorem changes_of_perform {v : Object} {fs' : FileSystem}
    (h : fs.perform c = .ok (v, some fs')) : fs.Changes fs' := by
  cases c
  case writeText | writeBytes =>
    obtain ⟨next, hwrite, heq⟩ := ok_of_map h
    cases heq
    exact .write _ _ hwrite
  case mkdir =>
    obtain ⟨next, hcreate, heq⟩ := ok_of_map h
    cases heq
    exact .createDir _ _ _ hcreate
  case unlink =>
    obtain ⟨next, hremove, heq⟩ := ok_of_map h
    cases heq
    exact .removeFile _ hremove
  case rmdir =>
    obtain ⟨next, hremove, heq⟩ := ok_of_map h
    cases heq
    exact .removeDir _ hremove
  case rename =>
    obtain ⟨next, hrename, heq⟩ := ok_of_map h
    cases heq
    exact .rename _ _ hrename
  all_goals cases isSome_of_perform h

/-- An answer comes with a new file system only if an operation for a change made it. -/
theorem changes_of_handle {result : HandlerResult} {fs' : FileSystem}
    (h : fs.handle r = (result, some fs')) : fs.Changes fs' := by
  obtain ⟨c, -, hc⟩ | ⟨-, -, f, -, hf⟩ := asks_or_faults fs r
  · rw [h] at hc
    cases hperform : fs.perform c with
    | error e =>
      rw [hperform] at hc
      cases hc
    | ok answered =>
      obtain ⟨v, next⟩ := answered
      rw [hperform] at hc
      cases hc
      exact changes_of_perform hperform
  · rw [h] at hf
    cases hf

end FileSystem

end Resumable
