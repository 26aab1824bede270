import Resumable.Proofs.Limits

/-!
# Exceptions on their way

An exception gets a place in each frame that it comes through (`Raised.through`). That does not
depend on handlers: what has been taken by one and what leaves all frames have the places of the
frames that lie behind them (`Machine.Taken`, `through_of_unwind`).

Where a machine is inside of a handler (`Machine.Inside`), the calls below that of the handler and
the exceptions that were being handled when it was entered are still there. A change of the handlers
and an exception that is taken keep this, unless they leave the handler.
-/

namespace Resumable

/-- An exception with a place in each of some frames that it has come through, the innermost frame
first. -/
def Raised.through (e : Raised) (code : Bytecode) (frames : List Frame) : Raised :=
  { e with traceback := (frames.map (·.site code)).reverse ++ e.traceback }

/-- The frame without its handlers. -/
def Frame.unguarded (f : Frame) : Frame := { f with blocks := [] }

namespace Machine

variable {code : Bytecode} {m n r : Machine} {recorded : Bool} {e e' : Raised} {f : Frame}
  {below : List Frame} {b : Block} {blocks : List Block}

/-! ## Unwinding -/

/-- The frames that an exception gets a place in on its way out. -/
def unrecorded (m : Machine) : List Frame := if m.reraising then m.callers else m.frames

/-- The exception that a frame hands to its handler, or to the frame below. -/
def sited (code : Bytecode) (recorded : Bool) (f : Frame) (e : Raised) : Raised :=
  if recorded then e else addSite code f e

theorem sited_through (code : Bytecode) (recorded : Bool) (f : Frame) (e : Raised)
    (below : List Frame) : (sited code recorded f e).through code below =
      e.through code (if recorded then below else f :: below) := by
  cases recorded with
  | true => rfl
  | false =>
    simp [sited, addSite, Raised.through]

section
variable (m : Machine) (b : Block) (blocks : List Block) (e : Raised)

theorem catchAt_callers : (m.catchAt b blocks e).callers = m.callers := by
  rw [catchAt, record_eq]

theorem catchAt_blocks : (m.catchAt b blocks e).frame.blocks = blocks := by
  rw [catchAt, record_eq]

theorem catchAt_handledBase : (m.catchAt b blocks e).frame.handledBase = m.frame.handledBase := by
  rw [catchAt, record_eq]

theorem catchAt_handled : (m.catchAt b blocks e).handled = e :: lastOf b.handled m.handled := by
  rw [catchAt, record_eq]

theorem catchAt_reraising : (m.catchAt b blocks e).reraising = m.reraising := by
  rw [catchAt, record_eq]

end

theorem unwindFrom_of_block (h : f.blocks = b :: blocks) :
    unwindFrom code m recorded e f below =
      .ok ({ m with frame := f, callers := below }.catchAt b blocks (sited code recorded f e)) := by
  rw [unwindFrom.eq_def, h]
  rfl

/-- The machine that a frame without handlers leaves behind. -/
def dropped (m : Machine) (f : Frame) : Machine :=
  { m with stack := lastOf f.base m.stack, handled := lastOf f.handledBase m.handled }

theorem unwindFrom_of_last (h : f.blocks = []) :
    unwindFrom code m recorded e f [] = .error (sited code recorded f e) := by
  rw [unwindFrom, h]
  rfl

theorem unwindFrom_of_caller {g : Frame} (h : f.blocks = []) :
    unwindFrom code m recorded e f (g :: below) =
      unwindFrom code (m.dropped f) false (sited code recorded f e) g below := by
  rw [unwindFrom, h]
  rfl

/-- An exception that is taken: it has a place in each frame up to that of the handler, and would
get one in each of the others. -/
structure Taken (code : Bytecode) (m : Machine) (e : Raised) (fs below : List Frame) (n : Machine) :
    Prop where
  callers : n.callers <:+ below
  reraising : n.reraising = m.reraising
  handled : ∃ e' rest, n.handled = e' :: rest ∧ e'.through code n.callers = e.through code fs

theorem taken_catchAt (code : Bytecode) (m : Machine) (recorded : Bool) (e : Raised) (f : Frame)
    (below : List Frame) (b : Block) (blocks : List Block) :
    Taken code m e (if recorded then below else f :: below) below
      ({ m with frame := f, callers := below }.catchAt b blocks (sited code recorded f e)) where
  callers := by rw [catchAt_callers]
  reraising := catchAt_reraising ..
  handled := ⟨_, _, catchAt_handled .., by rw [catchAt_callers, sited_through]⟩

theorem unwindFrom_spec (code : Bytecode) (m : Machine) (recorded : Bool) (e : Raised) (f : Frame)
    (below : List Frame) :
    match unwindFrom code m recorded e f below with
    | .ok n => Taken code m e (if recorded then below else f :: below) below n
    | .error e' => e' = e.through code (if recorded then below else f :: below) := by
  induction below generalizing m recorded e f with
  | nil =>
    cases hf : f.blocks with
    | nil =>
      rw [unwindFrom_of_last hf, ← sited_through]
      rfl
    | cons b blocks =>
      rw [unwindFrom_of_block hf]
      exact taken_catchAt ..
  | cons g below ih =>
    cases hf : f.blocks with
    | nil =>
      have h := ih (m.dropped f) false (sited code recorded f e) g
      have hsited := sited_through code recorded f e (g :: below)
      rw [unwindFrom_of_caller hf]
      rw [if_neg Bool.false_ne_true] at h
      generalize unwindFrom code _ _ _ _ _ = r at h ⊢
      cases r with
      | ok n =>
        obtain ⟨e', rest, hn, he'⟩ := h.handled
        exact ⟨h.callers.trans (List.suffix_cons _ _), h.reraising, e', rest, hn, he'.trans hsited⟩
      | error e' => exact h.trans hsited
    | cons b blocks =>
      rw [unwindFrom_of_block hf]
      exact taken_catchAt ..

theorem taken_of_unwind (h : m.unwind code e = .ok n) :
    Taken code { m with reraising := false } e m.unrecorded m.callers n := by
  have hspec := unwindFrom_spec code { m with reraising := false } m.reraising e m.frame m.callers
  rw [show unwindFrom code _ _ _ _ _ = .ok n from h] at hspec
  exact hspec

theorem through_of_unwind (h : m.unwind code e = .error e') : e' = e.through code m.unrecorded := by
  have hspec := unwindFrom_spec code { m with reraising := false } m.reraising e m.frame m.callers
  rw [show unwindFrom code _ _ _ _ _ = .error e' from h] at hspec
  exact hspec

/-- The machine without any handlers. -/
def unguarded (m : Machine) : Machine :=
  { m with
    frame := m.frame.unguarded
    callers := m.callers.map Frame.unguarded }

theorem unwindFrom_unguarded (code : Bytecode) (m : Machine) (recorded : Bool) (e : Raised)
    (f : Frame) (below : List Frame) :
    unwindFrom code m recorded e f.unguarded (below.map Frame.unguarded) =
      .error (e.through code (if recorded then below else f :: below)) := by
  induction below generalizing m recorded e f with
  | nil =>
    rw [List.map_nil, unwindFrom_of_last rfl, ← sited_through]
    rfl
  | cons g below ih =>
    rw [List.map_cons, unwindFrom_of_caller rfl, ih, if_neg Bool.false_ne_true, ← sited_through]
    rfl

/-- Without handlers an exception leaves all frames. -/
theorem unwind_unguarded (code : Bytecode) (m : Machine) (e : Raised) :
    m.unguarded.unwind code e = .error (e.through code m.unrecorded) :=
  unwindFrom_unguarded code _ m.reraising e m.frame m.callers

/-! ## Inside of a handler -/

/-- The machine `m` has not left the handler that `h` has entered: neither its call nor the
exception that it handles, and no handler around it has been taken or taken back. -/
structure InHandler (h m : Machine) : Prop where
  callers : h.callers.length ≤ m.callers.length
  handled : h.handled.length ≤ m.handled.length
  blocks : m.callers.length = h.callers.length → h.frame.blocks.length ≤ m.frame.blocks.length

variable {h : Machine}

/-- The frame is that of the handler, or has been entered from there. All handlers that have been
registered since keep the exceptions that were being handled then, and so do the calls. -/
inductive Above (h : Machine) : Frame → List Frame → Prop
  | own {f below newer} : below = h.callers → f.handledBase = h.frame.handledBase →
      f.blocks = newer ++ h.frame.blocks → (∀ b ∈ newer, h.handled.length ≤ b.handled) →
      Above h f below
  | called {f g below} : (∀ b ∈ f.blocks, h.handled.length ≤ b.handled) →
      h.handled.length ≤ f.handledBase → Above h g below → Above h f (g :: below)

/-- What holds inside of a handler. -/
structure Inside (h m : Machine) : Prop where
  frames : Above h m.frame m.callers
  handled : h.handled <:+ m.handled

/-- In the frame of the handler no handler has been registered since. -/
theorem Above.same (hbelow : below = h.callers) (hbase : f.handledBase = h.frame.handledBase)
    (hblocks : f.blocks = h.frame.blocks) : Above h f below :=
  .own hbelow hbase (hblocks.trans (List.nil_append _).symm) nofun

theorem Above.congr {g : Frame} (ha : Above h f below) (hblocks : g.blocks = f.blocks)
    (hbase : g.handledBase = f.handledBase) : Above h g below := by
  cases ha with
  | own hbelow hbase' hf hnewer =>
    exact .own hbelow (hbase.trans hbase') (hblocks.trans hf) hnewer
  | called hf hkept ha => exact .called (hblocks ▸ hf) (hbase ▸ hkept) ha

theorem Above.suffix (ha : Above h f below) : h.callers <:+ below := by
  induction ha with
  | own hbelow => exact hbelow ▸ List.suffix_refl _
  | called _ _ _ ih => exact ih.trans (List.suffix_cons _ _)

theorem Above.protect {g : Frame} (ha : Above h f below) (hblocks : g.blocks = b :: f.blocks)
    (hkept : h.handled.length ≤ b.handled) (hbase : g.handledBase = f.handledBase) :
    Above h g below := by
  cases ha with
  | own hbelow hbase' hf hnewer =>
    exact .own hbelow (hbase.trans hbase') (hblocks.trans (congrArg (b :: ·) hf))
      (List.forall_mem_cons.mpr ⟨hkept, hnewer⟩)
  | called hf hbase' ha =>
    exact .called (hblocks ▸ List.forall_mem_cons.mpr ⟨hkept, hf⟩) (hbase ▸ hbase') ha

/-- A handler that is taken back, or taken, is one that has been registered inside. -/
theorem Above.unprotect {g : Frame} (ha : Above h f below) (hblocks : g.blocks = f.blocks.tail)
    (hbase : g.handledBase = f.handledBase)
    (hin : below.length = h.callers.length → h.frame.blocks.length ≤ g.blocks.length) :
    Above h g below := by
  cases ha with
  | @own _ _ newer hbelow hbase' hf hnewer =>
    cases newer with
    | nil =>
      rw [hf, List.nil_append] at hblocks
      have hle := hin (congrArg List.length hbelow)
      rw [hblocks, List.length_tail] at hle
      have hnone : h.frame.blocks = [] := List.eq_nil_of_length_eq_zero (by omega)
      refine .same hbelow (hbase.trans hbase') (hblocks.trans ?_)
      rw [hnone]
      rfl
    | cons b newer =>
      rw [hf] at hblocks
      exact .own hbelow (hbase.trans hbase') hblocks fun c hc =>
        hnewer c (List.mem_cons_of_mem _ hc)
  | called hf hkept ha =>
    exact .called (fun c hc => hf c (List.mem_of_mem_tail (hblocks ▸ hc))) (hbase ▸ hkept) ha

/-- A call that returns, or that an exception leaves, is one that has been entered inside. -/
theorem Above.leave {g : Frame} (ha : Above h f (g :: below))
    (hin : h.callers.length ≤ below.length) :
    Above h g below ∧ h.handled.length ≤ f.handledBase := by
  cases ha with
  | own hbelow =>
    have := congrArg List.length hbelow
    rw [List.length_cons] at this
    omega
  | called _ hkept ha => exact ⟨ha, hkept⟩

/-- Dropping what is newer than a number of exceptions keeps those that there were before. -/
theorem suffix_lastOf {α : Type} {xs ys : List α} {k : Nat} (hxs : xs <:+ ys) (hk : xs.length ≤ k) :
    xs <:+ lastOf k ys := by
  refine List.suffix_of_suffix_length_le hxs (List.drop_suffix _ _) ?_
  have := hxs.length_le
  rw [lastOf, List.length_drop]
  omega

theorem Inside.refl (h : Machine) : h.Inside h :=
  ⟨.same rfl rfl rfl, List.suffix_refl _⟩

theorem Inside.unmoved (hi : h.Inside m) (hs : m.Unmoved n) : h.Inside n :=
  ⟨hs.callers ▸ hi.frames.congr hs.blocks hs.handledBase, hs.handled ▸ hi.handled⟩

/-- A change of the handlers that does not leave the handler. -/
theorem Inside.shift (hi : h.Inside m) (hs : m.Shift n) (hn : h.InHandler n) : h.Inside n := by
  have hlength := hi.handled.length_le
  cases hs with
  | stays hs => exact hi.unmoved hs
  | enters hc hb hbase hnone hstart hh =>
    refine ⟨?_, hh ▸ hi.handled⟩
    rw [hc]
    exact .called (hnone ▸ nofun) (hstart ▸ hlength) (hi.frames.congr hb hbase)
  | leaves hc hh =>
    obtain ⟨ha, hkept⟩ := (hc ▸ hi.frames).leave hn.callers
    exact ⟨ha, hh ▸ suffix_lastOf hi.handled hkept⟩
  | protects hc hb hkept hbase hh =>
    exact ⟨hc ▸ hi.frames.protect hb (hkept ▸ hlength) hbase, hh ▸ hi.handled⟩
  | unprotects hc hb hbase hh =>
    exact ⟨hc ▸ hi.frames.unprotect hb hbase (hc ▸ hn.blocks), hh ▸ hi.handled⟩
  | settles hc hb hbase hh =>
    refine ⟨hc ▸ hi.frames.congr hb hbase, ?_⟩
    have hin := hn.handled
    rw [hh] at hin ⊢
    exact List.suffix_of_suffix_length_le hi.handled (List.tail_suffix _) hin

/-- The handlers in a frame keep the exceptions that were being handled before. -/
theorem Above.kept (ha : Above h f below) (hblocks : f.blocks = b :: blocks)
    (hin : below.length = h.callers.length → h.frame.blocks.length ≤ blocks.length) :
    h.handled.length ≤ b.handled := by
  cases ha with
  | @own _ _ newer hbelow hbase' hf hnewer =>
    cases newer with
    | nil =>
      have hle := hin (congrArg List.length hbelow)
      rw [List.nil_append, hblocks] at hf
      rw [← hf, List.length_cons] at hle
      omega
    | cons c newer =>
      rw [hblocks] at hf
      cases hf
      exact hnewer b List.mem_cons_self
  | called hf => exact hf b (hblocks ▸ List.mem_cons_self)

theorem inside_catchAt (ha : Above h f below) (hh : h.handled <:+ m.handled)
    (hf : f.blocks = b :: blocks)
    (hn : h.InHandler ({ m with frame := f, callers := below }.catchAt b blocks e)) :
    h.Inside ({ m with frame := f, callers := below }.catchAt b blocks e) := by
  have hblocks := hn.blocks
  rw [catchAt_callers, catchAt_blocks] at hblocks
  refine ⟨?_, ?_⟩
  · rw [catchAt_callers]
    refine ha.unprotect ?_ (catchAt_handledBase ..) ?_
    · rw [catchAt_blocks, hf, List.tail_cons]
    · rw [catchAt_blocks]
      exact hblocks
  · rw [catchAt_handled]
    exact (suffix_lastOf hh (ha.kept hf hblocks)).trans (List.suffix_cons _ _)

theorem inside_of_unwindFrom (ha : Above h f below) (hh : h.handled <:+ m.handled)
    (hu : unwindFrom code m recorded e f below = .ok n) (hn : h.InHandler n) : h.Inside n := by
  induction below generalizing m recorded e f with
  | nil =>
    cases hf : f.blocks with
    | nil => rw [unwindFrom_of_last hf] at hu; cases hu
    | cons b blocks =>
      rw [unwindFrom_of_block hf] at hu
      cases hu
      exact inside_catchAt ha hh hf hn
  | cons g below ih =>
    cases hf : f.blocks with
    | nil =>
      rw [unwindFrom_of_caller hf] at hu
      have htaken := unwindFrom_spec code (m.dropped f) false (sited code recorded f e) g below
      rw [hu] at htaken
      obtain ⟨ha, hkept⟩ := ha.leave (hn.callers.trans htaken.callers.length_le)
      exact ih ha (suffix_lastOf hh hkept) hu
    | cons b blocks =>
      rw [unwindFrom_of_block hf] at hu
      cases hu
      exact inside_catchAt ha hh hf hn

/-- An exception that is taken by a handler, but by none around this one. -/
theorem Inside.unwind (hi : h.Inside m) (hu : m.unwind code e = .ok n) (hn : h.InHandler n) :
    h.Inside n :=
  inside_of_unwindFrom (m := { m with reraising := false }) hi.frames hi.handled hu hn

/-- In the call of the handler as many exceptions have been handled before as when it began. -/
theorem Above.handledBase (ha : Above h f below) (hcallers : below.length = h.callers.length) :
    f.handledBase = h.frame.handledBase := by
  cases ha with
  | own _ hbase => exact hbase
  | called _ _ ha =>
    have := ha.suffix.length_le
    rw [List.length_cons] at hcallers
    omega

/-- Where the handler is the innermost one, the calls below it and the exceptions that are being
handled are those that it has been entered with. -/
theorem Inside.entered (hi : h.Inside m) (hcallers : m.callers.length = h.callers.length)
    (hhandled : m.handled.length = h.handled.length) :
    m.callers = h.callers ∧ m.handled = h.handled :=
  ⟨(hi.frames.suffix.eq_of_length hcallers.symm).symm,
    (hi.handled.eq_of_length hhandled.symm).symm⟩

end Machine

end Resumable
