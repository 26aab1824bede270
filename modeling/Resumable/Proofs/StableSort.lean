import Mathlib.Data.List.Basic
import Resumable.Operation.Sorting

/-!
# The sort is stable

Where comparisons do not fail and `less a b` says that `b` is not at most `a` in a total preorder,
the sort gives what the stable merge sort of the library gives (`sort_eq_mergeSort`): a permutation
in order, in which elements that are alike keep their order. A list in order is determined by the
elements that are alike to each one (`eq_of_filter_eq`), so it is enough that every part of the sort
keeps these.
-/

namespace Resumable.Sorting

variable {α ε : Type} {le : α → α → Bool} {a b : α} {as bs cs ds : List α}

/-- Whether two elements are at most each other. -/
def alike (le : α → α → Bool) (a b : α) : Bool := le a b && le b a

/-- `bs` has the elements of `as` in order, and elements that are alike in the order of `as`. -/
structure Arranged (le : α → α → Bool) (as bs : List α) : Prop where
  ordered : bs.Pairwise (le · ·)
  stable : ∀ a, bs.filter (alike le a) = as.filter (alike le a)

/-- A preorder that leaves no two elements apart. -/
structure Total (le : α → α → Bool) : Prop where
  total : ∀ a b, (le a b || le b a) = true
  trans : ∀ a b c, le a b = true → le b c = true → le a c = true

namespace Total

variable (hle : Total le)
include hle

theorem le_of_not_le (h : ¬ le a b = true) : le b a = true :=
  (Bool.or_eq_true _ _ ▸ hle.total a b).resolve_left h

theorem refl (a : α) : le a a = true := (Bool.or_eq_true _ _ ▸ hle.total a a).elim id id

theorem alike_self (a : α) : alike le a a = true := by rw [alike, hle.refl a]; rfl

theorem le_of_alike {x : α} (ha : alike le x a = true) (hb : alike le x b = true) :
    le a b = true := by
  rw [alike, Bool.and_eq_true] at ha hb
  exact hle.trans _ _ _ ha.2 hb.1

/-- An element below all others leaves none of them alike to what it is alike to. -/
theorem filter_eq_nil {x : α} (ha : alike le x a = true) (h : ∀ b ∈ bs, ¬ le b a = true) :
    bs.filter (alike le x) = [] :=
  List.filter_eq_nil_iff.mpr fun b hb hx => h b hb (hle.le_of_alike hx ha)

end Total

theorem eq_of_filter_eq (hle : Total le) (hbs : bs.Pairwise (le · ·)) (hcs : cs.Pairwise (le · ·))
    (h : ∀ a, bs.filter (alike le a) = cs.filter (alike le a)) : bs = cs := by
  induction bs generalizing cs with
  | nil =>
    cases cs with
    | nil => rfl
    | cons c cs =>
      have := h c
      rw [List.filter_cons_of_pos (hle.alike_self c)] at this
      cases this
  | cons b bs ih =>
    cases cs with
    | nil =>
      have := h b
      rw [List.filter_cons_of_pos (hle.alike_self b)] at this
      cases this
    | cons c cs =>
      obtain ⟨hb, htl⟩ := List.pairwise_cons.mp hbs
      obtain ⟨hc, htl'⟩ := List.pairwise_cons.mp hcs
      have hleast {d e : α} {ds es : List α} (he : ∀ x ∈ es, le e x = true)
          (hd : (d :: ds).filter (alike le d) = (e :: es).filter (alike le d)) : le e d = true := by
        rw [List.filter_cons_of_pos (hle.alike_self d)] at hd
        have hmem : d ∈ (e :: es).filter (alike le d) := hd ▸ List.mem_cons_self
        rcases List.mem_cons.mp (List.mem_filter.mp hmem).1 with rfl | hmem
        · exact hle.refl d
        · exact he d hmem
      have hbc : alike le b c = true := by
        rw [alike, hleast hb (h c).symm, hleast hc (h b)]
        rfl
      have hhead := h b
      rw [List.filter_cons_of_pos (hle.alike_self b), List.filter_cons_of_pos hbc] at hhead
      obtain rfl := (List.cons.inj hhead).1
      refine congrArg _ (ih htl htl' fun a => ?_)
      have htail := h a
      rw [List.filter_cons, List.filter_cons] at htail
      split at htail
      · exact (List.cons.inj htail).2
      · exact htail

/-- The stable merge sort of the library arranges. -/
theorem arranged_mergeSort (hle : Total le) (as : List α) : Arranged le as (as.mergeSort le) where
  ordered := List.pairwise_mergeSort hle.trans hle.total as
  stable a := by
    have hpairwise : (as.filter (alike le a)).Pairwise (le · ·) :=
      List.pairwise_of_forall_mem_list fun b hb c hc =>
        hle.le_of_alike (List.mem_filter.mp hb).2 (List.mem_filter.mp hc).2
    have hsublist := List.sublist_mergeSort hle.trans hle.total hpairwise List.filter_sublist
    have hfilter := hsublist.filter (alike le a)
    simp only [List.filter_filter, Bool.and_self] at hfilter
    exact (hfilter.eq_of_length ((List.mergeSort_perm as le).filter _).length_eq.symm).symm

/-! ## Insertion and merging -/

/-- An element is inserted behind those that are at most it, and before the others. -/
theorem Arranged.insert (hle : Total le) (h : Arranged le as (bs ++ cs))
    (hbs : ∀ b ∈ bs.getLast?, le b a = true) (hcs : ∀ c ∈ cs, ¬ le c a = true) :
    Arranged le (as ++ [a]) (bs ++ a :: cs) := by
  obtain ⟨hb, hc, hbc⟩ := List.pairwise_append.mp h.ordered
  have hbelow : ∀ b ∈ bs, le b a = true := by
    rcases List.eq_nil_or_concat' bs with rfl | ⟨ds, d, rfl⟩
    · exact nofun
    · have hd : le d a = true := hbs d (by rw [List.getLast?_concat]; rfl)
      have hds := (List.pairwise_append.mp hb).2.2
      intro b hmem
      rcases List.mem_append.mp hmem with hmem | hmem
      · exact hle.trans b d a (hds b hmem d (List.mem_singleton_self d)) hd
      · exact List.mem_singleton.mp hmem ▸ hd
  have habove : ∀ c ∈ cs, le a c = true := fun c hmem => hle.le_of_not_le (hcs c hmem)
  constructor
  · refine List.pairwise_append.mpr ⟨hb, List.pairwise_cons.mpr ⟨habove, hc⟩, fun b hmem c hc => ?_⟩
    rcases List.mem_cons.mp hc with rfl | hc
    · exact hbelow b hmem
    · exact hbc b hmem c hc
  · intro x
    rw [List.filter_append, List.filter_append, ← h.stable, List.filter_append, List.append_assoc]
    congr 1
    by_cases hx : alike le x a = true
    · rw [List.filter_cons_of_pos hx, List.filter_cons_of_pos hx, hle.filter_eq_nil hx hcs]
      rfl
    · rw [List.filter_cons_of_neg hx, List.filter_cons_of_neg hx, List.filter_nil, List.append_nil]

theorem filter_merge (hle : Total le) (has : as.Pairwise (le · ·)) (x : α) :
    (as.merge bs le).filter (alike le x) = as.filter (alike le x) ++ bs.filter (alike le x) := by
  fun_induction List.merge as bs le with
  | case1 bs => rfl
  | case2 as => rw [List.filter_nil, List.append_nil]
  | case3 a as b bs hab ih =>
    rw [List.filter_cons, ih has.of_cons,
      List.filter_cons (x := a)]
    split <;> rfl
  | case4 a as b bs hab ih =>
    rw [List.filter_cons, ih has, List.filter_cons (x := b)]
    split
    · next hx =>
      -- All elements of the first list are above `b`, and not alike to it.
      rw [hle.filter_eq_nil hx, List.nil_append, List.nil_append]
      intro c hc hcb
      rcases List.mem_cons.mp hc with rfl | hc
      · exact hab hcb
      · exact hab (hle.trans a c b (List.rel_of_pairwise_cons has hc) hcb)
    · rfl

theorem Arranged.merge (hle : Total le) (h : Arranged le as cs) (h' : Arranged le bs ds) :
    Arranged le (as ++ bs) (cs.merge ds le) where
  ordered := List.pairwise_merge hle.trans hle.total _ _ h.ordered h'.ordered
  stable x := by rw [filter_merge hle h.ordered, h.stable, h'.stable, List.filter_append]

/-! ## The sort -/

variable {less : α → α → Except ε Bool} (hless : ∀ a b, less a b = .ok (!le b a))
include hless

theorem ask_run (a b : α) : (ask less a b).run none = (!le b a, none) := by
  simp only [ask, hless]
  rfl

theorem exists_insert_run (a : α) (as : List α) : ∃ bs cs, as = bs ++ cs ∧
    (insert less a as).run none = (bs ++ a :: cs, none) ∧ (∀ b ∈ bs, ¬ le b a = true) ∧
    ∀ c ∈ cs.head?, le c a = true := by
  induction as with
  | nil => exact ⟨[], [], rfl, rfl, nofun, nofun⟩
  | cons b as ih =>
    obtain ⟨bs, cs, rfl, hrun, hbs, hcs⟩ := ih
    rw [insert, StateT.run_bind, ask_run hless]
    cases hb : le b a with
    | true => exact ⟨[], b :: (bs ++ cs), rfl, rfl, nofun, fun c hc => by cases hc; exact hb⟩
    | false =>
      refine ⟨b :: bs, cs, rfl, ?_, List.forall_mem_cons.mpr ⟨by simp [hb], hbs⟩, hcs⟩
      change (insert less a (bs ++ cs) >>= fun r => pure (b :: r) : Attempt ε _).run none = _
      rw [StateT.run_bind, hrun]
      rfl

theorem insertAll_run (hle : Total le) {done : List α} (hdone : Arranged le cs done.reverse) :
    ∃ bs, (insertAll less done as).run none = (bs, none) ∧ Arranged le (cs ++ as) bs := by
  induction as generalizing done cs with
  | nil => exact ⟨done.reverse, rfl, by rwa [List.append_nil]⟩
  | cons a as ih =>
    obtain ⟨bs, ds, rfl, hrun, hbs, hds⟩ := exists_insert_run hless a done
    rw [insertAll, StateT.run_bind, hrun]
    rw [List.reverse_append] at hdone
    have hinsert : Arranged le (cs ++ [a]) (bs ++ a :: ds).reverse := by
      rw [List.reverse_append, List.reverse_cons, List.append_assoc]
      exact hdone.insert hle (by rwa [List.getLast?_reverse])
        fun b hb => hbs b (List.mem_reverse.mp hb)
    obtain ⟨es, hes, harranged⟩ := ih hinsert
    exact ⟨es, hes, by rwa [List.append_assoc] at harranged⟩

theorem merge_run (done as bs : List α) :
    (merge less done as bs).run none = (done.reverse ++ as.merge bs le, none) := by
  induction done, as, bs using merge.induct with
  | case1 done bs => rw [merge, List.nil_merge]; rfl
  | case2 done as hne =>
    rw [List.merge_right, merge]
    · rfl
    · exact hne
  | case3 done a as b bs ih ih' =>
    rw [merge, StateT.run_bind, ask_run hless]
    cases hab : le a b with
    | true =>
      rw [List.cons_merge_cons_pos _ _ _ hab]
      refine ih'.trans ?_
      rw [List.reverse_cons, List.append_assoc]
      rfl
    | false =>
      rw [List.cons_merge_cons_neg _ _ _ (by simp [hab])]
      refine ih.trans ?_
      rw [List.reverse_cons, List.append_assoc]
      rfl

theorem sortFrom_run (hle : Total le) (as : List α) :
    ∃ bs, (sortFrom less as).run none = (bs, none) ∧ Arranged le as bs := by
  induction as using sortFrom.induct with
  | case1 as hshort =>
    unfold sortFrom
    rw [if_pos hshort]
    exact insertAll_run hless hle (⟨.nil, fun _ => rfl⟩ : Arranged le [] [].reverse)
  | case2 as hlong ih ih' =>
    obtain ⟨bs, hbs, harranged⟩ := ih
    obtain ⟨cs, hcs, harranged'⟩ := ih'
    refine ⟨bs.merge cs le, ?_, ?_⟩
    · unfold sortFrom
      rw [if_neg hlong, StateT.run_bind, hbs]
      change (sortFrom less _ >>= merge less [] bs : Attempt ε _).run none = _
      rw [StateT.run_bind, hcs]
      exact merge_run hless [] bs cs
    · have := harranged.merge hle harranged'
      rwa [List.take_append_drop] at this

theorem sort_eq_mergeSort (hle : Total le) (as : List α) :
    sort less as = (as.mergeSort le, none) := by
  obtain ⟨bs, hrun, h⟩ := sortFrom_run hless hle as
  have hlib := arranged_mergeSort hle as
  rw [← eq_of_filter_eq hle h.ordered hlib.ordered fun a => (h.stable a).trans (hlib.stable a).symm]
  exact hrun

end Resumable.Sorting
