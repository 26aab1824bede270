import Mathlib.Data.List.Basic
import Mathlib.Data.List.Nodup
import Mathlib.Data.List.Perm.Lattice
import Resumable.Heap.Basic

/-!
# Dicts are maps with an order

A dict is lawful if each entry has the key of its name and no key is there twice (`Dict.Lawful`).
What can become of a dict is of two kinds: pairs are put into it (`Dict.Gains`), or entries are
taken out of it (`Dict.Loses`). Either way it stays lawful, and of two keys that are there all the
time the first one stays the first. A key that is put in anew comes last, behind those that are put
in before it (`Dict.keys_putAll`).
-/

namespace Resumable

namespace Dict

/-- The keys, in order. -/
def keys (d : Dict) : List Key := d.entries.toList.map (·.key)

/-- The keys with the names that they were first inserted under, in order. -/
def labels (d : Dict) : List (Key × Value) := d.entries.toList.map fun e => (e.key, e.name)

/-- Each entry has the key of its name, and no key is there twice. -/
structure Lawful (d : Dict) : Prop where
  key_of_name : ∀ e ∈ d.entries.toList, Key.ofValue e.name = .ok e.key
  nodup : d.keys.Nodup

variable {d d' d'' : Dict} {k key : Key} {name v : Value} {pairs : List (Value × Value)}

theorem map_fst_labels (d : Dict) : d.labels.map Prod.fst = d.keys := by
  rw [labels, keys, List.map_map]
  rfl

theorem lawful_iff :
    d.Lawful ↔ (∀ l ∈ d.labels, Key.ofValue l.2 = .ok l.1) ∧ (d.labels.map Prod.fst).Nodup := by
  rw [map_fst_labels]
  refine ⟨fun h => ⟨fun l hl => ?_, h.nodup⟩, fun h => ⟨fun e he => ?_, h.2⟩⟩
  · obtain ⟨e, he, rfl⟩ := List.mem_map.mp hl
    exact h.key_of_name e he
  · exact h.1 _ (List.mem_map_of_mem he)

theorem lawful_empty : empty.Lawful := ⟨nofun, .nil⟩

theorem mem_keys : k ∈ d.keys ↔ ∃ e ∈ d.entries.toList, e.key = k := List.mem_map

/-! ## Looking up -/

theorem find?_eq_none : d.find? k = none ↔ k ∉ d.keys := by
  rw [find?, Array.findIdx?_eq_none_iff, mem_keys]
  simp

/-- A key has the value of its entry. -/
theorem Lawful.get?_eq_some_iff (h : d.Lawful) :
    d.get? k = some v ↔ ∃ e ∈ d.entries.toList, e.key = k ∧ e.value = v := by
  rw [get?, Option.map_eq_some_iff]
  refine ⟨fun ⟨e, he, hv⟩ => ⟨e, ?_, ?_, hv⟩, fun ⟨e, he, hk, hv⟩ => ?_⟩
  · exact Array.mem_toList_iff.mpr (Array.mem_of_find?_eq_some he)
  · simpa using Array.find?_some he
  · cases hfind : d.entries.find? (·.key == k) with
    | none =>
      rw [Array.find?_eq_none] at hfind
      exact (hfind e (Array.mem_toList_iff.mp he) (beq_iff_eq.mpr hk)).elim
    | some e' =>
      have hmem := Array.mem_toList_iff.mpr (Array.mem_of_find?_eq_some hfind)
      have hkey : e'.key = e.key := by simpa [hk] using Array.find?_some hfind
      exact ⟨e', rfl, List.inj_on_of_nodup_map h.nodup hmem he hkey ▸ hv⟩

/-- What is iterated over are the names, and they have the keys in order. -/
theorem Lawful.mapM_names (h : d.Lawful) : d.names.toList.mapM Key.ofValue = .ok d.keys := by
  rw [names, Array.toList_map, keys]
  have hnames := h.key_of_name
  generalize d.entries.toList = es at hnames ⊢
  induction es with
  | nil => rfl
  | cons e es ih =>
    rw [List.map_cons, List.mapM_cons, hnames e (.head _), ih fun e he => hnames e (.tail _ he)]
    rfl

/-! ## Putting in -/

theorem labels_modify (entries : Array Entry) (i : Nat) (v : Value) :
    labels ⟨entries.modify i fun e => { e with value := v }⟩ = labels ⟨entries⟩ := by
  refine List.ext_getElem? fun j => ?_
  rw [labels, labels, List.getElem?_map, List.getElem?_map, Array.toList_modify,
    List.getElem?_modify]
  cases entries.toList[j]? with
  | none => rfl
  | some e => by_cases hij : i = j <;> simp [hij]

/-- A key that is there already keeps its place and its name; another one comes last. -/
theorem labels_insert (d : Dict) (key : Key) (name v : Value) :
    (d.insert key name v).labels =
      if key ∈ d.keys then d.labels else d.labels ++ [(key, name)] := by
  unfold insert
  cases hfind : d.find? key with
  | none =>
    rw [if_neg (find?_eq_none.mp hfind), labels, Array.toList_push, List.map_append]
    rfl
  | some i =>
    rw [if_pos (by_contra fun hnew => nomatch hfind.symm.trans (find?_eq_none.mpr hnew))]
    exact labels_modify d.entries i v

theorem keys_insert (d : Dict) (key : Key) (name v : Value) :
    (d.insert key name v).keys = if key ∈ d.keys then d.keys else d.keys ++ [key] := by
  rw [← map_fst_labels, labels_insert]
  split
  · exact map_fst_labels d
  · rw [List.map_append, map_fst_labels]
    rfl

theorem Lawful.insert (h : d.Lawful) (hkey : Key.ofValue name = .ok key) (v : Value) :
    (d.insert key name v).Lawful := by
  obtain ⟨hnames, hnodup⟩ := lawful_iff.mp h
  refine lawful_iff.mpr ?_
  rw [labels_insert]
  by_cases hmem : key ∈ d.keys
  · rw [if_pos hmem]
    exact ⟨hnames, hnodup⟩
  · rw [if_neg hmem, List.map_append]
    refine ⟨fun l hl => ?_, ?_⟩
    · rcases List.mem_append.mp hl with hl | hl
      · exact hnames l hl
      · rw [List.mem_singleton.mp hl]
        exact hkey
    · refine List.nodup_append.mpr ⟨hnodup, List.nodup_singleton _, ?_⟩
      rintro k hk _ hlast rfl
      rw [map_fst_labels, List.mem_singleton.mp hlast] at hk
      exact hmem hk

/-- A dict into which pairs have been put, one after the other; or what cannot be a key. -/
def putAll (d : Dict) (pairs : List (Value × Value)) : Except Value Dict :=
  pairs.foldlM (fun d pair => (Key.ofValue pair.1).map (d.insert · pair.1 pair.2)) d

theorem putAll_cons (hkey : Key.ofValue name = .ok key) :
    d.putAll ((name, v) :: pairs) = (d.insert key name v).putAll pairs := by
  rw [putAll, List.foldlM_cons, hkey]
  rfl

/-- The first pair has been put in, and then the others. -/
theorem exists_of_putAll_cons (h : d.putAll ((name, v) :: pairs) = .ok d') :
    ∃ key, Key.ofValue name = .ok key ∧ (d.insert key name v).putAll pairs = .ok d' := by
  cases hkey : Key.ofValue name with
  | ok key => exact ⟨key, rfl, (putAll_cons hkey).symm.trans h⟩
  | error part =>
    rw [putAll, List.foldlM_cons, hkey] at h
    cases h

/-- Pairs have been put into a dict. -/
def Gains (d d' : Dict) : Prop := ∃ pairs, d.putAll pairs = .ok d'

theorem Gains.refl (d : Dict) : d.Gains d := ⟨[], rfl⟩

theorem Gains.trans (h : d.Gains d') (h' : d'.Gains d'') : d.Gains d'' := by
  obtain ⟨pairs, hpairs⟩ := h
  obtain ⟨pairs', hpairs'⟩ := h'
  refine ⟨pairs ++ pairs', ?_⟩
  rw [putAll] at hpairs ⊢
  rw [List.foldlM_append, hpairs]
  exact hpairs'

theorem gains_insert (d : Dict) (hkey : Key.ofValue name = .ok key) (v : Value) :
    d.Gains (d.insert key name v) := ⟨[(name, v)], putAll_cons hkey⟩

theorem Lawful.gains (h : d.Lawful) (hgains : d.Gains d') : d'.Lawful := by
  obtain ⟨pairs, hpairs⟩ := hgains
  induction pairs generalizing d with
  | nil => cases hpairs; exact h
  | cons pair pairs ih =>
    obtain ⟨key, hkey, hrest⟩ := exists_of_putAll_cons hpairs
    exact ih (h.insert hkey pair.2) hrest

/-- What was there keeps its place and its name. -/
theorem Gains.labels_prefix (h : d.Gains d') : d.labels <+: d'.labels := by
  obtain ⟨pairs, hpairs⟩ := h
  induction pairs generalizing d with
  | nil => cases hpairs; exact List.prefix_rfl
  | cons pair pairs ih =>
    obtain ⟨key, -, hrest⟩ := exists_of_putAll_cons hpairs
    refine .trans ?_ (ih hrest)
    rw [labels_insert]
    split
    · exact List.prefix_rfl
    · exact List.prefix_append _ _

theorem Gains.keys_prefix (h : d.Gains d') : d.keys <+: d'.keys := by
  rw [← map_fst_labels, ← map_fst_labels]
  exact h.labels_prefix.map _

/-- The new keys come last, each where it is put in first. -/
theorem keys_putAll (h : d.putAll pairs = .ok d') :
    ∃ put, pairs.mapM (fun pair => Key.ofValue pair.1) = .ok put ∧
      d'.keys = d.keys ++ (put.removeAll d.keys).eraseDups := by
  induction pairs generalizing d with
  | nil =>
    cases h
    exact ⟨[], rfl, (List.append_nil _).symm⟩
  | cons pair pairs ih =>
    obtain ⟨key, hkey, hrest⟩ := exists_of_putAll_cons h
    obtain ⟨put, hput, hkeys⟩ := ih hrest
    refine ⟨key :: put, by rw [List.mapM_cons, hkey, hput]; rfl, ?_⟩
    rw [hkeys, keys_insert]
    by_cases hmem : key ∈ d.keys
    · rw [if_pos hmem, List.removeAll, List.removeAll,
        List.filter_cons_of_neg (by simpa using hmem)]
    · rw [if_neg hmem, List.removeAll, List.removeAll,
        List.filter_cons_of_pos (by simpa using hmem), List.eraseDups_cons, List.filter_filter,
        List.append_assoc, List.singleton_append]
      congr 4
      funext k
      rw [Bool.eq_iff_iff]
      simp [or_comm]

/-! ## Taking out -/

/-- Entries have been taken out of a dict. -/
def Loses (d d' : Dict) : Prop := d'.entries.toList.Sublist d.entries.toList

theorem loses_empty (d : Dict) : d.Loses .empty := List.nil_sublist _

theorem toList_erase (d : Dict) (key : Key) :
    (d.erase key).entries.toList = d.entries.toList.eraseP (·.key == key) := by
  rw [List.eraseP_eq_eraseIdx, ← List.findIdx?_toArray, Array.toArray_toList]
  unfold erase find?
  cases d.entries.findIdx? (·.key == key) with
  | none => rfl
  | some i => exact Array.toList_eraseIdxIfInBounds

theorem loses_erase (d : Dict) (key : Key) : d.Loses (d.erase key) := by
  rw [Loses, toList_erase]
  exact List.eraseP_sublist

theorem Loses.keys_sublist (h : d.Loses d') : d'.keys.Sublist d.keys := h.map _

theorem Lawful.loses (h : d.Lawful) (hloses : d.Loses d') : d'.Lawful where
  key_of_name e he := h.key_of_name e (hloses.subset he)
  nodup := h.nodup.sublist hloses.keys_sublist

end Dict

/-! ## The order of keys -/

/-- What is left of a list without repetitions has the order of the list. -/
theorem pair_sublist_of_nodup {α : Type} {l l' : List α} {a b : α} (hl : l.Nodup)
    (hl' : l'.Sublist l) (hab : [a, b].Sublist l) (ha : a ∈ l') (hb : b ∈ l') :
    [a, b].Sublist l' := by
  classical
  have hleft : l' = l.filter (· ∈ l') := by
    have hall : l'.filter (· ∈ l') = l' := List.filter_eq_self.mpr fun x hx => decide_eq_true hx
    have hsub := hl'.filter (· ∈ l')
    rw [hall] at hsub
    refine hsub.eq_of_length (List.Perm.length_eq ?_)
    refine (List.perm_ext_iff_of_nodup (hl.sublist hl') (hl.filter _)).mpr fun x => ?_
    simpa using fun hx => hl'.subset hx
  rw [hleft]
  simpa [ha, hb] using hab.filter (· ∈ l')

namespace Dict

variable {d d' : Dict} {a b : Key}

/-- One key stands in front of another one, which may be missing. -/
def Leads (d : Dict) (a b : Key) : Prop := b ∈ d.keys → [a, b].Sublist d.keys

/-- Whatever becomes of a dict, a key that stays keeps its place in front of others, and others that
come in come behind it. -/
theorem Leads.keep (hd : d.Lawful) (hchange : d.Gains d' ∨ d.Loses d') (hab : d.Leads a b)
    (ha : a ∈ d.keys) (ha' : a ∈ d'.keys) : d'.Leads a b := by
  intro hb'
  rcases hchange with hgains | hloses
  · obtain ⟨new, hnew⟩ := hgains.keys_prefix
    by_cases hb : b ∈ d.keys
    · exact (hab hb).trans hgains.keys_prefix.sublist
    · rw [← hnew] at hb' ⊢
      have hlate := (List.mem_append.mp hb').resolve_left hb
      exact (List.singleton_sublist.mpr ha).append (List.singleton_sublist.mpr hlate)
  · have hb := hloses.keys_sublist.subset hb'
    exact pair_sublist_of_nodup hd.nodup hloses.keys_sublist (hab hb) ha' hb'

end Dict

/-- A dict in a cell is lawful. -/
def Cell.Lawful : Cell → Prop
  | .dict d => d.Lawful
  | _ => True

end Resumable
