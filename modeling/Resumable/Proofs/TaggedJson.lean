import Resumable.Object.Text
import Resumable.Proofs.Pointwise

/-!
# Objects through JSON

A tag is an object of JSON with a single member, and a dict of one entry becomes one as well. So an
object comes back from its JSON value unless there is a dict in it that looks like a tag. Main
statement: `Object.ofJson_toJson_iff`, for objects without floats and without the kinds of objects
that JSON has tags for but that are not read back.
-/

namespace Resumable

/-! ## Values one by one -/

namespace Object

theorem toJsonAll_eq (done : List Json) (items : List Object) :
    toJsonAll done items = done.reverse ++ items.map toJson := by
  induction items generalizing done with
  | nil => rw [toJsonAll, List.map_nil, List.append_nil]
  | cons o items ih => rw [toJsonAll, ih, List.reverse_cons, List.append_assoc, List.map_cons,
      List.singleton_append]

theorem toMembers_eq (done : List (String × Json)) (entries : List (Object × Object)) :
    toMembers done entries = done.reverse ++ entries.map fun e => (memberName e.1, toJson e.2) := by
  induction entries generalizing done with
  | nil => rw [toMembers, List.map_nil, List.append_nil]
  | cons e entries ih => rw [toMembers, ih, List.reverse_cons, List.append_assoc, List.map_cons,
      List.singleton_append]

theorem ofJsonAll_eq (done : List Object) (items : List Json) :
    ofJsonAll done items = done.reverse ++ items.map ofJson := by
  induction items generalizing done with
  | nil => rw [ofJsonAll, List.map_nil, List.append_nil]
  | cons j items ih => rw [ofJsonAll, ih, List.reverse_cons, List.append_assoc, List.map_cons,
      List.singleton_append]

theorem ofMembers_eq (done : List (Object × Object)) (members : List (String × Json)) :
    ofMembers done members = done.reverse ++ members.map fun m => (.string m.1, ofJson m.2) := by
  induction members generalizing done with
  | nil => rw [ofMembers, List.map_nil, List.append_nil]
  | cons m members ih => rw [ofMembers, ih, List.reverse_cons, List.append_assoc, List.map_cons,
      List.singleton_append]

@[simp] theorem toJson_list (items : List Object) :
    toJson (.list items) = .array (items.map toJson) := by
  rw [toJson, toJsonAll_eq, List.reverse_nil, List.nil_append]

@[simp] theorem toJson_tuple (items : List Object) :
    toJson (.tuple items) = tagged "$tuple" (.array (items.map toJson)) := by
  rw [toJson, toJsonAll_eq, List.reverse_nil, List.nil_append]

@[simp] theorem ofJson_array (items : List Json) :
    ofJson (.array items) = .list (items.map ofJson) := by
  rw [ofJson, ofJsonAll_eq, List.reverse_nil, List.nil_append]

private theorem ofJson_members (members : List (String × Json)) :
    ofJson (.object members) =
      match members, members.map (fun m => (string m.1, ofJson m.2)) with
      | [(tag, payload)], [(_, read)] => ofTagged tag payload read
      | _, entries => .dict entries := by
  have hread : ofMembers [] members = members.map fun m => (string m.1, ofJson m.2) := by
    rw [ofMembers_eq, List.reverse_nil, List.nil_append]
  exact hread ▸ ofJson.eq_def _

/-- A single member is read as a tag. -/
theorem ofJson_tagged (tag : String) (payload : Json) :
    ofJson (tagged tag payload) = ofTagged tag payload (ofJson payload) := by
  rw [tagged, ofJson_members, List.map_cons, List.map_nil]

/-- Any other number of members is a dict. -/
theorem ofJson_object {members : List (String × Json)} (h : members.length ≠ 1) :
    ofJson (.object members) = .dict (members.map fun m => (.string m.1, ofJson m.2)) := by
  rw [ofJson_members]
  match members, h with
  | [], _ => rfl
  | _ :: _ :: _, _ => rfl

end Object

namespace Json

theorem insert_new {done : List (String × Json)} {name : String} (value : Json)
    (h : name ∉ done.map (·.1)) : insert done name value = done ++ [(name, value)] := by
  have hnew : done.any (·.1 == name) = false := by
    rw [List.any_eq_false]
    intro m hm
    rw [beq_iff_eq]
    rintro rfl
    exact h (List.mem_map_of_mem hm)
  rw [insert, hnew, if_neg Bool.false_ne_true]

theorem foldl_insert (done : List (String × Json)) {rest : List (String × Json)}
    (h : ((done ++ rest).map (·.1)).Nodup) :
    rest.foldl (fun done m => insert done m.1 m.2) done = done ++ rest := by
  induction rest generalizing done with
  | nil => exact (List.append_nil done).symm
  | cons m rest ih =>
    have hnew : m.1 ∉ done.map (·.1) := fun hm => by
      rw [List.map_append, List.map_cons] at h
      exact (List.nodup_append.mp h).2.2 _ hm _ List.mem_cons_self rfl
    rw [List.foldl_cons, insert_new m.2 hnew, ih _ (by rwa [List.append_assoc]), List.append_assoc]
    rfl

/-- Members with different names stay as they are. -/
theorem ofMembers_eq {members : List (String × Json)} (h : (members.map (·.1)).Nodup) :
    ofMembers members = .object members := congrArg object (foldl_insert [] h)

end Json

namespace Object

/-! ## Objects that JSON can hold -/

/-- Objects without floats that are built from what JSON can hold, with and without tags. The keys
of a dict are different texts. -/
inductive Portable : Object → Prop
  | none : Portable .none
  | ellipsis : Portable .ellipsis
  | bool (b) : Portable (.bool b)
  | int (i) : Portable (.int i)
  | string (s) : Portable (.string s)
  | bytes (data) : Portable (.bytes data)
  | path (p) : Portable (.path p)
  | list {items} : (∀ o ∈ items, Portable o) → Portable (.list items)
  | tuple {items} : (∀ o ∈ items, Portable o) → Portable (.tuple items)
  | dict {entries : List (String × Object)} : (entries.map (·.1)).Nodup →
      (∀ e ∈ entries, Portable e.2) → Portable (.dict (entries.map fun e => (.string e.1, e.2)))

/-- An object is part of another one, or that itself. -/
inductive Inside (part : Object) : Object → Prop
  | self : Inside part part
  | list {items o} : o ∈ items → Inside part o → Inside part (.list items)
  | tuple {items o} : o ∈ items → Inside part o → Inside part (.tuple items)
  | key {entries e} : e ∈ entries → Inside part e.1 → Inside part (.dict entries)
  | value {entries e} : e ∈ entries → Inside part e.2 → Inside part (.dict entries)

/-- An integer that is a byte. -/
def IsByte (o : Object) : Prop := ∃ i : Int64, o = .int i ∧ 0 ≤ i.toInt ∧ i.toInt ≤ 255

/-- The entries of a dict that reads as a tag when it has become JSON. -/
inductive LooksTagged : List (Object × Object) → Prop
  | path (s) : LooksTagged [(.string "$path", .string s)]
  | tuple (items) : LooksTagged [(.string "$tuple", .list items)]
  | bytes {items} : (∀ o ∈ items, o.IsByte) → LooksTagged [(.string "$bytes", .list items)]
  | ellipsis (o) : LooksTagged [(.string "$ellipsis", o)]

theorem LooksTagged.length_eq {es : List (Object × Object)} (h : LooksTagged es) :
    es.length = 1 := by
  cases h <;> rfl

/-- No dict in an object looks like a tag. -/
def Unambiguous (o : Object) : Prop := ∀ entries, Inside (.dict entries) o → ¬ LooksTagged entries

variable {o : Object} {items : List Object} {entries : List (String × Object)}

theorem unambiguous_of_leaf (h : ∀ part, Inside part o → part = o) (hdict : ∀ es, o ≠ .dict es) :
    o.Unambiguous := fun es hes => ((hdict es) (h _ hes).symm).elim

theorem unambiguous_list : (list items).Unambiguous ↔ ∀ o ∈ items, o.Unambiguous := by
  refine ⟨fun h o ho es hes => h es (.list ho hes), fun h es hes => ?_⟩
  cases hes with
  | list ho hes => exact h _ ho es hes

theorem unambiguous_tuple : (tuple items).Unambiguous ↔ ∀ o ∈ items, o.Unambiguous := by
  refine ⟨fun h o ho es hes => h es (.tuple ho hes), fun h es hes => ?_⟩
  cases hes with
  | tuple ho hes => exact h _ ho es hes

theorem unambiguous_dict : (dict (entries.map fun e => (.string e.1, e.2))).Unambiguous ↔
    ¬ LooksTagged (entries.map fun e => (.string e.1, e.2)) ∧ ∀ e ∈ entries, e.2.Unambiguous := by
  constructor
  · intro h
    refine ⟨h _ .self, fun e he es hes => h es (.value (e := (.string e.1, e.2)) ?_ hes)⟩
    exact List.mem_map_of_mem (f := fun e : String × Object => (string e.1, e.2)) he
  · rintro ⟨htop, hvalues⟩ es hes
    cases hes with
    | self => exact htop
    | key he hes =>
      obtain ⟨e, -, rfl⟩ := List.mem_map.mp he
      cases hes
    | value he hes =>
      obtain ⟨e, hmem, rfl⟩ := List.mem_map.mp he
      exact hvalues e hmem es hes

/-! ## What a member is read as -/

theorem toJson_eq_string {s : String} (h : toJson o = .string s) : o = .string s := by
  cases o <;> grind [toJson, tagged, Json.ofMembers]

theorem toJson_eq_array {js : List Json} (h : toJson o = .array js) :
    ∃ items, o = .list items ∧ js = items.map toJson := by
  cases o <;> grind [toJson, tagged, Json.ofMembers, toJsonAll_eq]

theorem toJson_eq_int {i : Int} (h : toJson o = .int i) :
    ∃ n : Int64, o = .int n ∧ i = n.toInt := by
  cases o <;> grind [toJson, tagged, Json.ofMembers]

/-- The integers that are bytes are what JSON values are bytes of. -/
theorem isByte_iff : o.IsByte ↔ ∃ b, byte? (toJson o) = some b := by
  constructor
  · rintro ⟨i, rfl, hlow, hhigh⟩
    exact ⟨_, by rw [toJson, byte?, if_pos ⟨hlow, by omega⟩]⟩
  · rintro ⟨b, hb⟩
    cases hjson : toJson o with
    | int i =>
      obtain ⟨n, rfl, rfl⟩ := toJson_eq_int hjson
      rw [hjson, byte?] at hb
      split at hb
      · next h => exact ⟨n, rfl, h.1, by omega⟩
      · cases hb
    | _ => rw [hjson] at hb; cases hb

theorem mapM_byte?_map_toJson : (∀ o ∈ items, o.IsByte) ↔
    ∃ data, (items.map toJson).mapM byte? = some data := by
  induction items with
  | nil => exact ⟨fun _ => ⟨[], rfl⟩, fun _ _ h => absurd h List.not_mem_nil⟩
  | cons o items ih =>
    rw [List.forall_mem_cons, isByte_iff, ih, List.map_cons, List.mapM_cons]
    constructor
    · rintro ⟨⟨b, hb⟩, data, hdata⟩
      exact ⟨b :: data, by rw [hb, hdata]; rfl⟩
    · rintro ⟨data, hdata⟩
      obtain ⟨b, hb, hdata⟩ := Option.bind_eq_some_iff.mp hdata
      obtain ⟨rest, hrest, -⟩ := Option.bind_eq_some_iff.mp hdata
      exact ⟨⟨b, hb⟩, rest, hrest⟩

/-- A member that looks like a tag is not read as a dict. -/
theorem ofTagged_ne_dict {tag : String} {value : Object} (h : LooksTagged [(.string tag, value)])
    (es : List (Object × Object)) :
    ofTagged tag (toJson value) (ofJson (toJson value)) ≠ .dict es := by
  cases h with
  | path s => simp [toJson, ofTagged]
  | tuple items => simp [ofTagged]
  | bytes hbytes =>
    obtain ⟨data, hdata⟩ := mapM_byte?_map_toJson.mp hbytes
    simp [ofTagged, hdata]
  | ellipsis => simp [ofTagged]

/-- Any other member is a dict. -/
theorem ofTagged_of_not_looksTagged {tag : String} {value : Object}
    (h : ¬ LooksTagged [(.string tag, value)]) (read : Object) :
    ofTagged tag (toJson value) read = .dict [(.string tag, read)] := by
  unfold ofTagged
  split
  · next s hs =>
    obtain rfl := toJson_eq_string hs
    exact absurd (.path s) h
  · next js items hjs =>
    obtain ⟨items, rfl, -⟩ := toJson_eq_array hjs
    exact absurd (.tuple items) h
  · next js _ hjs =>
    obtain ⟨items, rfl, rfl⟩ := toJson_eq_array hjs
    split
    · next data hdata => exact absurd (.bytes (mapM_byte?_map_toJson.mpr ⟨data, hdata⟩)) h
    · rfl
  · exact absurd (.ellipsis value) h
  · rfl

/-! ## Objects that come back -/

theorem mapM_byte?_data (data : List UInt8) :
    (data.map fun b => Json.int b.toNat).mapM byte? = some data := by
  induction data with
  | nil => rfl
  | cons b data ih =>
    have hb : byte? (.int b.toNat) = some b := by
      have := b.toNat_lt
      rw [byte?, if_pos (by omega), Int.toNat_natCast, UInt8.ofNat_toNat]
    rw [List.map_cons, List.mapM_cons, hb, ih]
    rfl

theorem ofInteger_toInt (i : Int64) : ofInteger i.toInt = .int i := by
  rw [ofInteger, if_pos ⟨i.minValue_le_toInt, i.toInt_le⟩, Int64.ofInt_toInt]

theorem map_ofJson_toJson : (items.map toJson).map ofJson = items ↔
    ∀ o ∈ items, ofJson (toJson o) = o := by
  rw [List.map_map]
  conv_lhs => rhs; rw [← List.map_id items]
  exact List.map_inj_left

/-- The members of a dict whose keys are different texts. -/
theorem toJson_dict (h : (entries.map (·.1)).Nodup) :
    toJson (.dict (entries.map fun e => (.string e.1, e.2))) =
      .object (entries.map fun e => (e.1, toJson e.2)) := by
  rw [toJson, toMembers_eq, List.reverse_nil, List.nil_append, List.map_map, Json.ofMembers_eq]
  · rfl
  · rw [List.map_map]
    exact h

theorem ofJson_toJson_dict (h : (entries.map (·.1)).Nodup) :
    ofJson (toJson (.dict (entries.map fun e => (.string e.1, e.2)))) =
        .dict (entries.map fun e => (.string e.1, e.2)) ↔
      ¬ LooksTagged (entries.map fun e => (.string e.1, e.2)) ∧
        ∀ e ∈ entries, ofJson (toJson e.2) = e.2 := by
  rw [toJson_dict h]
  by_cases hlength : entries.length = 1
  · obtain ⟨⟨tag, value⟩, rfl⟩ := List.length_eq_one_iff.mp hlength
    change ofJson (tagged tag (toJson value)) = _ ↔ _
    rw [ofJson_tagged]
    by_cases hlooks : LooksTagged [(.string tag, value)]
    · exact ⟨fun heq => absurd heq (ofTagged_ne_dict hlooks _), fun hand => absurd hlooks hand.1⟩
    · simp [ofTagged_of_not_looksTagged hlooks, hlooks]
  · have hlooks : ¬ LooksTagged (entries.map fun e => (.string e.1, e.2)) :=
      fun hlooks => hlength ((List.length_map _).symm.trans hlooks.length_eq)
    rw [ofJson_object (by rwa [List.length_map]), List.map_map]
    simp [hlooks, List.map_inj_left]

/-- **Faithful up to tags**: an object comes back from its JSON value exactly if no dict in it looks
like a tag. -/
theorem ofJson_toJson_iff (ho : o.Portable) : ofJson (toJson o) = o ↔ o.Unambiguous := by
  induction ho with
  | none | ellipsis | bool | string | path =>
    exact iff_of_true rfl (unambiguous_of_leaf (fun _ h => by cases h; rfl) (by simp))
  | int i =>
    refine iff_of_true ?_ (unambiguous_of_leaf (fun _ h => by cases h; rfl) (by simp))
    rw [toJson, ofJson, ofInteger_toInt]
  | bytes data =>
    refine iff_of_true ?_ (unambiguous_of_leaf (fun _ h => by cases h; rfl) (by simp))
    rw [toJson, ofJson_tagged, ofTagged, mapM_byte?_data]
  | list hitems ih =>
    rw [toJson_list, ofJson_array, unambiguous_list, list.injEq, map_ofJson_toJson]
    exact forall₂_congr ih
  | tuple hitems ih =>
    rw [toJson_tuple, ofJson_tagged, ofJson_array, ofTagged, unambiguous_tuple, tuple.injEq,
      map_ofJson_toJson]
    exact forall₂_congr ih
  | dict hkeys hvalues ih =>
    rw [ofJson_toJson_dict hkeys, unambiguous_dict]
    exact and_congr_right fun _ => forall₂_congr ih

/-- A list with an integer that is no byte is not read as bytes. -/
theorem ofJson_toJson_iff_beyond_byte :
    let o : Object := .tuple [.path "a", .dict [(.string "$bytes", .list [.int 255, .int 256])]]
    o.Portable ∧ (ofJson (toJson o) = o ↔ o.Unambiguous) ∧ o.Unambiguous := by
  have hlist : Portable (.list [.int 255, .int 256]) := .list (by simp [Portable.int])
  have hdict : Portable (.dict [(.string "$bytes", .list [.int 255, .int 256])]) :=
    @Portable.dict [("$bytes", .list [.int 255, .int 256])] (by simp) (by simpa using hlist)
  have ho : Portable (.tuple [.path "a", .dict [(.string "$bytes", .list [.int 255, .int 256])]]) :=
    .tuple (by simpa using ⟨.path "a", hdict⟩)
  exact ⟨ho, ofJson_toJson_iff ho, (ofJson_toJson_iff ho).mp (by with_unfolding_all rfl)⟩

end Object

end Resumable
