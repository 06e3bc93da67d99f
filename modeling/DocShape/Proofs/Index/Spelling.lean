import DocShape.Index.Decoding
import DocShape.Proofs.Decoding.Fields

/-!
# The spellings of an index

An index can be written as an object or as an array, with its name under either of two
names, with other members around its own, and without the list at its end if that is
empty.  The three kinds of index differ in what they require beside a name, so their
spellings are defined once, over the **parts** of an index.

* `IndexParts.Spells`: **the spellings of an index**.
* `IndexParts.GivenIn`: what the members of an object have to be, field by field.
* `IndexParts.spells_object_iff`: the object spellings are those members in any order,
  among any others.
* `Index.ofJson_eq_ok_iff` and its companions: **decoding inverts every spelling, and
  nothing else decodes**.
* `index_spellings`: the same for the three kinds, and the values that are always errors.
-/

namespace DocShape

open Decode (Key Passes checkMembers checkLength)
open Members (under)

/-! ### Spellings -/

/-- An index apart into what is written of it. -/
structure IndexParts where
  name : String
  /-- What must be written beside the name, in declared order. -/
  required : Members
  /-- What the list at the end goes by. -/
  listName : String
  list : List String

namespace IndexParts

/-- What the name goes by. -/
def nameKeys : List String := ["name", "indexDescriptor"]

variable (parts : IndexParts)

/-- Every member name that means something. -/
def keys : List String := nameKeys ++ (parts.required.map (·.1) ++ [parts.listName])

/-- A list as a value of its own, or left out if it is empty. -/
inductive Writes (list : List String) : Option Json → Prop where
  | whole : Writes list (some (.array (list.map .string)))
  | omitted (h : list = []) : Writes list none

/-- The members that an object needs, with the name under one of its names and the list as it is
written. -/
def members (nameKey : String) (list? : Option Json) : Members :=
  (nameKey, .string parts.name) :: (parts.required ++ list?.toList.map fun list =>
    (parts.listName, list))

/-- The values that an array needs. -/
def items (list? : Option Json) : List Json :=
  .string parts.name :: (parts.required.map (·.2) ++ list?.toList)

/-- **The spellings of an index.** In an object its members stand in any order, among any others. -/
inductive Spells : Json → Prop where
  | object {nameKey : String} {list? : Option Json} {given : Members} (hname : nameKey ∈ nameKeys)
      (hlist : Writes parts.list list?)
      (h : (given.under parts.keys).Perm (parts.members nameKey list?)) :
      Spells (.object given)
  | array {list? : Option Json} (hlist : Writes parts.list list?) :
      Spells (.array (parts.items list?))

/-! ### Spellings as objects -/

/-- An object gives each field as it should be. -/
structure GivenIn (given : Members) : Prop where
  name : ∃ nameKey, given.under nameKeys = [(nameKey, .string parts.name)]
  required : ∀ field ∈ parts.required, given.under [field.1] = [field]
  list : ∃ list?, Writes parts.list list? ∧
    given.under [parts.listName] = list?.toList.map fun list => (parts.listName, list)

variable {parts} {nameKey : String} {list? : Option Json} {given : Members}

section

variable (h : parts.keys.Nodup)
include h

/-- The members that an object needs have different names. -/
theorem nodup_members (hname : nameKey ∈ nameKeys) :
    ((parts.members nameKey list?).map (·.1)).Nodup := by
  have hlast : (list?.toList.map fun _ => parts.listName).Sublist [parts.listName] := by
    cases list? with
    | none => exact List.nil_sublist _
    | some list => exact .refl _
  have hnames : (parts.members nameKey list?).map (·.1) =
      [nameKey] ++ (parts.required.map (·.1) ++ list?.toList.map fun _ => parts.listName) := by
    rw [members, List.map_cons, List.map_append, List.map_map]
    rfl
  rw [hnames]
  exact h.sublist ((List.singleton_sublist.2 hname).append (.append (.refl _) hlast))

/-- Only the first of the members is under a name of the index. -/
theorem under_nameKeys_members (hname : nameKey ∈ nameKeys) :
    under nameKeys (parts.members nameKey list?) = [(nameKey, .string parts.name)] := by
  rw [keys, List.nodup_append] at h
  obtain ⟨-, -, hdisjoint⟩ := h
  have hothers : under nameKeys (parts.required ++ list?.toList.map fun list =>
      (parts.listName, list)) = [] := by
    refine Members.under_eq_nil fun field hfield hmem => ?_
    refine hdisjoint field.1 hmem field.1 ?_ rfl
    rcases List.mem_append.1 hfield with hrequired | hlast
    · exact List.mem_append_left _ (List.mem_map_of_mem hrequired)
    · obtain ⟨list, -, rfl⟩ := List.mem_map.1 hlast
      exact List.mem_append_right _ (List.mem_singleton_self _)
  rw [members, ← List.singleton_append, Members.under_append, hothers, List.append_nil]
  exact Members.under_eq_self (by simpa using hname)

/-- Only the last of the members, if any, is under the name of the list. -/
theorem under_listName_members (hname : nameKey ∈ nameKeys) :
    under [parts.listName] (parts.members nameKey list?) =
      list?.toList.map fun list => (parts.listName, list) := by
  cases list? with
  | some list =>
    have hmem : (parts.listName, list) ∈ parts.members nameKey (some list) :=
      List.mem_cons_of_mem _ (List.mem_append_right _ (List.mem_singleton_self _))
    exact Members.under_name_eq (nodup_members h hname) hmem
  | none =>
    -- Another member with that name would make it a name twice.
    have hnodup : ((parts.members nameKey (some .null)).map (·.1)).Nodup := nodup_members h hname
    rw [members, Option.toList_some, List.map_singleton, ← List.cons_append, List.map_append,
      List.nodup_append] at hnodup
    refine Members.under_eq_nil fun field hfield hmem => ?_
    rw [members, Option.toList_none, List.map_nil, List.append_nil] at hfield
    exact hnodup.2.2 field.1 (List.mem_map_of_mem hfield) _ (List.mem_singleton_self _)
      (List.mem_singleton.1 hmem)

theorem GivenIn.of_perm (hname : nameKey ∈ nameKeys) (hlist : Writes parts.list list?)
    (hgiven : (given.under parts.keys).Perm (parts.members nameKey list?)) : parts.GivenIn given := by
  -- Under names that mean something, the object has what the spelling has.
  have hunder : ∀ names ⊆ parts.keys,
      (given.under names).Perm (under names (parts.members nameKey list?)) := by
    intro names hsubset
    rw [← Members.under_under hsubset]
    exact hgiven.filter _
  refine ⟨⟨nameKey, ?_⟩, ?_, list?, hlist, ?_⟩
  · have hperm := hunder nameKeys (List.subset_append_left _ _)
    rw [under_nameKeys_members h hname] at hperm
    exact List.perm_singleton.1 hperm
  · intro field hfield
    have hmem : field.1 ∈ parts.keys :=
      List.mem_append_right _ (List.mem_append_left _ (List.mem_map_of_mem hfield))
    have hperm := hunder [field.1] (List.cons_subset.2 ⟨hmem, List.nil_subset _⟩)
    rw [Members.under_name_eq (nodup_members h hname)
      (List.mem_cons_of_mem _ (List.mem_append_left _ hfield))] at hperm
    exact List.perm_singleton.1 hperm
  · have hmem : parts.listName ∈ parts.keys :=
      List.mem_append_right _ (List.mem_append_right _ (List.mem_singleton_self _))
    have hperm := hunder [parts.listName] (List.cons_subset.2 ⟨hmem, List.nil_subset _⟩)
    rw [under_listName_members h hname] at hperm
    -- There is at most one member for the list, so the order says nothing.
    cases list? with
    | none => exact List.perm_nil.1 hperm
    | some list => exact List.perm_singleton.1 hperm

theorem GivenIn.spells (hgiven : parts.GivenIn given) : parts.Spells (.object given) := by
  obtain ⟨⟨nameKey, hname⟩, hrequired, list?, hlist, hlast⟩ := hgiven
  have hnameKey : nameKey ∈ nameKeys := by
    have hmem : (nameKey, .string parts.name) ∈ given.under nameKeys := by
      rw [hname]
      exact List.mem_singleton_self _
    exact (Members.mem_under.1 hmem).2
  -- The names fall into those of the index, of each required field, and of the list.
  have hkeys : (nameKeys :: (parts.required.map (fun field => [field.1]) ++
      [[parts.listName]])).flatten = parts.keys := by
    rw [List.flatten_cons, List.flatten_append, keys, List.flatten_singleton, ← List.flatMap_def,
      List.map_eq_flatMap]
  have hfields : (parts.required.flatMap fun field => given.under [field.1]) = parts.required := by
    rw [List.flatMap_congr hrequired, List.flatMap_singleton']
  have hperm := Members.perm_under (by rwa [hkeys]) given
  rw [hkeys, List.flatMap_cons, List.flatMap_append, List.flatMap_map, hname, hfields,
    List.flatMap_singleton, hlast] at hperm
  exact .object hnameKey hlist hperm

/-- **The object spellings, field by field.** -/
theorem spells_object_iff : parts.Spells (.object given) ↔ parts.GivenIn given := by
  constructor
  · rintro (⟨hname, hlist, hperm⟩ | _)
    exact .of_perm h hname hlist hperm
  · exact GivenIn.spells h

end

/-! ### Spellings as arrays -/

/-- The list stands after the required values. -/
theorem getElem?_items : (parts.items list?)[parts.required.length + 1]? = list? := by
  rw [items, List.getElem?_cons_succ, List.getElem?_append_right (by simp), List.length_map,
    Nat.sub_self]
  cases list? <;> rfl

theorem length_items :
    (parts.items list?).length = parts.required.length + 1 + list?.toList.length := by
  rw [items, List.length_cons, List.length_append, List.length_map]
  omega

theorem length_items_le : (parts.items list?).length ≤ parts.required.length + 2 := by
  rw [length_items]
  cases list? <;> simp

end IndexParts

/-! ### Decoding the parts -/

open IndexParts (Writes nameKeys)

section

variable {name : String} {list : List String} {given : Members} {items : List Json}

theorem indexNameKey_inverts : indexNameKey.Inverts .string := fun _ _ => Decode.string_eq_ok_iff

theorem filterFieldsKey_inverts : filterFieldsKey.Inverts fun list => .array (list.map .string) :=
  fun _ _ => Decode.strings_eq_ok_iff

theorem passes_and_name_iff :
    Passes indexNameKey.rule given ∧ indexNameKey.required given = .ok name ↔
      ∃ nameKey, given.under nameKeys = [(nameKey, .string name)] := by
  rw [Key.passes_and_required_iff]
  constructor
  · rintro ⟨⟨nameKey, value⟩, hunder, hvalue⟩
    obtain rfl := (indexNameKey_inverts value name).1 hvalue
    exact ⟨nameKey, hunder⟩
  · rintro ⟨nameKey, hunder⟩
    exact ⟨_, hunder, rfl⟩

variable {key : Key (List String)} (h : key.Inverts fun list => .array (list.map .string))
include h

theorem passes_and_list_iff (halias : key.alias? = none) :
    Passes key.rule given ∧ key.orElse [] given = .ok list ↔ ∃ list?, Writes list list? ∧
      given.under [key.name] = list?.toList.map fun list => (key.name, list) := by
  have hnames : key.names = [key.name] := by
    rw [Key.names, halias, Option.toList_none]
  rw [Key.passes_and_orElse_iff, h.exists_under_iff halias, hnames]
  constructor
  · rintro (⟨hunder, rfl⟩ | hunder)
    · exact ⟨none, .omitted rfl, hunder⟩
    · exact ⟨_, .whole, hunder⟩
  · rintro ⟨_, hlist | hlist, hunder⟩
    · exact .inr hunder
    · exact .inl ⟨hunder, hlist.symm⟩

theorem elementOr_nil_eq_ok_iff {place : Nat} : key.elementOr [] place items = .ok list ↔
    ∃ list?, Writes list list? ∧ items[place]? = list? := by
  rw [h.elementOr_eq_ok_iff]
  constructor
  · rintro (⟨hitem, rfl⟩ | hitem)
    · exact ⟨none, .omitted rfl, hitem⟩
    · exact ⟨_, .whole, hitem⟩
  · rintro ⟨_, hlist | hlist, hitem⟩
    · exact .inr hitem
    · exact .inl ⟨hitem, hlist.symm⟩

end

/-- An array with a first element. -/
theorem exists_cons_of_getElem? {items : List Json} {item : Json} (h : items[0]? = some item) :
    ∃ rest, items = item :: rest :=
  List.head?_eq_some_iff.1 (List.head?_eq_getElem?.trans h)

/-- An array with at most one element. -/
theorem eq_toList_of_getElem? {items : List Json} {item? : Option Json} (h : items[0]? = item?)
    (hlength : items.length ≤ 1) : items = item?.toList := by
  match items with
  | [] => rw [← h]; rfl
  | [_] => rw [← h]; rfl

/-- A decoder of records that inverts the object forms and the array forms inverts every
spelling. -/
theorem IndexParts.record_eq_ok_iff {ι : Type} {kind : RecordKind} {parts : IndexParts}
    {ofMembers : Members → Except DecodeError ι} {ofItems : List Json → Except DecodeError ι}
    {entry : ι} (hkeys : parts.keys.Nodup)
    (hmembers : ∀ given, ofMembers given = .ok entry ↔ parts.GivenIn given)
    (hitems : ∀ given, ofItems given = .ok entry ↔
      ∃ list?, Writes parts.list list? ∧ given = parts.items list?) {value : Json} :
    Decode.record kind ofMembers ofItems value = .ok entry ↔ parts.Spells value := by
  cases value with
  | object given =>
    rw [spells_object_iff hkeys]
    exact hmembers given
  | array given =>
    refine (hitems given).trans ⟨?_, ?_⟩
    · rintro ⟨list?, hlist, rfl⟩
      exact .array hlist
    · rintro (_ | hlist)
      exact ⟨_, hlist, rfl⟩
  | _ => exact iff_of_false (fun h => nomatch h) (fun h => nomatch h)

/-! ### Indexes over fields -/

namespace Index

/-- An index over fields requires no more than its name. -/
def parts (index : Index) : IndexParts := ⟨index.name, [], "fields", index.fields⟩

theorem fieldsKey_inverts : fieldsKey.Inverts fun list => .array (list.map .string) :=
  fun _ _ => Decode.strings_eq_ok_iff

theorem nodup_keys (index : Index) : index.parts.keys.Nodup := by
  show ["name", "indexDescriptor", "fields"].Nodup
  decide

theorem ofMembers_eq_ok_iff {given : Members} {index : Index} :
    ofMembers given = .ok index ↔ index.parts.GivenIn given := by
  have hcheck : checkMembers [indexNameKey.rule, fieldsKey.rule] [] given = .ok () ↔
      Passes indexNameKey.rule given ∧ Passes fieldsKey.rule given := by
    rw [Decode.checkMembers_eq_ok_iff_passes (by decide)]
    simp
  constructor
  · intro h
    obtain ⟨_, h, hread⟩ := exists_of_bind_eq_ok h
    obtain ⟨hpassName, hpassFields⟩ := hcheck.1 h
    obtain ⟨name, hname, hread⟩ := exists_of_bind_eq_ok hread
    obtain ⟨fields, hfields, hread⟩ := exists_of_bind_eq_ok hread
    obtain rfl := Except.ok.inj hread
    exact ⟨passes_and_name_iff.1 ⟨hpassName, hname⟩, List.forall_mem_nil _,
      (passes_and_list_iff fieldsKey_inverts rfl).1 ⟨hpassFields, hfields⟩⟩
  · rintro ⟨hname, -, hfields⟩
    obtain ⟨hpassName, hname⟩ := passes_and_name_iff.2 hname
    obtain ⟨hpassFields, hfields⟩ := (passes_and_list_iff fieldsKey_inverts rfl).2 hfields
    rw [ofMembers, hcheck.2 ⟨hpassName, hpassFields⟩, hname, hfields]
    rfl

theorem ofItems_eq_ok_iff {given : List Json} {index : Index} : ofItems given = .ok index ↔
    ∃ list?, Writes index.fields list? ∧ given = index.parts.items list? := by
  constructor
  · intro h
    obtain ⟨name, hname, h⟩ := exists_of_bind_eq_ok h
    obtain ⟨fields, hfields, h⟩ := exists_of_bind_eq_ok h
    obtain ⟨_, hlength, h⟩ := exists_of_bind_eq_ok h
    obtain rfl := Except.ok.inj h
    obtain ⟨rest, rfl⟩ := exists_cons_of_getElem? (indexNameKey_inverts.element_eq_ok_iff.1 hname)
    obtain ⟨list?, hlist, hitem⟩ := (elementOr_nil_eq_ok_iff fieldsKey_inverts).1 hfields
    have hlength := Decode.checkLength_eq_ok_iff.1 hlength
    simp only [List.length_cons, RecordKind.size] at hlength
    have hlast := eq_toList_of_getElem? hitem (by omega)
    exact ⟨list?, hlist, congrArg _ hlast⟩
  · rintro ⟨list?, hlist, rfl⟩
    have hfields : fieldsKey.elementOr [] 1 (index.parts.items list?) = .ok index.fields :=
      (elementOr_nil_eq_ok_iff fieldsKey_inverts).2 ⟨list?, hlist, IndexParts.getElem?_items⟩
    rw [ofItems, indexNameKey_inverts.element_eq_ok_iff.2 rfl, hfields,
      Decode.checkLength_eq_ok_iff.2 IndexParts.length_items_le]
    rfl

theorem ofJson_eq_ok_iff {value : Json} {index : Index} :
    ofJson value = .ok index ↔ index.parts.Spells value :=
  IndexParts.record_eq_ok_iff (nodup_keys index) (fun _ => ofMembers_eq_ok_iff)
    fun _ => ofItems_eq_ok_iff

end Index

/-! ### Search indexes -/

namespace SearchIndex

/-- A search index requires the field that holds the text. -/
def parts (index : SearchIndex) : IndexParts :=
  ⟨index.name, [("searchField", .string index.searchField)], "filterFields", index.filterFields⟩

theorem nodup_keys (index : SearchIndex) : index.parts.keys.Nodup := by
  show ["name", "indexDescriptor", "searchField", "filterFields"].Nodup
  decide

theorem searchFieldKey_inverts : searchFieldKey.Inverts .string := fun _ _ =>
  Decode.string_eq_ok_iff

theorem ofMembers_eq_ok_iff {given : Members} {index : SearchIndex} :
    ofMembers given = .ok index ↔ index.parts.GivenIn given := by
  have hcheck : checkMembers [indexNameKey.rule, searchFieldKey.rule, filterFieldsKey.rule] []
      given = .ok () ↔ Passes indexNameKey.rule given ∧ Passes searchFieldKey.rule given ∧
        Passes filterFieldsKey.rule given := by
    rw [Decode.checkMembers_eq_ok_iff_passes (by decide)]
    simp
  constructor
  · intro h
    obtain ⟨_, h, hread⟩ := exists_of_bind_eq_ok h
    obtain ⟨hpassName, hpassField, hpassList⟩ := hcheck.1 h
    obtain ⟨name, hname, hread⟩ := exists_of_bind_eq_ok hread
    obtain ⟨searchField, hfield, hread⟩ := exists_of_bind_eq_ok hread
    obtain ⟨filterFields, hlist, hread⟩ := exists_of_bind_eq_ok hread
    obtain rfl := Except.ok.inj hread
    have hfield := (searchFieldKey_inverts.passes_and_required_iff rfl).1 ⟨hpassField, hfield⟩
    exact ⟨passes_and_name_iff.1 ⟨hpassName, hname⟩, List.forall_mem_singleton.2 hfield,
      (passes_and_list_iff filterFieldsKey_inverts rfl).1 ⟨hpassList, hlist⟩⟩
  · rintro ⟨hname, hrequired, hlist⟩
    obtain ⟨hpassName, hname⟩ := passes_and_name_iff.2 hname
    have hfield := List.forall_mem_singleton.1 hrequired
    obtain ⟨hpassField, hfield⟩ := (searchFieldKey_inverts.passes_and_required_iff rfl).2 hfield
    obtain ⟨hpassList, hlist⟩ := (passes_and_list_iff filterFieldsKey_inverts rfl).2 hlist
    rw [ofMembers, hcheck.2 ⟨hpassName, hpassField, hpassList⟩, hname, hfield, hlist]
    rfl

theorem ofItems_eq_ok_iff {given : List Json} {index : SearchIndex} : ofItems given = .ok index ↔
    ∃ list?, Writes index.filterFields list? ∧ given = index.parts.items list? := by
  constructor
  · intro h
    obtain ⟨name, hname, h⟩ := exists_of_bind_eq_ok h
    obtain ⟨searchField, hfield, h⟩ := exists_of_bind_eq_ok h
    obtain ⟨filterFields, hlist, h⟩ := exists_of_bind_eq_ok h
    obtain ⟨_, hlength, h⟩ := exists_of_bind_eq_ok h
    obtain rfl := Except.ok.inj h
    obtain ⟨rest, rfl⟩ := exists_cons_of_getElem? (indexNameKey_inverts.element_eq_ok_iff.1 hname)
    have hsecond := searchFieldKey_inverts.element_eq_ok_iff.1 hfield
    rw [List.getElem?_cons_succ] at hsecond
    obtain ⟨rest, rfl⟩ := exists_cons_of_getElem? hsecond
    obtain ⟨list?, hlist, hitem⟩ := (elementOr_nil_eq_ok_iff filterFieldsKey_inverts).1 hlist
    have hlength := Decode.checkLength_eq_ok_iff.1 hlength
    simp only [List.length_cons, RecordKind.size] at hlength
    have hlast := eq_toList_of_getElem? hitem (by omega)
    exact ⟨list?, hlist, congrArg (_ :: _ :: ·) hlast⟩
  · rintro ⟨list?, hlist, rfl⟩
    have hlist : filterFieldsKey.elementOr [] 2 (index.parts.items list?) = .ok index.filterFields :=
      (elementOr_nil_eq_ok_iff filterFieldsKey_inverts).2 ⟨list?, hlist, IndexParts.getElem?_items⟩
    rw [ofItems, indexNameKey_inverts.element_eq_ok_iff.2 rfl,
      searchFieldKey_inverts.element_eq_ok_iff.2 rfl, hlist,
      Decode.checkLength_eq_ok_iff.2 IndexParts.length_items_le]
    rfl

theorem ofJson_eq_ok_iff {value : Json} {index : SearchIndex} :
    ofJson value = .ok index ↔ index.parts.Spells value :=
  IndexParts.record_eq_ok_iff (nodup_keys index) (fun _ => ofMembers_eq_ok_iff)
    fun _ => ofItems_eq_ok_iff

end SearchIndex

/-! ### Vector indexes -/

namespace VectorIndex

/-- A vector index requires the field that holds the vector and how long the vector is. -/
def parts (index : VectorIndex) : IndexParts :=
  ⟨index.name,
    [("vectorField", .string index.vectorField), ("dimensions", .ofNat index.dimensions.toNat)],
    "filterFields", index.filterFields⟩

theorem nodup_keys (index : VectorIndex) : index.parts.keys.Nodup := by
  show ["name", "indexDescriptor", "vectorField", "dimensions", "filterFields"].Nodup
  decide

theorem vectorFieldKey_inverts : vectorFieldKey.Inverts .string := fun _ _ =>
  Decode.string_eq_ok_iff

theorem dimensionsKey_inverts : dimensionsKey.Inverts fun n => .ofNat n.toNat := fun _ _ =>
  Decode.smallCount_eq_ok_iff

theorem ofMembers_eq_ok_iff {given : Members} {index : VectorIndex} :
    ofMembers given = .ok index ↔ index.parts.GivenIn given := by
  have hcheck : checkMembers [indexNameKey.rule, vectorFieldKey.rule, dimensionsKey.rule,
      filterFieldsKey.rule] [] given = .ok () ↔ Passes indexNameKey.rule given ∧
        Passes vectorFieldKey.rule given ∧ Passes dimensionsKey.rule given ∧
          Passes filterFieldsKey.rule given := by
    rw [Decode.checkMembers_eq_ok_iff_passes (by decide)]
    simp
  constructor
  · intro h
    obtain ⟨_, h, hread⟩ := exists_of_bind_eq_ok h
    obtain ⟨hpassName, hpassField, hpassDimensions, hpassList⟩ := hcheck.1 h
    obtain ⟨name, hname, hread⟩ := exists_of_bind_eq_ok hread
    obtain ⟨vectorField, hfield, hread⟩ := exists_of_bind_eq_ok hread
    obtain ⟨dimensions, hdimensions, hread⟩ := exists_of_bind_eq_ok hread
    obtain ⟨filterFields, hlist, hread⟩ := exists_of_bind_eq_ok hread
    obtain rfl := Except.ok.inj hread
    have hfield := (vectorFieldKey_inverts.passes_and_required_iff rfl).1 ⟨hpassField, hfield⟩
    have hdimensions := (dimensionsKey_inverts.passes_and_required_iff rfl).1
      ⟨hpassDimensions, hdimensions⟩
    exact ⟨passes_and_name_iff.1 ⟨hpassName, hname⟩,
      List.forall_mem_cons.2 ⟨hfield, List.forall_mem_singleton.2 hdimensions⟩,
      (passes_and_list_iff filterFieldsKey_inverts rfl).1 ⟨hpassList, hlist⟩⟩
  · rintro ⟨hname, hrequired, hlist⟩
    obtain ⟨hfield, hrest⟩ := List.forall_mem_cons.1 hrequired
    have hdimensions := List.forall_mem_singleton.1 hrest
    obtain ⟨hpassName, hname⟩ := passes_and_name_iff.2 hname
    obtain ⟨hpassField, hfield⟩ := (vectorFieldKey_inverts.passes_and_required_iff rfl).2 hfield
    obtain ⟨hpassDimensions, hdimensions⟩ := (dimensionsKey_inverts.passes_and_required_iff rfl).2
      hdimensions
    obtain ⟨hpassList, hlist⟩ := (passes_and_list_iff filterFieldsKey_inverts rfl).2 hlist
    rw [ofMembers, hcheck.2 ⟨hpassName, hpassField, hpassDimensions, hpassList⟩, hname, hfield,
      hdimensions, hlist]
    rfl

theorem ofItems_eq_ok_iff {given : List Json} {index : VectorIndex} : ofItems given = .ok index ↔
    ∃ list?, Writes index.filterFields list? ∧ given = index.parts.items list? := by
  constructor
  · intro h
    obtain ⟨name, hname, h⟩ := exists_of_bind_eq_ok h
    obtain ⟨vectorField, hfield, h⟩ := exists_of_bind_eq_ok h
    obtain ⟨dimensions, hdimensions, h⟩ := exists_of_bind_eq_ok h
    obtain ⟨filterFields, hlist, h⟩ := exists_of_bind_eq_ok h
    obtain ⟨_, hlength, h⟩ := exists_of_bind_eq_ok h
    obtain rfl := Except.ok.inj h
    obtain ⟨rest, rfl⟩ := exists_cons_of_getElem? (indexNameKey_inverts.element_eq_ok_iff.1 hname)
    have hsecond := vectorFieldKey_inverts.element_eq_ok_iff.1 hfield
    rw [List.getElem?_cons_succ] at hsecond
    obtain ⟨rest, rfl⟩ := exists_cons_of_getElem? hsecond
    have hthird := dimensionsKey_inverts.element_eq_ok_iff.1 hdimensions
    rw [List.getElem?_cons_succ, List.getElem?_cons_succ] at hthird
    obtain ⟨rest, rfl⟩ := exists_cons_of_getElem? hthird
    obtain ⟨list?, hlist, hitem⟩ := (elementOr_nil_eq_ok_iff filterFieldsKey_inverts).1 hlist
    have hlength := Decode.checkLength_eq_ok_iff.1 hlength
    simp only [List.length_cons, RecordKind.size] at hlength
    have hlast := eq_toList_of_getElem? hitem (by omega)
    exact ⟨list?, hlist, congrArg (_ :: _ :: _ :: ·) hlast⟩
  · rintro ⟨list?, hlist, rfl⟩
    have hlist : filterFieldsKey.elementOr [] 3 (index.parts.items list?) = .ok index.filterFields :=
      (elementOr_nil_eq_ok_iff filterFieldsKey_inverts).2 ⟨list?, hlist, IndexParts.getElem?_items⟩
    rw [ofItems, indexNameKey_inverts.element_eq_ok_iff.2 rfl,
      vectorFieldKey_inverts.element_eq_ok_iff.2 rfl, dimensionsKey_inverts.element_eq_ok_iff.2 rfl,
      hlist, Decode.checkLength_eq_ok_iff.2 IndexParts.length_items_le]
    rfl

theorem ofJson_eq_ok_iff {value : Json} {index : VectorIndex} :
    ofJson value = .ok index ↔ index.parts.Spells value :=
  IndexParts.record_eq_ok_iff (nodup_keys index) (fun _ => ofMembers_eq_ok_iff)
    fun _ => ofItems_eq_ok_iff

end VectorIndex

/-! ### The three kinds of index -/

/-- What can be said of a kind of index and of every value: the spellings of an index are what
decodes to it, and some values are always errors. -/
structure ReadsSpellings (ι : Type) [IndexEntry ι] (kind : RecordKind) (parts : ι → IndexParts) :
    Prop where
  /-- The spellings of an index, and only they, decode to it. -/
  decodes : ∀ (value : Json) (index : ι),
    IndexEntry.ofJson value = .ok index ↔ (parts index).Spells value
  /-- An object does not give the name twice. -/
  name_once : ∀ given : Members, "name" ∈ given.map (·.1) → "indexDescriptor" ∈ given.map (·.1) →
    ∃ error, (IndexEntry.ofJson (.object given) : Except DecodeError ι) = .error error
  /-- An array lacks nothing but the list at the end. -/
  not_short : ∀ given : List Json, given.length + 1 < kind.size →
    ∃ error, (IndexEntry.ofJson (.array given) : Except DecodeError ι) = .error error
  /-- An array has no more elements than the index has fields. -/
  not_long : ∀ given : List Json, kind.size < given.length →
    ∃ error, (IndexEntry.ofJson (.array given) : Except DecodeError ι) = .error error

section

variable {parts : IndexParts} {given : Members} {items : List Json}

theorem IndexParts.not_spells_of_names (hkeys : parts.keys.Nodup)
    (hname : "name" ∈ given.map (·.1)) (hother : "indexDescriptor" ∈ given.map (·.1)) :
    ¬ parts.Spells (.object given) := by
  intro h
  obtain ⟨nameKey, hunder⟩ := ((spells_object_iff hkeys).1 h).name
  -- Every name of the index that is given is the one that is found.
  have hone : ∀ key ∈ nameKeys, key ∈ given.map (·.1) → key = nameKey := by
    intro key hkey hmem
    obtain ⟨member, hmember, rfl⟩ := List.mem_map.1 hmem
    have hfound : member ∈ given.under nameKeys := Members.mem_under.2 ⟨hmember, hkey⟩
    rw [hunder, List.mem_singleton] at hfound
    rw [hfound]
  have heq := (hone "name" (by decide) hname).trans (hone _ (by decide) hother).symm
  exact absurd heq (by decide)

theorem IndexParts.length_of_spells (h : parts.Spells (.array items)) :
    parts.required.length + 1 ≤ items.length ∧ items.length ≤ parts.required.length + 2 := by
  obtain _ | hlist := h
  exact ⟨by rw [length_items]; omega, length_items_le⟩

end

theorem exists_error_of_forall_ne {ι : Type} {result : Except DecodeError ι}
    (h : ∀ index, result ≠ .ok index) : ∃ error, result = .error error := by
  cases result with
  | error error => exact ⟨error, rfl⟩
  | ok index => exact absurd rfl (h index)

theorem ReadsSpellings.of_decodes {ι : Type} [IndexEntry ι] {kind : RecordKind}
    {parts : ι → IndexParts} (hkeys : ∀ index, (parts index).keys.Nodup)
    (hsize : ∀ index, (parts index).required.length + 2 = kind.size)
    (h : ∀ (value : Json) (index : ι),
      IndexEntry.ofJson value = .ok index ↔ (parts index).Spells value) :
    ReadsSpellings ι kind parts := by
  refine ⟨h, ?_, ?_, ?_⟩
  · intro given hname hother
    refine exists_error_of_forall_ne fun index hok => ?_
    exact IndexParts.not_spells_of_names (hkeys index) hname hother ((h _ index).1 hok)
  · intro given hlength
    refine exists_error_of_forall_ne fun index hok => ?_
    have hbounds := IndexParts.length_of_spells ((h _ index).1 hok)
    have := hsize index
    omega
  · intro given hlength
    refine exists_error_of_forall_ne fun index hok => ?_
    have hbounds := IndexParts.length_of_spells ((h _ index).1 hok)
    have := hsize index
    omega

/-- **Every spelling of an index decodes to the index**, for each kind of index, and nothing else
does. -/
theorem index_spellings :
    ReadsSpellings Index .index Index.parts ∧
      ReadsSpellings SearchIndex .searchIndex SearchIndex.parts ∧
        ReadsSpellings VectorIndex .vectorIndex VectorIndex.parts :=
  ⟨.of_decodes Index.nodup_keys (fun _ => rfl) fun _ _ => Index.ofJson_eq_ok_iff,
    .of_decodes SearchIndex.nodup_keys (fun _ => rfl) fun _ _ => SearchIndex.ofJson_eq_ok_iff,
    .of_decodes VectorIndex.nodup_keys (fun _ => rfl) fun _ _ => VectorIndex.ofJson_eq_ok_iff⟩

/-- The members of a vector index in another order, with its name under the other name, with a comment
among them and without the list at the end. -/
def byEmbedding : Members :=
  [("dimensions", .ofNat 3), ("comment", .null), ("vectorField", .string "embedding"),
    ("indexDescriptor", .string "by_embedding")]

/-- One of the spellings of an index, and values that are none. -/
theorem index_spellings_byEmbedding :
    IndexEntry.ofJson (.object byEmbedding) =
        .ok (VectorIndex.mk "by_embedding" "embedding" 3 []) ∧
      (∃ error, (IndexEntry.ofJson (.object (("name", .null) :: byEmbedding)) :
        Except DecodeError VectorIndex) = .error error) ∧
      (∃ error, (IndexEntry.ofJson (.array [.string "by_embedding", .string "embedding"]) :
        Except DecodeError VectorIndex) = .error error) ∧
      ∃ error, (IndexEntry.ofJson (.array [.string "by_text", .string "text", .array [], .null]) :
        Except DecodeError SearchIndex) = .error error := by
  have hspells : (VectorIndex.mk "by_embedding" "embedding" 3 []).parts.Spells
      (.object byEmbedding) :=
    .object (List.mem_cons_of_mem _ (List.mem_singleton_self _)) (.omitted rfl)
      (List.reverse_perm [_, _, _])
  exact ⟨(index_spellings.2.2.decodes _ _).2 hspells,
    index_spellings.2.2.name_once _ (by decide) (by decide),
    index_spellings.2.2.not_short _ (by decide), index_spellings.2.1.not_long _ (by decide)⟩

end DocShape
