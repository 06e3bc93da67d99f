import DocShape.Proofs.Description.Reading
import DocShape.Proofs.Json.Parts
import DocShape.Proofs.Shape.FieldSet

/-!
# The field names of loaded objects

A description gives the fields of an object in a map or in a list.  The members of a
map have distinct names.  The entries of a list need not: each entry with a name gives
a field, and a name that comes twice is the name of two fields.

* `NamesFieldsOnce`: no list of fields that loading reads repeats a name.
* `Reads.parts_subset`: what is loaded of a node is part of what is loaded of the nodes
  around it.
* `Shape.distinctNames_ofJson_iff`: **a loaded shape has distinct field names exactly
  when no list repeats one**.
* `Shape.exists_repeatedField`: a list that does.
-/

namespace DocShape

open Shape (Frame)

/-! ### Lists of fields -/

/-- The names in a list of fields; an entry without a name has none. -/
def listedNames (entries : List Json) : List String :=
  entries.filterMap fun entry => (Form.listEntry entry).1

/-- Whether no list of fields repeats a name, in any object that loading reads. -/
def NamesFieldsOnce (settings : Settings) (room markers : Nat) (node : Json) : Prop :=
  ∀ (path : List Step) (members : Members) (name : String) (entries : List Json),
    Reads settings room markers node path (.object members) → kind? members = some "object" →
    members.given? ["value", "fields"] = some (name, .array entries) →
    (listedNames entries).Nodup

namespace Form

/-- Every entry with a name gives a field of that name. -/
theorem names_load (child : String → Json → Noted Omittable) (place : String)
    (entries : List (Option String × Json)) :
    ((object entries).load child place).value.fields.map (·.name) = entries.filterMap (·.1) := by
  rw [value_load_object, Shape.fields]
  induction entries with
  | nil => rfl
  | cons entry rest ih =>
    obtain ⟨name?, node⟩ := entry
    cases name? with
    | none => exact ih
    | some name => exact congrArg (name :: ·) ih

theorem exists_fields_of_ofTag {tag : String} {members : Members}
    {entries : List (Option String × Json)} (h : ofTag tag members = .ok (.object entries)) :
    tag = "object" ∧ ∃ name fields, members.given? ["value", "fields"] = some (name, fields) ∧
      entries? fields = some entries := by
  unfold ofTag at h
  split at h
  -- the object
  case h_16 =>
    obtain ⟨found, hfound, h⟩ := exists_of_bind_eq_ok h
    cases h
    obtain ⟨fields, hfields, hentries⟩ := Option.bind_eq_some_iff.1 (part_eq_ok hfound)
    obtain ⟨name, hgiven⟩ := Members.exists_given?_of_firstGiven? hfields
    exact ⟨rfl, name, fields, hgiven, hentries⟩
  -- the other forms with parts, and the leaves with data
  case h_13 | h_14 | h_15 =>
    obtain ⟨_, _, h⟩ := exists_of_bind_eq_ok h
    cases h
  case h_17 =>
    obtain ⟨_, _, h⟩ := exists_of_bind_eq_ok h
    obtain ⟨_, _, h⟩ := exists_of_bind_eq_ok h
    cases h
  case h_18 => split at h <;> cases h
  all_goals cases h

/-- An object is described by a node of that kind, with fields in a map or in a list. -/
theorem exists_fields_of_ofJson {node : Json} {entries : List (Option String × Json)}
    (h : ofJson node = .ok (.object entries)) :
    ∃ (members : Members) (name : String) (fields : Json), node = .object members ∧
      kind? members = some "object" ∧
      members.given? ["value", "fields"] = some (name, fields) ∧
      entries? fields = some entries := by
  obtain ⟨members, hmembers, hrest⟩ := exists_of_bind_eq_ok h
  obtain ⟨tag, htag, hform⟩ := exists_of_bind_eq_ok hrest
  obtain ⟨hkind, name, fields, hgiven, hentries⟩ := exists_fields_of_ofTag hform
  have hnode := part_eq_ok hmembers
  cases node with
  | object found =>
    obtain rfl : found = members := Option.some.inj hnode
    refine ⟨found, name, fields, rfl, ?_, hgiven, hentries⟩
    rw [kind?, part_eq_ok htag, Option.map_some, hkind]
  | _ => cases hnode

end Form

/-! ### What is loaded on the way -/

theorem Shape.Frame.parts_subset (frame : Frame) (inside : Omittable) :
    inside.shape.parts ⊆ (frame.fill inside).parts := by
  intro part hpart
  cases frame with
  | element => exact List.mem_cons_of_mem _ hpart
  | field before name after =>
    rw [Frame.fill, Shape.parts, Shape.partsOfFields_eq]
    have hfield : ⟨name, inside.optional, inside.shape⟩ ∈
        before ++ ⟨name, inside.optional, inside.shape⟩ :: after := by simp
    exact List.mem_cons_of_mem _ (List.mem_flatMap.2 ⟨_, hfield, hpart⟩)
  | key values => exact List.mem_cons_of_mem _ (List.mem_append_left _ hpart)
  | value keys => exact List.mem_cons_of_mem _ (List.mem_append_right _ hpart)
  | variant before after =>
    rw [Frame.fill, Shape.parts, Shape.partsOfAll_eq]
    exact List.mem_cons_of_mem _ (List.mem_flatMap.2 ⟨inside.shape, by simp, hpart⟩)

section

variable {settings : Settings} {room markers : Nat} {root node : Json} {path : List Step}

/-- **What is loaded of a node is part of what is loaded of the nodes around it.** -/
theorem Reads.parts_subset (h : Reads settings room markers root path node) (place : String) :
    ∃ room' markers' place',
      (Omittable.found settings (room' + 1) (markers' + 1) place' node).shape.parts ⊆
        (Omittable.found settings room markers place root).shape.parts := by
  induction h generalizing place with
  | @here room markers node _ => exact ⟨room, markers, place, List.Subset.refl _⟩
  | wrapper htag hgiven hinner ih =>
    obtain ⟨room', markers', place', hsubset⟩ := ih place
    refine ⟨room', markers', place', ?_⟩
    rw [Omittable.found_of_wrapper (layer_of_wrapper htag hgiven hinner.ne_null)]
    exact hsubset
  | optional hkind hgiven hinner ih =>
    obtain ⟨room', markers', place', hsubset⟩ := ih place
    refine ⟨room', markers', place', ?_⟩
    rw [Omittable.found_of_optional (layer_of_optional hkind hgiven hinner.ne_null)]
    exact hsubset
  | @part room markers root child node steps path form hpart hchild ih =>
    obtain ⟨room', markers', place', hsubset⟩ := ih (form.childPlace place)
    refine ⟨room', markers', place', List.Subset.trans hsubset ?_⟩
    rw [Omittable.found_of_partAt hpart hchild.ne_null]
    exact Frame.parts_subset _ _

/-- A list of fields that is read gives an object with the names in the list. -/
theorem Omittable.fields_found_of_list {members : Members} {name : String} {entries : List Json}
    (hkind : kind? members = some "object")
    (hgiven : members.given? ["value", "fields"] = some (name, .array entries)) (place : String) :
    (found settings (room + 1) (markers + 1) place (.object members)).shape.fields.map (·.name) =
      listedNames entries := by
  obtain ⟨hlayer, hsame⟩ := ofJson_of_kind hkind (by decide)
  have hfields := Members.firstGiven?_of_given? hgiven Json.noConfusion
  have hform := hsame.trans (Form.ofTag_object hfields rfl)
  rw [shape_found_of_form hlayer hform, Form.names_load, List.filterMap_map]
  rfl

/-- **A repeated name in a list is a repeated name in the loaded shape.** -/
theorem NamesFieldsOnce.of_distinctNames {place : String}
    (h : (Omittable.found settings room markers place node).shape.DistinctNames) :
    NamesFieldsOnce settings room markers node := by
  intro path members name entries hreads hkind hgiven
  obtain ⟨room', markers', place', hsubset⟩ := hreads.parts_subset place
  have hobject := h _ (hsubset (Shape.self_mem_parts _))
  rw [Omittable.fields_found_of_list hkind hgiven] at hobject
  exact hobject

/-! ### Distinct names below -/

theorem PartAt.parts_subset {child : Json} {steps : List Step} {form : OpenForm}
    (h : PartAt root steps form child) : child.parts ⊆ root.parts := by
  cases h with
  | element _ hgiven => exact Json.parts_subset_of_lookup (Members.mem_of_given? hgiven).2
  | key _ hgiven _ => exact Json.parts_subset_of_lookup (Members.mem_of_given? hgiven).2
  | value _ hgiven _ => exact Json.parts_subset_of_lookup (Members.mem_of_given? hgiven).2
  | variant _ hgiven =>
    have hlist := Json.parts_subset_of_lookup (Members.mem_of_given? hgiven).2
    exact List.Subset.trans (Json.parts_subset_of_mem_items List.mem_append_cons_self) hlist
  | mapEntry _ hgiven hfirst =>
    have hmap := Json.parts_subset_of_lookup (Members.mem_of_given? hgiven).2
    exact List.Subset.trans
      (Json.parts_subset_of_lookup (Members.lookup_append_cons hfirst)) hmap
  | listEntry _ hgiven _ =>
    have hlist := Json.parts_subset_of_lookup (Members.mem_of_given? hgiven).2
    exact List.Subset.trans (Json.parts_subset_of_mem_items List.mem_append_cons_self) hlist

theorem NamesFieldsOnce.part {child : Json} {steps : List Step} {form : OpenForm}
    (h : NamesFieldsOnce settings (room + 1) (markers + 1) root)
    (hpart : PartAt root steps form child) :
    NamesFieldsOnce settings room (settings.maxOptionalDepth + 1) child :=
  fun _ members name entries hreads => h _ members name entries (.part hpart hreads)

/-- The entries of an object have distinct names: in a map they are members, and in a list no name
is repeated. -/
theorem NamesFieldsOnce.nodup_entries {entries : List (Option String × Json)}
    (h : NamesFieldsOnce settings (room + 1) (markers + 1) node) (hnode : node.DistinctNames)
    (hform : Form.ofJson node = .ok (.object entries)) : (entries.filterMap (·.1)).Nodup := by
  obtain ⟨members, name, fields, rfl, hkind, hgiven, hentries⟩ :=
    Form.exists_fields_of_ofJson hform
  cases fields with
  | object found =>
    obtain rfl := Option.some.inj hentries
    have hnames := (hnode.lookup (Members.mem_of_given? hgiven).2).nodup
    rw [List.filterMap_map]
    exact (List.filterMap_eq_map (f := fun member : String × Json => member.1)) ▸ hnames
  | array items =>
    obtain rfl := Option.some.inj hentries
    rw [List.filterMap_map]
    exact h [] members name items (.here Json.noConfusion) hkind hgiven
  | _ => cases hentries

/-- A form has distinct names if its parts do. -/
theorem Form.distinctNames_load {form : Form} (hform : Form.ofJson node = .ok form)
    (hnode : node.DistinctNames) (honce : NamesFieldsOnce settings (room + 1) (markers + 1) node)
    (hload : ∀ place child, child.DistinctNames →
      NamesFieldsOnce settings room (settings.maxOptionalDepth + 1) child →
      (Omittable.load settings room place child).value.shape.DistinctNames) (place : String) :
    (form.load (Omittable.load settings room) place).value.DistinctNames := by
  have hobjects : ∀ name entries, node.get? name = some (.object entries) →
      (entries.map (·.1)).Nodup := by
    intro name entries hget
    cases node with
    | object members => exact (hnode.lookup hget).nodup
    | _ => cases hget
  have hpart : ∀ (inside : OpenForm) (child : Json) (place : String), form = inside.fill child →
      (Omittable.load settings room place child).value.shape.DistinctNames := by
    intro inside child place he
    obtain ⟨steps, hpart⟩ := PartAt.exists_of_ofJson hobjects (he ▸ hform)
    exact hload place child (hnode.of_subset hpart.parts_subset) (honce.part hpart)
  cases form with
  | leaf shape => exact Shape.distinctNames_leaf (proper_of_ofJson hform)
  | array element =>
    rw [value_load_array, Shape.distinctNames_array]
    exact hpart .element element _ rfl
  | object entries =>
    have hnames := honce.nodup_entries hnode hform
    rw [← names_load (Omittable.load settings room) place] at hnames
    refine Shape.distinctNames_object.2 ⟨hnames, fun field hfield => ?_⟩
    obtain ⟨name, entry, hentry, rfl⟩ := mem_fields_load hfield
    obtain ⟨before, after, rfl⟩ := List.append_of_mem hentry
    exact hpart (.entry before name after) entry _ rfl
  | record keys values =>
    rw [value_load_record, Shape.distinctNames_record]
    exact ⟨hpart (.key values) keys _ rfl, hpart (.value keys) values _ rfl⟩
  | union variants =>
    rw [value_load_union, Shape.distinctNames_union]
    intro shape hshape
    obtain ⟨variant, hvariant, rfl⟩ := List.mem_map.1 hshape
    obtain ⟨before, after, rfl⟩ := List.append_of_mem hvariant
    exact hpart (.variant before after) variant _ rfl

/-- **What is loaded has distinct names**, if no list of fields on the way repeats one. -/
theorem Omittable.distinctNames_found (room markers : Nat) : ∀ (place : String) (node : Json),
    node.DistinctNames → NamesFieldsOnce settings room markers node →
      (found settings room markers place node).shape.DistinctNames := by
  induction room generalizing markers with
  | zero => intro place node _ _; exact Shape.distinctNames_leaf rfl
  | succ room ihroom =>
    have hload : ∀ place child, child.DistinctNames →
        NamesFieldsOnce settings room (settings.maxOptionalDepth + 1) child →
        (load settings room place child).value.shape.DistinctNames := by
      intro place child hchild honce
      rw [value_load_eq_found]
      exact ihroom _ place child hchild honce
    induction markers with
    | zero => intro place node _ _; exact Shape.distinctNames_leaf rfl
    | succ markers ih =>
      intro place node hnode honce
      cases hlayer : Layer.ofJson node with
      | core =>
        cases hform : Form.ofJson node with
        | error fault =>
          rw [shape_found_of_fault hlayer hform]
          exact Shape.distinctNames_leaf rfl
        | ok form =>
          rw [shape_found_of_form hlayer hform]
          exact Form.distinctNames_load hform hnode honce hload place
      | wrapper inner =>
        obtain ⟨members, name, rfl, htag, hgiven⟩ := Layer.exists_of_wrapper hlayer
        rw [found_of_wrapper hlayer]
        refine ih place inner (hnode.lookup (Members.mem_of_given? hgiven).2) ?_
        exact fun _ members name entries hreads =>
          honce _ members name entries (.wrapper htag hgiven hreads)
      | optional inner? =>
        cases inner? with
        | none =>
          rw [shape_found_of_optional_none hlayer]
          exact Shape.distinctNames_leaf rfl
        | some inner =>
          obtain ⟨members, name, rfl, hkind, hgiven⟩ := Layer.exists_of_optional hlayer
          rw [found_of_optional hlayer]
          refine ih place inner (hnode.lookup (Members.mem_of_given? hgiven).2) ?_
          exact fun _ members name entries hreads =>
            honce _ members name entries (.optional hkind hgiven hreads)

end

/-! ### Loaded shapes -/

/-- **A loaded shape has distinct field names exactly when no list of fields repeats one**, in any
object that loading reads.  Then the operations on shapes treat each of its objects as a set of
fields. -/
theorem Shape.distinctNames_ofJson_iff {settings : Settings} {node : Json}
    (hnode : node.DistinctNames) :
    ((Shape.ofJson settings node).value.DistinctNames ↔
      NamesFieldsOnce settings (settings.maxNestingDepth + 1) (settings.maxOptionalDepth + 1)
        node) ∧
    ((Shape.ofJson settings node).value.DistinctNames → ∀ fields,
      .object fields ∈ (Shape.ofJson settings node).value.parts → IsFieldSet fields) := by
  have hfound : (Shape.ofJson settings node).value = (Omittable.found settings
      (settings.maxNestingDepth + 1) (settings.maxOptionalDepth + 1) "" node).shape := by
    rw [Shape.ofJson, Omittable.value_required, Omittable.value_load_eq_found]
  refine ⟨?_, ?_⟩
  · rw [hfound]
    exact ⟨.of_distinctNames, Omittable.distinctNames_found _ _ "" node hnode⟩
  · intro hdistinct fields hfields
    exact isFieldSet_of_nodup (hdistinct _ hfields)

/-- The description of an object with a map of fields, one of them an object with a list of fields
and an entry without a name. -/
def mapOfLists : Json :=
  .object [("type", .string "object"), ("value", .object [("inner", .object [("fieldType",
    .object [("type", .string "object"), ("fields", .array
      [.object [("fieldName", .string "a"), ("shape", .object [("type", .string "string")])],
        .object [("shape", .object [("type", .string "string")])]])])])])]

theorem Shape.distinctNames_ofJson_iff_mapOfLists :
    mapOfLists.DistinctNames ∧ (Shape.ofJson {} mapOfLists).value.DistinctNames ∧
      NamesFieldsOnce {} 65 9 mapOfLists := by
  have hnode : mapOfLists.DistinctNames := by
    simp [Json.DistinctNames, mapOfLists, Json.parts, Json.partsOfMembers, Json.partsOfItems]
  have hloaded : (Shape.ofJson {} mapOfLists).value.DistinctNames := by
    change Shape.DistinctNames (.object [⟨"inner", false, .object [⟨"a", false, .string⟩]⟩])
    simp [Shape.DistinctNames, Shape.parts, Shape.partsOfFields, Shape.fields]
  exact ⟨hnode, hloaded, (Shape.distinctNames_ofJson_iff hnode).1.1 hloaded⟩

/-- **A list of fields that repeats a name.**  Both entries give a field, and the loaded object
declares the name twice. -/
theorem Shape.exists_repeatedField :
    ∃ node : Json, node.DistinctNames ∧ ¬ (Shape.ofJson {} node).value.DistinctNames := by
  refine ⟨.object [("type", .string "object"), ("fields", .array
    [.object [("fieldName", .string "a"), ("shape", .object [("type", .string "string")])],
      .object [("fieldName", .string "a"), ("shape", .object [("type", .string "string")])]])],
    ?_, ?_⟩
  · simp [Json.DistinctNames, Json.parts, Json.partsOfMembers, Json.partsOfItems]
  · change ¬ Shape.DistinctNames (.object [⟨"a", false, .string⟩, ⟨"a", false, .string⟩])
    simp [Shape.DistinctNames, Shape.parts, Shape.partsOfFields, Shape.fields]

end DocShape
