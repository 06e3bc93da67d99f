import DocShape.Proofs.Json.Members
import DocShape.Proofs.Shape.Unambiguous
import Mathlib.Data.List.Nodup

/-!
# Objects as sets of fields

An object shape lists its fields in order, and nothing in a list keeps two fields from
having one name.  Where no two have, each name is declared once, and none of the
operations on shapes takes one field for another.

* `Shape.distinctNames_object` and its companions: distinct names in a shape are
  distinct names in what stands directly inside.
* `Shape.IsFieldSet`: what the operations make of an object that has distinct names.
* `Shape.isFieldSet_of_nodup`: **they treat it as a set of fields**.
-/

namespace DocShape.Shape

/-! ### Distinct names in a tree -/

theorem distinctNames_leaf {leaf : Shape} (h : leaf.isLeaf = true) : leaf.DistinctNames := by
  intro part hpart
  rw [parts_leaf h, List.mem_singleton] at hpart
  subst hpart
  cases part <;> simp_all [isLeaf, fields]

theorem distinctNames_array {element : Shape} :
    (array element).DistinctNames ↔ element.DistinctNames := by
  rw [DistinctNames, forall_parts_array]
  exact and_iff_right List.nodup_nil

theorem distinctNames_object {fields : List (Field Shape)} :
    (object fields).DistinctNames ↔
      (fields.map (·.name)).Nodup ∧ ∀ field ∈ fields, field.shape.DistinctNames := by
  rw [DistinctNames, forall_parts_object]
  rfl

theorem distinctNames_record {keys values : Shape} {optional : Bool} :
    (record keys values optional).DistinctNames ↔ keys.DistinctNames ∧ values.DistinctNames := by
  rw [DistinctNames, forall_parts_record]
  exact and_iff_right List.nodup_nil

theorem distinctNames_union {variants : List Shape} :
    (union variants).DistinctNames ↔ ∀ variant ∈ variants, variant.DistinctNames := by
  rw [DistinctNames, forall_parts_union]
  exact and_iff_right List.nodup_nil

/-! ### Sets of fields -/

theorem fieldKey_injective : Function.Injective fieldKey := by
  intro name other h
  have hchars : (fieldKey name).toList ++ [':'] = (fieldKey other).toList ++ [':'] := by rw [h]
  exact (fieldKey_append_eq hchars).1

/-- What the operations on shapes make of the fields of an object if they take none of them for
another one. -/
structure IsFieldSet (fields : List (Field Shape)) : Prop where
  /-- No key is printed twice. -/
  keys : ((userFields fields).map fun field => fieldKey field.name).Nodup
  /-- No default overwrites another one, in the value of the object. -/
  ofList_requiredDefaults : Members.ofList (requiredDefaults fields) = requiredDefaults fields
  /-- No default overwrites another one, in the document of the object. -/
  documentOf_eq : documentOf fields =
    (userFields fields).map fun field => (field.name, field.shape.default)
  /-- No member of a value is held against two fields. -/
  eq_of_name_eq : ∀ field ∈ fields, ∀ other ∈ fields, field.name = other.name → field = other

/-- **Fields with distinct names are treated as a set of fields.** -/
theorem isFieldSet_of_nodup {fields : List (Field Shape)} (h : (fields.map (·.name)).Nodup) :
    IsFieldSet fields := by
  have huser : ((userFields fields).map (·.name)).Nodup := h.sublist (List.filter_sublist.map _)
  refine ⟨?_, ?_, ?_, ?_⟩
  · have hkeys : (((userFields fields).map (·.name)).map fieldKey).Nodup :=
      huser.map fieldKey_injective
    rw [List.map_map] at hkeys
    exact hkeys
  · refine Members.ofList_of_nodup ?_
    rw [requiredDefaults_eq, List.map_map]
    exact h.sublist (List.filter_sublist.map _)
  · refine Members.ofList_of_nodup ?_
    rw [List.map_map]
    exact huser
  · exact fun field hfield other hother => List.inj_on_of_nodup_map h hfield hother

end DocShape.Shape
