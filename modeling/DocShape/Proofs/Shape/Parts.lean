import DocShape.Shape.Basic
import Mathlib.Tactic.ByContra

/-!
# The shapes inside a shape

A condition on every object or every union of a tree is a condition on its
**parts**: the shape itself and all shapes inside it, at any depth.

* `Shape.parts`: the parts, each before its own parts.
* `Shape.forall_parts_object` and its companions: what holds of all parts of a
  shape holds of the shape and of all parts of what stands directly inside.
* `Shape.NoEmptyUnion`, `Shape.DistinctNames`, `Shape.DistinctUserNames`: the
  conditions on a tree that later files ask for.
-/

namespace DocShape

theorem flatMap_ite {α β : Type} (keep : α → Bool) (f : α → List β) (xs : List α) :
    (xs.flatMap fun x => if keep x then f x else []) = (xs.filter keep).flatMap f := by
  induction xs with
  | nil => rfl
  | cons x rest ih =>
    rw [List.flatMap_cons, List.filter_cons, ih]
    cases keep x <;> rfl

/-- The fields that do not belong to the storage. -/
def userFields (fields : List (Field Shape)) : List (Field Shape) :=
  fields.filter fun field => !field.isSystem

@[simp] theorem mem_userFields {fields : List (Field Shape)} {field : Field Shape} :
    field ∈ userFields fields ↔ field ∈ fields ∧ field.isSystem = false := by
  rw [userFields, List.mem_filter, Bool.not_eq_true']

namespace Shape

/-! ### Parts -/

mutual

/-- A shape and all shapes inside it. -/
def parts : Shape → List Shape
  | array element => array element :: element.parts
  | object fields => object fields :: partsOfFields fields
  | record keys values optional => record keys values optional :: (keys.parts ++ values.parts)
  | union variants => union variants :: partsOfAll variants
  | leaf => [leaf]

def partsOfFields : List (Field Shape) → List Shape
  | [] => []
  | field :: rest => field.shape.parts ++ partsOfFields rest

def partsOfAll : List Shape → List Shape
  | [] => []
  | shape :: rest => shape.parts ++ partsOfAll rest

end

theorem partsOfFields_eq (fields : List (Field Shape)) :
    partsOfFields fields = fields.flatMap fun field => field.shape.parts := by
  induction fields with
  | nil => rfl
  | cons field rest ih => rw [partsOfFields, ih, List.flatMap_cons]

theorem partsOfAll_eq (shapes : List Shape) : partsOfAll shapes = shapes.flatMap parts := by
  induction shapes with
  | nil => rfl
  | cons shape rest ih => rw [partsOfAll, ih, List.flatMap_cons]

theorem self_mem_parts (shape : Shape) : shape ∈ shape.parts := by
  cases shape <;> exact List.mem_cons_self

/-- Whether a shape has nothing inside. -/
def isLeaf : Shape → Bool
  | array _ => false
  | object _ => false
  | record _ _ _ => false
  | union _ => false
  | _ => true

def isAny : Shape → Bool
  | any => true
  | _ => false

theorem isAny_iff {shape : Shape} : shape.isAny = true ↔ shape = any := by
  cases shape <;> simp [isAny]

theorem parts_leaf {leaf : Shape} (h : leaf.isLeaf = true) : leaf.parts = [leaf] := by
  cases leaf <;> simp_all [isLeaf, parts]

section

variable {P : Shape → Prop}

theorem forall_parts_array {element : Shape} :
    (∀ part ∈ (array element).parts, P part) ↔
      P (array element) ∧ ∀ part ∈ element.parts, P part := by
  rw [parts, List.forall_mem_cons]

theorem forall_parts_object {fields : List (Field Shape)} :
    (∀ part ∈ (object fields).parts, P part) ↔
      P (object fields) ∧ ∀ field ∈ fields, ∀ part ∈ field.shape.parts, P part := by
  rw [parts, List.forall_mem_cons, partsOfFields_eq, List.forall_mem_flatMap]

theorem forall_parts_record {keys values : Shape} {optional : Bool} :
    (∀ part ∈ (record keys values optional).parts, P part) ↔
      P (record keys values optional) ∧ (∀ part ∈ keys.parts, P part) ∧
        ∀ part ∈ values.parts, P part := by
  rw [parts, List.forall_mem_cons, List.forall_mem_append]

theorem forall_parts_union {variants : List Shape} :
    (∀ part ∈ (union variants).parts, P part) ↔
      P (union variants) ∧ ∀ variant ∈ variants, ∀ part ∈ variant.parts, P part := by
  rw [parts, List.forall_mem_cons, partsOfAll_eq, List.forall_mem_flatMap]

end

/-! ### Conditions on trees -/

/-- No union in the tree is without variants. -/
def NoEmptyUnion (shape : Shape) : Prop := ∀ part ∈ shape.parts, part ≠ union []

/-- The field names of each object in the tree are pairwise distinct. -/
def DistinctNames (shape : Shape) : Prop :=
  ∀ part ∈ shape.parts, (part.fields.map (·.name)).Nodup

/-- The names of the user fields of each object in the tree are pairwise distinct. -/
def DistinctUserNames (shape : Shape) : Prop :=
  ∀ part ∈ shape.parts, ((userFields part.fields).map (·.name)).Nodup

theorem noEmptyUnion_leaf {leaf : Shape} (h : leaf.isLeaf = true) : leaf.NoEmptyUnion := by
  intro part hpart he
  rw [parts_leaf h, List.mem_singleton] at hpart
  rw [← hpart, he] at h
  cases h

theorem noEmptyUnion_array {element : Shape} :
    (array element).NoEmptyUnion ↔ element.NoEmptyUnion := by
  rw [NoEmptyUnion, forall_parts_array]
  exact and_iff_right (fun h => nomatch h)

theorem noEmptyUnion_object {fields : List (Field Shape)} :
    (object fields).NoEmptyUnion ↔ ∀ field ∈ fields, field.shape.NoEmptyUnion := by
  rw [NoEmptyUnion, forall_parts_object]
  exact and_iff_right (fun h => nomatch h)

theorem noEmptyUnion_record {keys values : Shape} {optional : Bool} :
    (record keys values optional).NoEmptyUnion ↔ keys.NoEmptyUnion ∧ values.NoEmptyUnion := by
  rw [NoEmptyUnion, forall_parts_record]
  exact and_iff_right (fun h => nomatch h)

theorem noEmptyUnion_union {variants : List Shape} :
    (union variants).NoEmptyUnion ↔
      variants ≠ [] ∧ ∀ variant ∈ variants, variant.NoEmptyUnion := by
  rw [NoEmptyUnion, forall_parts_union, ne_eq, union.injEq]
  rfl

theorem DistinctUserNames.nodup {fields : List (Field Shape)}
    (h : (object fields).DistinctUserNames) : ((userFields fields).map (·.name)).Nodup :=
  (forall_parts_object.1 h).1

theorem DistinctUserNames.field {fields : List (Field Shape)}
    (h : (object fields).DistinctUserNames) {field : Field Shape} (hfield : field ∈ fields) :
    field.shape.DistinctUserNames :=
  (forall_parts_object.1 h).2 field hfield

theorem DistinctUserNames.variant {variants : List Shape} (h : (union variants).DistinctUserNames)
    {variant : Shape} (hvariant : variant ∈ variants) : variant.DistinctUserNames :=
  (forall_parts_union.1 h).2 variant hvariant

theorem DistinctNames.distinctUserNames {shape : Shape} (h : shape.DistinctNames) :
    shape.DistinctUserNames := by
  intro part hpart
  exact (h part hpart).sublist (List.filter_sublist.map _)

end Shape

end DocShape
