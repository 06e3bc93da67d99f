import DocShape.Shape.Declaration
import DocShape.Proofs.Shape.Parts
import Mathlib.Data.List.Forall2

/-!
# Shapes that look alike

A declaration leaves out system fields and shows a number by its text only.  Two
shapes **look alike** when they are the same up to these two things.

* `Shape.withoutSystemFields`: a shape as a declaration shows it.
* `Shape.LooksAlike`: **the same shape up to what a declaration leaves out**.
* `Shape.looksAlike_object` and its companions: shapes that look alike have the
  same kind and parts that look alike, in the same order.
-/

namespace DocShape

/-- The same literal, or two numbers with the same text. -/
def Literal.looksAlike : Literal → Literal → Bool
  | .string a, .string b => a == b
  | .number a, .number b => a.declarationText == b.declarationText
  | .boolean a, .boolean b => a == b
  | _, _ => false

namespace Shape

/-! ### Comparison of lists -/

theorem sameFieldsBy_iff {compare : Literal → Literal → Bool} {as bs : List (Field Shape)} :
    sameFieldsBy compare as bs = true ↔ List.Forall₂ (fun a b =>
      a.name = b.name ∧ a.optional = b.optional ∧ a.shape.sameBy compare b.shape = true) as bs := by
  induction as generalizing bs with
  | nil => cases bs <;> simp [sameFieldsBy]
  | cons a as ih =>
    cases bs with
    | nil => simp [sameFieldsBy]
    | cons b bs =>
      simp only [sameFieldsBy, Bool.and_eq_true, beq_iff_eq, List.forall₂_cons, ih, and_assoc]

theorem sameAllBy_iff {compare : Literal → Literal → Bool} {as bs : List Shape} :
    sameAllBy compare as bs = true ↔
      List.Forall₂ (fun a b => a.sameBy compare b = true) as bs := by
  induction as generalizing bs with
  | nil => cases bs <;> simp [sameAllBy]
  | cons a as ih =>
    cases bs with
    | nil => simp [sameAllBy]
    | cons b bs => simp only [sameAllBy, Bool.and_eq_true, List.forall₂_cons, ih]

/-! ### Without system fields -/

mutual

/-- The shape with the system fields of every object taken out, at all depths. -/
def withoutSystemFields : Shape → Shape
  | array element => array element.withoutSystemFields
  | object fields => object (withoutSystemFieldsOf fields)
  | record keys values optional =>
    record keys.withoutSystemFields values.withoutSystemFields optional
  | union variants => union (withoutSystemFieldsOfAll variants)
  | leaf => leaf

def withoutSystemFieldsOf : List (Field Shape) → List (Field Shape)
  | [] => []
  | field :: rest =>
    if field.isSystem then withoutSystemFieldsOf rest
    else
      ⟨field.name, field.optional, field.shape.withoutSystemFields⟩ :: withoutSystemFieldsOf rest

def withoutSystemFieldsOfAll : List Shape → List Shape
  | [] => []
  | shape :: rest => shape.withoutSystemFields :: withoutSystemFieldsOfAll rest

end

theorem withoutSystemFieldsOf_eq (fields : List (Field Shape)) :
    withoutSystemFieldsOf fields = (userFields fields).map fun field =>
      ⟨field.name, field.optional, field.shape.withoutSystemFields⟩ := by
  induction fields with
  | nil => rfl
  | cons field rest ih =>
    rw [withoutSystemFieldsOf, ih, userFields, userFields, List.filter_cons]
    cases field.isSystem <;> rfl

theorem withoutSystemFieldsOfAll_eq (shapes : List Shape) :
    withoutSystemFieldsOfAll shapes = shapes.map withoutSystemFields := by
  induction shapes with
  | nil => rfl
  | cons shape rest ih => rw [withoutSystemFieldsOfAll, ih, List.map_cons]

/-! ### Looking alike -/

/-- **Looking alike**: the same shape once all system fields are taken out and numeric literals are
compared by their text. -/
def LooksAlike (a b : Shape) : Prop :=
  a.withoutSystemFields.sameBy Literal.looksAlike b.withoutSystemFields = true

/-- Fields with the same name and flag, and shapes that look alike. -/
def FieldsLookAlike (a b : Field Shape) : Prop :=
  a.name = b.name ∧ a.optional = b.optional ∧ a.shape.LooksAlike b.shape

theorem looksAlike_literal {a b : Literal} :
    (literal a).LooksAlike (literal b) ↔ a.looksAlike b = true := Iff.rfl

theorem looksAlike_id {a b : String} : (id a).LooksAlike (id b) ↔ a = b := beq_iff_eq

theorem looksAlike_array {a b : Shape} : (array a).LooksAlike (array b) ↔ a.LooksAlike b := Iff.rfl

theorem looksAlike_record {keys keys' values values' : Shape} {optional optional' : Bool} :
    (record keys values optional).LooksAlike (record keys' values' optional') ↔
      keys.LooksAlike keys' ∧ optional = optional' ∧ values.LooksAlike values' := by
  simp only [LooksAlike, withoutSystemFields, sameBy, Bool.and_eq_true, beq_iff_eq]
  tauto

/-- Objects look alike when their user fields do, in order. -/
theorem looksAlike_object {as bs : List (Field Shape)} :
    (object as).LooksAlike (object bs) ↔
      List.Forall₂ FieldsLookAlike (userFields as) (userFields bs) := by
  simp only [LooksAlike, withoutSystemFields, sameBy, sameFieldsBy_iff, withoutSystemFieldsOf_eq,
    List.forall₂_map_left_iff, List.forall₂_map_right_iff]
  rfl

/-- Unions look alike when their variants do, in order. -/
theorem looksAlike_union {as bs : List Shape} :
    (union as).LooksAlike (union bs) ↔ List.Forall₂ LooksAlike as bs := by
  simp only [LooksAlike, withoutSystemFields, sameBy, sameAllBy_iff, withoutSystemFieldsOfAll_eq,
    List.forall₂_map_left_iff, List.forall₂_map_right_iff]
  rfl

end Shape

end DocShape
