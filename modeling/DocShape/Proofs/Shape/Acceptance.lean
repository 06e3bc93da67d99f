import DocShape.Proofs.Shape.Parts
import DocShape.Proofs.Text.Base64
import DocShape.Shape.Check
import Mathlib.Algebra.Group.Int.Defs

/-!
# Acceptance

`Shape.check` lists mismatches.  `Shape.Admits` says, by recursion on the shape
and without listing anything, which values a shape is meant for; a value may be
absent.  The two agree: there is nothing to report exactly when the shape admits
the value, at every place and for every way of writing places.

* `Shape.Admits`: the values of a shape.
* `Shape.check_eq_nil_iff`: **no mismatch means admitted**, also for absent
  values.
* `Shape.admits_none_iff`: what admits an absent value.
-/

namespace DocShape

namespace Shape

/-! ### The values of a shape -/

/-- A position that may be left out, without a value or with `null`. -/
def LeftOut (optional : Bool) (value : Option Json) : Prop :=
  optional = true ∧ (value = none ∨ value = some .null)

mutual

/-- **The values of a shape**, which may be absent. -/
def Admits : Shape → Option Json → Prop
  | any, _ => True
  | null, value => value = some .null
  | string, value => ∃ s, value = some (.string s)
  | boolean, value => ∃ b, value = some (.bool b)
  | float64, value => ∃ n, value = some (.number n)
  | int64, value => ∃ n, value = some (.number (.integer n)) ∧ -2 ^ 63 ≤ n ∧ n < 2 ^ 63
  | bytes, value => ∃ s data, value = some (.string s) ∧ Text.base64 data = s.toList
  | id _, value => ∃ s, value = some (.string s) ∧ Text.IsIdText s
  | literal expected, value => ∃ given, value = some given ∧ expected.accepts given = true
  | array element, value =>
    ∃ items, value = some (.array items) ∧ ∀ item ∈ items, element.Admits (some item)
  | object fields, value => ∃ members, value = some (.object members) ∧ AdmitsFields fields members
  | record keys values optional, value =>
    ∃ members, value = some (.object members) ∧ ∀ member ∈ members,
      keys.Admits (some (.string member.1)) ∧
        (LeftOut optional (some member.2) ∨ values.Admits (some member.2))
  | union variants, value => AdmitsSome variants value

/-- The members of an object whose user fields all have a value of theirs under their name, or are
left out. -/
def AdmitsFields : List (Field Shape) → Members → Prop
  | [], _ => True
  | field :: rest, members =>
    (field.isSystem = false → LeftOut field.optional (members.lookup field.name) ∨
      field.shape.Admits (members.lookup field.name)) ∧ AdmitsFields rest members

/-- The values of any of the shapes. -/
def AdmitsSome : List Shape → Option Json → Prop
  | [], _ => False
  | shape :: rest, value => shape.Admits value ∨ AdmitsSome rest value

end

theorem admitsFields_iff {fields : List (Field Shape)} {members : Members} :
    AdmitsFields fields members ↔ ∀ field ∈ userFields fields,
      LeftOut field.optional (members.lookup field.name) ∨
        field.shape.Admits (members.lookup field.name) := by
  simp only [mem_userFields]
  induction fields with
  | nil => simp [AdmitsFields]
  | cons field rest ih =>
    rw [AdmitsFields, ih]
    simp only [List.mem_cons, and_imp, forall_eq_or_imp]

theorem admitsSome_iff {shapes : List Shape} {value : Option Json} :
    AdmitsSome shapes value ↔ ∃ shape ∈ shapes, shape.Admits value := by
  induction shapes with
  | nil => simp [AdmitsSome]
  | cons shape rest ih => simp only [AdmitsSome, ih, List.mem_cons, exists_eq_or_imp]

theorem admits_object {fields : List (Field Shape)} {members : Members} :
    (object fields).Admits (some (.object members)) ↔ ∀ field ∈ userFields fields,
      LeftOut field.optional (members.lookup field.name) ∨
        field.shape.Admits (members.lookup field.name) := by
  rw [Admits, ← admitsFields_iff]
  simp only [Option.some.injEq, Json.object.injEq, exists_eq_left']

theorem admits_union {variants : List Shape} {value : Option Json} :
    (union variants).Admits value ↔ ∃ variant ∈ variants, variant.Admits value := by
  rw [Admits, admitsSome_iff]

/-! ### The check -/

theorem isMissing_iff {value : Option Json} :
    isMissing value = true ↔ value = none ∨ value = some .null := by
  cases value with
  | none => simp [isMissing]
  | some value => cases value <;> simp [isMissing, Json.isNull]

theorem leftOut_iff {optional : Bool} {value : Option Json} :
    LeftOut optional value ↔ (optional && isMissing value) = true := by
  rw [LeftOut, Bool.and_eq_true, isMissing_iff]

theorem isInt64_iff {n : Int} :
    isInt64 (some (.number (.integer n))) = true ↔ -2 ^ 63 ≤ n ∧ n < 2 ^ 63 := by
  have hmin : Int64.minValue.toInt = -9223372036854775808 := rfl
  have hmax : Int64.maxValue.toInt = 9223372036854775807 := rfl
  rw [isInt64, hmin, hmax, Bool.and_eq_true, decide_eq_true_iff, decide_eq_true_iff]
  omega

theorem leafAccepts_iff {leaf : Shape} (h : leaf.isLeaf = true) (value : Option Json) :
    leaf.leafAccepts value = true ↔ leaf.Admits value := by
  rcases value with _ | value
  · cases leaf <;> simp_all [isLeaf, leafAccepts, Admits, isInt64]
  cases leaf with
  | any => simp [leafAccepts, Admits]
  | null => cases value <;> simp [leafAccepts, Admits]
  | string => cases value <;> simp [leafAccepts, Admits]
  | boolean => cases value <;> simp [leafAccepts, Admits]
  | float64 => cases value <;> simp [leafAccepts, Admits]
  | int64 =>
    cases value with
    | number n =>
      cases n with
      | integer n => simp [leafAccepts, Admits, isInt64_iff]
      | double d => simp [leafAccepts, Admits, isInt64]
    | _ => simp [leafAccepts, Admits, isInt64]
  | bytes => cases value <;> simp [leafAccepts, Admits, Text.isBase64_iff]
  | literal expected => simp [leafAccepts, Admits]
  | id tableName => cases value <;> simp [leafAccepts, Admits, Text.isDocumentId_iff]
  | array element => cases h
  | object fields => cases h
  | record keys values optional => cases h
  | union variants => cases h

section

variable {α : Type} (extend : α → Step → α)

theorem ite_eq_nil_iff {β : Type} {c : Bool} {xs : List β} :
    (if c = true then [] else xs) = [] ↔ c = true ∨ xs = [] := by
  cases c <;> simp

theorem check_object (fields : List (Field Shape)) (members : Members) (place : α) :
    (object fields).check extend (some (.object members)) place =
      (userFields fields).flatMap fun field =>
        if field.optional && isMissing (members.lookup field.name) then []
        else field.shape.check extend (members.lookup field.name)
          (extend place (.member field.name)) := by
  rw [check, checkDeclared_eq]
  rfl

theorem check_leaf {leaf : Shape} (h : leaf.isLeaf = true) (value : Option Json) (place : α) :
    leaf.check extend value place =
      if leaf.leafAccepts value then [] else [leaf.leafMismatch value place] := by
  cases leaf <;> simp_all [isLeaf, check]

theorem check_leaf_eq_nil_iff {leaf : Shape} (h : leaf.isLeaf = true) (value : Option Json)
    (place : α) : leaf.check extend value place = [] ↔ leaf.Admits value := by
  rw [check_leaf extend h, ← leafAccepts_iff h]
  cases leaf.leafAccepts value <;> simp

/-- **There is no mismatch exactly when the shape admits the value.** -/
theorem check_eq_nil_iff (shape : Shape) : ∀ (value : Option Json) (place : α),
    shape.check extend value place = [] ↔ shape.Admits value := by
  induction shape using Shape.ind with
  | array element ih =>
    intro value place
    rcases value with _ | _ | _ | _ | _ | items | _
    case some.array =>
      simp only [check, Admits, List.flatMap_eq_nil_iff, ih, Option.some.injEq, Json.array.injEq,
        exists_eq_left']
      constructor
      · intro h item hitem
        obtain ⟨index, hindex, rfl⟩ := List.getElem_of_mem hitem
        exact h (_, index) (List.mk_mem_zipIdx_iff_getElem?.2 (List.getElem?_eq_getElem hindex))
      · intro h pair hpair
        exact h pair.1 (List.fst_mem_of_mem_zipIdx hpair)
    all_goals simp [check, Admits]
  | object fields ih =>
    intro value place
    rcases value with _ | _ | _ | _ | _ | _ | members
    case some.object =>
      rw [admits_object, check_object, List.flatMap_eq_nil_iff]
      refine forall₂_congr fun field hfield => ?_
      rw [ite_eq_nil_iff, ih field (mem_userFields.1 hfield).1, leftOut_iff]
    all_goals simp [check, Admits]
  | record keys values optional ihk ihv =>
    intro value place
    rcases value with _ | _ | _ | _ | _ | _ | members
    case some.object =>
      simp only [check, Admits, List.flatMap_eq_nil_iff, List.append_eq_nil_iff, ite_eq_nil_iff,
        ihk, ihv, leftOut_iff, isMissing, Option.some.injEq, Json.object.injEq, exists_eq_left']
    all_goals simp [check, Admits]
  | union variants ih =>
    intro value place
    have hany :
        ((checkEach extend variants value place).any fun attempt => attempt.2.isEmpty) = true ↔
        ∃ variant ∈ variants, variant.Admits value := by
      rw [checkEach_eq, List.any_map, List.any_eq_true]
      refine exists_congr fun variant => and_congr_right fun hvariant => ?_
      rw [← ih variant hvariant value place, ← List.isEmpty_iff]
      rfl
    rw [check, admits_union, ← hany]
    split <;> simp_all
  | _ => exact check_leaf_eq_nil_iff extend rfl

end

theorem accepts_iff {shape : Shape} {value : Option Json} :
    shape.accepts value = true ↔ shape.Admits value := by
  rw [accepts, List.isEmpty_iff, check_eq_nil_iff]

/-! ### Absent values -/

/-- The shapes that admit an absent value: `any`, and unions with such a variant. -/
inductive AdmitsAbsence : Shape → Prop
  | any : AdmitsAbsence any
  | union {variants : List Shape} {variant : Shape} : variant ∈ variants → AdmitsAbsence variant →
      AdmitsAbsence (union variants)

theorem admits_none_iff (shape : Shape) : shape.Admits none ↔ shape.AdmitsAbsence := by
  induction shape using Shape.ind with
  | any => exact iff_of_true trivial .any
  | union variants ih =>
    rw [admits_union]
    constructor
    · rintro ⟨variant, hmem, hvariant⟩
      exact .union hmem ((ih variant hmem).1 hvariant)
    · rintro (_ | ⟨hmem, hvariant⟩)
      exact ⟨_, hmem, (ih _ hmem).2 hvariant⟩
  | _ =>
    refine iff_of_false (fun h => ?_) (fun h => nomatch h)
    simp [Admits] at h

/-! ### Validation -/

/-- **A value validates without messages exactly when its shape admits it.** -/
theorem validate_eq_nil_iff (shape : Shape) (value : Json) (place : String) :
    shape.validate value place = [] ↔ shape.Admits (some value) := by
  rw [validate, List.map_eq_nil_iff, check_eq_nil_iff]

end Shape

end DocShape
