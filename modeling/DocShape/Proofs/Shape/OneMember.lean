import DocShape.Proofs.Json.Replacing
import DocShape.Proofs.Shape.ClosestVariant
import Mathlib.Data.List.Basic

/-!
# One member of a document

An object is held against its shape field by field, and each field looks at the member
under its name and at no other.  So what is done to one member of a document shows in
the place of its own field only.  Without the member there is nothing to report if the
field may be left out, by its flag or by its shape, and one mismatch otherwise; with
`null` in its place there is at most one.

* `Shape.check_object_append`: the fields are looked at one after the other.
* `Shape.check_object_congr`: a field looks at the member of its name only.
* `Shape.check_absent`: what is said about a value that is absent.
* `Shape.length_check_null_le_one`: `null` is refused once at most.
* `Shape.validate_object_change`: **a changed member shows in its own field only**.
* `Shape.validate_without_member`: a missing member is missed once, if at all.
-/

namespace DocShape.Shape

section

variable {α : Type} (extend : α → Step → α)

/-! ### Fields of an object -/

/-- **The fields are looked at one after the other.** -/
theorem check_object_append (before after : List (Field Shape)) (members : Members) (place : α) :
    (object (before ++ after)).check extend (some (.object members)) place =
      (object before).check extend (some (.object members)) place ++
        (object after).check extend (some (.object members)) place := by
  rw [check_object, check_object, check_object, userFields, List.filter_append, List.flatMap_append]
  rfl

/-- **A field looks at the member of its name only.** -/
theorem check_object_congr {fields : List (Field Shape)} {members changed : Members}
    (h : ∀ field ∈ userFields fields, changed.lookup field.name = members.lookup field.name)
    (place : α) :
    (object fields).check extend (some (.object changed)) place =
      (object fields).check extend (some (.object members)) place := by
  rw [check_object, check_object]
  refine List.flatMap_congr fun field hfield => ?_
  rw [h field hfield]

theorem check_object_single {field : Field Shape} (huser : field.isSystem = false)
    (members : Members) (place : α) :
    (object [field]).check extend (some (.object members)) place =
      if field.optional && isMissing (members.lookup field.name) then []
      else field.shape.check extend (members.lookup field.name)
        (extend place (.member field.name)) := by
  have hfields : userFields [field] = [field] := by
    rw [userFields, List.filter_cons, huser]
    rfl
  rw [check_object, hfields, List.flatMap_singleton]

/-! ### Absent values and `null` -/

/-- **An absent value is refused by one mismatch**, unless the shape admits it. -/
theorem check_absent (shape : Shape) (place : α) :
    shape.AdmitsAbsence ∧ shape.check extend none place = [] ∨
      ¬ shape.AdmitsAbsence ∧ ∃ expected,
        shape.check extend none place = [⟨"undefined", expected, place, []⟩] := by
  by_cases hadmits : shape.AdmitsAbsence
  · exact Or.inl ⟨hadmits, (check_eq_nil_iff extend shape none place).2
      ((admits_none_iff shape).2 hadmits)⟩
  · refine Or.inr ⟨hadmits, ?_⟩
    cases shape with
    | any => exact absurd .any hadmits
    | union variants =>
      have hnone : (variants.any fun variant => variant.accepts none) = false := by
        rw [List.any_eq_false]
        intro variant hvariant haccepts
        exact hadmits (.union hvariant ((admits_none_iff variant).1 (accepts_iff.1 haccepts)))
      rw [check_union, hnone, unionMismatch_checkEach,
        nearestMismatches_eq_nil extend fun variant _ => sharesContainer_none variant]
      -- The wording depends on whether there are literals, what was observed does not.
      cases (variants.filterMap literalText?).isEmpty <;> exact ⟨_, rfl⟩
    | _ => exact ⟨_, rfl⟩

/-- `null` is refused by one mismatch at most. -/
theorem length_check_null_le_one (shape : Shape) (place : α) :
    (shape.check extend (some .null) place).length ≤ 1 := by
  cases shape with
  | array element => exact Nat.le_refl 1
  | object fields => exact Nat.le_refl 1
  | record keys values optional => exact Nat.le_refl 1
  | union variants =>
    rw [check_union]
    split
    · exact Nat.zero_le 1
    · exact Nat.le_refl 1
  | _ =>
    rw [check_leaf extend rfl]
    split
    · exact Nat.zero_le 1
    · exact Nat.le_refl 1

end

/-! ### Documents -/

section

variable {before after : List (Field Shape)} {field : Field Shape} {members changed : Members}

/-- **A changed member shows in its own field only**: what is said about the fields before and after
it stays. -/
theorem validate_object_change
    (hothers : ∀ other ∈ userFields (before ++ after), other.name ≠ field.name)
    (hchanged : ∀ name, name ≠ field.name → changed.lookup name = members.lookup name)
    (place : String) :
    (object (before ++ field :: after)).validate (.object changed) place =
      (object before).validate (.object members) place ++
        (object [field]).validate (.object changed) place ++
          (object after).validate (.object members) place := by
  have hsame : ∀ fields, userFields fields ⊆ userFields (before ++ after) →
      (object fields).check Place.extend (some (.object changed)) place =
        (object fields).check Place.extend (some (.object members)) place := by
    intro fields hfields
    refine check_object_congr Place.extend (fun other hother => ?_) place
    exact hchanged other.name (hothers other (hfields hother))
  have hsplit : before ++ field :: after = before ++ [field] ++ after := by simp
  have happend : userFields (before ++ after) = userFields before ++ userFields after :=
    List.filter_append _ _
  rw [hsplit, validate, check_object_append, check_object_append,
    hsame before (happend ▸ List.subset_append_left _ _),
    hsame after (happend ▸ List.subset_append_right _ _), List.map_append, List.map_append]
  rfl

/-- **A missing member is missed once**, if at all: without it there is nothing to report in the
place of its field if the field or its shape lets it be absent, and one message otherwise; with
`null` there is nothing to report if the field is optional, and one message at most otherwise.  The
messages about all other fields stay, in their order. -/
theorem validate_without_member (huser : field.isSystem = false)
    (hothers : ∀ other ∈ userFields (before ++ after), other.name ≠ field.name)
    (members : Members) (place : String) :
    (object (before ++ field :: after)).validate (.object members) place =
        (object before).validate (.object members) place ++
          (object [field]).validate (.object members) place ++
            (object after).validate (.object members) place ∧
      (∃ missed, (object (before ++ field :: after)).validate
            (.object (members.without field.name)) place =
          (object before).validate (.object members) place ++ missed ++
            (object after).validate (.object members) place ∧
        ((field.optional = true ∨ field.shape.AdmitsAbsence) ∧ missed = [] ∨
          ¬ (field.optional = true ∨ field.shape.AdmitsAbsence) ∧ ∃ expected, missed =
            [Mismatch.message ⟨"undefined", expected, Place.member place field.name, []⟩])) ∧
      (∃ refused, (object (before ++ field :: after)).validate
            (.object (members.put field.name .null)) place =
          (object before).validate (.object members) place ++ refused ++
            (object after).validate (.object members) place ∧
        (field.optional = true → refused = []) ∧ refused.length ≤ 1) := by
  refine ⟨validate_object_change hothers (fun _ _ => rfl) place, ?_, ?_⟩
  · refine ⟨_, validate_object_change hothers
      (fun name hname => Members.lookup_without_of_ne hname) place, ?_⟩
    rw [validate, check_object_single Place.extend huser, Members.lookup_without_self]
    cases hoptional : field.optional with
    | true => exact Or.inl ⟨Or.inl rfl, rfl⟩
    | false =>
      rcases check_absent Place.extend field.shape (Place.extend place (.member field.name)) with
        ⟨hadmits, hnil⟩ | ⟨hadmits, expected, hsingle⟩
      · refine Or.inl ⟨Or.inr hadmits, ?_⟩
        rw [hnil]
        rfl
      · refine Or.inr ⟨?_, expected, ?_⟩
        · rintro (habsurd | habsurd)
          · cases habsurd
          · exact hadmits habsurd
        · rw [hsingle]
          rfl
  · refine ⟨_, validate_object_change hothers
      (fun name hname => Members.lookup_put_of_ne hname) place, ?_⟩
    rw [validate, check_object_single Place.extend huser, Members.lookup_put_self]
    cases hoptional : field.optional with
    | true => exact ⟨fun _ => rfl, Nat.zero_le 1⟩
    | false =>
      refine ⟨fun habsurd => absurd habsurd Bool.false_ne_true, ?_⟩
      rw [List.length_map]
      exact length_check_null_le_one Place.extend field.shape _

/-- Without its second member, a document with a wrong first and third one has a message about the
second field between the two others; with `null` there it has at most three. -/
theorem validate_without_member_secondOfThree :
    let before : List (Field Shape) := [⟨"a", false, string⟩]
    let level : Field Shape := ⟨"b", false, union [literal (.string "low"), union [string]]⟩
    let after : List (Field Shape) := [⟨"c", true, boolean⟩]
    let first := "Type 'null' is not assignable to v.string() for a"
    let third := "Type 'string' is not assignable to v.boolean() for c"
    level.isSystem = false ∧
      (∀ other ∈ userFields (before ++ after), other.name ≠ level.name) ∧
      (∃ expected, (object (before ++ level :: after)).validate
          (.object [("a", .null), ("c", .string "no")]) "" =
        [first, Mismatch.message ⟨"undefined", expected, "b", []⟩, third]) ∧
      ((object (before ++ level :: after)).validate
        (.object [("b", .null), ("a", .null), ("c", .string "no")]) "").length ≤ 3 := by
  intro before level after first third
  let members : Members := [("b", .string "low"), ("a", .null), ("c", .string "no")]
  have hothers : ∀ other ∈ userFields (before ++ after), other.name ≠ level.name := by
    intro other hother
    have hmem := (mem_userFields.1 hother).1
    rw [List.mem_append, List.mem_singleton, List.mem_singleton] at hmem
    rcases hmem with rfl | rfl <;> decide
  have hfirst : (object before).validate (.object members) "" = [first] := by decide +kernel
  have hthird : (object after).validate (.object members) "" = [third] := by decide +kernel
  have hrequired : ¬ (level.optional = true ∨ level.shape.AdmitsAbsence) := by
    rw [← admits_none_iff, ← accepts_iff]
    decide
  obtain ⟨-, ⟨missed, hwithout, hmissed⟩, refused, hnull, -, hlength⟩ :=
    validate_without_member (by decide) hothers members ""
  rw [hfirst, hthird] at hwithout hnull
  refine ⟨by decide, hothers, ?_, ?_⟩
  · rcases hmissed with ⟨hadmits, -⟩ | ⟨-, expected, rfl⟩
    · exact absurd hadmits hrequired
    · exact ⟨expected, hwithout⟩
  · have hthree : ([first] ++ refused ++ [third]).length ≤ 3 := by
      simp only [List.length_append, List.length_singleton]
      omega
    exact Nat.le_trans (Nat.le_of_eq (congrArg List.length hnull)) hthree

end

end DocShape.Shape
