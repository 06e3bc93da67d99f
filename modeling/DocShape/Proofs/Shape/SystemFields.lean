import DocShape.Proofs.Json.Parts
import DocShape.Proofs.Shape.Acceptance
import DocShape.Proofs.Shape.Alike

/-!
# System fields do not matter

Every operation on shapes passes over system fields at its own place: the check
and the declaration skip them, the short form asks whether all fields are such,
and defaults leave them out.  So each of them gives the same result for a shape
and for the shape without its system fields.

* `Shape.check_withoutSystemFields`: **the same mismatches**, the nearest variant
  of a union included.
* `Shape.brief_withoutSystemFields`, `Shape.renderAt_withoutSystemFields`: the same
  texts.
* `Shape.default_withoutSystemFields`, `Shape.document_withoutSystemFields`: the
  same defaults.
* `Shape.hasUserNamesOnly_default`: **no default holds a system field** at any
  depth.
-/

namespace DocShape

namespace Shape

/-! ### Fields -/

/-- A field with the system fields of its shape taken out. -/
def stripField (field : Field Shape) : Field Shape :=
  ⟨field.name, field.optional, field.shape.withoutSystemFields⟩

theorem withoutSystemFields_object (fields : List (Field Shape)) :
    (object fields).withoutSystemFields = object ((userFields fields).map stripField) := by
  rw [withoutSystemFields, withoutSystemFieldsOf_eq]
  rfl

theorem withoutSystemFields_union (variants : List Shape) :
    (union variants).withoutSystemFields = union (variants.map withoutSystemFields) := by
  rw [withoutSystemFields, withoutSystemFieldsOfAll_eq]

/-- No field is left that a second pass would take out. -/
theorem userFields_map_stripField (fields : List (Field Shape)) :
    userFields ((userFields fields).map stripField) = (userFields fields).map stripField := by
  refine List.filter_eq_self.2 fun field hfield => ?_
  obtain ⟨original, horiginal, rfl⟩ := List.mem_map.1 hfield
  rw [Bool.not_eq_true']
  exact (mem_userFields.1 horiginal).2

theorem all_isSystem_iff {fields : List (Field Shape)} :
    (fields.all (·.isSystem)) = true ↔ userFields fields = [] := by
  rw [List.all_eq_true, userFields, List.filter_eq_nil_iff]
  simp only [Bool.not_eq_true', Bool.not_eq_false]

/-! ### The short form -/

theorem brief_withoutSystemFields (shape : Shape) :
    shape.withoutSystemFields.brief = shape.brief := by
  induction shape using Shape.ind with
  | array element ih => rw [withoutSystemFields, brief, ih, brief]
  | object fields _ =>
    have hall : (((userFields fields).map stripField).all (·.isSystem)) =
        fields.all (·.isSystem) := by
      rw [Bool.eq_iff_iff, all_isSystem_iff, all_isSystem_iff, userFields_map_stripField,
        List.map_eq_nil_iff]
    rw [withoutSystemFields_object, brief, hall, brief]
  | record keys values optional ihk ihv => rw [withoutSystemFields, brief, ihk, ihv, brief]
  | union variants ih =>
    rw [withoutSystemFields_union, brief, briefAll_eq, List.map_map, brief, briefAll_eq]
    exact congrArg inlineUnion (List.map_congr_left ih)
  | _ => rfl

/-! ### The check -/

section

variable {α : Type}

theorem typeMismatch_withoutSystemFields (shape : Shape) (value : Option Json) (place : α) :
    shape.withoutSystemFields.typeMismatch value place = shape.typeMismatch value place := by
  rw [typeMismatch, brief_withoutSystemFields, typeMismatch]

theorem literalText?_withoutSystemFields (shape : Shape) :
    shape.withoutSystemFields.literalText? = shape.literalText? := by
  cases shape <;> rfl

theorem sharesContainer_withoutSystemFields (shape : Shape) (value : Option Json) :
    shape.withoutSystemFields.sharesContainer value = shape.sharesContainer value := by
  rcases value with _ | value
  · cases shape <;> rfl
  · cases shape <;> cases value <;> rfl

/-- The mismatch of a union shows its variants only as they are without system fields. -/
theorem unionMismatch_withoutSystemFields (attempts : List (Shape × List (Mismatch α)))
    (value : Option Json) (place : α) :
    unionMismatch (attempts.map fun attempt => (attempt.1.withoutSystemFields, attempt.2)) value
      place = unionMismatch attempts value place := by
  have hvariants : (attempts.map fun attempt =>
      (attempt.1.withoutSystemFields, attempt.2)).map (·.1) =
        (attempts.map (·.1)).map withoutSystemFields := by
    rw [List.map_map, List.map_map]
    rfl
  have hliterals : ((attempts.map (·.1)).map withoutSystemFields).filterMap literalText? =
      (attempts.map (·.1)).filterMap literalText? := by
    rw [List.filterMap_map]
    exact congrArg (List.filterMap · _) (funext literalText?_withoutSystemFields)
  have hcontainers : ((attempts.map fun attempt =>
      (attempt.1.withoutSystemFields, attempt.2)).filter fun attempt =>
        attempt.1.sharesContainer value).map (·.2) =
      (attempts.filter fun attempt => attempt.1.sharesContainer value).map (·.2) := by
    rw [List.filter_map, List.map_map]
    simp only [Function.comp_def, sharesContainer_withoutSystemFields]
  have hbrief : (union ((attempts.map (·.1)).map withoutSystemFields)).brief =
      (union (attempts.map (·.1))).brief := by
    rw [← withoutSystemFields_union, brief_withoutSystemFields]
  simp only [unionMismatch, hvariants, hliterals, hcontainers, hbrief]

variable (extend : α → Step → α)

/-- **The check passes over system fields**: the mismatches are the same, in the same order. -/
theorem check_withoutSystemFields (shape : Shape) : ∀ (value : Option Json) (place : α),
    shape.withoutSystemFields.check extend value place = shape.check extend value place := by
  induction shape using Shape.ind with
  | array element ih =>
    intro value place
    rcases value with _ | _ | _ | _ | _ | items | _
    case some.array => simp only [withoutSystemFields, check, ih]
    all_goals
      simp only [withoutSystemFields, check]
      exact congrArg (fun mismatch => [mismatch])
        (typeMismatch_withoutSystemFields (array element) _ place)
  | object fields ih =>
    intro value place
    rcases value with _ | _ | _ | _ | _ | _ | members
    case some.object =>
      rw [withoutSystemFields_object, check_object, check_object, userFields_map_stripField,
        List.flatMap_map]
      refine List.flatMap_congr fun field hfield => ?_
      simp only [stripField, ih field (mem_userFields.1 hfield).1]
    all_goals
      simp only [withoutSystemFields, check]
      exact congrArg (fun mismatch => [mismatch])
        (typeMismatch_withoutSystemFields (object fields) _ place)
  | record keys values optional ihk ihv =>
    intro value place
    rcases value with _ | _ | _ | _ | _ | _ | members
    case some.object => simp only [withoutSystemFields, check, ihk, ihv]
    all_goals
      simp only [withoutSystemFields, check]
      exact congrArg (fun mismatch => [mismatch])
        (typeMismatch_withoutSystemFields (record keys values optional) _ place)
  | union variants ih =>
    intro value place
    have hattempts : checkEach extend (variants.map withoutSystemFields) value place =
        (checkEach extend variants value place).map fun attempt =>
          (attempt.1.withoutSystemFields, attempt.2) := by
      rw [checkEach_eq, checkEach_eq, List.map_map, List.map_map]
      refine List.map_congr_left fun variant hvariant => ?_
      exact congrArg (Prod.mk _) (ih variant hvariant value place)
    rw [withoutSystemFields_union, check, check, hattempts, List.any_map,
      unionMismatch_withoutSystemFields]
    rfl
  | _ => intro value place; rfl

end

theorem accepts_withoutSystemFields (shape : Shape) (value : Option Json) :
    shape.withoutSystemFields.accepts value = shape.accepts value := by
  rw [accepts, check_withoutSystemFields, accepts]

theorem validate_withoutSystemFields (shape : Shape) (value : Json) (place : String) :
    shape.withoutSystemFields.validate value place = shape.validate value place := by
  rw [validate, check_withoutSystemFields, validate]

/-! ### The declaration -/

theorem renderAt_withoutSystemFields (layout : Layout) (shape : Shape) : ∀ level,
    shape.withoutSystemFields.renderAt layout level = shape.renderAt layout level := by
  induction shape using Shape.ind with
  | array element ih => intro level; rw [withoutSystemFields, renderAt, ih, renderAt]
  | object fields ih =>
    intro level
    rw [withoutSystemFields_object, renderAt, renderAt, fieldLines_eq, fieldLines_eq, ← userFields,
      ← userFields, userFields_map_stripField, List.map_map]
    have hlines : (userFields fields).map ((fun field : Field Shape =>
        fieldLine layout level field.name field.optional
          (field.shape.renderAt layout (level + 1))) ∘ stripField) =
        (userFields fields).map fun field =>
          fieldLine layout level field.name field.optional
            (field.shape.renderAt layout (level + 1)) := by
      refine List.map_congr_left fun field hfield => ?_
      simp only [Function.comp_apply, stripField, ih field (mem_userFields.1 hfield).1]
    rw [hlines]
  | record keys values optional ihk ihv =>
    intro level
    rw [withoutSystemFields, renderAt, ihk, ihv, renderAt]
  | union variants ih =>
    intro level
    have htexts : ∀ level, renderAllAt layout level (variants.map withoutSystemFields) =
        renderAllAt layout level variants := by
      intro level
      rw [renderAllAt_eq, renderAllAt_eq, List.map_map]
      exact List.map_congr_left fun variant hvariant => ih variant hvariant level
    rw [withoutSystemFields_union, renderAt, renderAt, htexts, htexts]
  | _ => intro level; rfl

/-! ### Defaults -/

theorem default_withoutSystemFields (shape : Shape) :
    shape.withoutSystemFields.default = shape.default := by
  induction shape using Shape.ind with
  | object fields ih =>
    have hrequired : requiredDefaults ((userFields fields).map stripField) =
        requiredDefaults fields := by
      have hsplit : ∀ fields : List (Field Shape),
          (fields.filter fun field => !(field.optional || field.isSystem)) =
            (userFields fields).filter fun field => !field.optional := by
        intro fields
        rw [userFields, List.filter_filter]
        exact List.filter_congr fun field _ => Bool.not_or _ _
      rw [requiredDefaults_eq, requiredDefaults_eq, hsplit, hsplit, userFields_map_stripField,
        List.filter_map, List.map_map]
      refine List.map_congr_left fun field hfield => ?_
      exact congrArg (Prod.mk _) (ih field (mem_userFields.1 (List.mem_filter.1 hfield).1).1)
    rw [withoutSystemFields_object, default, hrequired, default]
  | union variants ih =>
    have hdefaults : defaultEach (variants.map withoutSystemFields) =
        (defaultEach variants).map fun variant => (variant.1.withoutSystemFields, variant.2) := by
      rw [defaultEach_eq, defaultEach_eq, List.map_map, List.map_map]
      exact List.map_congr_left fun variant hvariant => congrArg (Prod.mk _) (ih variant hvariant)
    rw [withoutSystemFields_union, default, default, hdefaults, chooseDefault, chooseDefault,
      List.find?_map, List.head?_map]
    simp only [Function.comp_def, accepts_withoutSystemFields]
    cases (defaultEach variants).find? fun variant => variant.1.accepts (some variant.2) with
    | some variant => rfl
    | none => cases (defaultEach variants).head? <;> rfl
  | _ => rfl

theorem documentOf_map_stripField (fields : List (Field Shape)) :
    documentOf ((userFields fields).map stripField) = documentOf fields := by
  rw [documentOf, documentOf, ← userFields, ← userFields, userFields_map_stripField, List.map_map]
  congr 1
  refine List.map_congr_left fun field _ => ?_
  exact congrArg (Prod.mk _) (default_withoutSystemFields field.shape)

theorem fields?_withoutSystemFields (shape : Shape) :
    shape.withoutSystemFields.fields? =
      shape.fields?.map fun fields => (userFields fields).map stripField := by
  cases shape with
  | object fields => rw [withoutSystemFields_object]; rfl
  | _ => rfl

theorem document_withoutSystemFields (shape : Shape) :
    shape.withoutSystemFields.document = shape.document := by
  cases shape with
  | object fields => rw [withoutSystemFields_object, document, documentOf_map_stripField, document]
  | union variants =>
    have hfirst : (variants.map withoutSystemFields).findSome? fields? =
        (variants.findSome? fields?).map fun fields => (userFields fields).map stripField := by
      rw [List.findSome?_map, List.map_findSome?]
      exact congrArg (List.findSome? · _) (funext fields?_withoutSystemFields)
    rw [withoutSystemFields_union, document, document, hfirst, Option.map_map]
    simp only [Function.comp_def, documentOf_map_stripField]
  | _ => rfl

/-! ### No system field in a default -/

/-- What holds of `null` and of the default of each variant holds of the chosen default. -/
theorem chooseDefault_of_forall {P : Json → Prop} (hnull : P .null)
    {variants : List (Shape × Json)} (h : ∀ variant ∈ variants, P variant.2) :
    P (chooseDefault variants) := by
  rw [chooseDefault]
  split
  · next hfound => exact h _ (List.mem_of_find?_eq_some hfound)
  · cases variants with
    | nil => exact hnull
    | cons variant rest => exact h variant List.mem_cons_self

/-- **No object anywhere in a default has a member under the name of a system field.** -/
theorem hasUserNamesOnly_default (shape : Shape) : shape.default.HasUserNamesOnly := by
  induction shape using Shape.ind with
  | literal value =>
    cases value <;> exact Json.hasUserNamesOnly_scalar rfl (fun _ he => nomatch he)
  | object fields ih =>
    refine Json.hasUserNamesOnly_ofList fun field hfield => ?_
    rw [requiredDefaults_eq] at hfield
    obtain ⟨declared, hdeclared, rfl⟩ := List.mem_map.1 hfield
    obtain ⟨hmem, hkept⟩ := List.mem_filter.1 hdeclared
    rw [Bool.not_or, Bool.and_eq_true, Bool.not_eq_true', Bool.not_eq_true'] at hkept
    exact ⟨hkept.2, ih declared hmem⟩
  | record keys values optional _ _ =>
    exact Json.hasUserNamesOnly_object.2 fun _ hmember => nomatch hmember
  | union variants ih =>
    refine chooseDefault_of_forall (Json.hasUserNamesOnly_scalar rfl (fun _ he => nomatch he)) ?_
    rw [defaultEach_eq]
    intro variant hvariant
    obtain ⟨original, horiginal, rfl⟩ := List.mem_map.1 hvariant
    exact ih original horiginal
  | _ => exact Json.hasUserNamesOnly_scalar rfl (fun _ he => nomatch he)

theorem hasUserNamesOnly_documentOf (fields : List (Field Shape)) :
    (Json.object (documentOf fields)).HasUserNamesOnly := by
  refine Json.hasUserNamesOnly_ofList fun field hfield => ?_
  obtain ⟨declared, hdeclared, rfl⟩ := List.mem_map.1 hfield
  exact ⟨(mem_userFields.1 hdeclared).2, hasUserNamesOnly_default declared.shape⟩

theorem hasUserNamesOnly_document (shape : Shape) :
    (Json.object shape.document).HasUserNamesOnly := by
  have hempty : (Json.object []).HasUserNamesOnly :=
    Json.hasUserNamesOnly_object.2 fun _ hmember => nomatch hmember
  cases shape with
  | object fields => exact hasUserNamesOnly_documentOf fields
  | union variants =>
    rw [document]
    cases variants.findSome? fields? with
    | some fields => exact hasUserNamesOnly_documentOf fields
    | none => exact hempty
  | _ => exact hempty

end Shape

end DocShape
