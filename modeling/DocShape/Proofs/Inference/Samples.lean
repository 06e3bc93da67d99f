import DocShape.Proofs.Inference.Fields
import DocShape.Proofs.Shape.ClosestVariant

/-!
# Samples under their own declaration

A sample has every field that is not optional, and a value of a field belongs to one
of the types that were seen in it.  So the fields that are inferred from samples
accept each sample, up to `null`: a `null` has no type, so a field that every sample
has, and that held values of types, refuses it.

* `nullFields`: the fields that refuse a `null` of a sample.
* `Observation.shape_admits`, `Observation.check_null`: what the shape of a field says
  of a value that was seen in it, and of `null`.
* `check_sample`: **the mismatches of a sample are its refused nulls**, at every place.
-/

namespace DocShape

/-! ### Refused nulls -/

namespace Shape

/-- What a shape is said to expect where a value has the wrong type. -/
def expectedText : Shape → String
  | union variants => "union " ++ (union variants).brief
  | shape => shape.brief

/-- The mismatch of `null` with a shape for values of some types. -/
def nullMismatch {α : Type} (shape : Shape) (place : α) : Mismatch α :=
  ⟨"null", shape.expectedText, place, []⟩

end Shape

/-- Whether the members hold `null` under the name of a field that asks for a value of a type. -/
def refusesNull (members : Members) (declared : Field Shape) : Bool :=
  !declared.optional && !declared.shape.isAny && (members.lookup declared.name).any Json.isNull

/-- The fields that refuse a `null` of the members. -/
def nullFields (members : Members) (fields : List (Field Shape)) : List (Field Shape) :=
  fields.filter (refusesNull members)

theorem isNull_iff {value : Json} : value.isNull = true ↔ value = .null := by
  cases value <;> simp [Json.isNull]

theorem refusesNull_iff {members : Members} {declared : Field Shape} :
    refusesNull members declared = true ↔ members.lookup declared.name = some .null ∧
      declared.optional = false ∧ declared.shape ≠ .any := by
  simp only [refusesNull, Bool.and_eq_true, Bool.not_eq_true', Option.any_eq_true, isNull_iff,
    exists_eq_right, ne_eq, ← Shape.isAny_iff, Bool.not_eq_true]
  tauto

theorem mem_nullFields {members : Members} {fields : List (Field Shape)} {declared : Field Shape} :
    declared ∈ nullFields members fields ↔ declared ∈ fields ∧
      members.lookup declared.name = some .null ∧ declared.optional = false ∧
        declared.shape ≠ .any := by
  rw [nullFields, List.mem_filter, refusesNull_iff]

/-! ### Values of a type -/

theorem SampleType.ofJson?_eq_none_iff {value : Json} :
    SampleType.ofJson? value = none ↔ value = .null := by
  cases value <;> simp [SampleType.ofJson?]

theorem SampleType.shape_admits {type : SampleType} {value : Json}
    (h : SampleType.ofJson? value = some type) : type.shape.Admits (some value) := by
  cases value with
  | null => cases h
  | bool b => cases h; exact ⟨b, rfl⟩
  | number n => cases h; exact ⟨n, rfl⟩
  | string s => cases h; exact ⟨s, rfl⟩
  | array items => cases h; exact ⟨items, rfl, fun _ _ => trivial⟩
  | object members => cases h; exact trivial

section

variable {α : Type} (extend : α → Step → α)

theorem SampleType.check_null {type : SampleType} (h : type ≠ .object) (place : α) :
    type.shape.check extend (some .null) place = [type.shape.nullMismatch place] := by
  cases type with
  | object => exact absurd rfl h
  | _ => rfl

/-- No variant takes `null`, and none is a container that comes near it. -/
theorem Shape.check_union_null {types : List SampleType} (h : .object ∉ types) (place : α) :
    (union (types.map SampleType.shape)).check extend (some .null) place =
      [(union (types.map SampleType.shape)).nullMismatch place] := by
  have hrefused : ((types.map SampleType.shape).any fun variant =>
      variant.accepts (some .null)) = false := by
    rw [List.any_eq_false, List.forall_mem_map]
    intro type hmem haccepts
    have htype : type ≠ .object := fun he => h (he ▸ hmem)
    have hnil := (check_eq_nil_iff extend _ _ place).2 (accepts_iff.1 haccepts)
    rw [SampleType.check_null extend htype] at hnil
    cases hnil
  have hliterals : (types.map SampleType.shape).filterMap literalText? = [] := by
    rw [List.filterMap_map, List.filterMap_eq_nil_iff]
    intro type _
    cases type <;> rfl
  have hcontainers : ∀ variant ∈ types.map SampleType.shape,
      variant.sharesContainer (some .null) = false := by
    rw [List.forall_mem_map]
    intro type _
    cases type <;> rfl
  rw [check_union, hrefused, unionMismatch_checkEach, hliterals,
    nearestMismatches_eq_nil extend hcontainers]
  rfl

end

namespace Observation

/-- The shape of a field admits the values of its types. -/
theorem shape_admits {observation : Observation} {type : SampleType} {value : Json}
    (hmem : type ∈ observation.types) (htype : SampleType.ofJson? value = some type) :
    observation.shape.Admits (some value) := by
  have hvalue := SampleType.shape_admits htype
  unfold shape
  split
  · exact trivial
  · match htypes : observation.types with
    | [] => exact absurd (htypes ▸ hmem) List.not_mem_nil
    | [single] =>
      rw [htypes, List.mem_singleton] at hmem
      exact hmem ▸ hvalue
    | first :: second :: rest =>
      rw [htypes] at hmem
      exact Shape.admits_union.2 ⟨_, List.mem_map_of_mem hmem, hvalue⟩

section

variable {α : Type} (extend : α → Step → α)

/-- The shape of a field refuses `null`, unless it takes anything. -/
theorem check_null {observation : Observation} (h : observation.shape ≠ .any) (place : α) :
    observation.shape.check extend (some .null) place =
      [observation.shape.nullMismatch place] := by
  unfold shape at h ⊢
  split at h
  · exact absurd rfl h
  · next htypes =>
    rw [if_neg htypes]
    have hobject : SampleType.object ∉ observation.types := fun hmem => htypes (Or.inr hmem)
    match htypes : observation.types with
    | [] => exact absurd (Or.inl htypes) ‹_›
    | [single] =>
      rw [htypes, List.mem_singleton] at hobject
      exact SampleType.check_null extend (Ne.symm hobject) place
    | first :: second :: rest =>
      rw [htypes] at hobject
      exact Shape.check_union_null extend hobject place

end

/-! ### Values of a sample -/

section

variable {samples : List Members} {members : Members} {name : String}

/-- A field that a sample lacks is optional. -/
theorem present_lt_length (h : members ∈ samples) (hvalue : members.lookup name = none) :
    (ofName samples name).present < samples.length := by
  refine Nat.lt_of_le_of_ne List.countP_le_length fun hall => ?_
  have hhas := List.countP_eq_length.1 hall members h
  obtain ⟨⟨key, value⟩, hmem, hkey⟩ := List.any_eq_true.1 hhas
  have hne := List.lookup_eq_none_iff.1 hvalue _ hmem
  simp_all

/-- The type of a value that a sample has is one of the types of the field. -/
theorem mem_types (h : members ∈ samples) {value : Json}
    (hvalue : members.lookup name = some value) {type : SampleType}
    (htype : SampleType.ofJson? value = some type) : type ∈ (ofName samples name).types := by
  obtain ⟨before, after, rfl, -⟩ := List.lookup_eq_some_iff.1 hvalue
  refine List.mem_filter.2 ⟨by cases type <;> decide, ?_⟩
  refine List.any_eq_true.2 ⟨_, h, List.any_eq_true.2 ⟨(name, value), by simp, ?_⟩⟩
  simp [htype]

end

end Observation

/-! ### Mismatches of a sample -/

section

variable {documents : List Json} {members : Members} {declared : Field Shape}

theorem eq_field_of_mem_inferredFields (hdeclared : declared ∈ inferredFields documents) :
    declared = (Observation.ofName (Observation.samples documents) declared.name).field
      (Observation.samples documents).length := by
  obtain ⟨observation, hobservation, rfl⟩ := List.mem_map.1 hdeclared
  obtain ⟨name, -, rfl⟩ := List.mem_map.1 hobservation
  rfl

/-- A field that a sample lacks is optional. -/
theorem optional_of_lookup_eq_none (h : .object members ∈ documents)
    (hdeclared : declared ∈ inferredFields documents)
    (hvalue : members.lookup declared.name = none) : declared.optional = true := by
  rw [eq_field_of_mem_inferredFields hdeclared]
  exact decide_eq_true (Observation.present_lt_length (Observation.mem_samples.2 h) hvalue)

/-- A value that a sample has is admitted, unless it is `null`. -/
theorem admits_of_lookup_eq_some {value : Json} (h : .object members ∈ documents)
    (hdeclared : declared ∈ inferredFields documents)
    (hvalue : members.lookup declared.name = some value) (hnull : value ≠ .null) :
    declared.shape.Admits (some value) := by
  rw [eq_field_of_mem_inferredFields hdeclared]
  cases htype : SampleType.ofJson? value with
  | none => exact absurd (SampleType.ofJson?_eq_none_iff.1 htype) hnull
  | some type =>
    have hmem := Observation.mem_types (Observation.mem_samples.2 h) hvalue htype
    exact Observation.shape_admits hmem htype

variable {α : Type} (extend : α → Step → α)

theorem check_null_of_mem_inferredFields (hdeclared : declared ∈ inferredFields documents)
    (hany : declared.shape ≠ .any) (place : α) :
    declared.shape.check extend (some .null) place = [declared.shape.nullMismatch place] := by
  rw [eq_field_of_mem_inferredFields hdeclared] at hany ⊢
  exact Observation.check_null extend hany place

/-- An inferred field reports nothing of a sample but a refused `null`. -/
theorem check_of_mem_inferredFields (h : .object members ∈ documents)
    (hdeclared : declared ∈ inferredFields documents) (place : α) :
    (if declared.optional && Shape.isMissing (members.lookup declared.name) then []
      else declared.shape.check extend (members.lookup declared.name) place) =
      if refusesNull members declared then [declared.shape.nullMismatch place] else [] := by
  by_cases hrefuses : refusesNull members declared = true
  · obtain ⟨hvalue, hoptional, hany⟩ := refusesNull_iff.1 hrefuses
    rw [if_pos hrefuses, hvalue, hoptional]
    exact check_null_of_mem_inferredFields extend hdeclared hany place
  · rw [if_neg hrefuses, ite_eq_left_iff]
    intro hchecked
    rw [← Shape.leftOut_iff] at hchecked
    rw [Shape.check_eq_nil_iff]
    obtain hvalue | ⟨value, hvalue⟩ := Option.eq_none_or_eq_some (members.lookup declared.name)
    · exact absurd ⟨optional_of_lookup_eq_none h hdeclared hvalue, Or.inl hvalue⟩ hchecked
    rw [hvalue]
    by_cases hnull : value = .null
    · subst hnull
      -- Refused neither by the flag nor by the field, `null` meets the shape that takes anything.
      have hoptional : declared.optional = false :=
        Bool.eq_false_iff.2 fun ho => hchecked ⟨ho, Or.inr hvalue⟩
      have hany : declared.shape = .any := by
        by_contra hne
        exact hrefuses (refusesNull_iff.2 ⟨hvalue, hoptional, hne⟩)
      rw [hany]
      exact trivial
    · exact admits_of_lookup_eq_some h hdeclared hvalue hnull

/-- **The mismatches of a sample are its refused nulls.** -/
theorem check_sample (h : .object members ∈ documents) (place : α) :
    (Shape.object (inferredFields documents)).check extend (some (.object members)) place =
      (nullFields members (inferredFields documents)).map fun declared =>
        declared.shape.nullMismatch (extend place (.member declared.name)) := by
  have hall : ∀ declared ∈ inferredFields documents,
      (if declared.optional && Shape.isMissing (members.lookup declared.name) then []
        else declared.shape.check extend (members.lookup declared.name)
          (extend place (.member declared.name))) =
      if refusesNull members declared then
        [declared.shape.nullMismatch (extend place (.member declared.name))] else [] :=
    fun declared hmem => check_of_mem_inferredFields extend h hmem _
  rw [Shape.check_object, Observation.userFields_inferredFields, nullFields,
    List.map_eq_flatMap, ← flatMap_ite]
  exact List.flatMap_congr hall

end

/-- **Samples fit their own declaration, up to `null`.**  A sample gets one message for each field
that is `null` in it, that every sample has and that does not take anything, in the order of the
bytes of the names, and no other message; so it gets none if it holds no `null`. -/
theorem validate_sample {documents : List Json} {members : Members}
    (h : .object members ∈ documents) :
    (Shape.object (inferredFields documents)).validate (.object members) "" =
        ((nullFields members (inferredFields documents)).map fun declared =>
          (declared.shape.nullMismatch declared.name).message) ∧
      (∀ declared, declared ∈ nullFields members (inferredFields documents) ↔
        declared ∈ inferredFields documents ∧ members.lookup declared.name = some .null ∧
          declared.optional = false ∧ declared.shape ≠ .any) ∧
      ((nullFields members (inferredFields documents)).Pairwise fun a b =>
        Text.utf8Bytes a.name < Text.utf8Bytes b.name) ∧
      ((∀ name, members.lookup name ≠ some .null) →
        (Shape.object (inferredFields documents)).validate (.object members) "" = []) := by
  have hmessages : (Shape.object (inferredFields documents)).validate (.object members) "" =
      (nullFields members (inferredFields documents)).map fun declared =>
        (declared.shape.nullMismatch declared.name).message := by
    rw [Shape.validate, check_sample Place.extend h, List.map_map]
    rfl
  refine ⟨hmessages, fun _ => mem_nullFields, ?_, ?_⟩
  · exact (Observation.pairwise_inferredFields documents).filter _
  · intro hnulls
    rw [hmessages, List.map_eq_nil_iff, List.eq_nil_iff_forall_not_mem]
    intro declared hmem
    exact hnulls declared.name (mem_nullFields.1 hmem).2.1

/-- A sample with `null` for a field of two types and for a field that takes anything. -/
def sampleWithNulls : Members := [("a", .null), ("b", .null), ("c", .ofInt 1), ("_id", .null)]

/-- Documents with that sample, among them one that is no object. -/
def documentsWithNulls : List Json :=
  [.object sampleWithNulls, .array [],
    .object [("a", .string "x"), ("b", .object []), ("d", .null)],
    .object [("b", .bool true), ("a", .ofInt 2), ("c", .null)]]

theorem names_documentsWithNulls :
    Observation.names (Observation.samples documentsWithNulls) = ["a", "b", "c", "d"] :=
  List.mergeSort_of_pairwise (by decide +kernel)

theorem validate_sampleWithNulls : .object sampleWithNulls ∈ documentsWithNulls ∧
    (Shape.object (inferredFields documentsWithNulls)).validate (.object sampleWithNulls) "" =
      ["Type 'null' is not assignable to union v.union(v.float64(), v.string()) for a"] := by
  have hmem : .object sampleWithNulls ∈ documentsWithNulls := List.mem_cons_self
  refine ⟨hmem, (validate_sample hmem).1.trans ?_⟩
  rw [inferredFields, Observation.ofSamples, names_documentsWithNulls]
  decide +kernel

end DocShape
