import DocShape.Proofs.Json.Members
import DocShape.Proofs.Shape.Acceptance

/-!
# Default values and the check

`Shape.default` builds a value and `Shape.check` holds it against the shape.  A
reference is left empty on purpose, so the default of some shapes cannot pass:
those that **force a reference**.  All others start with a value of theirs.

* `Shape.ForcesReference`: every value of the shape holds a reference that the
  default leaves empty.
* `Shape.admits_default`: **a shape that forces no reference admits its
  default**.
* `Shape.requiredReferences`: where the empty references stand.
* `Shape.length_check_default`: **without unions, there is one mismatch for each
  of them**.

Both recursions run over the same tree, and the default of a union is chosen by
the check itself; so the check is replaced by `Shape.Admits` first.
-/

namespace DocShape

theorem Literal.accepts_toJson (value : Literal) : value.accepts value.toJson = true := by
  cases value with
  | string s => exact beq_self_eq_true s
  | boolean b => exact beq_self_eq_true b
  | number n =>
    cases n with
    | integer n => exact beq_self_eq_true n
    | double d => exact beq_self_eq_true d.units

namespace Shape

/-! ### References that a default leaves empty -/

/-- A shape all of whose values hold a reference in a required place: a reference, an object with
such a user field that is required, or a union of such shapes only. -/
inductive ForcesReference : Shape → Prop
  | id (tableName : String) : ForcesReference (id tableName)
  | object {fields : List (Field Shape)} {field : Field Shape} : field ∈ userFields fields →
      field.optional = false → ForcesReference field.shape → ForcesReference (object fields)
  | union {variants : List Shape} : (∀ variant ∈ variants, ForcesReference variant) →
      ForcesReference (union variants)

theorem forcesReference_object {fields : List (Field Shape)} :
    (object fields).ForcesReference ↔ ∃ field ∈ userFields fields,
      field.optional = false ∧ field.shape.ForcesReference := by
  constructor
  · rintro (_ | ⟨hfield, hrequired, hforced⟩)
    exact ⟨_, hfield, hrequired, hforced⟩
  · rintro ⟨field, hfield, hrequired, hforced⟩
    exact .object hfield hrequired hforced

theorem forcesReference_union {variants : List Shape} :
    (union variants).ForcesReference ↔ ∀ variant ∈ variants, variant.ForcesReference := by
  constructor
  · rintro (_ | _ | hall)
    exact hall
  · exact .union

mutual

/-- The paths from a shape to the references that are reached through required user fields only. -/
def requiredReferences : Shape → List (List String)
  | id _ => [[]]
  | object fields => requiredReferencesOf fields
  | _ => []

def requiredReferencesOf : List (Field Shape) → List (List String)
  | [] => []
  | field :: rest =>
    (if field.optional || field.isSystem then []
      else field.shape.requiredReferences.map (field.name :: ·)) ++ requiredReferencesOf rest

end

theorem requiredReferencesOf_eq (fields : List (Field Shape)) :
    requiredReferencesOf fields = (userFields fields).flatMap fun field =>
      if field.optional then [] else field.shape.requiredReferences.map (field.name :: ·) := by
  induction fields with
  | nil => rfl
  | cons field rest ih =>
    rw [requiredReferencesOf, ih, userFields, userFields, List.filter_cons]
    cases field.isSystem with
    | true => rw [Bool.or_true]; rfl
    | false => rw [Bool.or_false]; rfl

/-! ### The default of an object -/

/-- What the default of an object holds under the name of a user field. -/
theorem lookup_requiredDefaults {fields : List (Field Shape)}
    (h : ((userFields fields).map (·.name)).Nodup) {field : Field Shape}
    (hfield : field ∈ userFields fields) :
    (Members.ofList (requiredDefaults fields)).lookup field.name =
      if field.optional then none else some field.shape.default := by
  have hrequired : requiredDefaults fields =
      ((userFields fields).filter fun field => !field.optional).map fun field =>
        (field.name, field.shape.default) := by
    rw [requiredDefaults_eq, userFields, List.filter_filter]
    congr 2
    funext field
    rw [Bool.not_or, Bool.and_comm]
  rw [hrequired, Members.lookup_ofList_filter h _ _ hfield]
  cases field.optional <;> rfl

/-! ### The default of a union -/

/-- If some variant accepts its default, the chosen default is one that its variant accepts. -/
theorem exists_mem_chooseDefault {variants : List (Shape × Json)}
    (h : ∃ variant ∈ variants, variant.1.accepts (some variant.2) = true) :
    ∃ shape, (shape, chooseDefault variants) ∈ variants ∧
      shape.accepts (some (chooseDefault variants)) = true := by
  obtain ⟨found, hfound⟩ := Option.isSome_iff_exists.1 (List.find?_isSome.2 h)
  have hmem := List.mem_of_find?_eq_some hfound
  have haccepts := List.find?_some hfound
  have hchosen : chooseDefault variants = found.2 := by
    rw [chooseDefault, hfound]
  exact ⟨found.1, hchosen ▸ hmem, hchosen ▸ haccepts⟩

theorem admits_default_union {variants : List Shape}
    (h : ∃ variant ∈ variants, variant.Admits (some variant.default)) :
    (union variants).Admits (some (union variants).default) := by
  obtain ⟨variant, hmem, hadmits⟩ := h
  have hpair :
      (variant, variant.default) ∈ variants.map fun variant => (variant, variant.default) :=
    List.mem_map_of_mem hmem
  obtain ⟨shape, hshape, haccepts⟩ := exists_mem_chooseDefault ⟨_, hpair, accepts_iff.2 hadmits⟩
  obtain ⟨other, hother, he⟩ := List.mem_map.1 hshape
  rw [admits_union, default, defaultEach_eq]
  refine ⟨shape, ?_, accepts_iff.1 haccepts⟩
  rw [← (Prod.mk.inj he).1]
  exact hother

/-! ### The default of a shape -/

/-- **A shape that forces no reference admits its default.** -/
theorem admits_default (shape : Shape) : shape.NoEmptyUnion → shape.DistinctUserNames →
    ¬ shape.ForcesReference → shape.Admits (some shape.default) := by
  induction shape using Shape.ind with
  | null => intro _ _ _; rfl
  | string => intro _ _ _; exact ⟨"", rfl⟩
  | boolean => intro _ _ _; exact ⟨false, rfl⟩
  | float64 => intro _ _ _; exact ⟨.integer 0, rfl⟩
  | int64 => intro _ _ _; exact ⟨0, rfl, by decide, by decide⟩
  | bytes => intro _ _ _; exact ⟨"", [], rfl, rfl⟩
  | any => intro _ _ _; trivial
  | literal value => intro _ _ _; exact ⟨value.toJson, rfl, value.accepts_toJson⟩
  | id tableName => intro _ _ hforces; exact absurd (.id tableName) hforces
  | array element _ => intro _ _ _; exact ⟨[], rfl, fun _ hitem => nomatch hitem⟩
  | record keys values optional _ _ =>
    intro _ _ _
    exact ⟨[], rfl, fun _ hmember => nomatch hmember⟩
  | object fields ih =>
    intro hunions hnames hforces
    rw [default, admits_object]
    intro field hfield
    rw [lookup_requiredDefaults hnames.nodup hfield]
    cases hoptional : field.optional with
    | true => exact Or.inl ⟨rfl, Or.inl rfl⟩
    | false =>
      have hmem := (mem_userFields.1 hfield).1
      have hfree : ¬ field.shape.ForcesReference :=
        fun hforced => hforces (forcesReference_object.2 ⟨field, hfield, hoptional, hforced⟩)
      exact Or.inr
        (ih field hmem (noEmptyUnion_object.1 hunions field hmem) (hnames.field hmem) hfree)
  | union variants ih =>
    intro hunions hnames hforces
    rw [forcesReference_union] at hforces
    push Not at hforces
    obtain ⟨variant, hmem, hvariant⟩ := hforces
    have hunion := (noEmptyUnion_union.1 hunions).2 variant hmem
    exact admits_default_union
      ⟨variant, hmem, ih variant hmem hunion (hnames.variant hmem) hvariant⟩

/-- **Without unions, the check reports one mismatch for each required reference.** -/
theorem length_check_default {α : Type} (extend : α → Step → α) (shape : Shape) :
    (∀ part ∈ shape.parts, ∀ variants, part ≠ union variants) → shape.DistinctUserNames →
    ∀ place, (shape.check extend (some shape.default) place).length =
      shape.requiredReferences.length := by
  have hadmitted : ∀ (shape : Shape) (place : α), shape.Admits (some shape.default) →
      (shape.check extend (some shape.default) place).length = 0 := by
    intro shape place h
    rw [(check_eq_nil_iff extend shape _ place).2 h, List.length_nil]
  induction shape using Shape.ind with
  | id tableName => intro _ _ _; rfl
  | object fields ih =>
    intro hunions hnames place
    rw [default, check_object, requiredReferences, requiredReferencesOf_eq, List.length_flatMap,
      List.length_flatMap]
    congr 1
    refine List.map_congr_left fun field hfield => ?_
    rw [lookup_requiredDefaults hnames.nodup hfield]
    cases hoptional : field.optional with
    | true => rfl
    | false =>
      have hmem := (mem_userFields.1 hfield).1
      rw [Bool.false_and, if_neg Bool.false_ne_true, if_neg Bool.false_ne_true,
        if_neg Bool.false_ne_true, List.length_map]
      exact ih field hmem ((forall_parts_object.1 hunions).2 field hmem) (hnames.field hmem) _
  | union variants _ =>
    intro hunions _ _
    exact absurd rfl (hunions _ (self_mem_parts _) variants)
  | _ =>
    intro hunions hnames place
    refine hadmitted _ place (admits_default _ (fun part hpart => hunions part hpart []) hnames ?_)
    rintro ⟨⟩

/-! ### Validation of defaults -/

/-- **Which defaults validate.**  The default of a shape that forces no reference validates without
messages; without unions, there is one message for each required reference. -/
theorem validate_default (shape : Shape) (hunions : shape.NoEmptyUnion)
    (hnames : shape.DistinctUserNames) :
    (¬ shape.ForcesReference → ∀ place, shape.validate shape.default place = []) ∧
    ((∀ part ∈ shape.parts, ∀ variants, part ≠ union variants) → ∀ place,
      (shape.validate shape.default place).length = shape.requiredReferences.length) := by
  constructor
  · intro hforces place
    rw [validate, List.map_eq_nil_iff, check_eq_nil_iff]
    exact admits_default shape hunions hnames hforces
  · intro hunions place
    rw [validate, List.length_map]
    exact length_check_default Place.extend shape hunions hnames place

/-- A union with two variants that force a reference and one that does not, and an object with two
required references among four. -/
theorem validate_default_mixed :
    let choice := union [id "users", object [⟨"owner", false, id "users"⟩],
      object [⟨"name", false, string⟩, ⟨"friend", true, id "users"⟩]]
    let nested := object [⟨"owner", false, id "users"⟩, ⟨"_owner", false, id "users"⟩,
      ⟨"tags", false, array (id "tags")⟩, ⟨"friend", true, id "users"⟩,
      ⟨"home", false, object [⟨"city", false, id "cities"⟩]⟩]
    (choice.NoEmptyUnion ∧ choice.DistinctUserNames ∧ ¬ choice.ForcesReference ∧
      choice.validate choice.default "p" = []) ∧
    nested.NoEmptyUnion ∧ nested.DistinctUserNames ∧
      (∀ part ∈ nested.parts, ∀ variants, part ≠ union variants) ∧
      (nested.validate nested.default "p").length = 2 := by
  intro choice nested
  have hchoice : choice.NoEmptyUnion := by
    simp [choice, NoEmptyUnion, parts, partsOfFields, partsOfAll]
  have hchoiceNames : choice.DistinctUserNames := by
    simp [choice, DistinctUserNames, parts, partsOfFields, partsOfAll, fields, userFields,
      Field.isSystem, Text.isSystemName]
  have hfree : ¬ choice.ForcesReference := by
    intro hforced
    have hlast := forcesReference_union.1 hforced _
      (List.mem_cons_of_mem _ (List.mem_cons_of_mem _ List.mem_cons_self))
    obtain ⟨field, hfield, hrequired, hforced⟩ := forcesReference_object.1 hlast
    rcases (mem_userFields.1 hfield).1 with _ | ⟨_, _ | ⟨_, ⟨⟩⟩⟩
    · cases hforced
    · cases hrequired
  have hnested : ∀ part ∈ nested.parts, ∀ variants, part ≠ union variants := by
    simp [nested, parts, partsOfFields]
  have hnestedNames : nested.DistinctUserNames := by
    simp [nested, DistinctUserNames, parts, partsOfFields, fields, userFields,
      Field.isSystem, Text.isSystemName]
  have hnestedUnions : nested.NoEmptyUnion := fun part hpart => hnested part hpart []
  refine ⟨⟨hchoice, hchoiceNames, hfree, ?_⟩, hnestedUnions, hnestedNames, hnested, ?_⟩
  · exact (validate_default choice hchoice hchoiceNames).1 hfree "p"
  · rw [(validate_default nested hnestedUnions hnestedNames).2 hnested "p"]
    decide +kernel

end Shape

end DocShape
