import DocShape.Proofs.Description.Dialect
import DocShape.Proofs.Description.Loading
import DocShape.Proofs.Json.Members
import DocShape.Proofs.Shape.Depth
import DocShape.Proofs.Shape.Parts

/-!
# Loading the description of a shape

A description in either dialect, its tags in any mix of case, is loaded as the
shape it was written for, and nothing is repaired on the way.

* `Form.ofTag_of_isTag`: a tag is read as the kind of its shape.
* `Form.ofJson_description_array` and its companions: what the description of a
  shape is read as, one for each kind with parts.
* `Shape.LoadsBack`: a shape's descriptions are loaded as the shape, by a loader
  for so many levels.  One lemma for each kind says that a level more is enough
  for what stands around shapes that load back.
* `Shape.ofJson_description`: **descriptions are loaded as what they describe**.
-/

namespace DocShape

/-! ### Tags -/

theorem lowerTag_congr {s t : String} (h : Text.SameButCase s t) : lowerTag s = lowerTag t :=
  congrArg String.ofList h

section

variable {dialect : Dialect} {shape : Shape} {tag : String}

theorem Dialect.IsTag.exists_lowerTag_eq (h : dialect.IsTag shape tag) :
    ∃ name ∈ dialect.tagNames shape, lowerTag tag = lowerTag name := by
  obtain ⟨name, hname, hcase⟩ := h
  exact ⟨name, hname, lowerTag_congr hcase⟩

/-- A tag of either dialect is read like the name of the kind, of which the others are aliases. -/
theorem Form.ofTag_of_isTag (h : dialect.IsTag shape tag) (members : Members) :
    ofTag (lowerTag tag) members = ofTag shape.kindText members := by
  obtain ⟨name, hname, heq⟩ := h.exists_lowerTag_eq
  rw [heq]
  cases dialect <;> cases shape <;>
    simp only [Dialect.tagNames, Dialect.pick, List.mem_cons, List.not_mem_nil, or_false]
      at hname <;>
    rcases hname with rfl | rfl <;> rfl

theorem Dialect.IsTag.ne_optional (h : dialect.IsTag shape tag) : lowerTag tag ≠ "optional" := by
  obtain ⟨name, hname, heq⟩ := h.exists_lowerTag_eq
  rw [heq]
  cases dialect <;> cases shape <;>
    simp only [tagNames, pick, List.mem_cons, List.not_mem_nil, or_false] at hname <;>
    rcases hname with rfl | rfl <;> decide

end

/-! ### Descriptions as nodes -/

theorem Literal.ofJson?_toJson (value : Literal) : ofJson? value.toJson = some value := by
  cases value <;> rfl

theorem Dialect.entries?_fieldsMember (dialect : Dialect) {fields : List (Field Json)}
    (hnames : (fields.map (·.name)).Nodup) :
    Form.entries? (dialect.fieldsMember fields).2 =
      some (fields.map fun field => (some field.name, dialect.fieldEntry field)) := by
  cases dialect with
  | validator =>
    have hkept : ((fields.map fun field => (field.name, validator.fieldEntry field)).map
        (·.1)).Nodup := by
      rw [List.map_map]
      exact hnames
    show some ((Members.ofList _).map _) = _
    rw [Members.ofList_of_nodup hkept, List.map_map]
    rfl
  | shape =>
    show some ((fields.map _).map Form.listEntry) = _
    rw [List.map_map]
    rfl

section

variable (dialect : Dialect) (tag : List Step → Shape → String) (place : List Step)

theorem Shape.exists_description_eq (shape : Shape) : ∃ parts : Members,
    shape.description dialect tag place = .object (("type", .string (tag place shape)) :: parts) ∧
      parts.lookup "optional" = none := by
  cases dialect <;> cases shape <;> exact ⟨_, rfl, rfl⟩

theorem isFlaggedOptional_description (shape : Shape) :
    isFlaggedOptional (shape.description dialect tag place) = false := by
  obtain ⟨parts, hparts, hoptional⟩ := shape.exists_description_eq dialect tag place
  have hnone : (shape.description dialect tag place).get? "optional" = none := by
    rw [hparts]
    exact hoptional
  rw [isFlaggedOptional, hnone]
  rfl

variable {dialect tag place}

theorem Layer.ofJson_description_eq {shape : Shape} (htag : dialect.IsTag shape (tag place shape)) :
    ofJson (shape.description dialect tag place) = .core := by
  obtain ⟨parts, hparts, -⟩ := shape.exists_description_eq dialect tag place
  rw [hparts]
  exact ofJson_of_typeTag rfl htag.ne_optional

namespace Form

theorem ofJson_description_leaf {shape : Shape} (hleaf : shape.isLeaf = true)
    (htag : dialect.IsTag shape (tag place shape)) :
    ofJson (shape.description dialect tag place) = .ok (leaf shape) := by
  obtain ⟨parts, hparts, -⟩ := shape.exists_description_eq dialect tag place
  rw [hparts, ofJson_of_typeTag rfl, ofTag_of_isTag htag]
  cases shape with
  | literal value =>
    cases hparts
    -- The scalar under `value` is told from absence only by reading it back.
    show (part (Literal.ofJson? value.toJson) _ >>= fun value => _) = _
    rw [Literal.ofJson?_toJson]
    rfl
  | id tableName =>
    cases hparts
    rfl
  | array _ | object _ | record _ _ _ | union _ => cases hleaf
  | _ => rfl

theorem ofJson_description_array {element : Shape}
    (htag : dialect.IsTag (.array element) (tag place (.array element))) :
    ofJson ((Shape.array element).description dialect tag place) =
      .ok (array (element.description dialect tag (place ++ [.element]))) := by
  obtain ⟨parts, hparts, -⟩ := element.exists_description_eq dialect tag (place ++ [.element])
  rw [Shape.description, ofJson_of_typeTag rfl, ofTag_of_isTag htag, hparts]
  cases dialect <;> rfl

theorem ofJson_description_object {fields : List (Field Shape)}
    (hnames : (fields.map (·.name)).Nodup)
    (htag : dialect.IsTag (.object fields) (tag place (.object fields))) :
    ofJson ((Shape.object fields).description dialect tag place) =
      .ok (object (fields.map fun field => (some field.name, dialect.fieldEntry
        ⟨field.name, field.optional,
          field.shape.description dialect tag (place ++ [.member field.name])⟩))) := by
  rw [Shape.description, ofJson_of_typeTag rfl, ofTag_of_isTag htag, Shape.descriptionsOfFields_eq]
  have hdescribed : ((fields.map fun field => (⟨field.name, field.optional,
      field.shape.description dialect tag (place ++ [.member field.name])⟩ : Field Json)).map
        (·.name)).Nodup := by
    rw [List.map_map]
    exact hnames
  have hentries := dialect.entries?_fieldsMember hdescribed
  rw [List.map_map] at hentries
  have hgiven : ∀ (type : Json) (described : List (Field Json)),
      (firstGiven? [("type", type), dialect.fieldsMember described] ["value", "fields"]).bind
        entries? = entries? (dialect.fieldsMember described).2 := by
    intro type described
    cases dialect <;> rfl
  show (part ((firstGiven? _ ["value", "fields"]).bind entries?) .objectWithoutFields >>=
    fun entries => .ok (object entries)) = _
  rw [hgiven, hentries]
  rfl

theorem ofJson_description_record {keys values : Shape} {optional : Bool}
    (htag : dialect.IsTag (.record keys values optional)
      (tag place (.record keys values optional))) :
    ofJson ((Shape.record keys values optional).description dialect tag place) =
      .ok (record (keys.description dialect tag (place ++ [.key]))
        (.object (dialect.slot (values.description dialect tag (place ++ [.value])) optional))) := by
  obtain ⟨parts, hparts, -⟩ := keys.exists_description_eq dialect tag (place ++ [.key])
  rw [Shape.description, ofJson_of_typeTag rfl, ofTag_of_isTag htag, hparts]
  cases dialect <;> rfl

theorem ofJson_description_union {variants : List Shape} (hvariants : variants ≠ [])
    (htag : dialect.IsTag (.union variants) (tag place (.union variants))) :
    ofJson ((Shape.union variants).description dialect tag place) =
      .ok (union (variants.zipIdx.map fun entry =>
        entry.1.description dialect tag (place ++ [.item entry.2]))) := by
  obtain ⟨first, rest, rfl⟩ := List.exists_cons_of_ne_nil hvariants
  rw [Shape.description, ofJson_of_typeTag rfl, ofTag_of_isTag htag, ← Shape.descriptionsOfAll_eq]
  cases dialect <;> rfl

end Form

end

/-! ### Loading them -/

section

variable {settings : Settings} {dialect : Dialect} {tag : List Step → Shape → String}

/-- Whether the descriptions of a shape are loaded as the shape where `room` levels of nodes may
follow. -/
def Shape.LoadsBack (settings : Settings) (dialect : Dialect) (tag : List Step → Shape → String)
    (room : Nat) (shape : Shape) : Prop :=
  ∀ (place : List Step) (position : String),
    Omittable.load settings room position (shape.description dialect tag place) =
      pure ⟨shape, false⟩

/-- Without room nothing is loaded back. -/
theorem Shape.LoadsBack.exists_room_eq {room : Nat} {shape : Shape}
    (h : shape.LoadsBack settings dialect tag room) : ∃ left, room = left + 1 := by
  cases room with
  | zero => cases congrArg Noted.notices (h [] "")
  | succ left => exact ⟨left, rfl⟩

namespace Omittable

variable (htag : ∀ place shape, dialect.IsTag shape (tag place shape))
  (hmarkers : 1 ≤ settings.maxOptionalDepth) {room : Nat} {shape : Shape}
  (h : shape.LoadsBack settings dialect tag room)
include htag hmarkers h

/-- A node without a tag around a description adds its own flag to the shape. -/
theorem load_wrapped {members : Members} {place : List Step} (htype : typeTag? members = none)
    (hinner : firstGiven? members ["fieldType", "shape"] =
      some (shape.description dialect tag place)) (position : String) :
    load settings room position (.object members) =
      pure ⟨shape, isFlaggedOptional (.object members)⟩ := by
  obtain ⟨left, rfl⟩ := h.exists_room_eq
  have hwrapper : Layer.ofJson (.object members) = .wrapper (shape.description dialect tag place) :=
    Layer.ofJson_of_wrapped htype hinner
  have hcore : Layer.ofJson (shape.description dialect tag place) = .core :=
    Layer.ofJson_description_eq (htag place shape)
  rw [load_of_wrapper hwrapper hcore hmarkers, h place position, Noted.map_pure, Bool.or_false]

theorem load_slot (place : List Step) (optional : Bool) (position : String) :
    load settings room position
      (.object (dialect.slot (shape.description dialect tag place) optional)) =
      pure ⟨shape, optional⟩ := by
  obtain ⟨parts, hparts, -⟩ := shape.exists_description_eq dialect tag place
  have hinner : firstGiven? (dialect.slot (shape.description dialect tag place) optional)
      ["fieldType", "shape"] = some (shape.description dialect tag place) := by
    rw [hparts]
    cases dialect <;> rfl
  have htype : typeTag? (dialect.slot (shape.description dialect tag place) optional) = none := by
    cases dialect <;> rfl
  rw [load_wrapped htag hmarkers h htype hinner]
  cases dialect <;> rfl

theorem load_fieldEntry (place : List Step) (name : String) (optional : Bool)
    (position : String) :
    load settings room position
      (dialect.fieldEntry ⟨name, optional, shape.description dialect tag place⟩) =
      pure ⟨shape, optional⟩ := by
  cases dialect with
  | validator => exact load_slot htag hmarkers h place optional position
  | shape =>
    obtain ⟨parts, hparts, -⟩ := shape.exists_description_eq .shape tag place
    have hinner : firstGiven? (("fieldName", .string name) ::
        Dialect.shape.slot (shape.description .shape tag place) optional) ["fieldType", "shape"] =
        some (shape.description .shape tag place) := by
      rw [hparts]
      rfl
    rw [Dialect.fieldEntry, load_wrapped htag hmarkers h rfl hinner]
    rfl

end Omittable

namespace Shape.LoadsBack

variable (htag : ∀ place shape, dialect.IsTag shape (tag place shape))
include htag

/-- It is enough to load what the descriptions are read as. -/
theorem of_form {shape : Shape} {room : Nat}
    (h : ∀ (place : List Step) (position : String), ∃ form : Form,
      Form.ofJson (shape.description dialect tag place) = .ok form ∧
        form.load (Omittable.load settings room) position = pure shape) :
    shape.LoadsBack settings dialect tag (room + 1) := by
  intro place position
  obtain ⟨form, hform, hload⟩ := h place position
  have hcore : Layer.ofJson (shape.description dialect tag place) = .core :=
    Layer.ofJson_description_eq (htag place shape)
  rw [Omittable.load_of_core hcore hform, hload, isFlaggedOptional_description, Noted.map_pure]

theorem leaf {shape : Shape} (hleaf : shape.isLeaf = true) (room : Nat) :
    shape.LoadsBack settings dialect tag (room + 1) := by
  refine of_form htag ?_
  intro place position
  exact ⟨.leaf shape, Form.ofJson_description_leaf hleaf (htag place shape), rfl⟩

theorem array {element : Shape} {room : Nat} (h : element.LoadsBack settings dialect tag room) :
    (array element).LoadsBack settings dialect tag (room + 1) := by
  refine of_form htag ?_
  intro place position
  refine ⟨_, Form.ofJson_description_array (htag _ _), ?_⟩
  rw [Form.load, h, Omittable.required_pure, Noted.map_pure]

theorem union {variants : List Shape} (hvariants : variants ≠ []) {room : Nat}
    (h : ∀ variant ∈ variants, variant.LoadsBack settings dialect tag room) :
    (union variants).LoadsBack settings dialect tag (room + 1) := by
  refine of_form htag ?_
  intro place position
  refine ⟨_, Form.ofJson_description_union hvariants (htag _ _), ?_⟩
  have hall : Noted.traverse (fun variant =>
      Omittable.required position (Omittable.load settings room position variant))
        (variants.zipIdx.map fun entry =>
          entry.1.description dialect tag (place ++ [.item entry.2])) =
      pure (variants.zipIdx.map Prod.fst) := by
    refine Noted.traverse_map_eq_pure ?_
    intro entry hentry
    have hmem : entry.1 ∈ variants := List.fst_mem_of_mem_zipIdx hentry
    rw [h entry.1 hmem, Omittable.required_pure]
  rw [Form.load, hall, Noted.map_pure, List.zipIdx_map_fst]

variable (hmarkers : 1 ≤ settings.maxOptionalDepth)
include hmarkers

theorem object {fields : List (Field Shape)} (hnames : (fields.map (·.name)).Nodup) {room : Nat}
    (h : ∀ field ∈ fields, field.shape.LoadsBack settings dialect tag room) :
    (object fields).LoadsBack settings dialect tag (room + 1) := by
  refine of_form htag ?_
  intro place position
  refine ⟨_, Form.ofJson_description_object hnames (htag _ _), ?_⟩
  have hall : Noted.traverse (Form.loadEntry (Omittable.load settings room) position)
      (fields.map fun field => (some field.name, dialect.fieldEntry ⟨field.name, field.optional,
        field.shape.description dialect tag (place ++ [.member field.name])⟩)) =
      pure (fields.map some) := by
    refine Noted.traverse_map_eq_pure ?_
    intro field hfield
    have hentry := Omittable.load_fieldEntry htag hmarkers (h field hfield)
    rw [Form.loadEntry, hentry, Noted.map_pure]
  rw [Form.load, hall, Noted.map_pure, List.filterMap_map, Function.id_comp, List.filterMap_some]

theorem record {keys values : Shape} {optional : Bool} {room : Nat}
    (hkeys : keys.LoadsBack settings dialect tag room)
    (hvalues : values.LoadsBack settings dialect tag room) :
    (record keys values optional).LoadsBack settings dialect tag (room + 1) := by
  refine of_form htag ?_
  intro place position
  refine ⟨_, Form.ofJson_description_record (htag _ _), ?_⟩
  have hslot := Omittable.load_slot htag hmarkers hvalues
  rw [Form.load, hkeys, Omittable.required_pure, Noted.pure_bind, hslot, Noted.pure_bind]

/-- With room for the deepest shape inside, a tree loads back.  The room is passed on less one, and
what stands inside is less deep. -/
theorem of_depth_lt {shape : Shape} : ∀ {room : Nat}, shape.NoEmptyUnion → shape.DistinctNames →
    shape.depth < room → shape.LoadsBack settings dialect tag room := by
  induction shape using Shape.ind with
  | array element ih =>
    intro room hunion hnames hdepth
    rw [depth] at hdepth
    obtain ⟨left, rfl⟩ := Nat.exists_eq_add_of_lt hdepth
    exact array htag (ih (noEmptyUnion_array.1 hunion) (forall_parts_array.1 hnames).2 (by omega))
  | object fields ih =>
    intro room hunion hnames hdepth
    obtain ⟨left, rfl⟩ := Nat.exists_eq_add_of_lt hdepth
    have hparts := forall_parts_object.1 hnames
    have hnodup : (fields.map (·.name)).Nodup := hparts.1
    refine object htag hmarkers hnodup ?_
    intro field hfield
    have hlt := depth_lt_of_mem_fields hfield
    exact ih field hfield (noEmptyUnion_object.1 hunion field hfield) (hparts.2 field hfield)
      (by omega)
  | record keys values optional ihkeys ihvalues =>
    intro room hunion hnames hdepth
    rw [depth] at hdepth
    obtain ⟨left, rfl⟩ := Nat.exists_eq_add_of_lt hdepth
    have hparts := forall_parts_record.1 hnames
    have hunions := noEmptyUnion_record.1 hunion
    exact record htag hmarkers (ihkeys hunions.1 hparts.2.1 (by omega))
      (ihvalues hunions.2 hparts.2.2 (by omega))
  | union variants ih =>
    intro room hunion hnames hdepth
    obtain ⟨left, rfl⟩ := Nat.exists_eq_add_of_lt hdepth
    obtain ⟨hvariants, hunions⟩ := noEmptyUnion_union.1 hunion
    refine union htag hvariants ?_
    intro variant hvariant
    have hlt := depth_lt_of_mem_variants hvariant
    exact ih variant hvariant (hunions variant hvariant)
      ((forall_parts_union.1 hnames).2 variant hvariant) (by omega)
  | _ =>
    intro room _ _ hdepth
    obtain ⟨left, rfl⟩ := Nat.exists_eq_add_of_lt hdepth
    exact leaf htag rfl _

end Shape.LoadsBack

/-- **Descriptions are loaded as what they describe**, in either dialect, under any choice of case
for each tag, and nothing is noticed on the way. -/
theorem Shape.ofJson_description {shape : Shape} (hunion : shape.NoEmptyUnion)
    (hnames : shape.DistinctNames) (hmarkers : 1 ≤ settings.maxOptionalDepth)
    (hdepth : shape.depth ≤ settings.maxNestingDepth)
    (htag : ∀ place shape, dialect.IsTag shape (tag place shape)) :
    ofJson settings (shape.description dialect tag []) = ⟨shape, []⟩ := by
  have hback : shape.LoadsBack settings dialect tag (settings.maxNestingDepth + 1) :=
    LoadsBack.of_depth_lt htag hmarkers hunion hnames (Nat.lt_succ_of_le hdepth)
  rw [ofJson, hback [] "", Omittable.required_pure]
  rfl

end

namespace Shape

/-- Tags of the capitalised dialect, three of them in a case of their own. -/
def mixedTag : Shape → String
  | string => "string"
  | object _ => "OBJECT"
  | union _ => "uNION"
  | shape => (Dialect.shape.tagNames shape).headD ""

theorem isTag_mixedTag (shape : Shape) : Dialect.shape.IsTag shape shape.mixedTag := by
  cases shape with
  | object _ =>
    have hcase : Text.SameButCase "OBJECT" "Object" := by decide
    exact ⟨_, List.mem_cons_self, hcase⟩
  | union _ =>
    have hcase : Text.SameButCase "uNION" "Union" := by decide
    exact ⟨_, List.mem_cons_self, hcase⟩
  | _ => exact ⟨_, List.mem_cons_self, rfl⟩

/-- A tree with the fewest levels and markers that will do. -/
theorem ofJson_description_mixedTag :
    let shape := object [⟨"author", false, id "users"⟩,
      ⟨"scores", true, record string (union [null, float64]) true⟩]
    let settings : Settings := { maxOptionalDepth := 1, maxNestingDepth := 3 }
    shape.NoEmptyUnion ∧ shape.DistinctNames ∧ shape.depth ≤ settings.maxNestingDepth ∧
      ofJson settings (.object [("type", .string "OBJECT"), ("fields", .array [
        .object [("fieldName", .string "author"),
          ("shape", .object [("type", .string "Id"), ("tableName", .string "users")]),
          ("optional", .bool false)],
        .object [("fieldName", .string "scores"),
          ("shape", .object [("type", .string "Record"),
            ("keyShape", .object [("type", .string "string")]),
            ("valueShape", .object [("shape", .object [("type", .string "uNION"),
              ("shapes", .array [.object [("type", .string "Null")],
                .object [("type", .string "Float64")]])]),
              ("optional", .bool true)])]),
          ("optional", .bool true)]])]) = ⟨shape, []⟩ := by
  intro shape settings
  have hunion : shape.NoEmptyUnion := by
    simp [shape, NoEmptyUnion, parts, partsOfFields, partsOfAll]
  have hnames : shape.DistinctNames := by
    simp [shape, DistinctNames, parts, partsOfFields, partsOfAll, fields]
  have hdepth : shape.depth ≤ settings.maxNestingDepth := by decide
  have hloaded : ofJson settings (shape.description .shape (fun _ => mixedTag) []) = ⟨shape, []⟩ :=
    ofJson_description hunion hnames (Nat.le_refl 1) hdepth fun _ => isTag_mixedTag
  exact ⟨hunion, hnames, hdepth, hloaded⟩

end Shape

end DocShape
