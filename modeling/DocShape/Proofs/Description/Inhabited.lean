import DocShape.Description.Loading
import DocShape.Proofs.Shape.Parts

/-!
# Loaded unions have variants

A description of a union without variants is a fault, and a fault is read as
`any`; so no union in a loaded tree is empty.

* `Form.Proper`: what every form that is read off a node satisfies.
* `Shape.noEmptyUnion_ofJson`: **no loaded shape has an empty union inside**.
-/

namespace DocShape

theorem exists_of_bind_eq_ok {ε α β : Type} {x : Except ε α} {f : α → Except ε β} {b : β}
    (h : x >>= f = .ok b) : ∃ a, x = .ok a ∧ f a = .ok b := by
  cases x with
  | error e => cases h
  | ok a => exact ⟨a, rfl, h⟩

@[simp] theorem Omittable.value_required (place : String) (found : Noted Omittable) :
    (Omittable.required place found).value = found.value.shape := by
  rw [required]
  split <;> rfl

namespace Form

/-- A form whose leaf has no parts and whose union has variants. -/
def Proper : Form → Prop
  | leaf shape => shape.isLeaf = true
  | union variants => variants ≠ []
  | _ => True

theorem proper_of_ofTag {tag : String} {members : Members} {form : Form}
    (h : ofTag tag members = .ok form) : form.Proper := by
  unfold ofTag at h
  split at h
  -- the literal and the reference
  case h_13 | h_14 =>
    obtain ⟨_, _, h⟩ := exists_of_bind_eq_ok h
    cases h
    rfl
  -- the array and the object
  case h_15 | h_16 =>
    obtain ⟨_, _, h⟩ := exists_of_bind_eq_ok h
    cases h
    trivial
  -- the record
  case h_17 =>
    obtain ⟨_, _, h⟩ := exists_of_bind_eq_ok h
    obtain ⟨_, _, h⟩ := exists_of_bind_eq_ok h
    cases h
    trivial
  -- the union
  case h_18 =>
    split at h
    · cases h
      exact List.cons_ne_nil _ _
    · cases h
  -- the shape without values and the unknown tags
  case h_19 | h_20 => cases h
  all_goals
    cases h
    rfl

theorem proper_of_ofJson {node : Json} {form : Form} (h : ofJson node = .ok form) :
    form.Proper := by
  obtain ⟨members, _, h⟩ := exists_of_bind_eq_ok h
  obtain ⟨tag, _, h⟩ := exists_of_bind_eq_ok h
  exact proper_of_ofTag h

/-! ### The shape of a form -/

variable {child : String → Json → Noted Omittable}

theorem value_load_array (place : String) (element : Json) :
    ((array element).load child place).value =
      .array (child (Place.extend place .element) element).value.shape := by
  rw [load, Noted.value_map, Omittable.value_required]

theorem mem_fields_load {place : String} {entries : List (Option String × Json)}
    {field : Field Shape}
    (h : field ∈ ((object entries).load child place).value.fields) :
    ∃ name entry, (some name, entry) ∈ entries ∧
      field = ⟨name, (child (Place.member place name) entry).value.optional,
        (child (Place.member place name) entry).value.shape⟩ := by
  rw [load, Noted.value_map, Noted.value_traverse, Shape.fields, List.mem_filterMap] at h
  obtain ⟨found, hfound, he⟩ := h
  obtain ⟨⟨name?, entry⟩, hentry, rfl⟩ := List.mem_map.1 hfound
  cases name? with
  | none => cases he
  | some name =>
    cases he
    exact ⟨name, entry, hentry, rfl⟩

theorem value_load_object (place : String) (entries : List (Option String × Json)) :
    ((object entries).load child place).value =
      .object (entries.filterMap fun entry => (loadEntry child place entry).value) := by
  rw [load, Noted.value_map, Noted.value_traverse, List.filterMap_map]
  rfl

theorem value_load_record (place : String) (keys values : Json) :
    ((record keys values).load child place).value =
      .record (child (Place.extend place .key) keys).value.shape
        (child (Place.extend place .value) values).value.shape
        (child (Place.extend place .value) values).value.optional := by
  rw [load, Noted.value_bind, Noted.value_bind, Noted.value_pure, Omittable.value_required]

theorem value_load_union (place : String) (variants : List Json) :
    ((union variants).load child place).value =
      .union (variants.map fun variant => (child place variant).value.shape) := by
  rw [load, Noted.value_map, Noted.value_traverse]
  simp only [Omittable.value_required]

/-! ### Loaded shapes -/

/-- A proper form loads to a shape without empty unions if its nodes do. -/
theorem noEmptyUnion_load
    (hchild : ∀ place node, (child place node).value.shape.NoEmptyUnion) (place : String)
    {form : Form} (h : form.Proper) : (form.load child place).value.NoEmptyUnion := by
  cases form with
  | leaf shape => exact Shape.noEmptyUnion_leaf h
  | array element =>
    rw [value_load_array, Shape.noEmptyUnion_array]
    exact hchild _ element
  | object entries =>
    refine Shape.noEmptyUnion_object.2 fun field hfield => ?_
    obtain ⟨name, entry, _, rfl⟩ := mem_fields_load hfield
    exact hchild _ entry
  | record keys values =>
    rw [value_load_record, Shape.noEmptyUnion_record]
    exact ⟨hchild _ keys, hchild _ values⟩
  | union variants =>
    rw [value_load_union, Shape.noEmptyUnion_union]
    refine ⟨fun he => h (List.map_eq_nil_iff.1 he), fun shape hshape => ?_⟩
    obtain ⟨variant, _, rfl⟩ := List.mem_map.1 hshape
    exact hchild place variant

end Form

theorem Omittable.noEmptyUnion_load (settings : Settings) : ∀ (room : Nat) (place : String)
    (node : Json), (Omittable.load settings room place node).value.shape.NoEmptyUnion := by
  intro room
  induction room with
  | zero => intro place node; exact Shape.noEmptyUnion_leaf rfl
  | succ room ih =>
    intro place node
    cases hform : (Peeled.ofJson (settings.maxOptionalDepth + 1) node).core.bind Form.ofJson with
    | error fault =>
      rw [Omittable.load, hform]
      exact Shape.noEmptyUnion_leaf rfl
    | ok form =>
      rw [Omittable.load, hform]
      obtain ⟨core, _, hcore⟩ := exists_of_bind_eq_ok hform
      exact Form.noEmptyUnion_load ih place (Form.proper_of_ofJson hcore)

/-- **No loaded shape has an empty union inside.** -/
theorem Shape.noEmptyUnion_ofJson (settings : Settings) (node : Json) :
    (Shape.ofJson settings node).value.NoEmptyUnion := by
  rw [Shape.ofJson, Omittable.value_required]
  exact Omittable.noEmptyUnion_load settings _ "" node

end DocShape
