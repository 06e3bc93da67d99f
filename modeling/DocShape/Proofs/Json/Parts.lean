import DocShape.Shape.Default

/-!
# The values inside a value

A condition on every object inside a JSON value is a condition on its **parts**:
the value itself and all values inside it, at any depth.

* `Json.parts`: the parts, each before its own parts.
* `Json.HasUserNamesOnly`: no object anywhere in the value has a member under the
  name of a system field.
* `Json.hasUserNamesOnly_ofList`: an object built from fields has this property if
  no field has such a name and the value of each field has it.
* `Json.DistinctNames`: no object anywhere in the value has two members of one name.
-/

namespace DocShape

/-! ### Members built from a list -/

namespace Members

theorem mem_put {name : String} {value : Json} {members : Members} {member : String × Json}
    (h : member ∈ put name value members) : member = (name, value) ∨ member ∈ members := by
  induction members with
  | nil => exact Or.inl (List.mem_singleton.1 h)
  | cons first rest ih =>
    obtain ⟨key, old⟩ := first
    rw [put] at h
    split at h
    · next hkey =>
      rcases List.mem_cons.1 h with rfl | hrest
      · exact Or.inl (hkey ▸ rfl)
      · exact Or.inr (List.mem_cons_of_mem _ hrest)
    · rcases List.mem_cons.1 h with rfl | hrest
      · exact Or.inr List.mem_cons_self
      · exact (ih hrest).imp_right (List.mem_cons_of_mem _)

theorem mem_put_self {name : String} {value : Json} {members : Members} :
    (name, value) ∈ put name value members := by
  induction members with
  | nil => exact List.mem_singleton_self _
  | cons member rest ih =>
    obtain ⟨key, old⟩ := member
    rw [put]
    split
    · next hkey =>
      rw [hkey]
      exact List.mem_cons_self
    · exact List.mem_cons_of_mem _ ih

/-- Every member of an object built from fields is one of the fields. -/
theorem mem_of_mem_ofList {fields : List (String × Json)} {member : String × Json}
    (h : member ∈ ofList fields) : member ∈ fields := by
  have aux : ∀ (fields : List (String × Json)) (kept : Members),
      member ∈ fields.foldl (fun members field => members.put field.1 field.2) kept →
      member ∈ kept ∨ member ∈ fields := by
    intro fields
    induction fields with
    | nil => intro kept h; exact Or.inl h
    | cons field rest ih =>
      intro kept h
      rcases ih _ h with hput | hrest
      · rcases mem_put hput with rfl | hkept
        · exact Or.inr List.mem_cons_self
        · exact Or.inl hkept
      · exact Or.inr (List.mem_cons_of_mem _ hrest)
  exact (aux fields [] h).resolve_left List.not_mem_nil

end Members

namespace Json

/-! ### Parts -/

mutual

/-- A value and all values inside it. -/
def parts : Json → List Json
  | array items => array items :: partsOfItems items
  | object members => object members :: partsOfMembers members
  | scalar => [scalar]

def partsOfItems : List Json → List Json
  | [] => []
  | item :: rest => item.parts ++ partsOfItems rest

def partsOfMembers : List (String × Json) → List Json
  | [] => []
  | (_, value) :: rest => value.parts ++ partsOfMembers rest

end

theorem partsOfItems_eq (items : List Json) : partsOfItems items = items.flatMap parts := by
  induction items with
  | nil => rfl
  | cons item rest ih => rw [partsOfItems, ih, List.flatMap_cons]

theorem partsOfMembers_eq (members : Members) :
    partsOfMembers members = members.flatMap fun member => member.2.parts := by
  induction members with
  | nil => rfl
  | cons member rest ih => rw [partsOfMembers, ih, List.flatMap_cons]

theorem self_mem_parts (value : Json) : value ∈ value.parts := by
  cases value <;> exact List.mem_cons_self

theorem parts_subset_of_mem_items {items : List Json} {item : Json} (h : item ∈ items) :
    item.parts ⊆ (array items).parts := by
  intro part hpart
  rw [parts, partsOfItems_eq]
  exact List.mem_cons_of_mem _ (List.mem_flatMap.2 ⟨item, h, hpart⟩)

theorem parts_subset_of_mem_members {members : Members} {member : String × Json}
    (h : member ∈ members) : member.2.parts ⊆ (object members).parts := by
  intro part hpart
  rw [parts, partsOfMembers_eq]
  exact List.mem_cons_of_mem _ (List.mem_flatMap.2 ⟨member, h, hpart⟩)

theorem parts_subset_of_lookup {members : Members} {name : String} {value : Json}
    (h : members.lookup name = some value) : value.parts ⊆ (object members).parts := by
  obtain ⟨before, after, rfl, -⟩ := List.lookup_eq_some_iff.1 h
  have hmem : (name, value) ∈ before ++ (name, value) :: after := by simp
  exact parts_subset_of_mem_members hmem

/-! ### Names of system fields -/

/-- **Only names of user fields**: no object in the value has a member that belongs to the
storage. -/
def HasUserNamesOnly (value : Json) : Prop :=
  ∀ part ∈ value.parts, ∀ members, part = object members →
    ∀ member ∈ members, Text.isSystemName member.1 = false

theorem hasUserNamesOnly_scalar {value : Json} (h : value.parts = [value])
    (hobject : ∀ members, value ≠ object members) : value.HasUserNamesOnly := by
  intro part hpart members he
  rw [h, List.mem_singleton] at hpart
  exact absurd (hpart ▸ he) (hobject members)

theorem hasUserNamesOnly_object {members : Members} :
    (object members).HasUserNamesOnly ↔
      ∀ member ∈ members, Text.isSystemName member.1 = false ∧ member.2.HasUserNamesOnly := by
  rw [HasUserNamesOnly, parts, List.forall_mem_cons, partsOfMembers_eq, List.forall_mem_flatMap]
  simp only [object.injEq, forall_eq']
  constructor
  · rintro ⟨hnames, hvalues⟩ member hmember
    exact ⟨hnames member hmember, hvalues member hmember⟩
  · intro h
    exact ⟨fun member hmember => (h member hmember).1, fun member hmember => (h member hmember).2⟩

/-- An object built from fields has only names of user fields if the fields and their values do. -/
theorem hasUserNamesOnly_ofList {fields : List (String × Json)}
    (h : ∀ field ∈ fields, Text.isSystemName field.1 = false ∧ field.2.HasUserNamesOnly) :
    (object (Members.ofList fields)).HasUserNamesOnly :=
  hasUserNamesOnly_object.2 fun member hmember => h member (Members.mem_of_mem_ofList hmember)

/-! ### Distinct names -/

/-- **Distinct names**: no object in the value has two members of one name, as is the case for
every value that is read from a text. -/
def DistinctNames (value : Json) : Prop :=
  ∀ part ∈ value.parts, ∀ members, part = object members → (members.map (·.1)).Nodup

theorem members?_eq_some_iff {value : Json} {members : Members} :
    value.members? = some members ↔ value = object members := by
  cases value <;> simp [members?]

theorem DistinctNames.nodup {members : Members} (h : (object members).DistinctNames) :
    (members.map (·.1)).Nodup :=
  h _ (self_mem_parts _) members rfl

theorem DistinctNames.of_subset {value inside : Json} (h : value.DistinctNames)
    (hinside : inside.parts ⊆ value.parts) : inside.DistinctNames :=
  fun part hpart => h part (hinside hpart)

theorem DistinctNames.lookup {members : Members} {name : String} {value : Json}
    (h : (object members).DistinctNames) (hlookup : members.lookup name = some value) :
    value.DistinctNames :=
  h.of_subset (parts_subset_of_lookup hlookup)

end Json

end DocShape
