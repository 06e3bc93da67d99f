import DocShape.Proofs.Description.Inhabited
import DocShape.Proofs.Shape.Widening

/-!
# Limits only loosen

A description that goes past a limit is cut short: the node in question is read as
`any`.  So under smaller limits a description gives a shape that is at least as
wide.  A chain of markers that is cut short may lose an optional flag, but `any`
stands where it is lost, and accepts what the flag would have let pass.

* `Peeled.ofJson_mono`: more markers that may be taken off change nothing, or
  something only where there was a fault.
* `Form.load_within_load`: a form gives a wider shape if its parts do.
* `Omittable.load_within_load`: **smaller limits give wider shapes**.
-/

namespace DocShape

/-! ### Markers -/

/-- With more room for markers a node is peeled as before, unless it could not be peeled before. -/
theorem Peeled.ofJson_mono {room more : Nat} (h : room ≤ more) (node : Json) :
    ofJson more node = ofJson room node ∨ ∃ fault, (ofJson room node).core = .error fault := by
  induction room generalizing more node with
  | zero => exact Or.inr ⟨_, rfl⟩
  | succ room ih =>
    obtain ⟨more, rfl⟩ : ∃ less, more = less + 1 := ⟨more - 1, by omega⟩
    have hmore : room ≤ more := by omega
    rw [ofJson, ofJson]
    cases Layer.ofJson node with
    | core => exact Or.inl rfl
    | wrapper inner =>
      rcases ih hmore inner with hsame | ⟨fault, hfault⟩
      · exact Or.inl (by simp only [hsame])
      · exact Or.inr ⟨fault, hfault⟩
    | optional inner? =>
      cases inner? with
      | none => exact Or.inl rfl
      | some inner =>
        rcases ih hmore inner with hsame | ⟨fault, hfault⟩
        · exact Or.inl (by simp only [hsame])
        · exact Or.inr ⟨fault, hfault⟩

/-! ### Forms -/

section

variable {wide narrow : String → Json → Noted Omittable}

theorem Form.load_within_load
    (h : ∀ place node, (narrow place node).value.Within (wide place node).value)
    (form : Form) (place : String) :
    (form.load narrow place).value.Within (form.load wide place).value := by
  cases form with
  | leaf shape => exact .refl shape
  | array element =>
    rw [value_load_array, value_load_array]
    exact Shape.array_within (h _ _).shape
  | object entries =>
    rw [value_load_object, value_load_object]
    refine Shape.object_within ?_
    intro field hfield
    obtain ⟨⟨name?, entry⟩, hentry, hsome⟩ := List.mem_filterMap.1 hfield
    cases name? with
    | none => cases hsome
    | some name =>
      cases hsome
      exact ⟨_, List.mem_filterMap.2 ⟨(some name, entry), hentry, rfl⟩, rfl, h _ _⟩
  | record keys values =>
    rw [value_load_record, value_load_record]
    exact Shape.record_within (h _ _).shape (h _ _)
  | union variants =>
    rw [value_load_union, value_load_union]
    refine Shape.union_within ?_
    intro shape hshape
    obtain ⟨variant, hvariant, rfl⟩ := List.mem_map.1 hshape
    exact ⟨_, List.mem_map_of_mem hvariant, (h place variant).shape⟩

end

/-! ### Nodes -/

variable {settings looser : Settings}

/-- **Smaller limits give wider shapes**, and flags that let pass at least as much. -/
theorem Omittable.load_within_load (hmarkers : settings.maxOptionalDepth ≤ looser.maxOptionalDepth)
    {room more : Nat} (hroom : room ≤ more) (place : String) (node : Json) :
    (load looser more place node).value.Within (load settings room place node).value := by
  induction room generalizing more place node with
  | zero => exact within_any _ false
  | succ room ih =>
    obtain ⟨more, rfl⟩ : ∃ less, more = less + 1 := ⟨more - 1, by omega⟩
    have hmore : room ≤ more := by omega
    rw [load, load]
    rcases Peeled.ofJson_mono (Nat.succ_le_succ hmarkers) node with hsame | ⟨fault, hfault⟩
    · rw [hsame]
      cases (Peeled.ofJson (settings.maxOptionalDepth + 1) node).core.bind Form.ofJson with
      | error fault => exact .refl _
      | ok form =>
        have hform := Form.load_within_load (ih hmore) form place
        exact .of_shape hform (fun h => h)
    · rw [hfault]
      exact within_any _ _

namespace Shape

theorem ofJson_within_ofJson (hnesting : settings.maxNestingDepth ≤ looser.maxNestingDepth)
    (hmarkers : settings.maxOptionalDepth ≤ looser.maxOptionalDepth) (node : Json) :
    (ofJson looser node).value.Within (ofJson settings node).value := by
  rw [ofJson, ofJson, Omittable.value_required, Omittable.value_required]
  exact (Omittable.load_within_load hmarkers (by omega) "" node).shape

/-- **Limits only loosen.**  What validates against the shape that a description has under some
limits validates against the one it has under smaller limits. -/
theorem validate_ofJson_of_le (hnesting : settings.maxNestingDepth ≤ looser.maxNestingDepth)
    (hmarkers : settings.maxOptionalDepth ≤ looser.maxOptionalDepth) (node value : Json)
    (place : String) (hvalue : (ofJson looser node).value.validate value place = []) :
    (ofJson settings node).value.validate value place = [] := by
  have hwithin := within_iff.1 (ofJson_within_ofJson hnesting hmarkers node)
  rw [validate, List.map_eq_nil_iff, check_eq_nil_iff] at hvalue ⊢
  exact hwithin (some value) hvalue

/-- The description of an object with a field that is marked optional inside a wrapper. -/
def wrappedOptional : Json :=
  .object [("type", .string "object"), ("value", .object [("tags", .object [("fieldType", .object
    [("type", .string "optional"), ("value", .object
      [("type", .string "array"), ("value", .object [("type", .string "string")])])])])])]

/-- Where no marker may be taken off, the field loses its flag, but as `any` it may still be left
out. -/
theorem validate_ofJson_of_le_wrappedOptional :
    (ofJson {} wrappedOptional).value.validate (.object []) "" = [] ∧
      (ofJson { maxOptionalDepth := 0, maxNestingDepth := 1 } wrappedOptional).value.validate
        (.object []) "" = [] := by
  have hfull : (ofJson {} wrappedOptional).value.validate (.object []) "" = [] := by
    decide +kernel
  exact ⟨hfull, validate_ofJson_of_le (by decide) (by decide) wrappedOptional (.object []) "" hfull⟩

end Shape

end DocShape
