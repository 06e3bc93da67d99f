import DocShape.Proofs.Description.Inhabited
import DocShape.Proofs.Shape.Depth

/-!
# How deep loaded shapes are nested

Every part of a shape is loaded with one level less, and where no level is left, a
node is read as `any`.  So nesting stops one level below the deepest node that may
be loaded.

* `Form.depth_load_le`: one step of loading adds one level.
* `Shape.depth_ofJson_le`: **no loaded shape is nested deeper than the limit allows**.
-/

namespace DocShape

theorem Shape.depth_leaf {leaf : Shape} (h : leaf.isLeaf = true) : leaf.depth = 0 := by
  cases leaf <;> simp_all [isLeaf, depth]

/-- A proper form gives a shape that is at most one deeper than its parts. -/
theorem Form.depth_load_le {child : String → Json → Noted Omittable} {bound : Nat}
    (hchild : ∀ place node, (child place node).value.shape.depth ≤ bound) (place : String)
    {form : Form} (h : form.Proper) : (form.load child place).value.depth ≤ bound + 1 := by
  cases form with
  | leaf shape =>
    have hleaf : shape.depth = 0 := Shape.depth_leaf h
    show shape.depth ≤ bound + 1
    omega
  | array element =>
    have helement := hchild (Place.extend place .element) element
    rw [value_load_array, Shape.depth]
    omega
  | object entries =>
    refine Shape.depth_object_le ?_
    intro field hfield
    obtain ⟨name, entry, _, rfl⟩ := mem_fields_load hfield
    exact hchild _ entry
  | record keys values =>
    have hkeys := hchild (Place.extend place .key) keys
    have hvalues := hchild (Place.extend place .value) values
    rw [value_load_record, Shape.depth]
    omega
  | union variants =>
    rw [value_load_union]
    refine Shape.depth_union_le ?_
    intro shape hshape
    obtain ⟨variant, _, rfl⟩ := List.mem_map.1 hshape
    exact hchild place variant

/-- A shape is nested at most as deep as there are levels to load. -/
theorem Omittable.depth_load_le (settings : Settings) (room : Nat) (place : String) (node : Json) :
    (load settings room place node).value.shape.depth ≤ room := by
  induction room generalizing place node with
  | zero => exact Nat.le_refl 0
  | succ room ih =>
    rw [load]
    cases hform : (Peeled.ofJson (settings.maxOptionalDepth + 1) node).core.bind Form.ofJson with
    | error fault => exact Nat.zero_le _
    | ok form =>
      obtain ⟨core, _, hcore⟩ := exists_of_bind_eq_ok hform
      exact Form.depth_load_le ih place (Form.proper_of_ofJson hcore)

/-- **No loaded shape is nested deeper than the limit allows**: its deepest parts stand one level
below the deepest node that may be loaded. -/
theorem Shape.depth_ofJson_le (settings : Settings) (node : Json) :
    (Shape.ofJson settings node).value.depth ≤ settings.maxNestingDepth + 1 := by
  rw [Shape.ofJson, Omittable.value_required]
  exact Omittable.depth_load_le settings _ "" node

end DocShape
