import DocShape.Shape.Basic

/-!
# How deep a shape is nested

The root of a tree stands at depth `0`, and whatever stands directly inside a
shape one deeper than the shape.

* `Shape.depth`: the depth of the deepest shape in a tree.
* `Shape.depth_lt_of_mem_fields`, `Shape.depth_lt_of_mem_variants`: what stands
  inside is less deep.
* `Shape.depth_object_le`, `Shape.depth_union_le`: a shape is at most one deeper than
  what stands inside it.
-/

namespace DocShape.Shape

mutual

/-- How deep a shape is nested; a shape with nothing inside has depth `0`. -/
def depth : Shape → Nat
  | array element => element.depth + 1
  | object fields => depthOfFields fields
  | record keys values _ => max keys.depth values.depth + 1
  | union variants => depthOfAll variants
  | _ => 0

def depthOfFields : List (Field Shape) → Nat
  | [] => 0
  | field :: rest => max (field.shape.depth + 1) (depthOfFields rest)

def depthOfAll : List Shape → Nat
  | [] => 0
  | shape :: rest => max (shape.depth + 1) (depthOfAll rest)

end

theorem depth_lt_of_mem_fields {fields : List (Field Shape)} {field : Field Shape}
    (h : field ∈ fields) : field.shape.depth < (object fields).depth := by
  rw [depth]
  induction fields with
  | nil => cases h
  | cons first rest ih =>
    rw [depthOfFields]
    rcases List.mem_cons.1 h with rfl | hrest
    · omega
    · have := ih hrest
      omega

theorem depth_lt_of_mem_variants {variants : List Shape} {variant : Shape}
    (h : variant ∈ variants) : variant.depth < (union variants).depth := by
  rw [depth]
  induction variants with
  | nil => cases h
  | cons first rest ih =>
    rw [depthOfAll]
    rcases List.mem_cons.1 h with rfl | hrest
    · omega
    · have := ih hrest
      omega

theorem depth_object_le {fields : List (Field Shape)} {bound : Nat}
    (h : ∀ field ∈ fields, field.shape.depth ≤ bound) : (object fields).depth ≤ bound + 1 := by
  rw [depth]
  induction fields with
  | nil => exact Nat.zero_le _
  | cons first rest ih =>
    rw [List.forall_mem_cons] at h
    have hrest := ih h.2
    rw [depthOfFields]
    omega

theorem depth_union_le {variants : List Shape} {bound : Nat}
    (h : ∀ variant ∈ variants, variant.depth ≤ bound) : (union variants).depth ≤ bound + 1 := by
  rw [depth]
  induction variants with
  | nil => exact Nat.zero_le _
  | cons first rest ih =>
    rw [List.forall_mem_cons] at h
    have hrest := ih h.2
    rw [depthOfAll]
    omega

end DocShape.Shape
