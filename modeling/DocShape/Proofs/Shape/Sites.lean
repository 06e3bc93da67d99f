import DocShape.Proofs.Shape.Context
import DocShape.Proofs.Shape.Parts

/-!
# Places in a shape

Every part of a shape stands somewhere: it is reached from the root through the parts of
shapes, and it has a place, which is how notices and messages name it.  Variants of a
union share the place of the union, so the place alone does not say which part is meant.

* `Shape.inside`: what stands directly inside a shape.
* `Shape.sites`: **the parts of a shape in tree order**, each with the way to it and its
  place.
* `Shape.sites_eq`: the sites of a shape are its own and those of what stands inside.
* `Shape.map_shape_sites`: no part is left out, and none comes twice.
* `Shape.anyLeaves`: the parts that accept anything.
-/

namespace DocShape.Shape

/-- What stands directly inside something: which part it is, and at which place. -/
structure Inside (α : Type) where
  part : Part
  place : String
  content : α

/-- What stands directly inside a shape at a place. -/
def inside (place : String) : Shape → List (Inside Shape)
  | array element => [⟨.element, Place.extend place .element, element⟩]
  | object fields => fields.zipIdx.map fun field =>
      ⟨.field field.2, Place.member place field.1.name, field.1.shape⟩
  | record keys values _ =>
    [⟨.key, Place.extend place .key, keys⟩, ⟨.value, Place.extend place .value, values⟩]
  | union variants => variants.zipIdx.map fun variant => ⟨.variant variant.2, place, variant.1⟩
  | _ => []

theorem inside_leaf {leaf : Shape} (h : leaf.isLeaf = true) (place : String) :
    leaf.inside place = [] := by
  cases leaf <;> first | rfl | cases h

/-- A part of a shape, with the way to it from the root and its place. -/
structure Site where
  parts : List Part
  place : String
  shape : Shape

/-- A site in a part of a shape is a site in the shape. -/
def Site.under (part : Part) (site : Site) : Site := ⟨part :: site.parts, site.place, site.shape⟩

mutual

/-- A shape at a place and all shapes inside it. -/
def sites (place : String) : Shape → List Site
  | array element => ⟨[], place, array element⟩ ::
      (element.sites (Place.extend place .element)).map (Site.under .element)
  | object fields => ⟨[], place, object fields⟩ :: sitesOfFields place 0 fields
  | record keys values optional => ⟨[], place, record keys values optional⟩ ::
      ((keys.sites (Place.extend place .key)).map (Site.under .key) ++
        (values.sites (Place.extend place .value)).map (Site.under .value))
  | union variants => ⟨[], place, union variants⟩ :: sitesOfVariants place 0 variants
  | leaf => [⟨[], place, leaf⟩]

def sitesOfFields (place : String) (index : Nat) : List (Field Shape) → List Site
  | [] => []
  | field :: rest =>
    (field.shape.sites (Place.member place field.name)).map (Site.under (.field index)) ++
      sitesOfFields place (index + 1) rest

def sitesOfVariants (place : String) (index : Nat) : List Shape → List Site
  | [] => []
  | variant :: rest =>
    (variant.sites place).map (Site.under (.variant index)) ++
      sitesOfVariants place (index + 1) rest

end

theorem sitesOfFields_eq (place : String) (index : Nat) (fields : List (Field Shape)) :
    sitesOfFields place index fields = (fields.zipIdx index).flatMap fun field =>
      (field.1.shape.sites (Place.member place field.1.name)).map
        (Site.under (.field field.2)) := by
  induction fields generalizing index with
  | nil => rfl
  | cons field rest ih => rw [sitesOfFields, ih, List.zipIdx_cons, List.flatMap_cons]

theorem sitesOfVariants_eq (place : String) (index : Nat) (variants : List Shape) :
    sitesOfVariants place index variants = (variants.zipIdx index).flatMap fun variant =>
      (variant.1.sites place).map (Site.under (.variant variant.2)) := by
  induction variants generalizing index with
  | nil => rfl
  | cons variant rest ih => rw [sitesOfVariants, ih, List.zipIdx_cons, List.flatMap_cons]

/-- **The sites of a shape** are its own and those of what stands directly inside. -/
theorem sites_eq (place : String) (shape : Shape) :
    shape.sites place = ⟨[], place, shape⟩ :: (shape.inside place).flatMap fun child =>
      (child.content.sites child.place).map (Site.under child.part) := by
  cases shape with
  | array element => rw [sites, inside, List.flatMap_cons, List.flatMap_nil, List.append_nil]
  | object fields => rw [sites, inside, sitesOfFields_eq, List.flatMap_map]
  | record keys values optional =>
    rw [sites, inside, List.flatMap_cons, List.flatMap_cons, List.flatMap_nil, List.append_nil]
  | union variants => rw [sites, inside, sitesOfVariants_eq, List.flatMap_map]
  | _ => rfl

/-- The sites are all parts of the shape, each once and in tree order. -/
theorem map_shape_sites (shape : Shape) (place : String) :
    (shape.sites place).map (·.shape) = shape.parts := by
  induction shape using Shape.ind generalizing place with
  | array element ih =>
    rw [sites, List.map_cons, List.map_map, parts, ← ih]
    rfl
  | object fields ih =>
    rw [sites, List.map_cons, parts]
    congr 1
    generalize 0 = index
    induction fields generalizing index with
    | nil => rfl
    | cons field rest ihrest =>
      rw [List.forall_mem_cons] at ih
      rw [sitesOfFields, List.map_append, List.map_map, partsOfFields, ihrest ih.2, ← ih.1]
      rfl
  | record keys values optional ihkeys ihvalues =>
    rw [sites, List.map_cons, List.map_append, List.map_map, List.map_map, parts, ← ihkeys,
      ← ihvalues]
    rfl
  | union variants ih =>
    rw [sites, List.map_cons, parts]
    congr 1
    generalize 0 = index
    induction variants generalizing index with
    | nil => rfl
    | cons variant rest ihrest =>
      rw [List.forall_mem_cons] at ih
      rw [sitesOfVariants, List.map_append, List.map_map, partsOfAll, ihrest ih.2, ← ih.1]
      rfl
  | _ => rfl

/-- The parts of a shape that accept anything, in tree order. -/
def anyLeaves (shape : Shape) : List Site :=
  (shape.sites "").filter fun site => site.shape.isAny

example : (object [⟨"a", false, array any⟩, ⟨"b", true, union [null, any]⟩]).anyLeaves.map
    (fun leaf => (leaf.parts, leaf.place)) =
      [([.field 0, .element], "a[]"), ([.field 1, .variant 1], "b")] := by
  decide +kernel

end DocShape.Shape
