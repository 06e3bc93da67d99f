import DocShape.Description.Loading

/-!
# Shapes with a position left open

A position in a shape is reached from its root through the parts of shapes: the
element of an array, a field of an object, the keys or the values of a record, a
variant of a union.  What stands in a position has an optional flag, which belongs
to the shape around it where the position is a field or the values of a record, and
counts for nothing elsewhere.

* `Shape.Frame`: what stands directly around a position.
* `Shape.Context`: **a shape with one position left open**, at any depth, as the
  frames around the position.
* `Shape.Context.parts`: where the open position is.
-/

namespace DocShape.Shape

/-- Which part of a shape stands directly inside it; fields and variants are counted from `0`. -/
inductive Part where
  | element
  | field (index : Nat)
  | key
  | value
  | variant (index : Nat)
deriving DecidableEq

/-- What stands directly around a position. -/
inductive Frame where
  | element
  | field (before : List (Field Shape)) (name : String) (after : List (Field Shape))
  | key (values : Omittable)
  | value (keys : Shape)
  | variant (before after : List Shape)

namespace Frame

def part : Frame → Part
  | element => .element
  | field before _ _ => .field before.length
  | key _ => .key
  | value _ => .value
  | variant before _ => .variant before.length

/-- The shape that a frame makes of what is put into it. -/
def fill : Frame → Omittable → Shape
  | element, inside => array inside.shape
  | field before name after, inside =>
    object (before ++ ⟨name, inside.optional, inside.shape⟩ :: after)
  | key values, inside => record inside.shape values.shape values.optional
  | value keys, inside => record keys inside.shape inside.optional
  | variant before after, inside => union (before ++ inside.shape :: after)

end Frame

/-- A shape with one position left open: the frames around the position, from the outside in, each
with the flag of the shape that it makes. -/
abbrev Context := List (Frame × Bool)

namespace Context

/-- Where the open position is, from the root. -/
def parts (context : Context) : List Part := context.map fun around => around.1.part

def fill : Context → Omittable → Omittable
  | [], inside => inside
  | (frame, optional) :: rest, inside => ⟨frame.fill (fill rest inside), optional⟩

example (name : String) : fill [(.element, false), (.field [] name [], true)] ⟨string, true⟩ =
    ⟨array (object [⟨name, true, string⟩]), false⟩ := rfl

/-- Changing the flag of a filled context is filling a context, which is open in the same
position. -/
theorem exists_context_with_flag (change : Bool → Bool) (context : Context) :
    ∃ changed : Context, changed.parts = context.parts ∧ ∀ inside, ∃ inside',
      (⟨(context.fill inside).shape, change (context.fill inside).optional⟩ : Omittable) =
        changed.fill inside' := by
  cases context with
  | nil => exact ⟨[], rfl, fun inside => ⟨⟨inside.shape, change inside.optional⟩, rfl⟩⟩
  | cons around rest =>
    obtain ⟨frame, optional⟩ := around
    exact ⟨(frame, change optional) :: rest, rfl, fun inside => ⟨inside, rfl⟩⟩

end Context

end DocShape.Shape
