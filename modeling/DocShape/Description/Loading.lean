import DocShape.Description.Form
import DocShape.Notice.Noted
import DocShape.Settings

/-!
# Loading shapes

From a description to its shape. A node that describes nothing is read as `any`, with a notice; the
rest of the tree is not affected. Whether a shape may be left out is kept where it stands in a field
or in the values of a record; elsewhere it is dropped, with a notice.

* `Omittable.load`: a shape with its optional flag, by recursion on how many levels of nodes may
  still follow.
* `Shape.ofJson`: **the shape of a description**.
-/

namespace DocShape

/-- A shape and whether it may be left out. -/
structure Omittable where
  shape : Shape
  optional : Bool

/-- A node that describes nothing. -/
def Shape.unreadable (place : String) (fault : NodeFault) : Noted Shape :=
  ⟨.any, [.nodeDegraded place fault]⟩

/-- A shape where nothing can be left out. -/
def Omittable.required (place : String) (found : Noted Omittable) : Noted Shape :=
  let shape := Omittable.shape <$> found
  if found.value.optional then shape.note (.markerStripped place) else shape

namespace Form

variable (child : String → Json → Noted Omittable)

/-- The field of an entry; an entry without a name is skipped. -/
def loadEntry (place : String) : Option String × Json → Noted (Option (Field Shape))
  | (none, _) => ⟨none, [.entrySkipped place]⟩
  | (some name, entry) =>
    (fun found => some ⟨name, found.optional, found.shape⟩) <$>
      child (Place.member place name) entry

/-- The shape of a form, given how the nodes of its parts are loaded. -/
def load (place : String) : Form → Noted Shape
  | leaf shape => pure shape
  | array element =>
    let place := Place.extend place .element
    Shape.array <$> Omittable.required place (child place element)
  | object entries =>
    (fun fields => Shape.object (fields.filterMap id)) <$>
      Noted.traverse (loadEntry child place) entries
  | record keys values => do
    let keyPlace := Place.extend place .key
    let keys ← Omittable.required keyPlace (child keyPlace keys)
    let values ← child (Place.extend place .value) values
    return Shape.record keys values.shape values.optional
  | union variants =>
    Shape.union <$>
      Noted.traverse (fun variant => Omittable.required place (child place variant)) variants

end Form

/-- The shape of a node at a place, with its optional flag. `room` is how many levels of nodes may
be loaded. -/
def Omittable.load (settings : Settings) :
    (room : Nat) → (place : String) → Json → Noted Omittable
  | 0, place, _ => (⟨·, false⟩) <$> Shape.unreadable place .nestingTooDeep
  | room + 1, place, node =>
    let peeled := Peeled.ofJson (settings.maxOptionalDepth + 1) node
    (⟨·, peeled.optional⟩) <$>
      match peeled.core.bind Form.ofJson with
      | .ok form => form.load (Omittable.load settings room) place
      | .error fault => Shape.unreadable place fault

def Shape.ofJson (settings : Settings) (node : Json) : Noted Shape :=
  Omittable.required "" (Omittable.load settings (settings.maxNestingDepth + 1) "" node)

end DocShape
