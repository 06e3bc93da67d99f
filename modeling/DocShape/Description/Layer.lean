import DocShape.Description.Fault
import DocShape.Json.Basic

/-!
# Optional markers

Descriptions say in two ways that something may be left out: by a node tagged `optional` around the
description, and by a member `optional: true`. Such members may stand on the description itself and
on any node around it, among them plain wrappers, which are nodes without a tag around another one.

* `Layer.ofJson`: what one node is around the description it holds.
* `Peeled.ofJson`: **a node without its markers**, and whether one of them said that it may be left
  out.
-/

namespace DocShape

/-- A tag with its ASCII letters in lower case. -/
def lowerTag (tag : String) : String := String.ofList (tag.toList.map Char.toLower)

/-- The member under the first of the names that is there at all, unless it is `null`. -/
def firstGiven? (members : Members) (names : List String) : Option Json :=
  (names.findSome? fun name => members.lookup name).filter fun value => !value.isNull

def typeTag? (members : Members) : Option String := (members.lookup "type").bind Json.string?

inductive Layer where
  /-- A node tagged `optional`, with the node it holds, if any. -/
  | optional (inner? : Option Json)
  /-- A node without a tag around another one. -/
  | wrapper (inner : Json)
  /-- No marker: the node itself describes a shape, or nothing. -/
  | core

def Layer.ofJson (node : Json) : Layer :=
  match node.members? with
  | none => core
  | some members =>
    match typeTag? members with
    | some tag =>
      if lowerTag tag = "optional" then
        optional (firstGiven? members ["value", "shape", "inner"])
      else
        core
    | none =>
      match firstGiven? members ["fieldType", "shape"] with
      | some inner => wrapper inner
      | none => core

/-- Whether a node has a member `optional: true`. -/
def isFlaggedOptional (node : Json) : Bool :=
  ((node.get? "optional").bind Json.bool?).getD false

/-- A node without its markers: whether one of them said that it may be left out, and the node
inside, or why there is none. -/
structure Peeled where
  optional : Bool
  core : Except NodeFault Json

/-- Takes markers off a node; `room` is how many nodes may be looked at. -/
def Peeled.ofJson : (room : Nat) → Json → Peeled
  | 0, _ => ⟨false, .error .optionalTooDeep⟩
  | room + 1, node =>
    match Layer.ofJson node with
    | .core => ⟨isFlaggedOptional node, .ok node⟩
    | .wrapper inner =>
      let peeled := Peeled.ofJson room inner
      ⟨isFlaggedOptional node || peeled.optional, peeled.core⟩
    | .optional (some inner) => ⟨true, (Peeled.ofJson room inner).core⟩
    | .optional none => ⟨true, .error .optionalWithoutShape⟩

end DocShape
