/-!
# Places

Where something stands in a value or in a description, written as field names joined by points with
indices in brackets. The empty text is the root.
-/

namespace DocShape

/-- One step down into a value or into its description. -/
inductive Step where
  /-- To the member of an object under a name. -/
  | member (name : String)
  /-- To an element of an array. -/
  | item (index : Nat)
  /-- To the description of all elements of an array. -/
  | element
  /-- To the description of all keys of a record. -/
  | key
  /-- To the description of all values of a record. -/
  | value
deriving DecidableEq

namespace Place

def member (place name : String) : String :=
  if place = "" then name else place ++ "." ++ name

/-- The place one step below `place`. -/
def extend (place : String) : Step → String
  | .member name => member place name
  | .item index => place ++ "[" ++ toString index ++ "]"
  | .element => place ++ "[]"
  | .key => member place "<key>"
  | .value => member place "<value>"

/-- A place as it is shown in notices, where the root has a name. -/
def display (place : String) : String := if place = "" then "<root>" else place

end Place

end DocShape
