import DocShape.Number.Basic

/-!
# JSON values

A JSON value whose numbers keep their form and whose objects keep the order of their members.

* `Json.get?`: the member of an object under a name.
* `Members.put`: a repeated name keeps its first place and takes the last value.
-/

namespace DocShape

/-- A JSON value. Objects that are read from text hold each name once. -/
inductive Json where
  | null
  | bool (b : Bool)
  | number (n : Number)
  | string (s : String)
  | array (items : List Json)
  | object (members : List (String × Json))

/-- The named members of an object, in order. -/
abbrev Members := List (String × Json)

/-- Gives `name` the value `value`: in the place of the member of that name, else at the end. -/
def Members.put (name : String) (value : Json) : Members → Members
  | [] => [(name, value)]
  | (key, old) :: rest =>
    if key = name then (key, value) :: rest else (key, old) :: Members.put name value rest

namespace Json

instance : Inhabited Json := ⟨null⟩

def ofInt (n : Int) : Json := number (.integer n)

def ofNat (n : Nat) : Json := ofInt n

def members? : Json → Option Members
  | object members => some members
  | _ => none

def items? : Json → Option (List Json)
  | array items => some items
  | _ => none

def string? : Json → Option String
  | string s => some s
  | _ => none

def bool? : Json → Option Bool
  | bool b => some b
  | _ => none

def isNull : Json → Bool
  | null => true
  | _ => false

/-- The member under a name; none for a value that is no object. -/
def get? (value : Json) (name : String) : Option Json :=
  value.members?.bind fun members => members.lookup name

end Json

end DocShape
