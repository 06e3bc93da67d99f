import DocShape.Decoding.Error

/-!
# Decoding records

A record is decoded from the members of an object or from the elements of an array.

* In an object, members may come in any order and unknown ones are ignored. `checkMembers` goes
  through the members as they are written: a field that appears twice (also under its other name)
  and a value of the wrong type are found there, whichever comes first. Only then a missing field
  counts, in the order in which the record declares its fields (`Key.required`, `Key.orElse`).
* In an array, the elements are the fields in declared order (`Key.element`, `Key.elementOr`).
-/

namespace DocShape

namespace Decode

/-! ## Values -/

/-- The error of a value that is not what was expected. -/
def mismatch (value : Json) (expected : Expected) : DecodeError :=
  .invalidType (Found.ofJson value) expected

def string (value : Json) : Except DecodeError String :=
  match value with
  | .string s => .ok s
  | value => .error (mismatch value .string)

def boolean (value : Json) : Except DecodeError Bool :=
  match value with
  | .bool b => .ok b
  | value => .error (mismatch value .boolean)

def sequence (value : Json) : Except DecodeError (List Json) :=
  match value with
  | .array items => .ok items
  | value => .error (mismatch value .sequence)

/-- A list of texts; the first element that is none counts. -/
def strings (value : Json) : Except DecodeError (List String) := do
  (← sequence value).mapM string

/-- A whole number from zero up to a bound, which it does not reach. A double is none, even a whole
one. -/
def natBelow (bound : Nat) (expected : Expected) (value : Json) : Except DecodeError Nat :=
  match value with
  | .number (.integer n) =>
    if 0 ≤ n ∧ n < bound then .ok n.toNat else .error (.outOfRange n expected)
  | value => .error (mismatch value expected)

def count : Json → Except DecodeError Nat := natBelow UInt64.size .count

def smallCount (value : Json) : Except DecodeError UInt32 :=
  (natBelow UInt32.size .smallCount value).map UInt32.ofNat

/-- A value that may be left out by writing `null`. -/
def nullable {α : Type} (decode : Json → Except DecodeError α) (value : Json) :
    Except DecodeError (Option α) :=
  if value.isNull then .ok none else (decode value).map some

/-! ## Fields -/

/-- A field of a record: its name, another name it goes by, and how its value is decoded. -/
structure Key (α : Type) where
  name : String
  alias? : Option String
  decode : Json → Except DecodeError α

/-- What checking the members of an object needs to know of a field. -/
structure Rule where
  name : String
  alias? : Option String
  check : Json → Except DecodeError Unit

def Rule.covers (rule : Rule) (member : String) : Bool :=
  member == rule.name || some member == rule.alias?

def Key.covers {α : Type} (key : Key α) (member : String) : Bool :=
  member == key.name || some member == key.alias?

/-- The rule of a field: its value has to decode. -/
def Key.rule {α : Type} (key : Key α) : Rule :=
  ⟨key.name, key.alias?, fun value => (key.decode value).map fun _ => ()⟩

/-- The value that the members of an object give the field. -/
def Key.find? {α : Type} (key : Key α) (members : Members) : Option Json :=
  (members.find? fun member => key.covers member.1).map (·.2)

/-- A field with one name has the member under that name. -/
theorem Key.find?_eq_lookup {α : Type} {key : Key α} (h : key.alias? = none) (members : Members) :
    key.find? members = members.lookup key.name := by
  induction members with
  | nil => rfl
  | cons member rest ih =>
    obtain ⟨name, value⟩ := member
    by_cases hname : name = key.name
    · simp [find?, covers, hname]
    · have hcovers : key.covers name = false := by simp [covers, h, hname]
      have hother : (key.name == name) = false := beq_eq_false_iff_ne.2 (Ne.symm hname)
      rw [List.lookup_cons, hother, ← ih, find?, List.find?_cons_of_neg (by simp [hcovers]), find?]

def Key.required {α : Type} (key : Key α) (members : Members) : Except DecodeError α :=
  match key.find? members with
  | some value => key.decode value
  | none => .error (.missingField key.name)

def Key.orElse {α : Type} (key : Key α) (fallback : α) (members : Members) :
    Except DecodeError α :=
  match key.find? members with
  | some value => key.decode value
  | none => .ok fallback

theorem Key.orElse_of_lookup_eq_none {α : Type} {key : Key α} (h : key.alias? = none)
    {members : Members} (hlookup : members.lookup key.name = none) (fallback : α) :
    key.orElse fallback members = .ok fallback := by
  rw [orElse, find?_eq_lookup h, hlookup]

theorem Key.orElse_of_lookup_eq_some {α : Type} {key : Key α} (h : key.alias? = none)
    {members : Members} {value : Json} (hlookup : members.lookup key.name = some value)
    (fallback : α) : key.orElse fallback members = key.decode value := by
  rw [orElse, find?_eq_lookup h, hlookup]

/-- The field at a place of an array, which must be long enough. -/
def Key.element {α : Type} (key : Key α) (kind : RecordKind) (place : Nat) (items : List Json) :
    Except DecodeError α :=
  match items[place]? with
  | some value => key.decode value
  | none => .error (.tooFew items.length kind)

/-- The field at a place of an array, or a default. -/
def Key.elementOr {α : Type} (key : Key α) (fallback : α) (place : Nat) (items : List Json) :
    Except DecodeError α :=
  match items[place]? with
  | some value => key.decode value
  | none => .ok fallback

/-! ## Records -/

/-- Goes through the members in their order, after the fields that were `seen`. The first member
that repeats a field or does not decode is the error. -/
def checkMembers (rules : List Rule) (seen : List String) : Members → Except DecodeError Unit
  | [] => .ok ()
  | (name, value) :: rest =>
    match rules.find? (·.covers name) with
    | none => checkMembers rules seen rest
    | some rule =>
      if rule.name ∈ seen then .error (.duplicateField rule.name)
      else
        match rule.check value with
        | .error e => .error e
        | .ok () => checkMembers rules (rule.name :: seen) rest

/-- An array may not have more elements than the record has fields. -/
def checkLength (kind : RecordKind) (items : List Json) (error : DecodeError) :
    Except DecodeError Unit :=
  if kind.size < items.length then .error error else .ok ()

/-- A record from its object form or its array form. -/
def record {α : Type} (kind : RecordKind) (ofMembers : Members → Except DecodeError α)
    (ofItems : List Json → Except DecodeError α) (value : Json) : Except DecodeError α :=
  match value with
  | .object members => ofMembers members
  | .array items => ofItems items
  | value => .error (mismatch value (.record kind))

end Decode

end DocShape
