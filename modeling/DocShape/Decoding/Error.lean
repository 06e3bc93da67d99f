import DocShape.Json.Basic
import DocShape.Text.Visible

/-!
# Why a value cannot be decoded

Records are decoded from JSON values that may be anything. A `DecodeError` is the first reason why a
value is not the record that was asked for.
-/

namespace DocShape

/-- What was found in place of an expected value. -/
inductive Found where
  | null
  | boolean (b : Bool)
  | number (n : Number)
  | string (s : String)
  | sequence
  | map
deriving DecidableEq

/-- The records that are decoded by their fields. -/
inductive RecordKind where
  | index
  | searchIndex
  | vectorIndex
  | settings
  | layout
deriving DecidableEq

/-- What a value should have been. -/
inductive Expected where
  | string
  | sequence
  | boolean
  /-- A count of at most 64 bits. -/
  | count
  /-- A count of at most 32 bits. -/
  | smallCount
  | record (kind : RecordKind)
deriving DecidableEq

/-- The first reason why a value is not the record that was asked for. -/
inductive DecodeError where
  | invalidType (found : Found) (expected : Expected)
  | outOfRange (n : Int) (expected : Expected)
  | missingField (name : String)
  | duplicateField (name : String)
  /-- A record given as an array lacks required fields. -/
  | tooFew (length : Nat) (kind : RecordKind)
  /-- A record given as an array has more elements than fields. -/
  | tooMany (length : Nat)
  /-- Settings given as an array have more elements than fields. -/
  | trailing
deriving DecidableEq

/-- How a value is called where another was expected. -/
def Found.ofJson : Json → Found
  | .null => null
  | .bool b => boolean b
  | .number n => number n
  | .string s => string s
  | .array _ => sequence
  | .object _ => map

/-! ## Wording -/

def Found.text : Found → String
  | null => "null"
  | boolean b => "boolean `" ++ toString b ++ "`"
  | number (.integer n) => "integer `" ++ toString n ++ "`"
  | number (.double d) => "floating point `" ++ (Number.double d).jsonText ++ "`"
  | string s => "string " ++ Text.quoteVisibly s
  | sequence => "sequence"
  | map => "map"

def RecordKind.text : RecordKind → String
  | index => "struct Index"
  | searchIndex => "struct SearchIndex"
  | vectorIndex => "struct VectorIndex"
  | settings => "struct EngineConfig"
  | layout => "struct RenderConfig"

def RecordKind.size : RecordKind → Nat
  | index => 2
  | searchIndex => 3
  | vectorIndex => 4
  | settings => 3
  | layout => 3

def Expected.text : Expected → String
  | string => "a string"
  | sequence => "a sequence"
  | boolean => "a boolean"
  | count => "usize"
  | smallCount => "u32"
  | record kind => kind.text

def DecodeError.message : DecodeError → String
  | invalidType found expected => "invalid type: " ++ found.text ++ ", expected " ++ expected.text
  | outOfRange n expected =>
    "invalid value: " ++ (Found.number (.integer n)).text ++ ", expected " ++ expected.text
  | missingField name => "missing field `" ++ name ++ "`"
  | duplicateField name => "duplicate field `" ++ name ++ "`"
  | tooFew length kind =>
    "invalid length " ++ toString length ++ ", expected " ++ kind.text ++ " with "
      ++ toString kind.size ++ " elements"
  | tooMany length =>
    "invalid length " ++ toString length ++ ", expected fewer elements in array"
  | trailing => "trailing characters"

end DocShape
