import DocShape.Decoding.Record
import DocShape.Index.Basic
import DocShape.Notice.Noted

/-!
# Decoding indexes

An index is an object with its fields, the name also under `indexDescriptor`, or an array of them in
declared order. In a list of indexes each entry stands for itself: an unusable one is skipped, with
a notice that names it.

* `IndexEntry.ofList`: **the usable entries of a list**, in order.
-/

namespace DocShape

open Decode (Key checkMembers checkLength)

def indexNameKey : Key String := ⟨"name", some "indexDescriptor", Decode.string⟩

def filterFieldsKey : Key (List String) := ⟨"filterFields", none, Decode.strings⟩

/-! ## Indexes over fields -/

namespace Index

def fieldsKey : Key (List String) := ⟨"fields", none, Decode.strings⟩

def ofMembers (members : Members) : Except DecodeError Index := do
  checkMembers [indexNameKey.rule, fieldsKey.rule] [] members
  return ⟨← indexNameKey.required members, ← fieldsKey.orElse [] members⟩

def ofItems (items : List Json) : Except DecodeError Index := do
  let name ← indexNameKey.element .index 0 items
  let fields ← fieldsKey.elementOr [] 1 items
  checkLength .index items (.tooMany items.length)
  return ⟨name, fields⟩

def ofJson : Json → Except DecodeError Index := Decode.record .index ofMembers ofItems

end Index

/-! ## Search indexes -/

namespace SearchIndex

def searchFieldKey : Key String := ⟨"searchField", none, Decode.string⟩

def ofMembers (members : Members) : Except DecodeError SearchIndex := do
  checkMembers [indexNameKey.rule, searchFieldKey.rule, filterFieldsKey.rule] [] members
  return ⟨← indexNameKey.required members, ← searchFieldKey.required members,
    ← filterFieldsKey.orElse [] members⟩

def ofItems (items : List Json) : Except DecodeError SearchIndex := do
  let name ← indexNameKey.element .searchIndex 0 items
  let searchField ← searchFieldKey.element .searchIndex 1 items
  let filterFields ← filterFieldsKey.elementOr [] 2 items
  checkLength .searchIndex items (.tooMany items.length)
  return ⟨name, searchField, filterFields⟩

def ofJson : Json → Except DecodeError SearchIndex :=
  Decode.record .searchIndex ofMembers ofItems

end SearchIndex

/-! ## Vector indexes -/

namespace VectorIndex

def vectorFieldKey : Key String := ⟨"vectorField", none, Decode.string⟩

def dimensionsKey : Key UInt32 := ⟨"dimensions", none, Decode.smallCount⟩

def ofMembers (members : Members) : Except DecodeError VectorIndex := do
  checkMembers
    [indexNameKey.rule, vectorFieldKey.rule, dimensionsKey.rule, filterFieldsKey.rule] [] members
  return ⟨← indexNameKey.required members, ← vectorFieldKey.required members,
    ← dimensionsKey.required members, ← filterFieldsKey.orElse [] members⟩

def ofItems (items : List Json) : Except DecodeError VectorIndex := do
  let name ← indexNameKey.element .vectorIndex 0 items
  let vectorField ← vectorFieldKey.element .vectorIndex 1 items
  let dimensions ← dimensionsKey.element .vectorIndex 2 items
  let filterFields ← filterFieldsKey.elementOr [] 3 items
  checkLength .vectorIndex items (.tooMany items.length)
  return ⟨name, vectorField, dimensions, filterFields⟩

def ofJson : Json → Except DecodeError VectorIndex :=
  Decode.record .vectorIndex ofMembers ofItems

end VectorIndex

/-! ## Lists of indexes -/

/-- The kinds of index: how they are decoded, and what makes them unusable. -/
class IndexEntry (ι : Type) where
  ofJson : Json → Except DecodeError ι
  name : ι → String
  fault? : ι → Option IndexFault

instance : IndexEntry Index := ⟨Index.ofJson, Index.name, Index.fault?⟩

instance : IndexEntry SearchIndex := ⟨SearchIndex.ofJson, SearchIndex.name, SearchIndex.fault?⟩

instance : IndexEntry VectorIndex := ⟨VectorIndex.ofJson, VectorIndex.name, VectorIndex.fault?⟩

namespace IndexEntry

variable {ι : Type} [IndexEntry ι]

/-- How an entry that cannot be decoded is named: by its name, if that is a text. -/
def statedName (entry : Json) : String :=
  (((entry.get? "name").or (entry.get? "indexDescriptor")).bind Json.string?).getD ""

/-- The index of an entry, or the name that the entry goes by and why it is skipped. -/
def usable (entry : Json) : Except (String × IndexFault) ι :=
  match ofJson entry with
  | .ok index =>
    match fault? index with
    | none => .ok index
    | some fault => .error (name index, fault)
  | .error reason => .error (statedName entry, .undecodable reason)

/-- The index of an entry, or none with a notice. -/
def ofEntry (table : String) (list : IndexList) (entry : Json) : Noted (Option ι) :=
  match usable entry with
  | .ok index => ⟨some index, []⟩
  | .error (name, fault) => ⟨none, [.indexSkipped table list name fault]⟩

/-- The usable entries of a list, in order. -/
def ofList (table : String) (list : IndexList) (entries : List Json) : Noted (List ι) :=
  (·.filterMap id) <$> Noted.traverse (ofEntry table list) entries

end IndexEntry

end DocShape
