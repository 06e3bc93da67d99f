import DocShape.Decoding.Error
import DocShape.Text.Name

/-!
# Indexes

The three kinds of index of a table, the six lists they stand in, and what makes an index unusable.
-/

namespace DocShape

/-- An index over fields, in key order. -/
structure Index where
  name : String
  fields : List String
deriving DecidableEq

/-- A full-text search index. -/
structure SearchIndex where
  name : String
  /-- The field that holds the text. -/
  searchField : String
  /-- The fields that can be filtered by. -/
  filterFields : List String
deriving DecidableEq

/-- A vector similarity index. -/
structure VectorIndex where
  name : String
  /-- The field that holds the vector. -/
  vectorField : String
  dimensions : UInt32
  /-- The fields that can be filtered by. -/
  filterFields : List String
deriving DecidableEq

/-- The index lists of a table. A staged index is declared but not yet enforced. -/
inductive IndexList where
  | indexes
  | searchIndexes
  | vectorIndexes
  | stagedIndexes
  | stagedSearchIndexes
  | stagedVectorIndexes
deriving DecidableEq

def IndexList.entryName : IndexList → String
  | indexes => "index"
  | searchIndexes => "search index"
  | vectorIndexes => "vector index"
  | stagedIndexes => "staged index"
  | stagedSearchIndexes => "staged search index"
  | stagedVectorIndexes => "staged vector index"

/-- Why an entry of an index list is skipped. -/
inductive IndexFault where
  | undecodable (reason : DecodeError)
  | emptyName
  | noFields
  | noSearchField
  | noVectorField
  | zeroDimensions
deriving DecidableEq

def IndexFault.message : IndexFault → String
  | undecodable reason => reason.message
  | emptyName => "empty name"
  | noFields => "no fields"
  | noSearchField => "no search field"
  | noVectorField => "no vector field"
  | zeroDimensions => "zero dimensions"

/-- The field names that do not belong to the storage. -/
def withoutSystemNames (fields : List String) : List String :=
  fields.filter fun field => !Text.isSystemName field

/-! ## Usable indexes -/

/-- What is wrong with an index. -/
def Index.fault? (index : Index) : Option IndexFault :=
  if index.name = "" then some .emptyName
  else if index.fields = [] then some .noFields
  else none

def SearchIndex.fault? (index : SearchIndex) : Option IndexFault :=
  if index.name = "" then some .emptyName
  else if index.searchField = "" then some .noSearchField
  else none

def VectorIndex.fault? (index : VectorIndex) : Option IndexFault :=
  if index.name = "" then some .emptyName
  else if index.vectorField = "" then some .noVectorField
  else if index.dimensions = 0 then some .zeroDimensions
  else none

end DocShape
