import DocShape.Proofs.Decoding.Members
import DocShape.Proofs.Description.Inhabited
import DocShape.Table.Ingestion

/-!
# The members of a table description

A table description is an object with a name, a document type and six index lists.  Each
may be `null` or left out; of any other value only the outermost type counts, and what
is inside a document type or a list is no matter here.

* `IndexList.names`, `IndexList.entriesIn`: where the entries of an index list stand.
* `TableRecord.ofMembers_eq_ok_iff`: **the members that make a record**, field by field.
* `TableRecord.list_of_ofMembers`: what the record has of each list.
-/

namespace DocShape

open Decode

/-! ### Index lists -/

namespace IndexList

/-- The names that the entries of a list may stand under. -/
def names : IndexList → List String
  | indexes => ["indexes"]
  | searchIndexes => ["searchIndexes"]
  | vectorIndexes => ["vectorIndexes"]
  | stagedIndexes => ["stagedDbIndexes", "stagedIndexes"]
  | stagedSearchIndexes => ["stagedSearchIndexes"]
  | stagedVectorIndexes => ["stagedVectorIndexes"]

/-- The entries of a list in a table description: those under the first of its names that is there,
and none where that is `null`. -/
def entriesIn (list : IndexList) (value : Json) : List Json :=
  ((list.names.findSome? value.get?).bind Json.items?).getD []

/-- How a list is decoded. -/
def key : IndexList → Key (Option (List Json))
  | indexes => TableRecord.indexesKey
  | searchIndexes => TableRecord.searchIndexesKey
  | vectorIndexes => TableRecord.vectorIndexesKey
  | stagedIndexes => TableRecord.stagedIndexesKey
  | stagedSearchIndexes => TableRecord.stagedSearchIndexesKey
  | stagedVectorIndexes => TableRecord.stagedVectorIndexesKey

variable (list : IndexList)

theorem names_key : list.key.names = list.names := by
  cases list <;> rfl

theorem decode_key : list.key.decode = nullable sequence := by
  cases list <;> rfl

theorem nodup_names : list.names.Nodup := by
  cases list <;> decide

end IndexList

namespace TableRecord

/-! ### Records -/

/-- What a record has of an index list. -/
def list (record : TableRecord) : IndexList → Option (List Json)
  | .indexes => record.indexes
  | .searchIndexes => record.searchIndexes
  | .vectorIndexes => record.vectorIndexes
  | .stagedIndexes => record.stagedIndexes
  | .stagedSearchIndexes => record.stagedSearchIndexes
  | .stagedVectorIndexes => record.stagedVectorIndexes

/-- The rules for the members of a table description. -/
def rules : List Rule :=
  [nameKey.rule, documentTypeKey.rule, indexesKey.rule, searchIndexesKey.rule,
    vectorIndexesKey.rule, stagedIndexesKey.rule, stagedSearchIndexesKey.rule,
    stagedVectorIndexesKey.rule]

theorem nodup_rules : (rules.flatMap Rule.names).Nodup := by
  decide

theorem forall_mem_rules {P : Rule → Prop} :
    (∀ rule ∈ rules, P rule) ↔
      P nameKey.rule ∧ P documentTypeKey.rule ∧ ∀ list : IndexList, P list.key.rule := by
  simp only [rules, List.forall_mem_cons]
  constructor
  · rintro ⟨hname, hdocument, h1, h2, h3, h4, h5, h6, -⟩
    refine ⟨hname, hdocument, fun list => ?_⟩
    cases list <;> assumption
  · rintro ⟨hname, hdocument, hlists⟩
    exact ⟨hname, hdocument, hlists .indexes, hlists .searchIndexes, hlists .vectorIndexes,
      hlists .stagedIndexes, hlists .stagedSearchIndexes, hlists .stagedVectorIndexes,
      List.forall_mem_nil _⟩

variable {members : Members} {record : TableRecord}

/-- **A record is read** from members that pass, field by field. -/
theorem ofMembers_eq_ok_iff :
    ofMembers members = .ok record ↔
      checkMembers rules [] members = .ok () ∧
        nameKey.orElse none members = .ok record.name ∧
        documentTypeKey.orElse none members = .ok record.documentType ∧
        ∀ list : IndexList, list.key.orElse none members = .ok (record.list list) := by
  constructor
  · intro h
    obtain ⟨⟨⟩, hcheck, h⟩ := exists_of_bind_eq_ok h
    obtain ⟨name, hname, h⟩ := exists_of_bind_eq_ok h
    obtain ⟨documentType, hdocument, h⟩ := exists_of_bind_eq_ok h
    obtain ⟨indexes, h1, h⟩ := exists_of_bind_eq_ok h
    obtain ⟨searchIndexes, h2, h⟩ := exists_of_bind_eq_ok h
    obtain ⟨vectorIndexes, h3, h⟩ := exists_of_bind_eq_ok h
    obtain ⟨stagedIndexes, h4, h⟩ := exists_of_bind_eq_ok h
    obtain ⟨stagedSearchIndexes, h5, h⟩ := exists_of_bind_eq_ok h
    obtain ⟨stagedVectorIndexes, h6, h⟩ := exists_of_bind_eq_ok h
    cases h
    refine ⟨hcheck, hname, hdocument, fun list => ?_⟩
    cases list <;> assumption
  · rintro ⟨hcheck, hname, hdocument, hlists⟩
    have h1 : indexesKey.orElse none members = .ok record.indexes := hlists .indexes
    have h2 : searchIndexesKey.orElse none members = .ok record.searchIndexes :=
      hlists .searchIndexes
    have h3 : vectorIndexesKey.orElse none members = .ok record.vectorIndexes :=
      hlists .vectorIndexes
    have h4 : stagedIndexesKey.orElse none members = .ok record.stagedIndexes :=
      hlists .stagedIndexes
    have h5 : stagedSearchIndexesKey.orElse none members = .ok record.stagedSearchIndexes :=
      hlists .stagedSearchIndexes
    have h6 : stagedVectorIndexesKey.orElse none members = .ok record.stagedVectorIndexes :=
      hlists .stagedVectorIndexes
    show (checkMembers rules [] members >>= _) = _
    simp only [hcheck, hname, hdocument, h1, h2, h3, h4, h5, h6, bind, Except.bind]
    rfl

/-- Members that pass are read. -/
theorem exists_ofMembers_of_checkMembers (h : checkMembers rules [] members = .ok ()) :
    ∃ record, ofMembers members = .ok record := by
  have hpasses := (checkMembers_eq_ok_iff nodup_rules).1 h
  obtain ⟨hname, hdocument, hlists⟩ := forall_mem_rules.1 hpasses
  obtain ⟨name, hname⟩ := Key.exists_orElse_eq_ok none hname.1
  obtain ⟨documentType, hdocument⟩ := Key.exists_orElse_eq_ok none hdocument.1
  choose lists hlists using fun list : IndexList => Key.exists_orElse_eq_ok none (hlists list).1
  refine ⟨⟨name, documentType, lists .indexes, lists .searchIndexes, lists .vectorIndexes,
    lists .stagedIndexes, lists .stagedSearchIndexes, lists .stagedVectorIndexes⟩,
    ofMembers_eq_ok_iff.2 ⟨h, hname, hdocument, fun list => ?_⟩⟩
  cases list <;> exact hlists _

/-! ### What a record has -/

theorem name_of_ofMembers (h : ofMembers members = .ok record) :
    record.name = (members.lookup "tableName").bind Json.string? := by
  have hfound := (ofMembers_eq_ok_iff.1 h).2.1
  rw [Key.orElse_none_eq rfl takes_string rfl hfound, Key.find?_eq_lookup rfl]
  rfl

theorem countP_key_le_one (h : ofMembers members = .ok record) (list : IndexList) :
    members.countP (fun member => list.key.covers member.1) ≤ 1 := by
  have hcheck := (ofMembers_eq_ok_iff.1 h).1
  have hpasses := (checkMembers_eq_ok_iff nodup_rules).1 hcheck
  exact ((forall_mem_rules.1 hpasses).2.2 list).2

theorem list_of_ofMembers (h : ofMembers members = .ok record) (list : IndexList) :
    (record.list list).getD [] = list.entriesIn (.object members) := by
  have hfound := (ofMembers_eq_ok_iff.1 h).2.2.2 list
  rw [Key.orElse_none_eq list.decode_key takes_sequence rfl hfound,
    Key.find?_eq_findSome? (countP_key_le_one h list), list.names_key, IndexList.entriesIn]
  rfl

/-- A list that is given, under either of its names, is what the record has. -/
theorem list_of_mem (h : ofMembers members = .ok record) {list : IndexList} {name : String}
    (hname : name ∈ list.names) {entries : List Json} (hmem : (name, .array entries) ∈ members) :
    record.list list = some entries := by
  have hfound := (ofMembers_eq_ok_iff.1 h).2.2.2 list
  rw [Key.orElse_none_eq list.decode_key takes_sequence rfl hfound,
    Key.find?_eq_some_of_mem (countP_key_le_one h list) hmem (list.names_key ▸ hname)]
  rfl

end TableRecord

end DocShape
