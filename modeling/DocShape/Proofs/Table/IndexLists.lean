import DocShape.Proofs.Json.Replacing
import DocShape.Proofs.Table.WellFormed

/-!
# Index lists

Of each index list a table keeps the entries that it can use, in their order, and gives one
line for each of the others.  What becomes of an entry is decided by the entry alone: other
entries and other lists have no part in it.

* `Notice.isLineOf`: the log lines about the entries of a list.
* `IndexList.kept?`, `IndexList.skipped?`: what becomes of an entry, an index or a line.
* `Table.KeepsUsable`: a table has an index or a line for each entry of a list.
* `Table.exists_ofJson_put`: a table with one list exchanged is read as well.
* `Table.indexLists_of_ofJson`: **index lists lose nothing silently**.
-/

namespace DocShape

open Decode

/-! ### Lines about a list -/

namespace Notice

/-- Whether a log line reports an entry of the list. -/
def isLineOf (list : IndexList) (notice : Notice) : Bool :=
  notice.isShapeDegraded && notice.text? "kind" == some list.entryName

variable (list : IndexList)

theorem isLineOf_indexSkipped (table : String) (other : IndexList) (index : String)
    (fault : IndexFault) :
    (indexSkipped table other index fault).isLineOf list = (other == list) := by
  cases other <;> cases list <;> rfl

theorem holdsOfLoading_not_isLineOf :
    HoldsOfLoading fun notice => notice.isLineOf list = false where
  nodeDegraded _ _ := rfl
  entrySkipped _ := rfl
  markerStripped _ := rfl

/-- No kind of shape is called like the entries of a list. -/
theorem isLineOf_variantDropped (table : String) (variant : Shape) :
    (variantDropped table variant.kindText).isLineOf list = false := by
  cases variant <;> cases list <;> rfl

end Notice

/-! ### Entries -/

namespace IndexList

/-- What a list is a list of. -/
def Entry : IndexList → Type
  | indexes => Index
  | searchIndexes => SearchIndex
  | vectorIndexes => VectorIndex
  | stagedIndexes => Index
  | stagedSearchIndexes => SearchIndex
  | stagedVectorIndexes => VectorIndex

instance : (list : IndexList) → IndexEntry list.Entry
  | indexes => inferInstanceAs (IndexEntry Index)
  | searchIndexes => inferInstanceAs (IndexEntry SearchIndex)
  | vectorIndexes => inferInstanceAs (IndexEntry VectorIndex)
  | stagedIndexes => inferInstanceAs (IndexEntry Index)
  | stagedSearchIndexes => inferInstanceAs (IndexEntry SearchIndex)
  | stagedVectorIndexes => inferInstanceAs (IndexEntry VectorIndex)

/-- Whether an index of a list has a name and what an index of its kind is over. -/
def Usable : (list : IndexList) → list.Entry → Prop
  | indexes, index => Index.Usable index
  | searchIndexes, index => SearchIndex.Usable index
  | vectorIndexes, index => VectorIndex.Usable index
  | stagedIndexes, index => Index.Usable index
  | stagedSearchIndexes, index => SearchIndex.Usable index
  | stagedVectorIndexes, index => VectorIndex.Usable index

/-- An entry of a list, read as what the list is a list of. -/
def ofJson (list : IndexList) (entry : Json) : Except DecodeError list.Entry :=
  IndexEntry.ofJson entry

/-- The index that an entry of a list gives. -/
def kept? (list : IndexList) (entry : Json) : Option list.Entry :=
  (IndexEntry.usable entry : Except (String × IndexFault) list.Entry).toOption

/-- The line that an entry of a list gives. -/
def skipped? (list : IndexList) (table : String) (entry : Json) : Option Notice :=
  match (IndexEntry.usable entry : Except (String × IndexFault) list.Entry) with
  | .ok _ => none
  | .error (index, fault) => some (.indexSkipped table list index fault)

variable {list : IndexList}

theorem fault?_eq_none_iff {index : list.Entry} :
    IndexEntry.fault? index = none ↔ list.Usable index := by
  cases list with
  | indexes => exact Index.fault?_eq_none_iff
  | searchIndexes => exact SearchIndex.fault?_eq_none_iff
  | vectorIndexes => exact VectorIndex.fault?_eq_none_iff
  | stagedIndexes => exact Index.fault?_eq_none_iff
  | stagedSearchIndexes => exact SearchIndex.fault?_eq_none_iff
  | stagedVectorIndexes => exact VectorIndex.fault?_eq_none_iff

/-- **The entries that are kept** are those that give a usable index. -/
theorem kept?_eq_some_iff {entry : Json} {index : list.Entry} :
    list.kept? entry = some index ↔ list.ofJson entry = .ok index ∧ list.Usable index := by
  rw [kept?, IndexEntry.usable, ofJson, ← fault?_eq_none_iff]
  cases hread : (IndexEntry.ofJson entry : Except DecodeError list.Entry) with
  | error reason => simp [Except.toOption]
  | ok found =>
    cases hfault : IndexEntry.fault? found with
    | some fault =>
      refine iff_of_false (by simp [hfault, Except.toOption]) ?_
      rintro ⟨hfound, husable⟩
      rw [← Except.ok.inj hfound, hfault] at husable
      cases husable
    | none =>
      simp only [hfault, Except.toOption, Option.some.injEq, Except.ok.injEq]
      constructor
      · rintro rfl
        exact ⟨rfl, hfault⟩
      · exact fun h => h.1

/-- **An entry gives an index or a line**, and never both. -/
theorem kept?_or_skipped? (list : IndexList) (table : String) (entry : Json) :
    (∃ index, list.kept? entry = some index ∧ list.skipped? table entry = none) ∨
    (list.kept? entry = none ∧
      ∃ index fault, list.skipped? table entry = some (.indexSkipped table list index fault)) := by
  rw [kept?, skipped?]
  cases (IndexEntry.usable entry : Except (String × IndexFault) list.Entry) with
  | ok index => exact Or.inl ⟨index, rfl, rfl⟩
  | error skipped => exact Or.inr ⟨rfl, skipped.1, skipped.2, rfl⟩

theorem length_kept_add_length_skipped (list : IndexList) (table : String) (entries : List Json) :
    (entries.filterMap list.kept?).length + (entries.filterMap (list.skipped? table)).length =
      entries.length := by
  induction entries with
  | nil => rfl
  | cons entry rest ih =>
    rw [List.length_cons, ← ih]
    rcases list.kept?_or_skipped? table entry with ⟨index, hkept, hskipped⟩ |
      ⟨hkept, index, fault, hskipped⟩
    · rw [List.filterMap_cons_some hkept, List.filterMap_cons_none hskipped, List.length_cons]
      omega
    · rw [List.filterMap_cons_none hkept, List.filterMap_cons_some hskipped, List.length_cons]
      omega

/-! ### Lists -/

theorem value_ofList (list : IndexList) (table : String) (entries : List Json) :
    (IndexEntry.ofList table list entries : Noted (List list.Entry)).value =
      entries.filterMap list.kept? := by
  rw [IndexEntry.ofList, Noted.value_map, Noted.value_traverse, List.filterMap_map]
  congr 1
  funext entry
  rw [Function.comp_apply, id_eq, IndexEntry.ofEntry, kept?]
  cases (IndexEntry.usable entry : Except (String × IndexFault) list.Entry) <;> rfl

theorem notices_ofList (list : IndexList) (table : String) (entries : List Json) :
    (IndexEntry.ofList table list entries : Noted (List list.Entry)).notices =
      entries.filterMap (list.skipped? table) := by
  rw [IndexEntry.ofList, Noted.notices_map, Noted.notices_traverse,
    List.filterMap_eq_flatMap_toList]
  congr 1
  funext entry
  rw [IndexEntry.ofEntry, skipped?]
  cases (IndexEntry.usable entry : Except (String × IndexFault) list.Entry) <;> rfl

/-- The lines of reading a list are lines about that list and no other. -/
theorem filter_notices_ofList (list other : IndexList) (table : String) (entries : List Json) :
    (IndexEntry.ofList table other entries : Noted (List other.Entry)).notices.filter
        (Notice.isLineOf list) =
      if other = list then entries.filterMap (list.skipped? table) else [] := by
  have hlines : (IndexEntry.ofList table other entries : Noted (List other.Entry)).Every
      fun notice => notice.isLineOf list = (other == list) :=
    IndexEntry.every_ofList (Notice.isLineOf_indexSkipped list table other) entries
  by_cases hlist : other = list
  · subst hlist
    rw [if_pos rfl, List.filter_eq_self.2, notices_ofList]
    intro notice hnotice
    rw [hlines notice hnotice, beq_self_eq_true]
  · rw [if_neg hlist, List.filter_eq_nil_iff]
    intro notice hnotice
    rw [hlines notice hnotice, beq_eq_false_iff_ne.2 hlist]
    exact Bool.false_ne_true

/-! ### Names of lists -/

/-- The lists in the order in which they are read. -/
def all : List IndexList :=
  [indexes, searchIndexes, vectorIndexes, stagedIndexes, stagedSearchIndexes, stagedVectorIndexes]

/-- No two lists stand under the same name. -/
theorem names_disjoint {list other : IndexList} (h : other ≠ list) :
    ∀ name ∈ list.names, name ∉ other.names := by
  cases list <;> cases other <;> first | exact absurd rfl h | decide

theorem ne_tableName (list : IndexList) : ∀ name ∈ list.names, "tableName" ≠ name := by
  cases list <;> decide

theorem entriesIn_put_of_ne {list other : IndexList} (h : other ≠ list) {name : String}
    (hname : name ∈ list.names) (value : Json) (members : Members) :
    other.entriesIn (.object (members.put name value)) = other.entriesIn (.object members) := by
  have hsame : ∀ own ∈ other.names, (Json.object (members.put name value)).get? own =
      (Json.object members).get? own := by
    intro own hown
    refine Members.lookup_put_of_ne ?_
    rintro rfl
    exact names_disjoint h own hname hown
  have hfound : other.names.findSome? (Json.object (members.put name value)).get? =
      other.names.findSome? (Json.object members).get? := by
    generalize other.names = names at hsame
    induction names with
    | nil => rfl
    | cons own rest ih =>
      rw [List.forall_mem_cons] at hsame
      rw [List.findSome?_cons, List.findSome?_cons, hsame.1, ih hsame.2]
  rw [entriesIn, entriesIn, hfound]

end IndexList

/-! ### Tables -/

namespace Table

/-- The indexes of a table that stand in a list. -/
def entriesOf (table : Table) : (list : IndexList) → List list.Entry
  | .indexes => table.indexes
  | .searchIndexes => table.searchIndexes
  | .vectorIndexes => table.vectorIndexes
  | .stagedIndexes => table.stagedIndexes
  | .stagedSearchIndexes => table.stagedSearchIndexes
  | .stagedVectorIndexes => table.stagedVectorIndexes

/-- The table has the usable ones of the entries, in their order, and there is one line for each of
the others, in their order. -/
structure KeepsUsable (list : IndexList) (entries : List Json) (table : Noted Table) : Prop where
  kept : table.value.entriesOf list = entries.filterMap list.kept?
  reported : table.notices.filter (Notice.isLineOf list) =
    entries.filterMap (list.skipped? table.value.name)

end Table

namespace TableRecord

theorem notices_toTable (record : TableRecord) (settings : Settings) (name : String) :
    (record.toTable settings name).notices =
      (record.documentShape settings name).notices ++ IndexList.all.flatMap fun list =>
        (IndexEntry.ofList name list ((record.list list).getD []) :
          Noted (List list.Entry)).notices :=
  rfl

theorem entriesOf_toTable (record : TableRecord) (settings : Settings) (name : String)
    (list : IndexList) :
    (record.toTable settings name).value.entriesOf list =
      (IndexEntry.ofList name list ((record.list list).getD []) :
        Noted (List list.Entry)).value := by
  cases list <;> rfl

/-- **A table has an index or a line for each entry** of each list of its record. -/
theorem keepsUsable_toTable (record : TableRecord) (settings : Settings) (name : String)
    (list : IndexList) :
    Table.KeepsUsable list ((record.list list).getD []) (record.toTable settings name) where
  kept := by
    rw [entriesOf_toTable, IndexList.value_ofList]
  reported := by
    have hdocument : (record.documentShape settings name).Every
        fun notice => notice.isLineOf list = false :=
      every_documentShape (Notice.holdsOfLoading_not_isLineOf list)
        (Notice.isLineOf_variantDropped list name) (fun _ => rfl) record settings
    rw [notices_toTable, List.filter_append, hdocument.filter_eq_nil, List.nil_append,
      List.filter_flatMap]
    simp only [IndexList.filter_notices_ofList]
    cases list <;> simp [IndexList.all] <;> rfl

end TableRecord

namespace Table

variable {settings : Settings}

/-- **A table with one list exchanged** is read as well, and the other lists are read as before. -/
theorem exists_ofJson_put {members : Members} {table : Noted Table}
    (h : Table.ofJson settings (.object members) = .ok table) {list : IndexList} {name : String}
    (hname : name ∈ list.names) (hmember : name ∈ members.map (·.1)) (entries : List Json) :
    ∃ other, Table.ofJson settings (.object (members.put name (.array entries))) = .ok other ∧
      other.value.name = table.value.name ∧ KeepsUsable list entries other ∧
      ∀ beside, beside ≠ list → KeepsUsable beside (beside.entriesIn (.object members)) other := by
  obtain ⟨record, tableName, hrecord, rfl⟩ := exists_recordOf_of_ofJson h
  obtain ⟨_, ⟨⟩, hread, hnamed, hne⟩ := recordOf_eq_ok_iff.1 hrecord
  have hcheck : checkMembers TableRecord.rules [] (members.put name (.array entries)) = .ok () := by
    refine checkMembers_put TableRecord.nodup_rules (TableRecord.ofMembers_eq_ok_iff.1 hread).1
      hmember ?_
    refine TableRecord.forall_mem_rules.2 ⟨?_, fun _ => rfl, ?_⟩
    · intro htable
      exact absurd (List.mem_singleton.1 htable).symm (list.ne_tableName name hname)
    · intro other _
      cases other <;> rfl
  obtain ⟨changed, hchanged⟩ := TableRecord.exists_ofMembers_of_checkMembers hcheck
  have hsame : changed.name = some tableName := by
    rw [TableRecord.name_of_ofMembers hchanged,
      Members.lookup_put_of_ne (list.ne_tableName name hname),
      ← TableRecord.name_of_ofMembers hread, hnamed]
  refine ⟨changed.toTable settings tableName, ?_, rfl, ?_, ?_⟩
  · rw [Table.ofJson, recordOf_eq_ok_iff.2 ⟨_, rfl, hchanged, hsame, hne⟩]
    rfl
  · have hlist := TableRecord.list_of_mem hchanged hname Members.mem_put_self
    have hkeeps := changed.keepsUsable_toTable settings tableName list
    rw [hlist] at hkeeps
    exact hkeeps
  · intro beside hbeside
    have hkeeps := changed.keepsUsable_toTable settings tableName beside
    rw [TableRecord.list_of_ofMembers hchanged,
      IndexList.entriesIn_put_of_ne hbeside hname] at hkeeps
    exact hkeeps

/-- **Index lists lose nothing silently.**  Of each list a table has the entries that are usable
indexes of the list's kind, in their order; every other entry gives one line of that kind, in the
same order; and when entries of a list are exchanged, what becomes of the others and of the other
lists stays the same. -/
theorem indexLists_of_ofJson {value : Json} {table : Noted Table}
    (h : Table.ofJson settings value = .ok table) (list : IndexList) :
    KeepsUsable list (list.entriesIn value) table ∧
    (∀ entry index, list.kept? entry = some index ↔
      list.ofJson entry = .ok index ∧ list.Usable index) ∧
    (∀ entry,
      (∃ index, list.kept? entry = some index ∧ list.skipped? table.value.name entry = none) ∨
      (list.kept? entry = none ∧ ∃ index fault, list.skipped? table.value.name entry =
        some (.indexSkipped table.value.name list index fault))) ∧
    (table.value.entriesOf list).length + (table.notices.filter (Notice.isLineOf list)).length =
      (list.entriesIn value).length ∧
    ∀ name ∈ list.names, ∀ before changed after,
      value.get? name = some (.array (before ++ changed ++ after)) →
      list.entriesIn value = before ++ changed ++ after ∧
      ∀ new, ∃ other,
        Table.ofJson settings
          (value.replaceAt [.member name] (.array (before ++ new ++ after))) = .ok other ∧
        other.value.name = table.value.name ∧
        KeepsUsable list (before ++ new ++ after) other ∧
        ∀ beside, beside ≠ list → KeepsUsable beside (beside.entriesIn value) other := by
  obtain ⟨record, tableName, hrecord, htable⟩ := exists_recordOf_of_ofJson h
  obtain ⟨members, hmembers, hread, -⟩ := recordOf_eq_ok_iff.1 hrecord
  obtain rfl := Json.members?_eq_some_iff.1 hmembers
  have hkeeps : KeepsUsable list (list.entriesIn (.object members)) table := by
    rw [htable, ← TableRecord.list_of_ofMembers hread]
    exact record.keepsUsable_toTable settings tableName list
  refine ⟨hkeeps, fun _ _ => IndexList.kept?_eq_some_iff, list.kept?_or_skipped? _, ?_, ?_⟩
  · rw [hkeeps.kept, hkeeps.reported]
    exact list.length_kept_add_length_skipped _ _
  · intro name hname before changed after hlookup
    obtain ⟨first, last, hsplit, -⟩ := List.lookup_eq_some_iff.1 hlookup
    have hmem : (name, Json.array (before ++ changed ++ after)) ∈ members := by
      rw [hsplit]
      exact List.mem_append_right first List.mem_cons_self
    refine ⟨?_, ?_⟩
    · rw [← TableRecord.list_of_ofMembers hread, TableRecord.list_of_mem hread hname hmem]
      rfl
    · intro new
      rw [Json.replaceAt, Json.updateAt_member hlookup]
      exact exists_ofJson_put h hname (List.mem_map_of_mem hmem) _

/-- A table with an index that can be used and one over no fields. -/
def halfUsable : Json :=
  .object [("tableName", .string "a"), ("indexes", .array [
    .object [("name", .string "i"), ("fields", .array [.string "x"])],
    .object [("name", .string "j")]])]

/-- The second index gives a line, and stays the only one to do so when the first is gone. -/
theorem indexLists_of_ofJson_halfUsable : ∃ table other,
    Table.ofJson {} halfUsable = .ok table ∧
      table.value.entriesOf .indexes = [Index.mk "i" ["x"]] ∧
      1 + (table.notices.filter (Notice.isLineOf .indexes)).length = 2 ∧
      Table.ofJson {} (halfUsable.replaceAt [.member "indexes"]
        (.array [.object [("name", .string "j")]])) = .ok other ∧
      other.value.entriesOf .indexes = ([] : List Index) ∧
      other.notices.filter (Notice.isLineOf .indexes) =
        [.indexSkipped other.value.name .indexes "j" .noFields] := by
  have hread : ∃ table, Table.ofJson {} halfUsable = .ok table := ⟨_, rfl⟩
  obtain ⟨table, hread⟩ := hread
  obtain ⟨hkeeps, -, -, hcount, hexchange⟩ := indexLists_of_ofJson hread .indexes
  obtain ⟨-, hexchange⟩ := hexchange "indexes" (by decide) []
    [.object [("name", .string "i"), ("fields", .array [.string "x"])]]
    [.object [("name", .string "j")]] rfl
  obtain ⟨other, hother, -, hchanged, -⟩ := hexchange []
  have hkept : table.value.entriesOf .indexes = [Index.mk "i" ["x"]] := hkeeps.kept.trans rfl
  rw [hkept] at hcount
  exact ⟨table, other, hread, hkept, hcount, hother, hchanged.kept.trans rfl,
    hchanged.reported.trans rfl⟩

end Table

end DocShape
