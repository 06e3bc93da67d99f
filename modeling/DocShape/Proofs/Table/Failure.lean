import DocShape.Proofs.Json.DistinctNames
import DocShape.Proofs.Table.Record
import Mathlib.Data.List.Forall2

/-!
# When reading fails

Whatever is wrong inside a table description is repaired; reading fails only for what
is wrong with the description itself.  There are three ways to fail, and the first that
applies is the one that is reported: the value is no object, a member has the wrong
type or is given under two names, or there is no name.  A database fails in the first
two ways, and otherwise as the first of its tables that fails.

* `Table.Malformed`, `Table.Nameless`: what the second and the third way are.
* `Table.ofJson_cases`: **the outcomes of reading a table**.
* `Database.ofJson_cases`: **the outcomes of reading a database**.
* `ingestion_outcomes`: both, for all values and all texts.
-/

namespace DocShape

open Decode

/-! ### Tables -/

namespace Table

/-- Members of which no table can be read: the name is no text, a list of indexes is no list, or a
list is given under two names. -/
def Malformed (members : Members) : Prop :=
  Mistyped Json.string? members "tableName" ∨
    (∃ list : IndexList, ∃ name ∈ list.names, Mistyped Json.items? members name) ∨
    ((members.lookup "stagedDbIndexes").isSome = true ∧
      (members.lookup "stagedIndexes").isSome = true)

/-- A name that is missing, `null` or empty. -/
def Nameless (members : Members) : Prop :=
  ∀ value ∈ members.lookup "tableName", value = .null ∨ value = .string ""

section

variable {members : Members} {record : TableRecord}

/-- **The members that pass are those that are not malformed.** -/
theorem checkMembers_iff (hmembers : (members.map (·.1)).Nodup) :
    checkMembers TableRecord.rules [] members = .ok () ↔ ¬ Malformed members := by
  have hname := Key.passes_iff (show TableRecord.nameKey.decode = nullable string from rfl)
    takes_string (by decide) hmembers
  have hdocument := Key.passes_iff
    (show TableRecord.documentTypeKey.decode = nullable Except.ok from rfl)
    (show Takes Except.ok some from fun _ => rfl) (by decide) hmembers
  have hlists : ∀ list : IndexList, _ := fun list =>
    Key.passes_iff list.decode_key takes_sequence (list.names_key ▸ list.nodup_names) hmembers
  rw [checkMembers_eq_ok_iff TableRecord.nodup_rules, TableRecord.forall_mem_rules, hname,
    hdocument]
  simp only [hlists, IndexList.names_key]
  rw [Malformed, not_or, not_or]
  constructor
  · rintro ⟨⟨hname, -⟩, -, hlists⟩
    refine ⟨hname "tableName" List.mem_cons_self, ?_, ?_⟩
    · rintro ⟨list, name, hmem, hmistyped⟩
      exact (hlists list).1 name hmem hmistyped
    · exact (hlists .stagedIndexes).2 "stagedIndexes" rfl
  · rintro ⟨hname, hentries, hstaged⟩
    refine ⟨⟨?_, fun _ h => nomatch h⟩, ⟨?_, fun _ h => nomatch h⟩, fun list => ⟨?_, ?_⟩⟩
    · intro name hmem
      rw [List.mem_singleton.1 hmem]
      exact hname
    · rintro name - ⟨value, -, -, hvalue⟩
      cases hvalue
    · intro name hmem hmistyped
      exact hentries ⟨list, name, hmem, hmistyped⟩
    · cases list with
      | stagedIndexes =>
        rintro _ ⟨⟩
        exact hstaged
      | _ => rintro _ ⟨⟩

/-- A name of the right type is no name only if it is empty. -/
theorem nameless_iff (h : ¬ Mistyped Json.string? members "tableName") :
    Nameless members ↔
      ∀ name ∈ (members.lookup "tableName").bind Json.string?, name = "" := by
  rw [Nameless]
  cases hvalue : members.lookup "tableName" with
  | none => exact iff_of_true (fun _ h => nomatch h) (fun _ h => nomatch h)
  | some value =>
    cases value with
    | null => simp [Json.string?]
    | string name => simp [Json.string?]
    | _ => exact absurd ⟨_, hvalue, Json.noConfusion, rfl⟩ h

/-- **What comes of the members of an object**: the first way to fail that applies, or a record. -/
theorem recordOf_cases (hmembers : (members.map (·.1)).Nodup) :
    (Malformed members ∧
      ∃ reason, recordOf (.object members) = .error (.invalidJson context reason)) ∨
    (¬ Malformed members ∧ Nameless members ∧
      recordOf (.object members) = .error .missingTableName) ∨
    (¬ Malformed members ∧ ¬ Nameless members ∧
      ∃ record name, recordOf (.object members) = .ok (record, name)) := by
  by_cases hmalformed : Malformed members
  · left
    cases hread : TableRecord.ofMembers members with
    | error reason =>
      exact ⟨hmalformed, reason.message, by simp only [recordOf, Json.members?, hread]⟩
    | ok record =>
      have hcheck := (TableRecord.ofMembers_eq_ok_iff.1 hread).1
      exact absurd hmalformed ((checkMembers_iff hmembers).1 hcheck)
  · right
    obtain ⟨record, hread⟩ :=
      TableRecord.exists_ofMembers_of_checkMembers ((checkMembers_iff hmembers).2 hmalformed)
    rw [nameless_iff fun h => hmalformed (Or.inl h), ← TableRecord.name_of_ofMembers hread]
    cases hname : record.name with
    | none =>
      refine Or.inl ⟨hmalformed, ?_, by simp [recordOf, Json.members?, hread, hname]⟩
      intro name h
      cases h
    | some name =>
      by_cases hempty : name = ""
      · refine Or.inl ⟨hmalformed, ?_, by simp [recordOf, Json.members?, hread, hname, hempty]⟩
        rintro _ ⟨⟩
        exact hempty
      · refine Or.inr ⟨hmalformed, fun h => hempty (h name rfl), record, name, ?_⟩
        simp [recordOf, Json.members?, hread, hname, hempty]

/-- **What comes of the members of an object**, as a table. -/
theorem ofJson_cases (settings : Settings) (hmembers : (members.map (·.1)).Nodup) :
    (Malformed members ∧
      ∃ reason, ofJson settings (.object members) = .error (.invalidJson context reason)) ∨
    (¬ Malformed members ∧ Nameless members ∧
      ofJson settings (.object members) = .error .missingTableName) ∨
    (¬ Malformed members ∧ ¬ Nameless members ∧
      ∃ table, ofJson settings (.object members) = .ok table) := by
  rcases recordOf_cases hmembers with ⟨h, reason, hread⟩ | ⟨h, hname, hread⟩ |
    ⟨h, hname, record, name, hread⟩
  · exact Or.inl ⟨h, reason, by rw [ofJson, hread]; rfl⟩
  · exact Or.inr (Or.inl ⟨h, hname, by rw [ofJson, hread]; rfl⟩)
  · exact Or.inr (Or.inr ⟨h, hname, _, by rw [ofJson, hread]; rfl⟩)

end

end Table

/-! ### Databases -/

namespace Database

/-- Members of which no database can be read: the tables are no list, or whether documents are
checked is no truth value. -/
def Malformed (members : Members) : Prop :=
  Mistyped Json.items? members "tables" ∨ Mistyped Json.bool? members "schemaValidation"

/-- The table descriptions in a database description. -/
def entriesIn (members : Members) : List Json :=
  ((members.lookup "tables").bind Json.items?).getD []

/-- Whether documents are checked; where nothing is said they are. -/
def validationIn (members : Members) : Bool :=
  ((members.lookup "schemaValidation").bind Json.bool?).getD true

/-- The rules for the members of a database description. -/
def rules : List Rule := [tablesKey.rule, schemaValidationKey.rule]

theorem nodup_rules : (rules.flatMap Rule.names).Nodup := by
  decide

section

variable {members : Members}

theorem checkMembers_iff (hmembers : (members.map (·.1)).Nodup) :
    checkMembers rules [] members = .ok () ↔ ¬ Malformed members := by
  have htables := Key.passes_iff (show tablesKey.decode = nullable sequence from rfl)
    takes_sequence (by decide) hmembers
  have hvalidation := Key.passes_iff
    (show schemaValidationKey.decode = nullable boolean from rfl) takes_boolean (by decide) hmembers
  rw [checkMembers_eq_ok_iff nodup_rules, rules, List.forall_mem_cons, List.forall_mem_singleton,
    htables, hvalidation, Malformed, not_or]
  constructor
  · rintro ⟨⟨htables, -⟩, hvalidation, -⟩
    exact ⟨htables "tables" List.mem_cons_self, hvalidation "schemaValidation" List.mem_cons_self⟩
  · rintro ⟨htables, hvalidation⟩
    refine ⟨⟨?_, fun _ h => nomatch h⟩, ?_, fun _ h => nomatch h⟩
    · intro name hmem
      rw [List.mem_singleton.1 hmem]
      exact htables
    · intro name hmem
      rw [List.mem_singleton.1 hmem]
      exact hvalidation

theorem ofMembers_of_malformed (hmembers : (members.map (·.1)).Nodup) (h : Malformed members) :
    ∃ reason, ofMembers members = .error reason := by
  cases hread : ofMembers members with
  | error reason => exact ⟨reason, rfl⟩
  | ok found =>
    obtain ⟨⟨⟩, hcheck, -⟩ := exists_of_bind_eq_ok hread
    exact absurd h ((checkMembers_iff hmembers).1 hcheck)

theorem ofMembers_of_not_malformed (hmembers : (members.map (·.1)).Nodup)
    (h : ¬ Malformed members) :
    ofMembers members = .ok (entriesIn members, validationIn members) := by
  have hcheck := (checkMembers_iff hmembers).2 h
  have hpasses := (checkMembers_eq_ok_iff nodup_rules).1 hcheck
  obtain ⟨tables, htables⟩ := Key.exists_orElse_eq_ok none
    (hpasses tablesKey.rule List.mem_cons_self).1
  obtain ⟨validation, hvalidation⟩ := Key.exists_orElse_eq_ok none
    (hpasses schemaValidationKey.rule (by simp [rules])).1
  have htablesEq := Key.orElse_none_eq rfl takes_sequence rfl htables
  have hvalidationEq := Key.orElse_none_eq rfl takes_boolean rfl hvalidation
  rw [Key.find?_eq_lookup rfl] at htablesEq hvalidationEq
  show (checkMembers rules [] members >>= _) = _
  simp only [hcheck, htables, hvalidation, bind, Except.bind, htablesEq, hvalidationEq]
  rfl

end

section

variable {settings : Settings}

/-- **Tables are read up to the first that cannot be read**, and its error is that of all. -/
theorem readTables_cases (settings : Settings) (values : List Json) :
    (∃ tables, List.Forall₂ (fun value table => Table.ofJson settings value = .ok table) values
        tables ∧ (readTables settings values).value = .ok (tables.map (·.value))) ∨
    ∃ before value after error, values = before ++ value :: after ∧
      (∀ earlier ∈ before, ∃ table, Table.ofJson settings earlier = .ok table) ∧
      Table.ofJson settings value = .error error ∧
      (readTables settings values).value = .error error := by
  induction values with
  | nil => exact Or.inl ⟨[], .nil, rfl⟩
  | cons value rest ih =>
    cases hvalue : Table.ofJson settings value with
    | error error =>
      refine Or.inr ⟨[], value, rest, error, rfl, List.forall_mem_nil _, hvalue, ?_⟩
      simp only [readTables, hvalue, Noted.value_pure]
    | ok table =>
      rcases ih with ⟨tables, htables, hrest⟩ |
        ⟨before, bad, after, error, rfl, hbefore, hbad, hrest⟩
      · refine Or.inl ⟨table :: tables, .cons hvalue htables, ?_⟩
        simp only [readTables, hvalue, Noted.value_bind, Noted.value_pure, hrest]
        rfl
      · refine Or.inr ⟨value :: before, bad, after, error, rfl, ?_, hbad, ?_⟩
        · exact List.forall_mem_cons.2 ⟨⟨table, hvalue⟩, hbefore⟩
        · simp only [readTables, hvalue, Noted.value_bind, Noted.value_pure, hrest]
          rfl

/-- **What comes of the members of a database description**: the members are malformed, or all
tables are read, or the error is that of the first table that is not. -/
theorem ofJson_cases (settings : Settings) {members : Members}
    (hmembers : (members.map (·.1)).Nodup) :
    (Malformed members ∧ ∃ reason,
      (ofJson settings (.object members)).value = .error (.invalidJson context reason)) ∨
    (¬ Malformed members ∧ ∃ tables,
      List.Forall₂ (fun entry table => Table.ofJson settings entry = .ok table)
        (entriesIn members) tables ∧
      (ofJson settings (.object members)).value =
        .ok ⟨tables.map (·.value), validationIn members⟩) ∨
    (¬ Malformed members ∧ ∃ before entry after error,
      entriesIn members = before ++ entry :: after ∧
      (∀ earlier ∈ before, ∃ table, Table.ofJson settings earlier = .ok table) ∧
      Table.ofJson settings entry = .error error ∧
      (ofJson settings (.object members)).value = .error error) := by
  by_cases hmalformed : Malformed members
  · obtain ⟨reason, hread⟩ := ofMembers_of_malformed hmembers hmalformed
    refine Or.inl ⟨hmalformed, reason.message, ?_⟩
    simp only [ofJson, Json.members?, hread, Noted.value_pure]
  · have hread := ofMembers_of_not_malformed hmembers hmalformed
    have hvalue : (ofJson settings (.object members)).value =
        (readTables settings (entriesIn members)).value.map
          fun tables => ⟨tables, validationIn members⟩ := by
      simp only [ofJson, Json.members?, hread, Noted.value_map]
    rw [hvalue]
    rcases readTables_cases settings (entriesIn members) with ⟨tables, htables, hall⟩ |
      ⟨before, entry, after, error, hentries, hbefore, hentry, hall⟩
    · exact Or.inr (Or.inl ⟨hmalformed, tables, htables, by rw [hall]; rfl⟩)
    · exact Or.inr (Or.inr ⟨hmalformed, before, entry, after, error, hentries, hbefore, hentry,
        by rw [hall]; rfl⟩)

end

end Database

/-! ### All outcomes -/

/-- **Reading fails exactly when it should.**  A table is read from every object with a name whose
members have the right types, and nothing inside the document type or an index list matters.  A
database is read if each of its tables is, and otherwise fails as the first that is not. -/
theorem ingestion_outcomes (settings : Settings) :
    (∀ value : Json, value.DistinctNames →
      (Table.ofJson settings value = .error (.notAnObject Table.context) ↔
        value.members? = none) ∧
      ((∃ reason, Table.ofJson settings value = .error (.invalidJson Table.context reason)) ↔
        ∃ members, value.members? = some members ∧ Table.Malformed members) ∧
      (Table.ofJson settings value = .error .missingTableName ↔
        ∃ members, value.members? = some members ∧
          ¬ Table.Malformed members ∧ Table.Nameless members) ∧
      ((∃ table, Table.ofJson settings value = .ok table) ↔
        ∃ members, value.members? = some members ∧
          ¬ Table.Malformed members ∧ ¬ Table.Nameless members)) ∧
    ∀ text value, Json.ofText? text = some value →
      (value.members? = none →
        (Database.ofText settings text).value = .error (.notAnObject Database.context)) ∧
      ∀ members, value.members? = some members →
        (Database.Malformed members → ∃ reason,
          (Database.ofText settings text).value =
            .error (.invalidJson Database.context reason)) ∧
        (¬ Database.Malformed members →
          (∃ tables, List.Forall₂ (fun entry table => Table.ofJson settings entry = .ok table)
              (Database.entriesIn members) tables ∧
            (Database.ofText settings text).value =
              .ok ⟨tables.map (·.value), Database.validationIn members⟩) ∨
          ∃ before entry after error, Database.entriesIn members = before ++ entry :: after ∧
            (∀ earlier ∈ before, ∃ table, Table.ofJson settings earlier = .ok table) ∧
            Table.ofJson settings entry = .error error ∧
            (Database.ofText settings text).value = .error error) := by
  constructor
  · intro value hdistinct
    cases hmembers : value.members? with
    | none =>
      have hread : Table.ofJson settings value = .error (.notAnObject Table.context) := by
        simp only [Table.ofJson, Table.recordOf, hmembers]
        rfl
      simp [hread]
    | some members =>
      obtain rfl := Json.members?_eq_some_iff.1 hmembers
      have hnodup := hdistinct.nodup
      rcases Table.ofJson_cases settings hnodup with ⟨h, reason, hread⟩ | ⟨h, hname, hread⟩ |
        ⟨h, hname, table, hread⟩
      · simp [hread, h]
      · simp [hread, h, hname]
      · simp [hread, h, hname]
  · intro text value htext
    have hdatabase : Database.ofText settings text = Database.ofJson settings value := by
      simp only [Database.ofText, htext]
    rw [hdatabase]
    constructor
    · intro hmembers
      simp only [Database.ofJson, hmembers, Noted.value_pure]
    · intro members hmembers
      obtain rfl := Json.members?_eq_some_iff.1 hmembers
      have hnodup := (Json.distinctNames_ofText? htext).nodup
      rcases Database.ofJson_cases settings hnodup with ⟨h, hread⟩ | ⟨h, hread⟩ | ⟨h, hread⟩
      · exact ⟨fun _ => hread, fun hnot => absurd h hnot⟩
      · exact ⟨fun hmalformed => absurd hmalformed h, fun _ => Or.inl hread⟩
      · exact ⟨fun hmalformed => absurd hmalformed h, fun _ => Or.inr hread⟩

/-- A table both of whose lists of staged indexes are `null`. -/
def stagedTwice : Json :=
  .object [("tableName", .string "a"), ("stagedDbIndexes", .null), ("stagedIndexes", .null)]

/-- A database whose second table has no name, and whose third is no object. -/
def secondNameless : Json :=
  .object [("tables", .array [.object [("tableName", .string "a")], .object [], .array []])]

theorem ingestion_outcomes_secondNameless :
    (∃ reason, Table.ofJson {} stagedTwice = .error (.invalidJson Table.context reason)) ∧
      (Database.ofText {} secondNameless.text).value = .error .missingTableName := by
  constructor
  · have hdistinct : stagedTwice.DistinctNames := by
      refine Json.distinctNames_object (by decide) ?_
      intro member hmember
      refine Json.distinctNames_scalar ?_ ?_
      all_goals
        simp only [List.mem_cons, List.not_mem_nil, or_false] at hmember
        rcases hmember with rfl | rfl | rfl <;> simp [Json.parts]
    have hmalformed := ((ingestion_outcomes {}).1 stagedTwice hdistinct).2.1.2
    exact hmalformed ⟨_, rfl, Or.inr (Or.inr ⟨rfl, rfl⟩)⟩
  · have htext : Json.ofText? secondNameless.text = some secondNameless := by cbv
    have hwell : ¬ Database.Malformed [("tables", .array [.object [("tableName", .string "a")],
        .object [], .array []])] := by
      rintro (⟨value, hvalue, -, hitems⟩ | ⟨value, hvalue, -⟩)
      · cases hvalue
        cases hitems
      · cases hvalue
    rcases (((ingestion_outcomes {}).2 _ _ htext).2 _ rfl).2 hwell with ⟨tables, htables, -⟩ |
      ⟨before, entry, after, error, hentries, hbefore, hentry, hvalue⟩
    · -- The second entry gives no table.
      rcases htables with _ | ⟨-, _ | ⟨hsecond, -⟩⟩
      cases hsecond
    · rw [hvalue]
      rcases before with _ | ⟨first, _ | ⟨second, rest⟩⟩
      · cases hentries
        cases hentry
      · cases hentries
        cases hentry
        rfl
      · have hsecond : some (Json.object []) = some second := congrArg (fun l => l[1]?) hentries
        obtain ⟨table, hread⟩ := hbefore second (by simp)
        rw [← Option.some.inj hsecond] at hread
        cases hread

end DocShape
