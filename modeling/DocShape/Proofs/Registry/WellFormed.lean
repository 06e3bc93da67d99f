import DocShape.Proofs.Registry.Run
import DocShape.Proofs.Table.WellFormed

/-!
# A registry holds well-formed tables

Whatever texts are read into a registry, all that it ever holds is well formed.
Tables that are registered directly are not looked at, so of them this has to be
known.

* `Command.wellFormed_of_mem_changes`: one operation registers only well-formed
  tables.
* `Registry.wellFormed_run`: **after a run every registered table is well formed**.
-/

namespace DocShape

/-- The tables that an operation registers are well formed, if those are that it is given. -/
theorem Command.wellFormed_of_mem_changes {settings : Settings} {command : Command}
    (hgiven : ∀ table, command = .register table → table.WellFormed settings) {table : Table}
    (h : .registered table ∈ command.changes settings) : table.WellFormed settings := by
  cases command with
  | readTable text =>
    rw [changes] at h
    split at h
    · cases h
    · next found hfound =>
      cases List.mem_singleton.1 h
      exact Table.wellFormed_of_ofText hfound
  | readDatabase text =>
    rw [changes] at h
    split at h
    · cases h
    · next database hdatabase =>
      rcases List.mem_cons.1 h with hemptied | hregistered
      · cases hemptied
      · obtain ⟨other, hother, heq⟩ := List.mem_map.1 hregistered
        cases heq
        exact Database.wellFormed_of_ofText hdatabase table hother
  | register other =>
    cases List.mem_singleton.1 h
    exact hgiven table rfl
  | remove name => cases List.mem_singleton.1 h

namespace Registry

/-- **After a run every registered table is well formed**, whatever was read and whether or not it
could be, as long as no table is registered directly that is not. -/
theorem wellFormed_run (settings : Settings) (commands : List Command)
    (hgiven : ∀ table, .register table ∈ commands → table.WellFormed settings) {name : String}
    {table : Table} (h : (run { settings } commands).value.get? name = some table) :
    table.WellFormed settings := by
  have hfollows := (Follows.empty settings).run commands
  obtain ⟨before, after, hhistory, -⟩ := (hfollows.reflects.get?_iff name table).1 h
  have hmem : .registered table ∈ commands.flatMap (Command.changes settings) := by
    rw [List.nil_append] at hhistory
    simp [hhistory]
  obtain ⟨command, hcommand, hchange⟩ := List.mem_flatMap.1 hmem
  exact Command.wellFormed_of_mem_changes (fun other heq => hgiven other (heq ▸ hcommand)) hchange

/-- The description of a table with a variant that describes no document and an index without a
name. -/
def flawedTable : Json :=
  .object [("tableName", .string "t"), ("documentType", .object [("type", .string "union"),
      ("value", .array [.null, .object [("type", .string "object"), ("value", .object [])]])]),
    ("indexes", .array [.array [.string "", .array [.string "n"]],
      .array [.string "i", .array [.string "n"]]])]

/-- What is left of it. -/
def mendedTable : Table where
  name := "t"
  documentType := some (.object [])
  indexes := [⟨"i", ["n"]⟩]

set_option maxRecDepth 4096 in
/-- Variant and index are dropped; an operation that fails and one on another name do not matter. -/
theorem wellFormed_run_flawedTable :
    (run {} [.readTable flawedTable.text, .readTable "", .remove "n"]).value.get? "t" =
      some mendedTable ∧ mendedTable.WellFormed {} := by
  have htext : Json.ofText? flawedTable.text = some flawedTable := by cbv
  have hempty : Json.ofText? "" = none := rfl
  have hread : ∃ notices, Table.ofText {} flawedTable.text = .ok ⟨mendedTable, notices⟩ := by
    rw [Table.ofText, htext]
    exact ⟨_, rfl⟩
  obtain ⟨notices, hread⟩ := hread
  have hfailed : Table.ofText {} "" = .error (.notJson Table.context) := by
    rw [Table.ofText, hempty]
  have hget : (run {} [.readTable flawedTable.text, .readTable "", .remove "n"]).value.get?
      "t" = some mendedTable := by
    rw [((Follows.empty {}).run _).get?_eq]
    simp [Command.changes, hread, hfailed, standing?, Change.leaves, mendedTable]
  exact ⟨hget, wellFormed_run {} _ (by simp) hget⟩

end Registry

end DocShape
