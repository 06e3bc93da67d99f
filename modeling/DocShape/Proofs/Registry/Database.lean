import DocShape.Proofs.Registry.Run
import Mathlib.Data.List.Dedup

/-!
# A registry that takes over a database

A loaded database puts its tables in place of all that were registered, the later
of two tables of one name in place of the earlier.  A look-up in the database
itself finds the earlier one, and the number that is reported counts both.

* `Registry.TookOver`: what a successful load leads to; what is registered then, by
  look-up (`TookOver.get?_eq`) and in number (`TookOver.size_eq`).
* `Registry.readDatabase_agrees_iff`: **registry and database agree exactly when no
  two tables of the database share a name**.
-/

namespace DocShape

/-! ### Tables by name -/

theorem name_of_find? {tables : List Table} {name : String} {table : Table}
    (h : (tables.find? fun table => table.name == name) = some table) : table.name = name := by
  have hfound := List.find?_some h
  exact beq_iff_eq.1 hfound

theorem find?_name_eq_some_iff {tables : List Table} (hnames : (tables.map (·.name)).Nodup)
    {name : String} {table : Table} :
    (tables.find? fun table => table.name == name) = some table ↔
      table ∈ tables ∧ table.name = name := by
  constructor
  · intro h
    exact ⟨List.mem_of_find?_eq_some h, name_of_find? h⟩
  · rintro ⟨hmem, rfl⟩
    have hsome : (tables.find? fun other => other.name == table.name).isSome = true :=
      List.find?_isSome.2 ⟨table, hmem, beq_self_eq_true _⟩
    obtain ⟨found, hfound⟩ := Option.isSome_iff_exists.1 hsome
    have hsame : found = table :=
      List.inj_on_of_nodup_map hnames (List.mem_of_find?_eq_some hfound) hmem (name_of_find? hfound)
    rw [hfound, hsame]

/-- Under distinct names the last table of a name is the first. -/
theorem find?_reverse_eq_find? {tables : List Table} (hnames : (tables.map (·.name)).Nodup)
    (name : String) :
    (tables.reverse.find? fun table => table.name == name) =
      tables.find? fun table => table.name == name := by
  have hreverse : (tables.reverse.map (·.name)).Nodup := by
    rw [List.map_reverse, List.nodup_reverse]
    exact hnames
  refine Option.ext ?_
  intro table
  rw [find?_name_eq_some_iff hreverse, find?_name_eq_some_iff hnames, List.mem_reverse]

/-- What a name stands for once a database is loaded: the last of its tables of that name. -/
theorem standing?_emptied_registered (schemaValidation : Bool) (tables : List Table)
    (name : String) :
    standing? (.emptied schemaValidation :: tables.map .registered) name =
      tables.reverse.find? fun table => table.name == name := by
  induction tables using List.reverseRecOn with
  | nil => rfl
  | append_singleton tables table ih =>
    rw [List.map_append, List.map_singleton, ← List.cons_append, standing?_append, ih,
      List.reverse_append, List.reverse_singleton, List.singleton_append, List.find?_cons,
      Change.leaves]
    by_cases hname : table.name = name
    · rw [if_pos hname, beq_iff_eq.2 hname]
    · rw [if_neg hname, beq_eq_false_iff_ne.2 hname]

namespace Registry

/-- A registry that has taken over the tables of a database. -/
def TookOver (registry : Registry) (database : Database) : Prop :=
  registry.Follows registry.settings
    (.emptied database.schemaValidation :: database.tables.map .registered)

namespace TookOver

variable {registry : Registry} {database : Database}

theorem get?_eq (h : registry.TookOver database) (name : String) :
    registry.get? name = database.tables.reverse.find? fun table => table.name == name := by
  rw [Follows.get?_eq h, standing?_emptied_registered]

theorem mem_names_iff (h : registry.TookOver database) {name : String} :
    name ∈ registry.names ↔ name ∈ database.tables.map (·.name) := by
  rw [mem_names, h.get?_eq, List.find?_isSome, List.mem_map]
  refine exists_congr fun table => ?_
  rw [List.mem_reverse, beq_iff_eq]

theorem size_eq (h : registry.TookOver database) :
    registry.size = (database.tables.map (·.name)).dedup.length := by
  have hperm : registry.names.Perm (database.tables.map (·.name)).dedup := by
    refine (List.perm_ext_iff_of_nodup Std.TreeMap.nodup_keys (List.nodup_dedup _)).2 ?_
    intro name
    rw [List.mem_dedup]
    exact h.mem_names_iff
  rw [Registry.size_eq, hperm.length_eq]

/-- A name is registered for each table exactly if no two tables share one. -/
theorem length_eq_size_iff (h : registry.TookOver database) :
    database.tables.length = registry.size ↔ (database.tables.map (·.name)).Nodup := by
  rw [h.size_eq, ← List.dedup_eq_self]
  constructor
  · intro hlength
    refine (List.dedup_sublist _).eq_of_length ?_
    rw [← hlength, List.length_map]
  · intro hdedup
    rw [hdedup, List.length_map]

end TookOver

/-- What a successful load gives, as changes of the registry. -/
theorem exists_tookOver_of_readDatabase {registry loaded : Registry} {text : String} {count : Nat}
    (h : (registry.readDatabase text).value = .ok (count, loaded)) :
    ∃ database, (Database.ofText registry.settings text).value = .ok database ∧
      count = database.tables.length ∧ loaded.TookOver database := by
  rw [readDatabase_eq, Noted.value_bind] at h
  cases hdatabase : (Database.ofText registry.settings text).value with
  | error error =>
    rw [hdatabase] at h
    cases h
  | ok database =>
    rw [hdatabase] at h
    cases h
    have hempty : ({ registry with
        schemaValidation := database.schemaValidation, tables := {} } : Registry).Follows
          registry.settings [.emptied database.schemaValidation] :=
      ⟨rfl, fun _ => rfl, rfl⟩
    have hloaded := hempty.applyAll (database.tables.map .registered)
    have hsettings : (registry.applyAll (.emptied database.schemaValidation ::
        database.tables.map .registered)).value.settings = registry.settings :=
      hloaded.settings_eq
    refine ⟨database, rfl, rfl, ?_⟩
    rw [TookOver, hsettings]
    exact hloaded

/-- **Registry and database agree exactly under distinct names.**  The number that is reported is
that of the tables in the database; a name stands for the last of them. -/
theorem readDatabase_agrees_iff {registry loaded : Registry} {text : String} {count : Nat}
    (h : (registry.readDatabase text).value = .ok (count, loaded)) :
    ∃ database, (Database.ofText registry.settings text).value = .ok database ∧
      count = database.tables.length ∧
      loaded.size = (database.tables.map (·.name)).dedup.length ∧
      (∀ name, loaded.get? name =
        database.tables.reverse.find? fun table => table.name == name) ∧
      (count = loaded.size ∧ (∀ name, loaded.get? name = database.table? name) ↔
        (database.tables.map (·.name)).Nodup) := by
  obtain ⟨database, hdatabase, rfl, hloaded⟩ := exists_tookOver_of_readDatabase h
  refine ⟨database, hdatabase, rfl, hloaded.size_eq, hloaded.get?_eq, ?_⟩
  constructor
  · rintro ⟨hcount, -⟩
    exact hloaded.length_eq_size_iff.1 hcount
  · intro hnames
    refine ⟨hloaded.length_eq_size_iff.2 hnames, ?_⟩
    intro name
    rw [hloaded.get?_eq, find?_reverse_eq_find? hnames]
    rfl

theorem exists_readDatabase_eq {registry : Registry} {text : String} {database : Database}
    (h : (Database.ofText registry.settings text).value = .ok database) :
    ∃ count loaded, (registry.readDatabase text).value = .ok (count, loaded) := by
  rw [readDatabase_eq, Noted.value_bind, h]
  exact ⟨_, _, rfl⟩

/-- A database of two tables, not in the order of their names. -/
def twoNames : Json :=
  .object [("tables", .array [.object [("tableName", .string "b")],
    .object [("tableName", .string "a")]])]

theorem readDatabase_agrees_twoNames : ∃ count loaded database,
    (({} : Registry).readDatabase twoNames.text).value = .ok (count, loaded) ∧
      (Database.ofText {} twoNames.text).value = .ok database ∧
      count = loaded.size ∧ ∀ name, loaded.get? name = database.table? name := by
  have htext : Json.ofText? twoNames.text = some twoNames := by cbv
  have hdatabase : (Database.ofText ({} : Registry).settings twoNames.text).value =
      .ok { tables := [{ name := "b" }, { name := "a" }] } := by
    rw [Database.ofText, htext]
    rfl
  obtain ⟨count, loaded, hread⟩ := exists_readDatabase_eq hdatabase
  obtain ⟨database, hfound, -, -, -, hagree⟩ := readDatabase_agrees_iff hread
  obtain rfl := Except.ok.inj (hdatabase.symm.trans hfound)
  have hnames : (["b", "a"] : List String).Nodup := by decide
  exact ⟨count, loaded, _, hread, hdatabase, hagree.2 hnames⟩

/-- A database of two tables of one name, the second of which has an index. -/
def repeatedName : Json :=
  .object [("tables", .array [.object [("tableName", .string "a")],
    .object [("tableName", .string "a"), ("indexes", .array [
      .object [("name", .string "i"), ("fields", .array [.string "x"])]])]])]

/-- **A registry that does not agree with its database.**  Two tables are reported where one is
registered, and the one is not the table that the database finds under its name. -/
theorem exists_readDatabase_disagreeing : ∃ count loaded database,
    (({} : Registry).readDatabase repeatedName.text).value = .ok (count, loaded) ∧
      (Database.ofText {} repeatedName.text).value = .ok database ∧
      count = 2 ∧ loaded.size = 1 ∧
      (loaded.get? "a").map (·.indexes) = some [⟨"i", ["x"]⟩] ∧
      (database.table? "a").map (·.indexes) = some [] := by
  have htext : Json.ofText? repeatedName.text = some repeatedName := by cbv
  have hdatabase : (Database.ofText ({} : Registry).settings repeatedName.text).value =
      .ok { tables := [{ name := "a" }, { name := "a", indexes := [⟨"i", ["x"]⟩] }] } := by
    rw [Database.ofText, htext]
    rfl
  obtain ⟨count, loaded, hread⟩ := exists_readDatabase_eq hdatabase
  obtain ⟨database, hfound, hcount, hloaded⟩ := exists_tookOver_of_readDatabase hread
  obtain rfl := Except.ok.inj (hdatabase.symm.trans hfound)
  refine ⟨count, loaded, _, hread, hdatabase, hcount, ?_, ?_, rfl⟩
  · rw [hloaded.size_eq]
    rfl
  · rw [hloaded.get?_eq]
    rfl

end Registry

end DocShape
