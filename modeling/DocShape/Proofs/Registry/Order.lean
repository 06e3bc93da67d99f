import DocShape.Proofs.Registry.Database

/-!
# The order of tables

A declared database lists its tables in the order of their names, and so does a registry
that is asked for its tables.  The one sorts a list and the other keeps a sorted map,
but under distinct names there is only one list in order with given tables.  So it
does not matter how and in which order the tables of a declaration arrived.

* `InNameOrder`: strictly in the order of the bytes of the names.
* `Database.sortedTables_eq`: the sorted tables are **the** list of them in order.
* `Registry.TookOver.perm_tables`: a registry that has taken over a database holds just
  its tables.
* `Registry.render_orderless`: **every order and every way leads to the same text**.
-/

namespace DocShape

/-- **In order**: each table has a name with smaller bytes than that of any later table. -/
def InNameOrder (tables : List Table) : Prop :=
  tables.Pairwise fun a b => Text.utf8Bytes a.name < Text.utf8Bytes b.name

/-- There is only one list in order with given tables. -/
theorem InNameOrder.eq_of_perm {tables others : List Table} (h : InNameOrder tables)
    (hothers : InNameOrder others) (hperm : tables.Perm others) : tables = others :=
  Text.eq_of_pairwise_bytes h hothers fun _ => hperm.mem_iff

theorem InNameOrder.nodup {tables : List Table} (h : InNameOrder tables) : tables.Nodup := by
  refine List.Pairwise.imp ?_ h
  rintro a b hlt rfl
  exact List.lt_irrefl _ hlt

namespace Database

/-! ### Sorted tables -/

theorem perm_sortedTables (database : Database) : database.sortedTables.Perm database.tables :=
  List.mergeSort_perm _ _

theorem inNameOrder_sortedTables {database : Database}
    (hnames : (database.tables.map (·.name)).Nodup) : InNameOrder database.sortedTables :=
  Text.pairwise_mergeSort Table.name hnames

/-- **The sorted tables are the only list of the tables in order.** -/
theorem sortedTables_eq {database : Database} {listed : List Table}
    (hperm : listed.Perm database.tables) (horder : InNameOrder listed) :
    database.sortedTables = listed := by
  have hnames : (database.tables.map (·.name)).Nodup := by
    refine (hperm.map _).nodup_iff.1 ?_
    rw [List.Nodup, List.pairwise_map]
    refine horder.imp ?_
    intro a b hlt heq
    exact List.lt_irrefl _ (heq ▸ hlt)
  exact (inNameOrder_sortedTables hnames).eq_of_perm horder
    (database.perm_sortedTables.trans hperm.symm)

/-- The declaration of a database, by its tables in order. -/
theorem render_eq_of_listed {layout : Layout} {database : Database} {listed : List Table}
    (hperm : listed.Perm database.tables) (horder : InNameOrder listed) :
    database.render layout = header ++ tablesText layout listed ++
      (if database.schemaValidation then "" else ", \x7b schemaValidation: false \x7d") ++
      ");\n" := by
  rw [render, sortedTables_eq hperm horder]

theorem render_eq_of_perm {layout : Layout} {database : Database} {tables : List Table}
    (hperm : tables.Perm database.tables) (hnames : (database.tables.map (·.name)).Nodup) :
    render layout ⟨tables, database.schemaValidation⟩ = database.render layout := by
  have horder := inNameOrder_sortedTables hnames
  rw [render_eq_of_listed (database.perm_sortedTables.trans hperm.symm) horder,
    render_eq_of_listed database.perm_sortedTables horder]

end Database

namespace Registry

/-! ### Tables of a registry -/

theorem mem_tables_database {registry : Registry} {table : Table} :
    table ∈ registry.database.tables ↔ ∃ name, registry.get? name = some table := by
  have hmem : table ∈ registry.database.tables ↔
      some table ∈ registry.names.map registry.get? := by
    rw [← registry.tables_database, List.mem_map]
    simp
  rw [hmem, List.mem_map]
  refine exists_congr fun name => ?_
  rw [mem_names]
  constructor
  · exact And.right
  · intro h
    exact ⟨by rw [h]; rfl, h⟩

/-- Where every table is under its own name, the database lists them in order. -/
theorem inNameOrder_database {registry : Registry}
    (hnames : ∀ name table, registry.get? name = some table → table.name = name) :
    InNameOrder registry.database.tables := by
  have hsome : (registry.database.tables.map (·.name)).map some = registry.names.map some :=
    calc (registry.database.tables.map (·.name)).map some
        = (registry.database.tables.map some).map (Option.map (·.name)) := by simp
      _ = registry.names.map fun name => (registry.get? name).map (·.name) := by
          rw [tables_database, List.map_map]
          rfl
      _ = registry.names.map some := by
          refine List.map_congr_left fun name hname => ?_
          obtain ⟨table, htable⟩ := Option.isSome_iff_exists.1 (mem_names.1 hname)
          rw [htable, Option.map_some, hnames name table htable]
  have hkeys : registry.database.tables.map (·.name) = registry.names :=
    (List.map_inj_right fun _ _ => Option.some.inj).1 hsome
  have hordered := registry.pairwise_names
  rw [← hkeys, List.pairwise_map] at hordered
  exact hordered

namespace TookOver

variable {registry : Registry} {database : Database}

theorem schemaValidation_database (h : registry.TookOver database) :
    registry.database.schemaValidation = database.schemaValidation := by
  have hlast := Follows.schemaValidation_eq h
  have hnone : (database.tables.map Change.registered).filterMap Change.schemaValidation? = [] := by
    rw [List.filterMap_map]
    exact List.filterMap_eq_nil_iff.2 fun _ _ => rfl
  rw [validationAfter, List.filterMap_cons, hnone] at hlast
  exact hlast

/-- A registry that has taken over a database holds just its tables. -/
theorem perm_tables (h : registry.TookOver database)
    (hnames : (database.tables.map (·.name)).Nodup) :
    registry.database.tables.Perm database.tables := by
  have horder := inNameOrder_database (Follows.reflects h).name_eq
  refine (List.perm_ext_iff_of_nodup horder.nodup hnames.of_map).2 ?_
  intro table
  rw [mem_tables_database]
  simp only [h.get?_eq, find?_reverse_eq_find? hnames, find?_name_eq_some_iff hnames]
  constructor
  · rintro ⟨name, hmem, -⟩
    exact hmem
  · intro hmem
    exact ⟨table.name, hmem, rfl⟩

/-- So it is declared like the database. -/
theorem render_eq (h : registry.TookOver database)
    (hnames : (database.tables.map (·.name)).Nodup) (layout : Layout) :
    registry.database.render layout = database.render layout := by
  have horder := inNameOrder_database (Follows.reflects h).name_eq
  rw [Database.render_eq_of_listed (List.Perm.refl _) horder,
    Database.render_eq_of_listed (h.perm_tables hnames) horder, h.schemaValidation_database]

end TookOver

/-! ### Registering one by one -/

theorem get?_eq_none_of_size_eq_zero {registry : Registry} (h : registry.size = 0)
    (name : String) : registry.get? name = none := by
  have hnames : registry.names = [] := by
    rw [← List.length_eq_zero_iff, ← registry.size_eq]
    exact h
  rw [← Option.not_isSome_iff_eq_none, ← mem_names, hnames]
  exact List.not_mem_nil

/-- A registry that holds no table takes over the tables that are registered in it. -/
theorem tookOver_run {empty : Registry} (h : empty.size = 0) (tables : List Table) :
    (empty.run (tables.map .register)).value.TookOver ⟨tables, empty.schemaValidation⟩ := by
  have hempty : empty.Follows empty.settings [.emptied empty.schemaValidation] :=
    ⟨rfl, get?_eq_none_of_size_eq_zero h, rfl⟩
  have hchanges : (tables.map Command.register).flatMap (Command.changes empty.settings) =
      tables.map .registered := by
    rw [List.flatMap_map, List.map_eq_flatMap]
    rfl
  have hrun := hempty.run (tables.map .register)
  rw [hchanges] at hrun
  rw [TookOver, hrun.settings_eq]
  exact hrun

/-- **The order in which tables arrive does not matter, nor the way.**  A database with distinct
names is declared by one line for each table, in the order of the bytes of their names, and so is
every database with the same tables in another order.  A registry that has loaded it is declared by
the same text, whatever was registered before; so is one that held no table when the tables were
registered one by one, in any order. -/
theorem render_orderless (layout : Layout) :
    (∀ database : Database, (database.tables.map (·.name)).Nodup →
      ∃ listed : List Table, listed.Perm database.tables ∧ InNameOrder listed ∧
        ∀ tables : List Table, tables.Perm database.tables →
          Database.render layout ⟨tables, database.schemaValidation⟩ =
            Database.header ++ Database.tablesText layout listed ++
              (if database.schemaValidation then "" else ", \x7b schemaValidation: false \x7d") ++
              ");\n") ∧
    ∀ (registry loaded : Registry) (text : String) (count : Nat),
      (registry.readDatabase text).value = .ok (count, loaded) →
      ∃ database, (Database.ofText registry.settings text).value = .ok database ∧
        ((database.tables.map (·.name)).Nodup →
          loaded.database.render layout = database.render layout ∧
          ∀ (empty : Registry) (tables : List Table), empty.size = 0 →
            empty.schemaValidation = database.schemaValidation → tables.Perm database.tables →
            (empty.run (tables.map .register)).value.database.render layout =
              database.render layout) := by
  constructor
  · intro database hnames
    refine ⟨database.sortedTables, database.perm_sortedTables,
      Database.inNameOrder_sortedTables hnames, ?_⟩
    intro tables hperm
    exact Database.render_eq_of_listed (database.perm_sortedTables.trans hperm.symm)
      (Database.inNameOrder_sortedTables hnames)
  · intro registry loaded text count hread
    obtain ⟨database, hdatabase, -, hloaded⟩ := exists_tookOver_of_readDatabase hread
    refine ⟨database, hdatabase, ?_⟩
    intro hnames
    refine ⟨hloaded.render_eq hnames layout, ?_⟩
    intro empty tables hempty hvalidation hperm
    have hrun := tookOver_run hempty tables
    rw [hvalidation] at hrun
    rw [hrun.render_eq ((hperm.map _).nodup_iff.2 hnames)]
    exact Database.render_eq_of_perm hperm hnames

/-- A registry in which a table of another name is registered. -/
def otherTable : Registry := (({} : Registry).register { name := "c" }).value

/-- The declaration of the two tables of `twoNames`. -/
def twoTablesText : String :=
  Database.header ++
    "\x7b\n  a: defineTable(v.any()),\n  b: defineTable(v.any()),\n\x7d);\n"

theorem render_orderless_twoNames : ∃ count loaded database,
    (otherTable.readDatabase twoNames.text).value = .ok (count, loaded) ∧
      (Database.ofText otherTable.settings twoNames.text).value = .ok database ∧
      (database.tables.map (·.name)).Nodup ∧ ({} : Registry).size = 0 ∧
      ([{ name := "a" }, { name := "b" }] : List Table).Perm database.tables ∧
      database.render {} = twoTablesText ∧ loaded.database.render {} = twoTablesText ∧
      (({} : Registry).run [.register { name := "a" }, .register { name := "b" }]
        ).value.database.render {} = twoTablesText := by
  have htext : Json.ofText? twoNames.text = some twoNames := by cbv
  have hdatabase : (Database.ofText otherTable.settings twoNames.text).value =
      .ok { tables := [{ name := "b" }, { name := "a" }] } := by
    rw [Database.ofText, htext]
    rfl
  have hnames : (["b", "a"] : List String).Nodup := by decide
  have hperm : ([{ name := "a" }, { name := "b" }] : List Table).Perm
      [{ name := "b" }, { name := "a" }] := List.Perm.swap _ _ _
  have horder : InNameOrder [{ name := "a" }, { name := "b" }] := by
    simp only [InNameOrder, List.pairwise_cons]
    decide +kernel
  obtain ⟨hdatabases, hregistries⟩ := render_orderless {}
  obtain ⟨listed, hlisted, hsorted, hrender⟩ :=
    hdatabases { tables := [{ name := "b" }, { name := "a" }] } hnames
  have hlistedEq := hsorted.eq_of_perm horder (hlisted.trans hperm.symm)
  have hshown := (hrender _ (List.Perm.refl _)).trans
    (show _ = twoTablesText by rw [hlistedEq]; decide +kernel)
  obtain ⟨count, loaded, hread⟩ := exists_readDatabase_eq hdatabase
  obtain ⟨database, hfound, hways⟩ := hregistries _ _ _ _ hread
  obtain rfl := Except.ok.inj (hdatabase.symm.trans hfound)
  obtain ⟨hloaded, hregistered⟩ := hways hnames
  refine ⟨count, loaded, _, hread, hdatabase, hnames, rfl, hperm, hshown, hloaded.trans hshown, ?_⟩
  exact (hregistered {} _ rfl rfl hperm).trans hshown

end Registry

end DocShape
