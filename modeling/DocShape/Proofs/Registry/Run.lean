import DocShape.Proofs.Notice.Repairs
import DocShape.Proofs.Registry.History
import DocShape.Proofs.Text.ByteOrder

/-!
# A registry reflects its history

Every operation of a run passes from a registry that agrees with what has happened
so far to one that agrees with what has happened then, whether it succeeds or not.
So whatever is asked of the registry after a run is told by the history alone.

* `Registry.Follows`: the invariant, kept by one change (`Follows.apply`), by the
  changes of one operation (`Follows.perform`) and by a run (`Follows.run`).
* `Registry.value_perform`, `Registry.registrations_perform`: an operation is its
  changes, besides the repairs of what it reads.
* `Registry.Reflects`: what a registry shows of a history.
* `Registry.run_reflects`: **every run leads to a registry that reflects it**.
-/

namespace DocShape

namespace Registry

/-! ### The sorted map -/

theorem get?_register (registry : Registry) (table : Table) (name : String) :
    (registry.register table).value.get? name =
      if table.name = name then some table else registry.get? name := by
  show (registry.tables.insert table.name table)[name]? = _
  rw [Std.TreeMap.getElem?_insert]
  simp only [Std.LawfulEqCmp.compare_eq_iff_eq]
  rfl

theorem get?_remove (registry : Registry) (other name : String) :
    (registry.remove other).get? name = if other = name then none else registry.get? name := by
  show (registry.tables.erase other)[name]? = _
  rw [Std.TreeMap.getElem?_erase]
  simp only [Std.LawfulEqCmp.compare_eq_iff_eq]
  rfl

theorem contains_eq (registry : Registry) (name : String) :
    registry.tables.contains name = (registry.get? name).isSome :=
  Std.TreeMap.contains_eq_isSome_getElem?

theorem mem_names {registry : Registry} {name : String} :
    name ∈ registry.names ↔ (registry.get? name).isSome = true := by
  rw [names, Std.TreeMap.mem_keys, Std.TreeMap.mem_iff_contains, contains_eq]

theorem size_eq (registry : Registry) : registry.size = registry.names.length :=
  Std.TreeMap.length_keys.symm

/-- The names are in the order of their bytes, each once. -/
theorem pairwise_names (registry : Registry) :
    registry.names.Pairwise fun a b => Text.utf8Bytes a < Text.utf8Bytes b := by
  refine List.Pairwise.imp ?_ Std.TreeMap.ordered_keys
  intro a b hab
  exact Text.utf8Bytes_lt (compareOfLessAndEq_eq_lt.1 hab)

/-- The database holds the table of each name, in the order of the names. -/
theorem tables_database (registry : Registry) :
    registry.database.tables.map some = registry.names.map registry.get? := by
  have hvalues : registry.database.tables = registry.tables.toList.map Prod.snd := by
    show registry.tables.foldr (fun _ table rest => table :: rest) [] = _
    rw [Std.TreeMap.foldr_eq_foldr_toList]
    rw [List.foldr_cons_eq_append, List.append_nil]
  -- The names are the keys of the same entries.
  rw [hvalues, names, ← Std.TreeMap.map_fst_toList_eq_keys, List.map_map, List.map_map]
  refine List.map_congr_left ?_
  intro entry hentry
  exact (Std.TreeMap.mem_toList_iff_getElem?_eq_some.1 hentry).symm

/-! ### One change -/

/-- The registry after a change. -/
def apply (registry : Registry) : Change → Noted Registry
  | .emptied schemaValidation =>
    pure { registry with schemaValidation := schemaValidation, tables := {} }
  | .registered table => registry.register table
  | .removed name => pure (registry.remove name)

/-- The registry after some changes. -/
def applyAll (registry : Registry) : List Change → Noted Registry
  | [] => pure registry
  | change :: rest => do (← registry.apply change).applyAll rest

/-- Whether a registry is one that a history leads to. -/
structure Follows (registry : Registry) (settings : Settings) (history : List Change) : Prop where
  settings_eq : registry.settings = settings
  get?_eq : ∀ name, registry.get? name = standing? history name
  schemaValidation_eq : registry.schemaValidation = validationAfter history

namespace Follows

variable {registry : Registry} {settings : Settings} {history : List Change}

theorem empty (settings : Settings) : Follows { settings } settings [] where
  settings_eq := rfl
  get?_eq _ := rfl
  schemaValidation_eq := rfl

theorem apply (h : registry.Follows settings history) (change : Change) :
    (registry.apply change).value.Follows settings (history ++ [change]) := by
  refine ⟨?_, ?_, ?_⟩
  · rw [← h.settings_eq]
    cases change <;> rfl
  · intro name
    rw [standing?_append, ← h.get?_eq]
    cases change with
    | emptied schemaValidation => rfl
    | registered table => exact registry.get?_register table name
    | removed other => exact registry.get?_remove other name
  · rw [validationAfter_append, ← h.schemaValidation_eq]
    cases change <;> rfl

theorem notices_apply (h : registry.Follows settings history) (change : Change) :
    (registry.apply change).notices = change.announcement history := by
  cases change with
  | registered table =>
    show [if registry.tables.contains table.name then _ else _] = _
    rw [contains_eq, h.get?_eq]
    rfl
  | _ => rfl

theorem applyAll (h : registry.Follows settings history) (changes : List Change) :
    (registry.applyAll changes).value.Follows settings (history ++ changes) := by
  induction changes generalizing registry history with
  | nil =>
    rw [List.append_nil]
    exact h
  | cons change rest ih =>
    have hrest := ih (h.apply change)
    rw [List.append_assoc, List.singleton_append] at hrest
    exact hrest

theorem notices_applyAll (h : registry.Follows settings history) (changes : List Change) :
    (registry.applyAll changes).notices = announced history changes := by
  induction changes generalizing registry history with
  | nil => rfl
  | cons change rest ih =>
    rw [Registry.applyAll, Noted.notices_bind, h.notices_apply, ih (h.apply change)]
    rfl

end Follows

/-! ### One operation -/

theorem registerAll_eq (registry : Registry) (tables : List Table) :
    registry.registerAll tables = registry.applyAll (tables.map .registered) := by
  induction tables generalizing registry with
  | nil => rfl
  | cons table rest ih =>
    rw [registerAll, List.map_cons, applyAll]
    simp only [ih]
    rfl

/-- A loaded database takes the place of all tables. -/
theorem readDatabase_eq (registry : Registry) (text : String) :
    registry.readDatabase text = do
      match ← Database.ofText registry.settings text with
      | .error error => return .error error
      | .ok database =>
        let loaded ← registry.applyAll
          (.emptied database.schemaValidation :: database.tables.map .registered)
        return .ok (database.tables.length, loaded) := by
  rw [readDatabase]
  congr 1
  funext result
  cases result with
  | error error => rfl
  | ok database =>
    simp only [registerAll_eq]
    rfl

end Registry

/-! ### Announcements -/

/-- Whether a log line says that a table was registered. -/
def Notice.isRegistration (line : Notice) : Bool :=
  line.text? "event" == some "SCHEMA_LOADED" || line.text? "event" == some "SCHEMA_REPLACED"

theorem Notice.isRegistration_of_isDegradation {notice : Notice}
    (h : notice.event.isDegradation = true) : notice.isRegistration = false := by
  cases notice <;> first | rfl | cases h

/-- The notices that say that a table was registered. -/
def Noted.registrations {α : Type} (x : Noted α) : List Notice :=
  x.notices.filter Notice.isRegistration

namespace Noted

variable {α β : Type}

theorem registrations_bind (x : Noted α) (f : α → Noted β) :
    (x >>= f).registrations = x.registrations ++ (f x.value).registrations := by
  rw [registrations, notices_bind, List.filter_append]
  rfl

theorem registrations_map (f : α → β) (x : Noted α) :
    (f <$> x).registrations = x.registrations := by
  rw [registrations, notices_map]
  rfl

theorem OnlyRepairs.registrations_eq_nil {x : Noted α} (h : x.OnlyRepairs) :
    x.registrations = [] := by
  refine List.filter_eq_nil_iff.2 ?_
  intro notice hnotice
  rw [Notice.isRegistration_of_isDegradation (h notice hnotice)]
  exact Bool.false_ne_true

end Noted

namespace Registry

/-- An operation does what its changes do, one after the other. -/
theorem value_perform (registry : Registry) (command : Command) :
    (registry.perform command).value =
      (registry.applyAll (command.changes registry.settings)).value := by
  cases command with
  | readTable text =>
    rw [perform, attempt, readTable, Command.changes]
    cases Table.ofText registry.settings text <;> rfl
  | readDatabase text =>
    rw [perform, attempt, readDatabase_eq, Noted.value_map, Noted.value_map, Noted.value_bind,
      Command.changes]
    cases (Database.ofText registry.settings text).value <;> rfl
  | register table => rfl
  | remove name => rfl

/-- Besides repairs of what is read, an operation reports what its changes do. -/
theorem registrations_perform (registry : Registry) (command : Command) :
    (registry.perform command).registrations =
      (registry.applyAll (command.changes registry.settings)).registrations := by
  rw [perform, Noted.registrations_map]
  cases command with
  | readTable text =>
    rw [attempt, readTable, Command.changes]
    cases htable : Table.ofText registry.settings text with
    | error error => rfl
    | ok found =>
      have hrepairs := (Table.onlyRepairs_ofText htable).registrations_eq_nil
      dsimp only [Except.map]
      rw [Noted.registrations_map, Noted.registrations_bind, hrepairs, List.nil_append, applyAll]
      rfl
  | readDatabase text =>
    have hrepairs := (Database.onlyRepairs_ofText registry.settings text).registrations_eq_nil
    rw [attempt, readDatabase_eq, Noted.registrations_map, Noted.registrations_bind, hrepairs,
      List.nil_append, Command.changes]
    cases (Database.ofText registry.settings text).value with
    | error error => rfl
    | ok database =>
      exact (Noted.registrations_bind _ _).trans (List.append_nil _)
  | register table =>
    rw [attempt, Noted.registrations_map, Command.changes, applyAll, Noted.registrations_bind]
    exact (List.append_nil _).symm
  | remove name => rfl

end Registry

theorem isRegistration_of_mem_announced {changes : List Change} : ∀ {before : List Change}
    {notice : Notice}, notice ∈ announced before changes → notice.isRegistration = true := by
  induction changes with
  | nil => intro _ _ h; cases h
  | cons change rest ih =>
    intro before notice h
    rw [announced] at h
    rcases List.mem_append.1 h with hfirst | hrest
    · cases change with
      | registered table =>
        rw [List.mem_singleton.1 hfirst]
        split <;> rfl
      | emptied _ | removed _ => cases hfirst
    · exact ih hrest

/-- The log lines name the registrations and their tables. -/
theorem map_text_announced (before changes : List Change) :
    (announced before changes).map (fun line => (line.text? "event", line.text? "table")) =
      (registrationEvents before changes).map (Prod.map some some) := by
  induction changes generalizing before with
  | nil => rfl
  | cons change rest ih =>
    rw [announced, List.map_append, ih]
    cases change with
    | registered table =>
      rw [registrationEvents, List.map_cons, Change.announcement]
      split <;> rfl
    | emptied _ | removed _ => rfl

namespace Registry

/-! ### Runs -/

namespace Follows

variable {registry : Registry} {settings : Settings} {history : List Change}

theorem registrations_applyAll (h : registry.Follows settings history) (changes : List Change) :
    (registry.applyAll changes).registrations = announced history changes := by
  rw [Noted.registrations, h.notices_applyAll, List.filter_eq_self]
  intro notice hnotice
  exact isRegistration_of_mem_announced hnotice

theorem perform (h : registry.Follows settings history) (command : Command) :
    (registry.perform command).value.Follows settings (history ++ command.changes settings) := by
  rw [value_perform, h.settings_eq]
  exact h.applyAll _

theorem run (h : registry.Follows settings history) (commands : List Command) :
    (registry.run commands).value.Follows settings
      (history ++ commands.flatMap (Command.changes settings)) := by
  induction commands generalizing registry history with
  | nil =>
    rw [List.flatMap_nil, List.append_nil]
    exact h
  | cons command rest ih =>
    have hrest := ih (h.perform command)
    rw [List.append_assoc, ← List.flatMap_cons] at hrest
    exact hrest

theorem registrations_run (h : registry.Follows settings history) (commands : List Command) :
    (registry.run commands).registrations =
      announced history (commands.flatMap (Command.changes settings)) := by
  induction commands generalizing registry history with
  | nil => rfl
  | cons command rest ih =>
    rw [Registry.run, Noted.registrations_bind, registrations_perform, h.settings_eq,
      h.registrations_applyAll, ih (h.perform command), List.flatMap_cons, announced_append]

end Follows

/-- What a registry shows of a history. -/
structure Reflects (registry : Registry) (history : List Change) : Prop where
  get?_iff : ∀ name table, registry.get? name = some table ↔ Stands history name table
  /-- Every table is under its own name. -/
  name_eq : ∀ name table, registry.get? name = some table → table.name = name
  mem_names_iff : ∀ name, name ∈ registry.names ↔ ∃ table, Stands history name table
  /-- The names are strictly increasing, as lists of bytes. -/
  increasing : registry.names.Pairwise fun a b => Text.utf8Bytes a < Text.utf8Bytes b
  size_eq : registry.size = registry.names.length
  /-- The database lists the tables of the names, in their order. -/
  tables_eq : registry.database.tables.map some = registry.names.map registry.get?
  schemaValidation_eq : registry.database.schemaValidation = validationAfter history

theorem Follows.reflects {registry : Registry} {settings : Settings} {history : List Change}
    (h : registry.Follows settings history) : registry.Reflects history := by
  have hget : ∀ name table, registry.get? name = some table ↔ Stands history name table := by
    intro name table
    rw [h.get?_eq, standing?_eq_some_iff]
  refine ⟨hget, ?_, ?_, registry.pairwise_names, registry.size_eq, registry.tables_database,
    h.schemaValidation_eq⟩
  · intro name table hfound
    obtain ⟨before, after, -, hname, -⟩ := (hget name table).1 hfound
    exact hname
  · intro name
    rw [mem_names, Option.isSome_iff_exists]
    exact exists_congr (hget name)

/-- An operation that fails is no change, and leaves the registry as it is. -/
theorem perform_of_error {registry : Registry} {command : Command} {error : SchemaError}
    (h : (registry.attempt command).value = .error error) :
    command.changes registry.settings = [] ∧ (registry.perform command).value = registry := by
  have hold : (registry.perform command).value = registry := by
    rw [perform, Noted.value_map, h]
    rfl
  refine ⟨?_, hold⟩
  cases command with
  | readTable text =>
    rw [attempt, readTable] at h
    rw [Command.changes]
    cases htable : Table.ofText registry.settings text with
    | error error => rfl
    | ok found =>
      rw [htable] at h
      cases h
  | readDatabase text =>
    rw [attempt, readDatabase_eq, Noted.value_map, Noted.value_bind] at h
    rw [Command.changes]
    cases hdatabase : (Database.ofText registry.settings text).value with
    | error error => rfl
    | ok database =>
      rw [hdatabase] at h
      cases h
  | register table => cases h
  | remove name => cases h

/-- **A registry reflects the history of its run**, whatever fails on the way.  It announces each
registration, as a replacement where the name stood for a table at that moment, with the event and
the table in the log line; and an operation that fails then leaves it as it is. -/
theorem run_reflects (settings : Settings) (commands : List Command) :
    let history := commands.flatMap (Command.changes settings)
    let result := run { settings } commands
    result.value.Reflects history ∧ result.registrations = announced [] history ∧
      result.registrations.map (fun line => (line.text? "event", line.text? "table")) =
        (registrationEvents [] history).map (Prod.map some some) ∧
      ∀ command error, (result.value.attempt command).value = .error error →
        command.changes settings = [] ∧ (result.value.perform command).value = result.value := by
  intro history result
  have hfollows : result.value.Follows settings history := (Follows.empty settings).run commands
  have hannounced : result.registrations = announced [] history :=
    (Follows.empty settings).registrations_run commands
  refine ⟨hfollows.reflects, hannounced, ?_, ?_⟩
  · rw [hannounced, map_text_announced]
  · intro command error herror
    have hfailed := perform_of_error herror
    rw [hfollows.settings_eq] at hfailed
    exact hfailed

end Registry

end DocShape
