import DocShape.Registry
import Mathlib.Data.List.Induction

/-!
# What has happened to a registry

A run of operations is the same as a history of changes: a table is registered, a
name is removed, or all tables are taken out.  A loaded database is a change of
the last kind followed by one for each of its tables, and an operation that fails
is no change at all.

* `Command`, `Registry.attempt`, `Registry.run`: operations, and runs of them.
* `Command.changes`: the changes that an operation stands for.
* `Stands`: **which table a name stands for after a history**, namely the last one
  registered under it that nothing has taken out since; `standing?` computes it.
* `announced`: what is logged for the registrations in a history;
  `registrationEvents`: its events and tables.
-/

namespace DocShape

/-! ### Operations -/

/-- What may be asked of a registry. -/
inductive Command where
  | readTable (text : String)
  | readDatabase (text : String)
  | register (table : Table)
  | remove (name : String)

namespace Registry

/-- The registry after an operation, or why the operation fails. -/
def attempt (registry : Registry) : Command → Noted (Except SchemaError Registry)
  | .readTable text =>
    match registry.readTable text with
    | .error error => pure (.error error)
    | .ok found => (fun result => .ok result.2) <$> found
  | .readDatabase text => (fun result => result.map (·.2)) <$> registry.readDatabase text
  | .register table => .ok <$> registry.register table
  | .remove name => pure (.ok (registry.remove name))

/-- The registry after an operation; if that fails, the old one. -/
def perform (registry : Registry) (command : Command) : Noted Registry :=
  (fun result => result.toOption.getD registry) <$> registry.attempt command

/-- The registry after a run of operations, some of which may fail. -/
def run (registry : Registry) : List Command → Noted Registry
  | [] => pure registry
  | command :: rest => do (← registry.perform command).run rest

end Registry

/-! ### Changes -/

/-- What may happen to the registered tables. -/
inductive Change where
  /-- All tables are taken out for those of a database, which says whether documents are checked. -/
  | emptied (schemaValidation : Bool)
  | registered (table : Table)
  | removed (name : String)

/-- The changes that an operation stands for, under the settings that texts are read with. -/
def Command.changes (settings : Settings) : Command → List Change
  | readTable text =>
    match Table.ofText settings text with
    | .error _ => []
    | .ok table => [.registered table.value]
  | readDatabase text =>
    match (Database.ofText settings text).value with
    | .error _ => []
    | .ok database => .emptied database.schemaValidation :: database.tables.map .registered
  | register table => [.registered table]
  | remove name => [.removed name]

namespace Change

/-- Whether a change decides which table a name stands for. -/
def Touches (name : String) : Change → Prop
  | emptied _ => True
  | registered table => table.name = name
  | removed other => other = name

/-- What a name stands for after a change, given what it stood for. -/
def leaves (name : String) (found : Option Table) : Change → Option Table
  | emptied _ => none
  | registered table => if table.name = name then some table else found
  | removed other => if other = name then none else found

/-- What a change says about checking documents. -/
def schemaValidation? : Change → Option Bool
  | emptied schemaValidation => some schemaValidation
  | _ => none

end Change

/-! ### Histories -/

/-- Whether a name stands for a table after a history: the table was registered under it, and
nothing has touched the name since. -/
def Stands (history : List Change) (name : String) (table : Table) : Prop :=
  ∃ before after, history = before ++ .registered table :: after ∧ table.name = name ∧
    ∀ change ∈ after, ¬ change.Touches name

/-- The table that a name stands for after a history. -/
def standing? (history : List Change) (name : String) : Option Table :=
  history.foldl (fun found change => change.leaves name found) none

/-- Whether documents are checked after a history, as the last database says. -/
def validationAfter (history : List Change) : Bool :=
  ((history.filterMap Change.schemaValidation?).getLast?).getD true

/-- What is logged for a change that follows a history. -/
def Change.announcement (before : List Change) : Change → List Notice
  | registered table =>
    [if (standing? before table.name).isSome then .tableReplaced table.name
      else .tableLoaded table.name]
  | _ => []

/-- What is logged for changes that follow a history. -/
def announced (before : List Change) : List Change → List Notice
  | [] => []
  | change :: rest => change.announcement before ++ announced (before ++ [change]) rest

/-- The event and the table of each registration among changes that follow a history.  It is a
replacement if the name stands for a table at that moment. -/
def registrationEvents (before : List Change) : List Change → List (String × String)
  | [] => []
  | .registered table :: rest =>
    (if (standing? before table.name).isSome then "SCHEMA_REPLACED" else "SCHEMA_LOADED",
      table.name) :: registrationEvents (before ++ [.registered table]) rest
  | change :: rest => registrationEvents (before ++ [change]) rest

theorem standing?_append (history : List Change) (change : Change) (name : String) :
    standing? (history ++ [change]) name = change.leaves name (standing? history name) := by
  rw [standing?, List.foldl_append]
  rfl

theorem validationAfter_append (history : List Change) (change : Change) :
    validationAfter (history ++ [change]) =
      change.schemaValidation?.getD (validationAfter history) := by
  cases change with
  | emptied schemaValidation => simp [validationAfter, Change.schemaValidation?]
  | registered table => simp [validationAfter, Change.schemaValidation?]
  | removed name => simp [validationAfter, Change.schemaValidation?]

theorem announced_append (before changes rest : List Change) :
    announced before (changes ++ rest) =
      announced before changes ++ announced (before ++ changes) rest := by
  induction changes generalizing before with
  | nil => rw [List.nil_append, announced, List.nil_append, List.append_nil]
  | cons change changes ih =>
    rw [List.cons_append, announced, announced, ih, List.append_assoc, List.append_assoc,
      List.singleton_append]

theorem Change.leaves_eq_some_iff {change : Change} {name : String} {found : Option Table}
    {table : Table} :
    change.leaves name found = some table ↔
      (change = .registered table ∧ table.name = name) ∨
        (¬ change.Touches name ∧ found = some table) := by
  cases change with
  | emptied schemaValidation => simp [leaves, Touches]
  | registered other =>
    rw [leaves, Touches, registered.injEq]
    split
    case isTrue hname =>
      rw [Option.some.injEq]
      constructor
      · rintro rfl
        exact Or.inl ⟨rfl, hname⟩
      · rintro (⟨rfl, -⟩ | ⟨hne, -⟩)
        · rfl
        · exact absurd hname hne
    case isFalse hname =>
      constructor
      · intro hfound
        exact Or.inr ⟨hname, hfound⟩
      · rintro (⟨rfl, hother⟩ | ⟨-, hfound⟩)
        · exact absurd hother hname
        · exact hfound
  | removed other =>
    by_cases hname : other = name <;> simp [leaves, Touches, hname]

/-- After one more change a name stands for a table that was just registered under it, or for what
it stood for before, if the change does not touch it. -/
theorem stands_append {history : List Change} {change : Change} {name : String} {table : Table} :
    Stands (history ++ [change]) name table ↔
      (change = .registered table ∧ table.name = name) ∨
        (¬ change.Touches name ∧ Stands history name table) := by
  constructor
  · rintro ⟨before, after, hhistory, hname, hafter⟩
    rcases List.eq_nil_or_concat after with rfl | ⟨rest, last, rfl⟩
    · obtain ⟨-, hlast⟩ := List.append_inj' hhistory rfl
      exact Or.inl ⟨List.singleton_inj.1 hlast, hname⟩
    · have hsplit : history ++ [change] = (before ++ .registered table :: rest) ++ [last] := by
        rw [hhistory, List.concat_eq_append, List.append_assoc, List.cons_append]
      obtain ⟨hbefore, hlast⟩ := List.append_inj' hsplit rfl
      obtain rfl := List.singleton_inj.1 hlast
      refine Or.inr ⟨hafter change (by simp), before, rest, hbefore, hname, ?_⟩
      intro other hother
      exact hafter other (by simp [hother])
  · rintro (⟨rfl, hname⟩ | ⟨htouches, before, after, rfl, hname, hafter⟩)
    · exact ⟨history, [], rfl, hname, fun _ h => nomatch h⟩
    · refine ⟨before, after ++ [change], by simp, hname, ?_⟩
      intro other hother
      rcases List.mem_append.1 hother with h | h
      · exact hafter other h
      · rw [List.mem_singleton.1 h]
        exact htouches

/-- **A name stands for what it is computed to stand for.** -/
theorem standing?_eq_some_iff {history : List Change} {name : String} {table : Table} :
    standing? history name = some table ↔ Stands history name table := by
  induction history using List.reverseRecOn with
  | nil =>
    refine ⟨fun h => (nomatch h), ?_⟩
    rintro ⟨before, after, hhistory, -⟩
    cases before <;> cases hhistory
  | append_singleton history change ih =>
    rw [standing?_append, stands_append, Change.leaves_eq_some_iff, ih]

end DocShape
