import DocShape.Table.Ingestion

/-!
# The notices of reading

Whatever is read, a description, a table or a database, the notices on the way are of
a few kinds only.  Loading a description gives three of them; reading a table gives
those and three more.  A property of these kinds is a property of all notices, and
one such property is that they are warnings of something that was replaced or dropped.

* `Noted.Every`: all notices of a result have a property.
* `Noted.Every.pure`, `bind`, `map`, `note`, `traverse`: it passes from steps to what
  is made of them.
* `Shape.every_ofJson`, `Table.every_ofJson`: **what holds of the kinds of notices
  holds of all notices**, of loading a description and of reading a table.
* `TableRecord.exists_toTable_eq`: after its document type a table only reports index
  entries that are skipped.
* `Noted.OnlyRepairs`: all notices of a result are warnings of repairs.
* `Table.onlyRepairs_ofText`, `Database.onlyRepairs_ofText`: **tables and databases**.
-/

namespace DocShape

/-- Whether all notices of a result have a property. -/
def Noted.Every {α : Type} (P : Notice → Prop) (x : Noted α) : Prop :=
  ∀ notice ∈ x.notices, P notice

/-- Whether all notices of a result report repairs. -/
def Noted.OnlyRepairs {α : Type} (x : Noted α) : Prop :=
  ∀ notice ∈ x.notices, notice.event.isDegradation = true

namespace Noted.Every

variable {α β : Type} {P : Notice → Prop}

theorem pure (a : α) : (pure a : Noted α).Every P := by
  intro notice hnotice
  cases hnotice

theorem bind {x : Noted α} {f : α → Noted β} (hx : x.Every P) (hf : ∀ a, (f a).Every P) :
    (x >>= f).Every P := by
  intro notice hnotice
  rw [notices_bind] at hnotice
  rcases List.mem_append.1 hnotice with h | h
  · exact hx notice h
  · exact hf x.value notice h

theorem map (f : α → β) {x : Noted α} (hx : x.Every P) : (f <$> x).Every P := by
  intro notice hnotice
  rw [notices_map] at hnotice
  exact hx notice hnotice

theorem note {x : Noted α} (hx : x.Every P) {notice : Notice} (hnotice : P notice) :
    (x.note notice).Every P := by
  intro other hother
  rw [notices_note] at hother
  rcases List.mem_append.1 hother with h | h
  · exact hx other h
  · rw [List.mem_singleton.1 h]
    exact hnotice

theorem traverse {f : α → Noted β} {xs : List α} (h : ∀ x ∈ xs, (f x).Every P) :
    (traverse f xs).Every P := by
  intro notice hnotice
  rw [notices_traverse] at hnotice
  obtain ⟨x, hx, hmem⟩ := List.mem_flatMap.1 hnotice
  exact h x hx notice hmem

/-- A result with one notice. -/
theorem single {a : α} {notice : Notice} (hnotice : P notice) :
    (⟨a, [notice]⟩ : Noted α).Every P := by
  intro other hother
  rw [List.mem_singleton.1 hother]
  exact hnotice

theorem filter_eq_nil {x : Noted α} {p : Notice → Bool}
    (h : x.Every fun notice => p notice = false) : x.notices.filter p = [] := by
  refine List.filter_eq_nil_iff.2 ?_
  intro notice hnotice
  rw [h notice hnotice]
  exact Bool.false_ne_true

/-- Only the first step gives notices of a kind that the second one never gives. -/
theorem filter_bind {x : Noted α} {f : α → Noted β} {p : Notice → Bool}
    (h : ∀ a, (f a).Every fun notice => p notice = false) :
    (x >>= f).notices.filter p = x.notices.filter p := by
  rw [notices_bind, List.filter_append, (h x.value).filter_eq_nil, List.append_nil]

end Noted.Every

namespace Notice

/-- A text in a log line. -/
def text? (notice : Notice) (name : String) : Option String :=
  (notice.toJson.get? name).bind Json.string?

/-- Whether a log line says that a part of a description was replaced or dropped. -/
def isShapeDegraded (notice : Notice) : Bool := notice.text? "event" == some "SHAPE_DEGRADED"

/-- A property of the notices of loading a description. -/
structure HoldsOfLoading (P : Notice → Prop) : Prop where
  nodeDegraded : ∀ place fault, P (nodeDegraded place fault)
  entrySkipped : ∀ place, P (entrySkipped place)
  markerStripped : ∀ place, P (markerStripped place)

/-- A property of the notices of reading tables. -/
structure HoldsOfReading (P : Notice → Prop) : Prop extends HoldsOfLoading P where
  variantDropped : ∀ table kind, P (variantDropped table kind)
  documentTypeRejected : ∀ table kind, P (documentTypeRejected table kind)
  indexSkipped : ∀ table list index fault, P (indexSkipped table list index fault)

theorem holdsOfReading_isDegradation :
    HoldsOfReading fun notice => notice.event.isDegradation = true where
  nodeDegraded _ _ := rfl
  entrySkipped _ := rfl
  markerStripped _ := rfl
  variantDropped _ _ := rfl
  documentTypeRejected _ _ := rfl
  indexSkipped _ _ _ _ := rfl

end Notice

open Noted Notice

variable {P : Notice → Prop}

/-! ### Shapes -/

theorem Omittable.every_required (hP : HoldsOfLoading P) (place : String)
    {found : Noted Omittable} (h : found.Every P) : (required place found).Every P := by
  rw [required]
  split
  · exact (h.map _).note (hP.markerStripped _)
  · exact h.map _

theorem Form.every_load (hP : HoldsOfLoading P) {child : String → Json → Noted Omittable}
    (hchild : ∀ place node, (child place node).Every P) (form : Form) (place : String) :
    (form.load child place).Every P := by
  cases form with
  | leaf shape => exact .pure _
  | array element => exact (Omittable.every_required hP _ (hchild _ _)).map _
  | object entries =>
    refine Every.map _ (Every.traverse ?_)
    rintro ⟨_ | name, entry⟩ -
    · exact Every.single (hP.entrySkipped _)
    · exact (hchild _ _).map _
  | record keys values =>
    refine Every.bind (Omittable.every_required hP _ (hchild _ _)) ?_
    intro keys
    refine Every.bind (hchild _ _) ?_
    intro values
    exact .pure _
  | union variants =>
    refine Every.map _ (Every.traverse ?_)
    intro variant _
    exact Omittable.every_required hP _ (hchild _ _)

theorem Omittable.every_load (hP : HoldsOfLoading P) (settings : Settings) (room : Nat) :
    ∀ (place : String) (node : Json), (load settings room place node).Every P := by
  induction room with
  | zero =>
    intro place node
    exact (Every.single (hP.nodeDegraded _ _)).map _
  | succ room ih =>
    intro place node
    rw [load]
    refine Every.map _ ?_
    split
    · exact Form.every_load hP ih _ _
    · exact Every.single (hP.nodeDegraded _ _)

namespace Shape

theorem every_ofJson (hP : HoldsOfLoading P) (settings : Settings) (node : Json) :
    (ofJson settings node).Every P :=
  Omittable.every_required hP _ (Omittable.every_load hP _ _ _ _)

theorem every_repairUnion {table : String}
    (h : ∀ variant : Shape, P (.variantDropped table variant.kindText)) (shape : Shape) :
    (shape.repairUnion table).Every P := by
  have hdropped : ∀ (dropped : List Shape) (kept : Shape), (⟨kept, dropped.map fun variant =>
      Notice.variantDropped table variant.kindText⟩ : Noted Shape).Every P := by
    intro dropped kept notice hnotice
    obtain ⟨variant, _, rfl⟩ := List.mem_map.1 hnotice
    exact h variant
  cases shape with
  | union variants =>
    rw [repairUnion]
    dsimp only
    split
    · exact .pure _
    split
    · exact .pure _
    · exact hdropped _ _
    · exact hdropped _ _
  | _ => exact .pure _

theorem every_toDocumentType {table : String}
    (hdropped : ∀ variant : Shape, P (.variantDropped table variant.kindText))
    (hrejected : ∀ shape : Shape, P (.documentTypeRejected table shape.kindText)) (shape : Shape) :
    (shape.toDocumentType table).Every P := by
  refine Every.bind (every_repairUnion hdropped shape) ?_
  intro repaired
  split
  · exact .pure _
  · split
    · exact .pure _
    · exact Every.note (.pure _) (hrejected _)

end Shape

/-! ### Tables and databases -/

theorem IndexEntry.every_ofList {ι : Type} [IndexEntry ι] {table : String} {list : IndexList}
    (h : ∀ index fault, P (.indexSkipped table list index fault)) (entries : List Json) :
    (ofList table list entries : Noted (List ι)).Every P := by
  refine Every.map _ (Every.traverse ?_)
  intro entry _
  rw [ofEntry]
  split
  · exact .pure _
  · exact Every.single (h _ _)

namespace TableRecord

/-- After its document type a table only reports index entries that are skipped. -/
theorem exists_toTable_eq (record : TableRecord) (settings : Settings) (name : String) :
    ∃ f : Option Shape → Noted Table,
      record.toTable settings name = record.documentShape settings name >>= f ∧
      ∀ {P : Notice → Prop}, (∀ list index fault, P (.indexSkipped name list index fault)) →
        ∀ documentType, (f documentType).Every P := by
  refine ⟨_, rfl, ?_⟩
  intro P hP documentType
  have hindexes {ι : Type} [IndexEntry ι] (list : IndexList) (entries : List Json) :
      (IndexEntry.ofList name list entries : Noted (List ι)).Every P :=
    IndexEntry.every_ofList (hP list) entries
  refine (hindexes _ _).bind fun _ => ?_
  refine (hindexes _ _).bind fun _ => ?_
  refine (hindexes _ _).bind fun _ => ?_
  refine (hindexes _ _).bind fun _ => ?_
  refine (hindexes _ _).bind fun _ => ?_
  exact (hindexes _ _).bind fun _ => .pure _

theorem every_documentShape {name : String} (hP : HoldsOfLoading P)
    (hdropped : ∀ variant : Shape, P (.variantDropped name variant.kindText))
    (hrejected : ∀ shape : Shape, P (.documentTypeRejected name shape.kindText))
    (record : TableRecord) (settings : Settings) :
    (record.documentShape settings name).Every P := by
  rw [documentShape]
  split
  · exact .pure _
  · exact Every.bind (Shape.every_ofJson hP _ _) (Shape.every_toDocumentType hdropped hrejected)

theorem every_toTable (hP : HoldsOfReading P) (record : TableRecord) (settings : Settings)
    (name : String) : (record.toTable settings name).Every P := by
  obtain ⟨f, hsame, hindexes⟩ := record.exists_toTable_eq settings name
  rw [hsame]
  refine Every.bind ?_ (hindexes (hP.indexSkipped name))
  exact every_documentShape hP.toHoldsOfLoading (fun _ => hP.variantDropped _ _)
    (fun _ => hP.documentTypeRejected _ _) _ _

end TableRecord

namespace Table

theorem every_ofJson (hP : HoldsOfReading P) {settings : Settings} {value : Json}
    {found : Noted Table} (h : ofJson settings value = .ok found) : found.Every P := by
  rw [ofJson] at h
  cases hrecord : recordOf value with
  | error error =>
    rw [hrecord] at h
    cases h
  | ok record =>
    rw [hrecord] at h
    cases h
    exact TableRecord.every_toTable hP _ _ _

theorem onlyRepairs_ofText {settings : Settings} {text : String} {found : Noted Table}
    (h : ofText settings text = .ok found) : found.OnlyRepairs := by
  rw [ofText] at h
  split at h
  · cases h
  · exact every_ofJson holdsOfReading_isDegradation h

end Table

namespace Database

theorem every_readTables (hP : HoldsOfReading P) (settings : Settings) (values : List Json) :
    (readTables settings values).Every P := by
  induction values with
  | nil => exact .pure _
  | cons value rest ih =>
    rw [readTables]
    split
    · exact .pure _
    case h_2 table htable =>
      refine (Table.every_ofJson hP htable).bind fun _ => ?_
      exact ih.bind fun _ => .pure _

theorem every_ofText (hP : HoldsOfReading P) (settings : Settings) (text : String) :
    (ofText settings text).Every P := by
  rw [ofText]
  split
  · exact .pure _
  · rw [ofJson]
    split
    · exact .pure _
    · split
      · exact .pure _
      · exact (every_readTables hP _ _).map _

theorem onlyRepairs_ofText (settings : Settings) (text : String) :
    (ofText settings text).OnlyRepairs :=
  every_ofText holdsOfReading_isDegradation settings text

end Database

end DocShape
