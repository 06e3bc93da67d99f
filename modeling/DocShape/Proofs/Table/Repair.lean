import DocShape.Proofs.Table.DocumentType
import DocShape.Table.Document

/-!
# What repairing a document type keeps

A repair of a document type invents no documents, and it happens only where it must.
But it may cost documents: a union that stands as a variant is dropped with all its
alternatives, as soon as one of them describes no document.

* `Table.repaired_documentType`: **the document type of a read table is the loaded
  shape or a repair of it**, and accepts nothing else.
* `Table.validate_iff_of_union`: **which documents a repaired union accepts**.
* `Table.exists_lostDocument`: a document that a repair costs.
-/

namespace DocShape.Table

open Notice

variable {settings : Settings} {value : Json} {table : Noted Table}

/-- **The document type of a read table is the loaded shape or what a repair leaves of it.**  There
is none exactly when there is no description, or when what is loaded is neither an object nor a
union with a variant that describes documents; one that there is accepts nothing that the loaded
shape does not, and there is one log line for each variant that is missing in it, with the table and
the kind of the variant. -/
theorem repaired_documentType (hread : Table.ofJson settings value = .ok table) :
    (table.value.documentType = none ↔
      ∀ node ∈ documentNode? value, ¬ (Shape.ofJson settings node).value.OffersDocuments) ∧
    (table.value.documentType = none → table.notices.filter isVariantDropped = []) ∧
    ∀ documentType ∈ table.value.documentType, ∃ node ∈ documentNode? value, ∃ dropped,
      Shape.Repaired (Shape.ofJson settings node).value documentType dropped ∧
      documentType.Within (Shape.ofJson settings node).value ∧
      table.notices.filter isVariantDropped =
        (dropped.map fun variant => variantDropped table.value.name variant.kindText) ∧
      (table.notices.filter isVariantDropped).map
          (fun line => (line.text? "event", line.text? "table", line.text? "kind")) =
        dropped.map fun variant =>
          (some "SHAPE_DEGRADED", some table.value.name, some variant.kindText) := by
  cases hnode : documentNode? value with
  | none =>
    obtain ⟨htype, hnotices⟩ := documentType_of_node_eq_none hread hnode
    rw [htype]
    exact ⟨iff_of_true rfl (fun _ h => nomatch h), fun _ => hnotices, fun _ h => nomatch h⟩
  | some node =>
    obtain ⟨htype, hnotices⟩ := documentType_of_node_eq_some hread hnode
    rw [htype, hnotices]
    rcases Shape.toDocumentType_cases table.value.name (Shape.ofJson settings node).value with
      ⟨repaired, dropped, hrepaired, hvalue, hdropped⟩ | ⟨hoffers, hvalue, hdropped⟩
    · rw [hvalue, hdropped]
      have hsome : some repaired ≠ none := Option.some_ne_none _
      refine ⟨iff_of_false hsome ?_, fun h => absurd h hsome, ?_⟩
      · intro h
        exact h node rfl hrepaired.offersDocuments
      · rintro _ ⟨⟩
        exact ⟨node, rfl, dropped, hrepaired, hrepaired.within, rfl,
          Shape.map_text_dropNotices _ _⟩
    · rw [hvalue, hdropped]
      refine ⟨iff_of_true rfl ?_, fun _ => rfl, fun _ h => nomatch h⟩
      rintro _ ⟨⟩
      exact hoffers

/-- The description of a union of an object with a field `b`, after a union of an object with a
field `a` and a string. -/
def mixedUnion : Json :=
  .object [("type", .string "union"), ("value", .array [
    .object [("type", .string "union"), ("value", .array [
      .object [("type", .string "object"), ("value", .object [
        ("a", .object [("fieldType", .object [("type", .string "string")])])])],
      .object [("type", .string "string")]])],
    .object [("type", .string "object"), ("value", .object [
      ("b", .object [("fieldType", .object [("type", .string "string")])])])]])]

/-- The description of a table of that document type. -/
def mixedTable : Json := .object [("tableName", .string "t"), ("documentType", mixedUnion)]

theorem value_ofJson_mixedUnion : (Shape.ofJson {} mixedUnion).value =
    .union [.union [.object [⟨"a", false, .string⟩], .string], .object [⟨"b", false, .string⟩]] :=
  rfl

/-- Only the object is left, and the union before it is reported. -/
theorem repaired_documentType_mixedTable :
    ∃ table, Table.ofJson {} mixedTable = .ok table ∧
      table.value.documentType = some (.object [⟨"b", false, .string⟩]) ∧
      table.notices.filter isVariantDropped = [.variantDropped "t" "union"] ∧
      (table.notices.filter isVariantDropped).map
          (fun line => (line.text? "event", line.text? "table", line.text? "kind")) =
        [(some "SHAPE_DEGRADED", some "t", some "union")] ∧
      Shape.Within (.object [⟨"b", false, .string⟩]) (Shape.ofJson {} mixedUnion).value := by
  have hread : ∃ table, Table.ofJson {} mixedTable = .ok table := ⟨_, rfl⟩
  obtain ⟨table, hread⟩ := hread
  have htype : table.value.documentType = some (.object [⟨"b", false, .string⟩]) := by
    obtain rfl : _ = table := Except.ok.inj hread
    rfl
  have hname : table.value.name = "t" := by
    obtain rfl : _ = table := Except.ok.inj hread
    rfl
  obtain ⟨node, hnode, dropped, hrepaired, hwithin, hnotices, hlines⟩ :=
    (repaired_documentType hread).2.2 _ htype
  obtain rfl : mixedUnion = node := Option.some.inj hnode
  rw [hname] at hnotices hlines
  rw [value_ofJson_mixedUnion] at hrepaired
  cases hrepaired with
  | kept => exact ⟨table, hread, htype, hnotices, hlines, hwithin⟩

/-- **Which documents a repaired union accepts.**  A table whose document type is loaded as a union
accepts a document exactly when no variant describes documents, or when some variant that does has
an alternative that accepts it.  The alternatives inside other variants are lost. -/
theorem validate_iff_of_union (hread : Table.ofJson settings value = .ok table) {node : Json}
    (hnode : documentNode? value = some node) {variants : List Shape}
    (hunion : (Shape.ofJson settings node).value = .union variants) (document : Json) :
    (table.value.validate document).value = [] ↔
      (∀ variant ∈ variants, variant.describesDocument = false) ∨
      ∃ variant ∈ variants, variant.describesDocument = true ∧
        ∃ fields ∈ variant.alternatives, (Shape.object fields).accepts (some document) = true := by
  obtain ⟨htype, -⟩ := documentType_of_node_eq_some hread hnode
  rw [hunion] at htype
  rw [validate]
  rcases Shape.toDocumentType_cases table.value.name (.union variants) with
    ⟨repaired, dropped, hrepaired, hvalue, -⟩ | ⟨hoffers, hvalue, -⟩
  · -- Where something is left, some variant describes documents: the table is not without a type.
    have hsome : ¬ ∀ variant ∈ variants, variant.describesDocument = false := fun hnone =>
      Shape.not_offersDocuments_union.2 hnone hrepaired.offersDocuments
    rw [htype, hvalue, or_iff_right hsome]
    simp only [Shape.accepts_iff]
    change repaired.validate document "" = [] ↔ _
    rw [Shape.validate, List.map_eq_nil_iff, Shape.check_eq_nil_iff]
    exact hrepaired.admits_iff_alternatives
  · rw [htype, hvalue]
    exact iff_of_true rfl (Or.inl (Shape.not_offersDocuments_union.1 hoffers))

/-- The remaining object accepts the documents with a field `b`. -/
theorem validate_iff_of_union_mixedTable :
    ∃ table, Table.ofJson {} mixedTable = .ok table ∧ documentNode? mixedTable = some mixedUnion ∧
      (Shape.ofJson {} mixedUnion).value = .union [.union [.object [⟨"a", false, .string⟩],
        .string], .object [⟨"b", false, .string⟩]] ∧
      (table.value.validate (.object [("b", .string "x")])).value = [] := by
  have hread : ∃ table, Table.ofJson {} mixedTable = .ok table := ⟨_, rfl⟩
  obtain ⟨table, hread⟩ := hread
  refine ⟨table, hread, rfl, value_ofJson_mixedUnion, ?_⟩
  apply (validate_iff_of_union hread rfl value_ofJson_mixedUnion _).2
  exact Or.inr ⟨.object [⟨"b", false, .string⟩], by simp, rfl, [⟨"b", false, .string⟩],
    List.mem_singleton_self _, by decide +kernel⟩

/-- **A document that a repair costs.**  It is accepted by an object inside the loaded union, but the
union around that object also has a variant that describes no document, and is dropped. -/
theorem exists_lostDocument :
    ∃ table variants fields document, Table.ofJson {} mixedTable = .ok table ∧
      documentNode? mixedTable = some mixedUnion ∧
      (Shape.ofJson {} mixedUnion).value = .union variants ∧
      fields ∈ (Shape.union variants).alternatives ∧
      (Shape.object fields).accepts (some document) = true ∧
      (table.value.validate document).value ≠ [] := by
  refine ⟨_, _, [⟨"a", false, .string⟩], .object [("a", .string "x")], rfl, rfl,
    value_ofJson_mixedUnion, ?_, by decide +kernel, by decide +kernel⟩
  simp [Shape.alternatives, Shape.alternativesOfAll]

end DocShape.Table
