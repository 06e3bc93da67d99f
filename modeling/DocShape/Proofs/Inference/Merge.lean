import DocShape.Proofs.Inference.Fields
import Mathlib.Data.List.Forall2

/-!
# Inference as a merge

What is inferred from documents is put together from what each of them says: how many
samples there are, how many have a field, and which types its values have.  Of two lists
of documents, the numbers add up and the types unite.

This **merge law** is all that the order of the documents goes through.  Sums and unions
do not depend on an order, so neither do the fields, which stand in the order of their
names, nor the declaration.  And a document can be exchanged for one that says the same,
such as one with its members in another order, or dropped if it says nothing.

* `Observation.presentIn`, `Observation.typesIn`: what documents say about a name.
* `Observation.presentIn_append`, `Observation.mem_typesIn_append`: **the merge law**.
* `Observation.Agree`: documents that say the same; `Agree.append`, `agree_append_comm`
  and `agree_of_perm` are what the merge law gives.
* `Observation.ofSamples_eq_of_agree`: **what documents say determines the fields**.
* `Json.Reordered`: values that differ in the order of members only.
* `inference_merges`: the merge law, and what does not matter for inference.
-/

namespace DocShape

namespace Observation

/-! ### What documents say about a name -/

/-- What documents say about the field of a name; nothing if no sample has it. -/
def ofField? (documents : List Json) (name : String) : Option Observation :=
  (ofSamples documents).find? fun observation => observation.name == name

/-- How many samples have a field. -/
def presentIn (documents : List Json) (name : String) : Nat :=
  ((ofField? documents name).map (·.present)).getD 0

/-- The types that a field has in samples. -/
def typesIn (documents : List Json) (name : String) : List SampleType :=
  ((ofField? documents name).map (·.types)).getD []

section

variable {documents : List Json} {name : String}

theorem ofField?_eq (documents : List Json) (name : String) :
    ofField? documents name =
      if name ∈ names (samples documents) then some (ofName (samples documents) name) else none := by
  have hfind : ofField? documents name =
      ((names (samples documents)).find? (· == name)).map (ofName (samples documents)) :=
    List.find?_map
  rw [hfind]
  cases hfound : (names (samples documents)).find? (· == name) with
  | none =>
    have hmem : name ∉ names (samples documents) :=
      fun hmem => List.find?_eq_none.1 hfound name hmem (beq_self_eq_true name)
    rw [if_neg hmem, Option.map_none]
  | some found =>
    obtain rfl : found = name := by simpa using List.find?_some hfound
    rw [if_pos (List.mem_of_find?_eq_some hfound), Option.map_some]

theorem present_ofName_pos_iff {samples : List Members} :
    0 < (ofName samples name).present ↔ ∃ members ∈ samples, name ∈ members.map (·.1) := by
  rw [ofName, List.countP_pos_iff]
  simp

theorem mem_types_ofName_iff {samples : List Members} {type : SampleType} :
    type ∈ (ofName samples name).types ↔ ∃ members ∈ samples, ∃ value,
      (name, value) ∈ members ∧ SampleType.ofJson? value = some type := by
  have hall : type ∈ SampleType.all := by cases type <;> decide
  rw [ofName, List.mem_filter, and_iff_right hall]
  simp

/-- System fields count for nothing, and any other field as often as samples have it. -/
theorem presentIn_eq (documents : List Json) (name : String) :
    presentIn documents name =
      if Text.isSystemName name then 0 else (ofName (samples documents) name).present := by
  rw [presentIn, ofField?_eq]
  split
  · next hmem => rw [if_neg (by rw [(mem_names.1 hmem).1]; exact Bool.false_ne_true)]; rfl
  · next hmem =>
    split
    · rfl
    · next hname =>
      have hnone : ¬ 0 < (ofName (samples documents) name).present := fun hpos =>
        hmem (mem_names.2 ⟨Bool.eq_false_iff.2 hname, present_ofName_pos_iff.1 hpos⟩)
      exact (Nat.eq_zero_of_not_pos hnone).symm

theorem mem_typesIn_iff {type : SampleType} : type ∈ typesIn documents name ↔
    Text.isSystemName name = false ∧ type ∈ (ofName (samples documents) name).types := by
  rw [typesIn, ofField?_eq]
  split
  · next hmem => exact (and_iff_right (mem_names.1 hmem).1).symm
  · next hmem =>
    refine iff_of_false List.not_mem_nil ?_
    rintro ⟨hname, htype⟩
    obtain ⟨members, hmembers, value, hvalue, -⟩ := mem_types_ofName_iff.1 htype
    exact hmem (mem_names.2 ⟨hname, members, hmembers, List.mem_map_of_mem hvalue⟩)

theorem mem_names_iff_presentIn :
    name ∈ names (samples documents) ↔ 0 < presentIn documents name := by
  rw [mem_names, presentIn_eq, ← present_ofName_pos_iff]
  cases Text.isSystemName name <;> simp

end

/-! ### The merge law -/

theorem samples_append (documents others : List Json) :
    samples (documents ++ others) = samples documents ++ samples others :=
  List.filterMap_append

/-- **Of two lists of documents the numbers add up.** -/
theorem presentIn_append (documents others : List Json) (name : String) :
    presentIn (documents ++ others) name = presentIn documents name + presentIn others name := by
  simp only [presentIn_eq, samples_append]
  split
  · rfl
  · exact List.countP_append

/-- **Of two lists of documents the types unite.** -/
theorem mem_typesIn_append {documents others : List Json} {name : String} {type : SampleType} :
    type ∈ typesIn (documents ++ others) name ↔
      type ∈ typesIn documents name ∨ type ∈ typesIn others name := by
  simp only [mem_typesIn_iff, samples_append, mem_types_ofName_iff, List.mem_append, or_and_right,
    exists_or, and_or_left]

/-! ### Documents that say the same -/

/-- Two lists of documents that say the same: as many samples, and about each name the same. -/
structure Agree (documents others : List Json) : Prop where
  length_eq : (samples documents).length = (samples others).length
  presentIn_eq : ∀ name, presentIn documents name = presentIn others name
  mem_typesIn_iff : ∀ name type, type ∈ typesIn documents name ↔ type ∈ typesIn others name

section

variable {documents others : List Json}

theorem Agree.trans {middle : List Json} (h : Agree documents middle) (g : Agree middle others) :
    Agree documents others where
  length_eq := h.length_eq.trans g.length_eq
  presentIn_eq := fun name => (h.presentIn_eq name).trans (g.presentIn_eq name)
  mem_typesIn_iff := fun name type => (h.mem_typesIn_iff name type).trans (g.mem_typesIn_iff name type)

/-- Only samples count. -/
theorem agree_of_samples_eq (h : samples documents = samples others) : Agree documents others := by
  refine ⟨congrArg List.length h, fun name => ?_, fun name type => ?_⟩
  · rw [presentIn_eq, presentIn_eq, h]
  · rw [mem_typesIn_iff, mem_typesIn_iff, h]

theorem Agree.refl (documents : List Json) : Agree documents documents := agree_of_samples_eq rfl

/-- Agreement is kept by merging. -/
theorem Agree.append {documents' others' : List Json} (h : Agree documents others)
    (h' : Agree documents' others') : Agree (documents ++ documents') (others ++ others') where
  length_eq := by
    rw [samples_append, samples_append, List.length_append, List.length_append, h.length_eq,
      h'.length_eq]
  presentIn_eq := fun name => by
    rw [presentIn_append, presentIn_append, h.presentIn_eq, h'.presentIn_eq]
  mem_typesIn_iff := fun name type => by
    rw [mem_typesIn_append, mem_typesIn_append, h.mem_typesIn_iff, h'.mem_typesIn_iff]

/-- Sums and unions do not depend on an order. -/
theorem agree_append_comm (documents others : List Json) :
    Agree (documents ++ others) (others ++ documents) where
  length_eq := by
    rw [samples_append, samples_append, List.length_append, List.length_append, Nat.add_comm]
  presentIn_eq := fun name => by rw [presentIn_append, presentIn_append, Nat.add_comm]
  mem_typesIn_iff := fun name type => by rw [mem_typesIn_append, mem_typesIn_append, or_comm]

/-- **The order of documents does not matter.** -/
theorem agree_of_perm (h : documents.Perm others) : Agree documents others := by
  induction h with
  | nil => exact .refl []
  | cons document _ ih => exact (Agree.refl [document]).append ih
  | swap first second rest => exact (agree_append_comm [second] [first]).append (.refl rest)
  | trans _ _ ih ih' => exact ih.trans ih'

/-- Documents may be exchanged one by one. -/
theorem agree_of_forall₂ (h : List.Forall₂ (fun document other => Agree [document] [other])
    documents others) : Agree documents others := by
  induction h with
  | nil => exact .refl []
  | cons hfirst _ ih => exact hfirst.append ih

theorem names_eq_of_agree (h : Agree documents others) :
    names (samples documents) = names (samples others) := by
  have hmem : ∀ name, name ∈ names (samples documents) ↔ name ∈ names (samples others) := by
    intro name
    rw [mem_names_iff_presentIn, mem_names_iff_presentIn, h.presentIn_eq]
  exact Text.eq_of_pairwise_bytes (pairwise_names _) (pairwise_names _) hmem

/-- The types of a field stand in a fixed order, so they are known from which they are. -/
theorem types_ofName_eq {samples others : List Members} {name : String}
    (h : ∀ type, type ∈ (ofName samples name).types ↔ type ∈ (ofName others name).types) :
    (ofName samples name).types = (ofName others name).types := by
  simp only [ofName, List.mem_filter] at h ⊢
  refine List.filter_congr fun type htype => Bool.eq_iff_iff.2 ?_
  exact (and_congr_right_iff.1 (h type)) htype

/-- **What documents say determines the fields.** -/
theorem ofSamples_eq_of_agree (h : Agree documents others) :
    ofSamples documents = ofSamples others := by
  rw [ofSamples, ofSamples, names_eq_of_agree h]
  refine List.map_congr_left fun name hname => ?_
  have hsystem : Text.isSystemName name = false := (mem_names.1 hname).1
  have hpresent := h.presentIn_eq name
  have htypes := h.mem_typesIn_iff name
  simp only [Observation.presentIn_eq, Observation.mem_typesIn_iff, hsystem, Bool.false_eq_true,
    if_false, true_and] at hpresent htypes
  have hfields := congrArg₂ (mk name) hpresent (types_ofName_eq htypes)
  exact hfields

/-- And so it determines the declaration. -/
theorem inferDeclaration_eq_of_agree (h : Agree documents others) (layout : Layout) :
    inferDeclaration layout documents = inferDeclaration layout others := by
  simp only [inferDeclaration, ofSamples_eq_of_agree h, h.length_eq]

end

end Observation

/-! ### The order of members -/

/-- Values that differ only in the order of the members of their objects, at any depth. -/
inductive Json.Reordered : Json → Json → Prop
  | refl (value : Json) : Reordered value value
  | array {items others : List Json} :
      List.Forall₂ Reordered items others → Reordered (.array items) (.array others)
  | object {members shuffled others : Members} :
      members.Perm shuffled → shuffled.map (·.1) = others.map (·.1) →
      List.Forall₂ Reordered (shuffled.map (·.2)) (others.map (·.2)) →
      Reordered (.object members) (.object others)

theorem Json.Reordered.ofJson?_eq {value other : Json} (h : value.Reordered other) :
    SampleType.ofJson? value = SampleType.ofJson? other := by
  cases h <;> rfl

namespace Observation

/-- What a sample says: the names of its members, each with the type of its value. -/
def said (members : Members) : List (String × Option SampleType) :=
  members.map fun member => (member.1, SampleType.ofJson? member.2)

theorem said_eq_zip (members : Members) :
    said members = (members.map (·.1)).zip ((members.map (·.2)).map SampleType.ofJson?) := by
  rw [List.map_map, List.zip_map']
  rfl

theorem perm_said_of_reordered {members others : Members}
    (h : (Json.object members).Reordered (.object others)) : (said members).Perm (said others) := by
  cases h with
  | refl => exact .refl _
  | @object _ shuffled _ hperm hnames hvalues =>
    have htypes : (shuffled.map (·.2)).map SampleType.ofJson? =
        (others.map (·.2)).map SampleType.ofJson? := by
      rw [← List.forall₂_eq_eq_eq, List.forall₂_map_left_iff, List.forall₂_map_right_iff]
      exact hvalues.imp fun _ _ h => h.ofJson?_eq
    refine (hperm.map _).trans (.of_eq ?_)
    show said shuffled = said others
    rw [said_eq_zip, said_eq_zip, hnames, htypes]

theorem present_ofName_singleton (members : Members) (name : String) :
    (ofName [members] name).present = if name ∈ (said members).map (·.1) then 1 else 0 := by
  rw [ofName, List.countP_singleton, said, List.map_map]
  refine if_congr ?_ rfl rfl
  simp

theorem mem_types_ofName_singleton {members : Members} {name : String} {type : SampleType} :
    type ∈ (ofName [members] name).types ↔ (name, some type) ∈ said members := by
  rw [mem_types_ofName_iff, said]
  simp

/-- **The order of members does not matter**, in a document and in the values inside it. -/
theorem agree_of_reordered {document other : Json} (h : document.Reordered other) :
    Agree [document] [other] := by
  cases document with
  | object members =>
    cases other with
    | object others =>
      have hsaid := perm_said_of_reordered h
      refine ⟨rfl, fun name => ?_, fun name type => ?_⟩
      · have hpresent : (ofName [members] name).present = (ofName [others] name).present := by
          simp only [present_ofName_singleton, (hsaid.map _).mem_iff]
        rw [presentIn_eq, presentIn_eq]
        exact congrArg (fun present => if Text.isSystemName name then 0 else present) hpresent
      · have htypes : type ∈ (ofName [members] name).types ↔ type ∈ (ofName [others] name).types := by
          simp only [mem_types_ofName_singleton, hsaid.mem_iff]
        rw [mem_typesIn_iff, mem_typesIn_iff]
        exact and_congr_right fun _ => htypes
    | _ => cases h
  | _ =>
    refine agree_of_samples_eq ?_
    cases h <;> rfl

theorem agree_of_forall₂_reordered {documents others : List Json}
    (h : List.Forall₂ Json.Reordered documents others) : Agree documents others :=
  agree_of_forall₂ (h.imp fun _ _ h => agree_of_reordered h)

/-- **What is no sample does not matter.** -/
theorem agree_insert {inserted : List Json} (h : ∀ document ∈ inserted, document.members? = none)
    (before after : List Json) : Agree (before ++ inserted ++ after) (before ++ after) := by
  have hnone : samples inserted = [] := List.filterMap_eq_nil_iff.2 h
  refine agree_of_samples_eq ?_
  rw [samples_append, samples_append, samples_append, hnone, List.append_nil]

end Observation

/-! ### Inference -/

open Observation

/-- Two lists of documents from which the same is inferred: the fields, each with what is said about
it, the number of samples, and in every layout the declaration with its notice. -/
structure InferredAlike (documents others : List Json) : Prop where
  fields : ofSamples documents = ofSamples others
  count : (samples documents).length = (samples others).length
  declaration : ∀ layout, inferDeclaration layout documents = inferDeclaration layout others

theorem Observation.Agree.inferredAlike {documents others : List Json} (h : Agree documents others) :
    InferredAlike documents others :=
  ⟨ofSamples_eq_of_agree h, h.length_eq, inferDeclaration_eq_of_agree h⟩

/-- **Inference is a merge.**  For two lists of documents, the numbers of samples add up, and so do,
for every name, the numbers of samples that have it, and the types of its values unite.  So what is
inferred does not depend on the order of the documents, nor on the order of members in them, nor on
what stands among them and is no object. -/
theorem inference_merges :
    (∀ documents others : List Json,
      (samples (documents ++ others)).length =
        (samples documents).length + (samples others).length ∧
      ∀ name, presentIn (documents ++ others) name =
          presentIn documents name + presentIn others name ∧
        ∀ type, type ∈ typesIn (documents ++ others) name ↔
          type ∈ typesIn documents name ∨ type ∈ typesIn others name) ∧
    (∀ documents others : List Json, documents.Perm others → InferredAlike documents others) ∧
    (∀ documents others : List Json, List.Forall₂ Json.Reordered documents others →
      InferredAlike documents others) ∧
    ∀ before inserted after : List Json, (∀ document ∈ inserted, document.members? = none) →
      InferredAlike (before ++ inserted ++ after) (before ++ after) := by
  refine ⟨?_, ?_, ?_, ?_⟩
  · intro documents others
    refine ⟨?_, fun name => ⟨presentIn_append documents others name, fun type => ?_⟩⟩
    · rw [samples_append, List.length_append]
    · exact mem_typesIn_append
  · intro documents others hperm
    exact (agree_of_perm hperm).inferredAlike
  · intro documents others hreordered
    exact (agree_of_forall₂_reordered hreordered).inferredAlike
  · intro before inserted after hinserted
    exact (agree_insert hinserted before after).inferredAlike

/-- A sample with an object inside. -/
def nestedSample : Json :=
  .object [("b", .object [("x", .ofInt 1), ("y", .null)]), ("a", .string "text")]

/-- The same sample with its members in another order, in the object inside too. -/
def nestedSampleReordered : Json :=
  .object [("a", .string "text"), ("b", .object [("y", .null), ("x", .ofInt 1)])]

theorem reordered_nestedSample : nestedSample.Reordered nestedSampleReordered := by
  have hinner : (Json.object [("x", .ofInt 1), ("y", .null)]).Reordered
      (.object [("y", .null), ("x", .ofInt 1)]) :=
    .object (.swap _ _ []) rfl (.cons (.refl _) (.cons (.refl _) .nil))
  exact .object (.swap _ _ []) rfl (.cons (.refl _) (.cons hinner .nil))

/-- Documents in another order, with members in another order, and with something else among
them. -/
theorem inference_merges_nestedSample :
    [nestedSample, .object [("c", .bool true)]].Perm [.object [("c", .bool true)], nestedSample] ∧
    InferredAlike [nestedSample, .object [("c", .bool true)]]
      [.object [("c", .bool true)], nestedSample] ∧
    List.Forall₂ Json.Reordered [nestedSample, .null] [nestedSampleReordered, .null] ∧
    InferredAlike [nestedSample, .null] [nestedSampleReordered, .null] ∧
    (∀ document ∈ [Json.null, .array [nestedSample]], document.members? = none) ∧
    InferredAlike ([nestedSample] ++ [.null, .array [nestedSample]] ++ [.object []])
      ([nestedSample] ++ [.object []]) := by
  have hperm : [nestedSample, .object [("c", .bool true)]].Perm
      [.object [("c", .bool true)], nestedSample] := .swap _ _ []
  have hreordered : List.Forall₂ Json.Reordered [nestedSample, .null]
      [nestedSampleReordered, .null] :=
    .cons reordered_nestedSample (.cons (.refl _) .nil)
  have hinserted : ∀ document ∈ [Json.null, .array [nestedSample]], document.members? = none := by
    simp [Json.members?]
  exact ⟨hperm, inference_merges.2.1 _ _ hperm, hreordered, inference_merges.2.2.1 _ _ hreordered,
    hinserted, inference_merges.2.2.2 _ _ _ hinserted⟩

end DocShape
