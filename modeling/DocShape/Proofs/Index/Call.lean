import DocShape.Proofs.Number.Text
import DocShape.Proofs.Text.Quoted
import DocShape.Table.Declaration

/-!
# The call of an index

The calls of all indexes stand below each other, and calls of one kind share their
name whether the index is active or staged.  Each call still shows where it ends, of
which kind the index is, whether it is staged, and all of the index but the system
fields that it covers.

* `DeclaredIndex`: an index of one of the three kinds, active or staged.
* `listText_selfDelimiting`: a list of names ends at its bracket.
* `DeclaredIndex.call_selfDelimiting`: **a call shows where it ends** and which index it
  declares.
-/

namespace DocShape

/-! ### What a call shows -/

/-- An index as its call shows it. -/
def Index.withoutSystemFields (index : Index) : Index :=
  { index with fields := withoutSystemNames index.fields }

def SearchIndex.withoutSystemFields (index : SearchIndex) : SearchIndex :=
  { index with filterFields := withoutSystemNames index.filterFields }

def VectorIndex.withoutSystemFields (index : VectorIndex) : VectorIndex :=
  { index with filterFields := withoutSystemNames index.filterFields }

/-- An index of one of the three kinds, active or staged. -/
inductive DeclaredIndex where
  | index (staged : Bool) (index : Index)
  | search (staged : Bool) (index : SearchIndex)
  | vector (staged : Bool) (index : VectorIndex)

namespace DeclaredIndex

def call : DeclaredIndex → String
  | index staged i => i.call staged
  | search staged i => i.call staged
  | vector staged i => i.call staged

def withoutSystemFields : DeclaredIndex → DeclaredIndex
  | index staged i => index staged i.withoutSystemFields
  | search staged i => search staged i.withoutSystemFields
  | vector staged i => vector staged i.withoutSystemFields

end DeclaredIndex

theorem withoutSystemNames_withoutSystemNames (fields : List String) :
    withoutSystemNames (withoutSystemNames fields) = withoutSystemNames fields := by
  simp only [withoutSystemNames, List.filter_filter, Bool.and_self]

/-! ### Parts of a call -/

theorem toList_listText (items : List String) :
    (listText items).toList =
      '[' :: ([',', ' '].intercalate (items.map fun item => (Text.quote item).toList) ++ [']']) := by
  simp [listText, String.toList_intercalate, Function.comp_def]

/-- A list of names ends at its bracket. -/
theorem listText_selfDelimiting (items : List String) :
    Text.SelfDelimiting Eq (fun items => (listText items).toList) items := by
  intro others rest rest' h
  simp only [toList_listText, List.cons_append, List.append_assoc, List.nil_append,
    List.cons.injEq, true_and] at h
  have hclose : ∀ (item : String) (rest rest' : List Char),
      (Text.quote item).toList ++ rest ≠ ']' :: rest' := by
    intro item rest rest' he
    rw [Text.toList_quote] at he
    exact absurd (List.cons.inj he).1 (by decide)
  obtain ⟨hitems, hrest⟩ := Text.forall₂_of_intercalate_append_eq (by decide) hclose
    (fun item _ => Text.quote_selfDelimiting item) h
  rw [List.forall₂_eq_eq_eq] at hitems
  exact ⟨hitems, hrest⟩

/-- A number of dimensions ends at the comma that follows it. -/
theorem dimensions_append_eq {m n : UInt32} {rest rest' : List Char}
    (h : (toString m.toNat).toList ++ ',' :: rest = (toString n.toNat).toList ++ ',' :: rest') :
    m = n ∧ rest = rest' := by
  have htext : ∀ k : Nat, (toString k).toList = Nat.toDigits 10 k := fun _ => Nat.toList_repr
  have hcomma : ∀ k : Nat, ',' ∉ Nat.toDigits 10 k :=
    fun _ hmem => absurd (isNumberChar_of_mem_toDigits hmem) (by decide)
  rw [htext, htext] at h
  obtain ⟨hdigits, hrest⟩ := Text.eq_of_append_cons_eq (hcomma _) (hcomma _) h
  have hvalue := congrArg (Nat.ofDigitChars 10 · 0) hdigits
  rw [Nat.ofDigitChars_ten_toDigits, Nat.ofDigitChars_ten_toDigits, UInt32.toNat_inj] at hvalue
  exact ⟨hvalue, hrest⟩

/-- The end of the options shows whether the index is staged. -/
theorem optionsEnd_append_eq {staged staged' : Bool} {rest rest' : List Char}
    (h : (optionsEnd staged).toList ++ rest = (optionsEnd staged').toList ++ rest') :
    staged = staged' ∧ rest = rest' := by
  cases staged <;> cases staged' <;> simp_all [optionsEnd]

/-! ### Calls -/

/-- What stands in the call of an index of fields after its name. -/
def fieldsOptions (staged : Bool) (fields : List String) : List Char :=
  if staged then "\x7b fields: ".toList ++ (listText fields).toList ++ ", staged: true \x7d".toList
  else (listText fields).toList

theorem Index.toList_call (staged : Bool) (index : Index) :
    (index.call staged).toList = ".index(".toList ++ (Text.quote index.name).toList ++
      ", ".toList ++ fieldsOptions staged (withoutSystemNames index.fields) ++ [')'] := by
  unfold call
  cases staged <;> simp [fieldsOptions]

theorem SearchIndex.toList_call (staged : Bool) (index : SearchIndex) :
    (index.call staged).toList = ".searchIndex(".toList ++ (Text.quote index.name).toList ++
      ", \x7b searchField: ".toList ++ (Text.quote index.searchField).toList ++
      ", filterFields: ".toList ++ (listText (withoutSystemNames index.filterFields)).toList ++
      (optionsEnd staged).toList := by
  unfold call
  simp only [String.toList_append, List.append_assoc]

theorem VectorIndex.toList_call (staged : Bool) (index : VectorIndex) :
    (index.call staged).toList = ".vectorIndex(".toList ++ (Text.quote index.name).toList ++
      ", \x7b vectorField: ".toList ++ (Text.quote index.vectorField).toList ++
      ", dimensions: ".toList ++ (toString index.dimensions.toNat).toList ++
      ", filterFields: ".toList ++ (listText (withoutSystemNames index.filterFields)).toList ++
      (optionsEnd staged).toList := by
  unfold call
  simp only [String.toList_append, List.append_assoc]

theorem fieldsOptions_append_eq {staged staged' : Bool} {fields fields' : List String}
    {rest rest' : List Char}
    (h : fieldsOptions staged fields ++ rest = fieldsOptions staged' fields' ++ rest') :
    staged = staged' ∧ fields = fields' ∧ rest = rest' := by
  have hne : ∀ (xs ys : List String) (rest rest' : List Char),
      fieldsOptions true xs ++ rest ≠ fieldsOptions false ys ++ rest' := by
    intro xs ys rest rest' he
    simp [fieldsOptions, toList_listText] at he
  cases staged with
  | false =>
    cases staged' with
    | false => exact ⟨rfl, listText_selfDelimiting fields fields' _ _ h⟩
    | true => exact absurd h.symm (hne _ _ _ _)
  | true =>
    cases staged' with
    | false => exact absurd h (hne _ _ _ _)
    | true =>
      simp only [fieldsOptions, if_pos, List.append_assoc, List.append_cancel_left_eq] at h
      obtain ⟨hfields, hrest⟩ := listText_selfDelimiting fields fields' _ _ h
      exact ⟨rfl, hfields, List.append_cancel_left hrest⟩

section

variable {staged staged' : Bool} {rest rest' : List Char}

theorem Index.call_append_eq {index index' : Index}
    (h : (index.call staged).toList ++ rest = (index'.call staged').toList ++ rest') :
    staged = staged' ∧ index.withoutSystemFields = index'.withoutSystemFields ∧ rest = rest' := by
  simp only [toList_call, List.append_assoc, List.append_cancel_left_eq] at h
  obtain ⟨hname, h⟩ := Text.quote_selfDelimiting _ _ _ _ h
  obtain ⟨hstaged, hfields, hrest⟩ := fieldsOptions_append_eq (List.append_cancel_left h)
  refine ⟨hstaged, ?_, List.append_cancel_left hrest⟩
  rw [withoutSystemFields, withoutSystemFields, hname, hfields]

theorem SearchIndex.call_append_eq {index index' : SearchIndex}
    (h : (index.call staged).toList ++ rest = (index'.call staged').toList ++ rest') :
    staged = staged' ∧ index.withoutSystemFields = index'.withoutSystemFields ∧ rest = rest' := by
  simp only [toList_call, List.append_assoc, List.append_cancel_left_eq] at h
  obtain ⟨hname, h⟩ := Text.quote_selfDelimiting _ _ _ _ h
  obtain ⟨hfield, h⟩ := Text.quote_selfDelimiting _ _ _ _ (List.append_cancel_left h)
  obtain ⟨hfilter, h⟩ := listText_selfDelimiting _ _ _ _ (List.append_cancel_left h)
  obtain ⟨hstaged, hrest⟩ := optionsEnd_append_eq h
  refine ⟨hstaged, ?_, hrest⟩
  rw [withoutSystemFields, withoutSystemFields, hname, hfield, hfilter]

theorem VectorIndex.call_append_eq {index index' : VectorIndex}
    (h : (index.call staged).toList ++ rest = (index'.call staged').toList ++ rest') :
    staged = staged' ∧ index.withoutSystemFields = index'.withoutSystemFields ∧ rest = rest' := by
  simp only [toList_call, List.append_assoc, List.append_cancel_left_eq] at h
  obtain ⟨hname, h⟩ := Text.quote_selfDelimiting _ _ _ _ h
  obtain ⟨hfield, h⟩ := Text.quote_selfDelimiting _ _ _ _ (List.append_cancel_left h)
  obtain ⟨hdimensions, h⟩ := dimensions_append_eq (List.append_cancel_left h)
  obtain ⟨hfilter, h⟩ := listText_selfDelimiting _ _ _ _ (List.append_cancel_left h)
  obtain ⟨hstaged, hrest⟩ := optionsEnd_append_eq h
  refine ⟨hstaged, ?_, hrest⟩
  rw [withoutSystemFields, withoutSystemFields, hname, hfield, hdimensions, hfilter]

end

namespace DeclaredIndex

/-- **A call shows where it ends** and which index it declares: its kind, whether it is staged, and
all of it but the system fields. -/
theorem call_selfDelimiting (declared : DeclaredIndex) :
    Text.SelfDelimiting (fun a b => a.withoutSystemFields = b.withoutSystemFields)
      (fun declared => declared.call.toList) declared := by
  intro other rest rest' h
  cases declared with
  | index staged i =>
    cases other with
    | index staged' j =>
      obtain ⟨rfl, hindex, hrest⟩ := Index.call_append_eq h
      exact ⟨congrArg (index staged) hindex, hrest⟩
    | search staged' j => simp [call, Index.toList_call, SearchIndex.toList_call] at h
    | vector staged' j => simp [call, Index.toList_call, VectorIndex.toList_call] at h
  | search staged i =>
    cases other with
    | index staged' j => simp [call, Index.toList_call, SearchIndex.toList_call] at h
    | search staged' j =>
      obtain ⟨rfl, hindex, hrest⟩ := SearchIndex.call_append_eq h
      exact ⟨congrArg (search staged) hindex, hrest⟩
    | vector staged' j => simp [call, SearchIndex.toList_call, VectorIndex.toList_call] at h
  | vector staged i =>
    cases other with
    | index staged' j => simp [call, Index.toList_call, VectorIndex.toList_call] at h
    | search staged' j => simp [call, SearchIndex.toList_call, VectorIndex.toList_call] at h
    | vector staged' j =>
      obtain ⟨rfl, hindex, hrest⟩ := VectorIndex.call_append_eq h
      exact ⟨congrArg (vector staged) hindex, hrest⟩

/-- What a call does not show does not change it. -/
theorem call_withoutSystemFields (declared : DeclaredIndex) :
    declared.withoutSystemFields.call = declared.call := by
  rw [← String.toList_inj]
  cases declared <;>
    simp only [withoutSystemFields, call, Index.toList_call, SearchIndex.toList_call,
      VectorIndex.toList_call, Index.withoutSystemFields, SearchIndex.withoutSystemFields,
      VectorIndex.withoutSystemFields, withoutSystemNames_withoutSystemNames]

end DeclaredIndex

end DocShape
