import DocShape.Proofs.Number.Text
import DocShape.Proofs.Shape.Alike
import DocShape.Proofs.Shape.DeclarationText
import DocShape.Proofs.Text.Name
import DocShape.Proofs.Text.Quoted

/-!
# A declaration determines its shape

Every piece of a declaration shows where it ends, so a declaration can be read
in only one way: two shapes with the same declaration look alike, whatever the
layout and whatever characters their names and strings hold.

* `Literal.text_append_eq`, `Shape.fieldKey_append_eq`: the pieces.
* `Shape.call_append_eq`: a call ends where its arguments end.
* `Shape.showsEnd`: **a declaration shows where it ends**.
* `Shape.render_eq_iff`: **the same text, exactly for shapes that look alike**.
-/

namespace DocShape

/-! ### Literals -/

namespace Literal

theorem declarationText_ne_toString_bool (n : Number) (b : Bool) :
    n.declarationText ≠ toString b := by
  intro h
  have hchars := n.mem_declarationText
  rw [h] at hchars
  cases b with
  | false => exact absurd (hchars 'f' (by decide)) (by decide)
  | true => exact absurd (hchars 't' (by decide)) (by decide)

/-- A literal is quoted, or its text holds neither a quote nor a parenthesis. -/
theorem quoted_or_plain (value : Literal) :
    (∃ s, value = string s) ∨ ('"' ∉ value.text.toList ∧ ')' ∉ value.text.toList) := by
  cases value with
  | string s => exact Or.inl ⟨s, rfl⟩
  | number n =>
    refine Or.inr ⟨fun h => ?_, fun h => ?_⟩
    · exact absurd (n.mem_declarationText _ h) (by decide)
    · exact absurd (n.mem_declarationText _ h) (by decide)
  | boolean b => cases b <;> exact Or.inr (by decide)

theorem looksAlike_of_text_eq {a b : Literal} (ha : '"' ∉ a.text.toList) (hb : '"' ∉ b.text.toList)
    (h : a.text = b.text) : a.looksAlike b = true := by
  have hquote : ∀ s, '"' ∈ (string s).text.toList := by
    intro s
    rw [text, Text.toList_quote]
    exact List.mem_cons_self
  cases a with
  | string s => exact absurd (hquote s) ha
  | number n =>
    cases b with
    | string t => exact absurd (hquote t) hb
    | number m => exact beq_iff_eq.2 h
    | boolean c => exact absurd h (declarationText_ne_toString_bool n c)
  | boolean c =>
    cases b with
    | string t => exact absurd (hquote t) hb
    | number m => exact absurd h.symm (declarationText_ne_toString_bool m c)
    | boolean d => revert h; cases c <;> cases d <;> decide

theorem text_eq_of_looksAlike {a b : Literal} (h : a.looksAlike b = true) : a.text = b.text := by
  cases a with
  | string s =>
    cases b with
    | string t => rw [beq_iff_eq.1 h]
    | _ => cases h
  | number n =>
    cases b with
    | number m => exact beq_iff_eq.1 h
    | _ => cases h
  | boolean c =>
    cases b with
    | boolean d => rw [beq_iff_eq.1 h]
    | _ => cases h

/-- The text of a literal ends at the parenthesis that follows it. -/
theorem text_append_eq {value other : Literal} {rest rest' : List Char}
    (h : value.text.toList ++ ')' :: rest = other.text.toList ++ ')' :: rest') :
    value.looksAlike other = true ∧ rest = rest' := by
  rcases quoted_or_plain value with ⟨s, rfl⟩ | ⟨hquote, hclose⟩
  · rcases quoted_or_plain other with ⟨t, rfl⟩ | ⟨hquote', _⟩
    · obtain ⟨rfl, hrest⟩ := Text.quote_selfDelimiting s t _ _ h
      exact ⟨beq_self_eq_true s, (List.cons.inj hrest).2⟩
    · exact absurd h (Text.quote_append_ne hquote' (by decide))
  · rcases quoted_or_plain other with ⟨t, rfl⟩ | ⟨hquote', hclose'⟩
    · exact absurd h.symm (Text.quote_append_ne hquote (by decide))
    · obtain ⟨htext, hrest⟩ := Text.eq_of_append_cons_eq hclose hclose' h
      exact ⟨looksAlike_of_text_eq hquote hquote' (String.toList_inj.1 htext), hrest⟩

end Literal

namespace Shape

/-! ### Field names -/

/-- A field name ends at the colon that follows it. -/
theorem fieldKey_append_eq {name other : String} {rest rest' : List Char}
    (h : (fieldKey name).toList ++ ':' :: rest = (fieldKey other).toList ++ ':' :: rest') :
    name = other ∧ rest = rest' := by
  unfold fieldKey at h
  by_cases hname : Text.isIdentifier name = true
  · by_cases hother : Text.isIdentifier other = true
    · rw [if_pos hname, if_pos hother] at h
      obtain ⟨hchars, hrest⟩ := Text.eq_of_append_cons_eq
        (Text.notMem_of_isIdentifier hname (by decide)) (Text.notMem_of_isIdentifier hother (by decide)) h
      exact ⟨String.toList_inj.1 hchars, hrest⟩
    · rw [if_pos hname, if_neg hother] at h
      exact absurd h.symm
        (Text.quote_append_ne (Text.notMem_of_isIdentifier hname (by decide)) (by decide))
  · by_cases hother : Text.isIdentifier other = true
    · rw [if_neg hname, if_pos hother] at h
      exact absurd h
        (Text.quote_append_ne (Text.notMem_of_isIdentifier hother (by decide)) (by decide))
    · rw [if_neg hname, if_neg hother] at h
      obtain ⟨hchars, hrest⟩ := Text.quote_selfDelimiting name other _ _ h
      exact ⟨hchars, (List.cons.inj hrest).2⟩

/-- The characters that a field name starts with, quoted or not. -/
def StartsKey (c : Char) : Prop := c = '"' ∨ Text.isIdentifierStart c = true

instance : DecidablePred StartsKey :=
  fun c => inferInstanceAs (Decidable (c = '"' ∨ Text.isIdentifierStart c = true))

theorem StartsKey.ne {c d : Char} (h : StartsKey c) (hd : ¬ StartsKey d) : c ≠ d :=
  fun he => hd (he ▸ h)

theorem exists_fieldKey_eq_cons (name : String) :
    ∃ c rest, (fieldKey name).toList = c :: rest ∧ StartsKey c := by
  unfold fieldKey
  split
  · next h =>
    cases hname : name.toList with
    | nil => simp [Text.isIdentifier, hname] at h
    | cons c rest =>
      simp only [Text.isIdentifier, hname, Bool.and_eq_true] at h
      exact ⟨c, rest, rfl, Or.inr h.1⟩
  · exact ⟨_, _, Text.toList_quote name, Or.inl rfl⟩

/-! ### Calls -/

theorem isAlphanum_kindText (shape : Shape) :
    shape.kindText.toList.all Char.isAlphanum = true := by
  cases shape with
  | _ =>
    rw [kindText]
    decide

/-- The name of a call has no bracket, no quote and no line break. -/
theorem notMem_kindText (shape : Shape) {c : Char} (hc : c.isAlphanum = false) :
    c ∉ shape.kindText.toList := by
  intro h
  have hletter := List.all_eq_true.1 shape.isAlphanum_kindText c h
  rw [hc] at hletter
  cases hletter

/-- A call ends where its arguments end. -/
theorem call_append_eq {name name' : String} {arguments arguments' rest rest' : List Char}
    (hname : '(' ∉ name.toList) (hname' : '(' ∉ name'.toList)
    (h : call name arguments ++ rest = call name' arguments' ++ rest') :
    name = name' ∧ arguments ++ ')' :: rest = arguments' ++ ')' :: rest' := by
  simp only [call, List.cons_append, List.append_assoc, List.nil_append, List.cons.injEq,
    true_and] at h
  obtain ⟨hchars, hrest⟩ := Text.eq_of_append_cons_eq hname hname' h
  exact ⟨String.toList_inj.1 hchars, hrest⟩

section

variable {layout : Layout} {level : Nat} {shape other : Shape} {rest rest' : List Char}

theorem renderAt_append_eq
    (h : (shape.renderAt layout level).toList ++ rest =
      (other.renderAt layout level).toList ++ rest') :
    shape.kindText = other.kindText ∧
      shape.arguments layout level ++ ')' :: rest =
        other.arguments layout level ++ ')' :: rest' := by
  rw [toList_renderAt, toList_renderAt] at h
  exact call_append_eq (notMem_kindText shape (by decide)) (notMem_kindText other (by decide)) h

/-- The mark of an optional expression is the name of no kind. -/
theorem optional_append_ne {text : List Char} :
    call "optional" text ++ rest ≠ (shape.renderAt layout level).toList ++ rest' := by
  intro h
  rw [toList_renderAt] at h
  have hkind := (call_append_eq (by decide) (notMem_kindText shape (by decide)) h).1
  cases shape <;> simp [kindText] at hkind

end

/-! ### Self-delimiting declarations -/

/-- In every position, the declaration of the shape shows where it ends. -/
def ShowsEnd (layout : Layout) (shape : Shape) : Prop :=
  ∀ level, Text.SelfDelimiting LooksAlike (fun other => (other.renderAt layout level).toList) shape

section

variable {layout : Layout} {level : Nat}

theorem showsEnd_of_arguments {shape : Shape}
    (h : ∀ level other rest rest', shape.kindText = other.kindText →
      shape.arguments layout level ++ ')' :: rest = other.arguments layout level ++ ')' :: rest' →
      shape.LooksAlike other ∧ rest = rest') : shape.ShowsEnd layout := by
  intro level other rest rest' htexts
  obtain ⟨hkind, harguments⟩ := renderAt_append_eq htexts
  exact h level other rest rest' hkind harguments

theorem markOptional_append_eq {shape other : Shape} {optional optional' : Bool}
    {rest rest' : List Char} (hshape : shape.ShowsEnd layout)
    (h : (markOptional optional (shape.renderAt layout level)).toList ++ rest =
      (markOptional optional' (other.renderAt layout level)).toList ++ rest') :
    optional = optional' ∧ shape.LooksAlike other ∧ rest = rest' := by
  rw [toList_markOptional, toList_markOptional] at h
  cases optional with
  | false =>
    cases optional' with
    | false => exact ⟨rfl, hshape level other rest rest' h⟩
    | true => exact absurd h.symm optional_append_ne
  | true =>
    cases optional' with
    | false => exact absurd h optional_append_ne
    | true =>
      obtain ⟨halike, hrest⟩ :=
        hshape level other _ _ (call_append_eq (by decide) (by decide) h).2
      exact ⟨rfl, halike, (List.cons.inj hrest).2⟩

theorem fieldRow_selfDelimiting {field : Field Shape} (hshape : field.shape.ShowsEnd layout) :
    Text.SelfDelimiting FieldsLookAlike (fieldRow layout level) field := by
  intro other rest rest' h
  simp only [fieldRow, List.append_assoc, List.append_cancel_left_eq] at h
  obtain ⟨hname, htail⟩ := fieldKey_append_eq h
  obtain ⟨hoptional, halike, hrest⟩ := markOptional_append_eq hshape (List.cons.inj htail).2
  exact ⟨⟨hname, hoptional, halike⟩, List.append_cancel_left hrest⟩

/-- No field row starts like the line that closes the block. -/
theorem fieldRow_append_ne (field : Field Shape) (rest rest' : List Char) :
    fieldRow layout level field ++ rest ≠
      ((layout.indent (level - 1)).toList ++ ['}']) ++ rest' := by
  intro h
  obtain ⟨c, chars, hkey, hc⟩ := exists_fieldKey_eq_cons field.name
  simp only [fieldRow, hkey, Layout.toList_indent, List.append_assoc, List.cons_append] at h
  exact hc.ne (by decide) (Text.eq_of_blanks_append_eq (hc.ne (by decide)) (by decide) h)

theorem variantRow_selfDelimiting {variant : Shape} (hvariant : variant.ShowsEnd layout) :
    Text.SelfDelimiting LooksAlike (variantRow layout level) variant := by
  intro other rest rest' h
  simp only [variantRow, List.append_assoc, List.append_cancel_left_eq] at h
  obtain ⟨halike, hrest⟩ := hvariant (level + 1) other _ _ h
  exact ⟨halike, List.append_cancel_left hrest⟩

/-- No variant row starts like the line that closes the union. -/
theorem variantRow_append_ne (variant : Shape) (rest rest' : List Char) :
    variantRow layout level variant ++ rest ≠
      ((layout.indent (level - 1)).toList ++ [')']) ++ rest' := by
  intro h
  simp only [variantRow, toList_renderAt, call, Layout.toList_indent, List.append_assoc,
    List.cons_append] at h
  exact absurd (Text.eq_of_blanks_append_eq (by decide) (by decide) h) (by decide)

/-! ### Arguments -/

theorem object_arguments_append_eq {as bs : List (Field Shape)} {rest rest' : List Char}
    (hfields : ∀ field ∈ as, field.shape.ShowsEnd layout)
    (h : (object as).arguments layout level ++ ')' :: rest =
      (object bs).arguments layout level ++ ')' :: rest') :
    (object as).LooksAlike (object bs) ∧ rest = rest' := by
  rw [looksAlike_object]
  simp only [arguments, List.isEmpty_iff] at h
  by_cases has : userFields as = []
  · by_cases hbs : userFields bs = []
    · rw [if_pos has, if_pos hbs] at h
      rw [has, hbs]
      exact ⟨List.Forall₂.nil, by simpa using h⟩
    · rw [if_pos has, if_neg hbs] at h
      simp at h
  · by_cases hbs : userFields bs = []
    · rw [if_neg has, if_pos hbs] at h
      simp at h
    · rw [if_neg has, if_neg hbs] at h
      have hrows : (userFields as).flatMap (fieldRow layout level) ++
            (((layout.indent (level - 1)).toList ++ ['}']) ++ ')' :: rest) =
          (userFields bs).flatMap (fieldRow layout level) ++
            (((layout.indent (level - 1)).toList ++ ['}']) ++ ')' :: rest') := by
        simpa only [List.append_assoc, List.append_cancel_left_eq] using h
      have hall : ∀ field ∈ userFields as,
          Text.SelfDelimiting FieldsLookAlike (fieldRow layout level) field :=
        fun field hmem => fieldRow_selfDelimiting (hfields field (mem_userFields.1 hmem).1)
      obtain ⟨halike, hrest⟩ := Text.forall₂_of_flatMap_append_eq fieldRow_append_ne hall hrows
      exact ⟨halike, (List.cons.inj hrest).2⟩

/-- Variants in a row, up to the parenthesis. -/
theorem inline_append_eq {as bs : List Shape} {rest rest' : List Char}
    (hvariants : ∀ variant ∈ as, variant.ShowsEnd layout)
    (h : [',', ' '].intercalate (as.map fun variant => (variant.renderAt layout level).toList) ++
        ')' :: rest =
      [',', ' '].intercalate (bs.map fun variant => (variant.renderAt layout level).toList) ++
        ')' :: rest') :
    List.Forall₂ LooksAlike as bs ∧ rest = rest' := by
  refine Text.forall₂_of_intercalate_append_eq (by decide) ?_
    (fun variant hmem => hvariants variant hmem level) h
  intro variant rest rest' hclose
  simp [toList_renderAt, call] at hclose

/-- Variants on lines of their own start with a line break, variants in a row do not. -/
theorem inline_append_ne {variants : List Shape} {rest rest' : List Char} :
    [',', ' '].intercalate (variants.map fun variant => (variant.renderAt layout level).toList) ++
      ')' :: rest ≠ '\n' :: rest' := by
  intro h
  cases variants with
  | nil => exact absurd (List.cons.inj h).1 (by decide)
  | cons variant variants => simp [Text.intercalate_cons, toList_renderAt, call] at h

theorem union_arguments_append_eq {as bs : List Shape} {rest rest' : List Char}
    (hvariants : ∀ variant ∈ as, variant.ShowsEnd layout)
    (h : (union as).arguments layout level ++ ')' :: rest =
      (union bs).arguments layout level ++ ')' :: rest') :
    (union as).LooksAlike (union bs) ∧ rest = rest' := by
  rw [looksAlike_union]
  simp only [arguments] at h
  by_cases has : layout.isMultiline (renderAllAt layout (level + 1) as) = true
  · by_cases hbs : layout.isMultiline (renderAllAt layout (level + 1) bs) = true
    · rw [if_pos has, if_pos hbs] at h
      have hrows : as.flatMap (variantRow layout level) ++
            (((layout.indent (level - 1)).toList ++ [')']) ++ rest) =
          bs.flatMap (variantRow layout level) ++
            (((layout.indent (level - 1)).toList ++ [')']) ++ rest') := by
        simpa using h
      exact Text.forall₂_of_flatMap_append_eq variantRow_append_ne
        (fun variant hmem => variantRow_selfDelimiting (hvariants variant hmem)) hrows
    · rw [if_pos has, if_neg hbs] at h
      exact absurd h.symm inline_append_ne
  · by_cases hbs : layout.isMultiline (renderAllAt layout (level + 1) bs) = true
    · rw [if_neg has, if_pos hbs] at h
      exact absurd h inline_append_ne
    · rw [if_neg has, if_neg hbs] at h
      exact inline_append_eq hvariants h

end

/-- **A declaration shows where it ends** and what it declares, in every position. -/
theorem showsEnd (layout : Layout) (shape : Shape) : shape.ShowsEnd layout := by
  induction shape using Shape.ind with
  | literal value =>
    refine showsEnd_of_arguments (fun level other rest rest' hkind h => ?_)
    cases other with
    | literal value' =>
      obtain ⟨halike, hrest⟩ := Literal.text_append_eq h
      exact ⟨looksAlike_literal.2 halike, hrest⟩
    | _ => simp [kindText] at hkind
  | id tableName =>
    refine showsEnd_of_arguments (fun level other rest rest' hkind h => ?_)
    cases other with
    | id tableName' =>
      obtain ⟨hname, hrest⟩ := Text.quote_selfDelimiting tableName tableName' _ _ h
      exact ⟨looksAlike_id.2 hname, (List.cons.inj hrest).2⟩
    | _ => simp [kindText] at hkind
  | array element ih =>
    refine showsEnd_of_arguments (fun level other rest rest' hkind h => ?_)
    cases other with
    | array element' =>
      obtain ⟨halike, hrest⟩ := ih level element' _ _ h
      exact ⟨looksAlike_array.2 halike, (List.cons.inj hrest).2⟩
    | _ => simp [kindText] at hkind
  | object fields ih =>
    refine showsEnd_of_arguments (fun level other rest rest' hkind h => ?_)
    cases other with
    | object fields' => exact object_arguments_append_eq ih h
    | _ => simp [kindText] at hkind
  | record keys values optional ihkeys ihvalues =>
    refine showsEnd_of_arguments (fun level other rest rest' hkind h => ?_)
    cases other with
    | record keys' values' optional' =>
      simp only [arguments, List.append_assoc] at h
      obtain ⟨hkeys, htail⟩ := ihkeys level keys' _ _ h
      obtain ⟨hoptional, hvalues, hrest⟩ :=
        markOptional_append_eq ihvalues (List.append_cancel_left htail)
      exact ⟨looksAlike_record.2 ⟨hkeys, hoptional, hvalues⟩, (List.cons.inj hrest).2⟩
    | _ => simp [kindText] at hkind
  | union variants ih =>
    refine showsEnd_of_arguments (fun level other rest rest' hkind h => ?_)
    cases other with
    | union variants' => exact union_arguments_append_eq ih h
    | _ => simp [kindText] at hkind
  | _ =>
    refine showsEnd_of_arguments (fun level other rest rest' hkind h => ?_)
    cases other <;> simp_all [kindText, arguments, LooksAlike, withoutSystemFields, sameBy]

/-! ### Equal declarations -/

theorem map_eq_of_forall₂ {α β : Type} {same : α → α → Prop} {f : α → β} {as bs : List α}
    (h : List.Forall₂ same as bs) (hf : ∀ a ∈ as, ∀ b, same a b → f a = f b) :
    as.map f = bs.map f := by
  induction h with
  | nil => rfl
  | cons hsame _ ih =>
    rw [List.forall_mem_cons] at hf
    rw [List.map_cons, List.map_cons, hf.1 _ hsame, ih hf.2]

/-- What a declaration leaves out does not change it. -/
theorem renderAt_eq_of_looksAlike (layout : Layout) (shape : Shape) : ∀ level other,
    shape.LooksAlike other → shape.renderAt layout level = other.renderAt layout level := by
  induction shape using Shape.ind with
  | literal value =>
    intro level other h
    cases other with
    | literal value' => rw [renderAt, renderAt, Literal.text_eq_of_looksAlike (looksAlike_literal.1 h)]
    | _ => cases h
  | id tableName =>
    intro level other h
    cases other with
    | id tableName' => rw [looksAlike_id.1 h]
    | _ => cases h
  | array element ih =>
    intro level other h
    cases other with
    | array element' => rw [renderAt, renderAt, ih level element' (looksAlike_array.1 h)]
    | _ => cases h
  | object fields ih =>
    intro level other h
    cases other with
    | object fields' =>
      have hlines := map_eq_of_forall₂ (looksAlike_object.1 h) (f := fun field : Field Shape =>
        fieldLine layout level field.name field.optional
          (field.shape.renderAt layout (level + 1))) (by
        rintro field hmem field' ⟨hname, hoptional, halike⟩
        rw [hname, hoptional, ih field (mem_userFields.1 hmem).1 (level + 1) field'.shape halike])
      rw [renderAt, renderAt, fieldLines_eq, fieldLines_eq]
      exact congrArg (fun lines => "v.object(" ++ block layout level lines ++ ")") hlines
    | _ => cases h
  | record keys values optional ihkeys ihvalues =>
    intro level other h
    cases other with
    | record keys' values' optional' =>
      obtain ⟨hkeys, hoptional, hvalues⟩ := looksAlike_record.1 h
      rw [renderAt, renderAt, ihkeys level keys' hkeys, hoptional, ihvalues level values' hvalues]
    | _ => cases h
  | union variants ih =>
    intro level other h
    cases other with
    | union variants' =>
      have htexts : ∀ level,
          renderAllAt layout level variants = renderAllAt layout level variants' := by
        intro level
        rw [renderAllAt_eq, renderAllAt_eq]
        exact map_eq_of_forall₂ (looksAlike_union.1 h) fun variant hmem => ih variant hmem level
      simp only [renderAt, htexts]
    | _ => cases h
  | _ =>
    intro level other h
    cases other <;> simp_all [LooksAlike, withoutSystemFields, sameBy]

/-- **A declaration determines its shape**: under every layout, two shapes have the same
declaration exactly when they look alike. -/
theorem render_eq_iff {layout : Layout} {shape other : Shape} :
    shape.render layout = other.render layout ↔ shape.LooksAlike other := by
  constructor
  · intro h
    have htexts : (shape.renderAt layout 1).toList ++ [] =
        (other.renderAt layout 1).toList ++ [] := congrArg (fun text => text.toList ++ []) h
    exact (showsEnd layout shape 1 other [] [] htexts).1
  · exact renderAt_eq_of_looksAlike layout shape 1 other

end Shape

end DocShape
