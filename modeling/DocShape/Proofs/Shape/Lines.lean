import DocShape.Proofs.Shape.OneLine
import DocShape.Proofs.Text.Lines

/-!
# Lines of a declaration

Inside the declaration of a shape a line starts with a field name, with an expression or
with what closes a block.  So none of its lines goes on with the line before: a line that
starts with a dot never belongs to the declaration of a shape.

* `Shape.scans_fieldRow`, `Shape.scans_variantRow`: the lines of a block.
* `Shape.scans_renderAt`: **no line of a declaration goes on with the line before**.
-/

namespace DocShape

open Text (Scans)

theorem Layout.scans_indent (layout : Layout) (level : Nat) :
    Scans true true (layout.indent level).toList := by
  rw [toList_indent]
  exact Scans.blanks _

namespace Shape

variable {layout : Layout} {level : Nat} {start : Bool}

/-! ### Pieces of a declaration -/

theorem newline_notMem_fieldKey (name : String) : '\n' ∉ (fieldKey name).toList := by
  unfold fieldKey
  split
  · next h => exact Text.notMem_of_isIdentifier h (by decide)
  · exact Text.newline_notMem_quote name

theorem scans_fieldKey (name : String) : Scans start false (fieldKey name).toList := by
  obtain ⟨c, rest, hkey, hc⟩ := exists_fieldKey_eq_cons name
  have hline := newline_notMem_fieldKey name
  rw [hkey] at hline ⊢
  refine Scans.cons ?_ (Scans.of_newline_notMem fun h => hline (List.mem_cons_of_mem _ h))
  simp only [List.mem_cons, List.not_mem_nil, or_false, not_or]
  exact ⟨hc.ne (by decide), hc.ne (by decide), hc.ne (by decide)⟩

theorem scans_call {name : String} {arguments : List Char} (hname : '\n' ∉ name.toList)
    (h : Scans false false (arguments ++ [')'])) : Scans start false (call name arguments) := by
  have hopen : Scans false false ('.' :: (name.toList ++ ['('])) := by
    apply Scans.of_newline_notMem
    simp [hname]
  have hcall : call name arguments =
      'v' :: (('.' :: (name.toList ++ ['('])) ++ (arguments ++ [')'])) := by simp [call]
  rw [hcall]
  exact Scans.cons (by decide) (hopen.append h)

theorem scans_renderAt_of_arguments {shape : Shape}
    (h : Scans false false (shape.arguments layout level ++ [')'])) :
    Scans start false (shape.renderAt layout level).toList := by
  rw [toList_renderAt]
  exact scans_call (notMem_kindText shape (by decide)) h

theorem scans_markOptional {optional : Bool} {text : String}
    (h : ∀ start, Scans start false text.toList) :
    Scans start false (markOptional optional text).toList := by
  rw [toList_markOptional]
  cases optional with
  | false => exact h start
  | true => exact scans_call (by decide) ((h false).append rfl)

/-! ### Blocks -/

theorem scans_fieldRow {field : Field Shape}
    (h : ∀ start, Scans start false (field.shape.renderAt layout (level + 1)).toList) :
    Scans true true (fieldRow layout level field) := by
  have hcolon : Scans false false [':', ' '] := rfl
  have hcomma : Scans false true [',', '\n'] := rfl
  exact ((((layout.scans_indent level).append (scans_fieldKey field.name)).append hcolon).append
    (scans_markOptional h)).append hcomma

theorem scans_variantRow {variant : Shape}
    (h : ∀ start, Scans start false (variant.renderAt layout (level + 1)).toList) :
    Scans true true (variantRow layout level variant) := by
  have hcomma : Scans false true [',', '\n'] := rfl
  exact ((layout.scans_indent level).append (h true)).append hcomma

/-! ### Declarations -/

/-- The arguments of a declaration, with the parenthesis that closes them. -/
theorem scans_arguments (layout : Layout) (shape : Shape) :
    ∀ level, Scans false false (shape.arguments layout level ++ [')']) := by
  have hclose : Scans false false [')'] := rfl
  induction shape using Shape.ind with
  | literal value =>
    exact fun _ => (Scans.of_newline_notMem value.newline_notMem_text).append hclose
  | id tableName =>
    exact fun _ => (Scans.of_newline_notMem (Text.newline_notMem_quote tableName)).append hclose
  | array element ih => exact fun level => (scans_renderAt_of_arguments (ih level)).append hclose
  | object fields ih =>
    intro level
    rw [arguments]
    split
    · rfl
    · have hrows : Scans true true ((userFields fields).flatMap (fieldRow layout level)) := by
        refine Scans.flatMap fun field hfield => ?_
        have hfield := ih field (mem_userFields.1 hfield).1 (level + 1)
        exact scans_fieldRow fun _ => scans_renderAt_of_arguments hfield
      have hopen : Scans false true ['{', '\n'] := rfl
      have hbrace : Scans true false ['}'] := rfl
      exact (((hopen.append hrows).append (layout.scans_indent _)).append hbrace).append hclose
  | record keys values optional ihkeys ihvalues =>
    intro level
    have hcomma : Scans false false [',', ' '] := rfl
    exact (((scans_renderAt_of_arguments (ihkeys level)).append hcomma).append
      (scans_markOptional fun _ => scans_renderAt_of_arguments (ihvalues level))).append hclose
  | union variants ih =>
    intro level
    rw [arguments]
    split
    · -- The parenthesis stands at the start of its line.
      have hrows : Scans true true (variants.flatMap (variantRow layout level)) :=
        Scans.flatMap fun variant hvariant =>
          scans_variantRow fun _ => scans_renderAt_of_arguments (ih variant hvariant (level + 1))
      have hparenthesis : Scans true false [')'] := rfl
      exact (hrows.append (layout.scans_indent _)).append hparenthesis
    · have hcomma : Scans false false [',', ' '] := rfl
      refine (Scans.intercalate hcomma ?_).append hclose
      rw [List.forall_mem_map]
      exact fun variant hvariant => scans_renderAt_of_arguments (ih variant hvariant level)
  | _ => exact fun _ => rfl

/-- **No line of a declaration goes on with the line before.** -/
theorem scans_renderAt (layout : Layout) (level : Nat) (shape : Shape) :
    Scans start false (shape.renderAt layout level).toList :=
  scans_renderAt_of_arguments (scans_arguments layout shape level)

end Shape

end DocShape
