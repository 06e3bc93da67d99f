/-!
# Layout of declarations

The three knobs of how a declaration is laid out, and the two rules that depend on them: how far a
line is indented, and when a union is written with one variant per line.
-/

namespace DocShape

/-- How declarations are laid out. -/
structure Layout where
  indentWidth : Nat := 2
  /-- A union with more variants is written one variant per line. -/
  maxInlineVariants : Nat := 2
  /-- So is a union with a variant of more characters. -/
  maxInlineLength : Nat := 30
deriving DecidableEq

namespace Layout

/-- The blanks at the start of a line of the given level. -/
def indent (layout : Layout) (level : Nat) : String :=
  String.ofList (List.replicate (layout.indentWidth * level) ' ')

/-- Whether a union whose variants have these texts is written one variant per line. -/
def isMultiline (layout : Layout) (variants : List String) : Bool :=
  layout.maxInlineVariants < variants.length
    || variants.any fun text => layout.maxInlineLength < text.length

end Layout

end DocShape
