import DocShape.Proofs.Text.Quotation

/-!
# Indentation by open blocks

Outside quotes a text opens and closes brackets.  A bracket at the end of its line opens
a **block**, which lasts until the bracket is closed.  A text is indented if each line
starts with as many blanks as there are blocks around it.

Whether a piece of a text is indented depends on the brackets around it, so pieces are
laid out **inside brackets**, and they leave those brackets as they are.  Pieces in a row,
pieces between brackets on one line, and rows in a block are laid out if their parts are.

* `openAfter?`: the brackets that a text leaves open; `blocks`: how many of them are blocks.
* `Indented`: **each line starts as the blocks around it ask for**.
* `Laid`: the same for a piece inside brackets.
* `Laid.append`, `Laid.enclosed`, `Laid.block`: pieces put together.
* `Laid.indented`: a text laid out inside no brackets is indented.
-/

namespace DocShape.Text

/-! ### Open brackets -/

/-- A bracket that is open. -/
structure OpenBracket where
  /-- The bracket that closes it. -/
  closing : Char
  /-- Whether its line ends with it. -/
  isBlock : Bool
deriving DecidableEq

/-- A line break that is not quoted. -/
def newline : Glyph := ⟨'\n', false⟩

/-- The bracket that closes an opening one. -/
def closing? : Char → Option Char
  | '(' => some ')'
  | '[' => some ']'
  | '{' => some '}'
  | _ => none

def isClosing (c : Char) : Bool := c = ')' || c = ']' || c = '}'

/-- The open brackets after one more glyph, innermost first.  It fails if the glyph closes another
bracket than the innermost one. -/
def read? (brackets : List OpenBracket) (glyph : Glyph) (endsLine : Bool) :
    Option (List OpenBracket) :=
  if glyph.quoted then some brackets
  else
    match closing? glyph.char with
    | some closing => some (⟨closing, endsLine⟩ :: brackets)
    | none =>
      if isClosing glyph.char then
        match brackets with
        | [] => none
        | bracket :: outer => if bracket.closing = glyph.char then some outer else none
      else some brackets

/-- The open brackets after a text, if those before it are open. -/
def openAfter? : List OpenBracket → List Glyph → Option (List OpenBracket)
  | brackets, [] => some brackets
  | brackets, glyph :: rest =>
    (read? brackets glyph (rest.head? = some newline)).bind fun brackets =>
      openAfter? brackets rest

/-- How many open brackets are blocks. -/
def blocks (brackets : List OpenBracket) : Nat :=
  (brackets.filter OpenBracket.isBlock).length

/-- How many blocks stand around a line that starts with a character: the block that it closes does
not count. -/
def blocksAround (brackets : List OpenBracket) (c : Char) : Nat :=
  if brackets.head? = some ⟨c, true⟩ then blocks brackets.tail else blocks brackets

/-- Whether a line ends as it may: with a bracket that opens a block, or with a comma. -/
def EndsLine (line : List Char) : Prop := ∃ c ∈ ['{', '(', ','], line.getLast? = some c

/-- Whether a line starts as the open brackets ask for: with the blanks for the blocks around it,
and then something else. -/
def StartsLine (width : Nat) (brackets : List OpenBracket) (line : List Char) : Prop :=
  ∃ c rest, line = List.replicate (width * blocksAround brackets c) ' ' ++ c :: rest ∧
    c ≠ ' ' ∧ c ≠ '\n'

/-- **Indentation by open blocks**: each line but the last ends with an opening bracket or with a
comma, each line but the first starts as the blocks that are open ask for, and at the end nothing is
open. -/
structure Indented (width : Nat) (text : String) : Prop where
  ends : ∀ before after, text.toList = before ++ '\n' :: after → EndsLine before
  starts : ∀ before after, text.toList = before ++ '\n' :: after →
    ∃ brackets, openAfter? [] (glyphs (before ++ ['\n'])) = some brackets ∧
      StartsLine width brackets after
  closed : openAfter? [] (glyphs text.toList) = some []

/-! ### Reading -/

theorem closing?_cases {opener closer : Char} (h : closing? opener = some closer) :
    opener = '(' ∧ closer = ')' ∨ opener = '[' ∧ closer = ']' ∨ opener = '{' ∧ closer = '}' := by
  unfold closing? at h
  split at h
  · exact Or.inl ⟨rfl, (Option.some.inj h).symm⟩
  · exact Or.inr (Or.inl ⟨rfl, (Option.some.inj h).symm⟩)
  · exact Or.inr (Or.inr ⟨rfl, (Option.some.inj h).symm⟩)
  · cases h

theorem closer_ne {opener closer : Char} (h : closing? opener = some closer) :
    closer ≠ ' ' ∧ closer ≠ '\n' := by
  rcases closing?_cases h with ⟨-, rfl⟩ | ⟨-, rfl⟩ | ⟨-, rfl⟩ <;> decide

/-- Whether a glyph neither breaks the line nor is a bracket. -/
def Glyph.isInert (glyph : Glyph) : Bool :=
  glyph.char ≠ '\n' && (glyph.quoted || !((closing? glyph.char).isSome || isClosing glyph.char))

theorem read?_of_isInert {glyph : Glyph} (h : glyph.isInert) (brackets : List OpenBracket)
    (endsLine : Bool) : read? brackets glyph endsLine = some brackets := by
  obtain ⟨c, quoted⟩ := glyph
  simp only [Glyph.isInert, Bool.and_eq_true, Bool.or_eq_true, Bool.not_eq_true',
    Bool.or_eq_false_iff] at h
  obtain ⟨-, rfl | ⟨hopening, hclosing⟩⟩ := h
  · rfl
  · cases quoted with
    | true => rfl
    | false =>
      rw [Option.isSome_eq_false_iff, Option.isNone_iff_eq_none] at hopening
      simp [read?, hopening, hclosing]

/-- In a text of a class of characters that has no line break and no bracket, no glyph is one. -/
theorem isInert_of_mem_plain {p : Char → Bool} {text : List Char} (htext : ∀ c ∈ text, p c = true)
    (hp : ['\n', '(', ')', '[', ']', '{', '}'].any p = false) :
    ∀ glyph ∈ plain text, glyph.isInert := by
  rw [plain, List.forall_mem_map]
  intro c hc
  have hne : ∀ d ∈ ['\n', '(', ')', '[', ']', '{', '}'], c ≠ d := by
    rintro d hd rfl
    exact List.any_eq_false.1 hp c hd (htext c hc)
  simp only [List.forall_mem_cons] at hne
  obtain ⟨hbreak, hparen, hparen', hbracket, hbracket', hbrace, hbrace', -⟩ := hne
  simp [Glyph.isInert, closing?, isClosing, *]

/-- All of a quoted text is quoted, and it has no line break. -/
theorem isInert_of_mem_glyphs_quote (s : String) :
    ∀ glyph ∈ glyphs (quote s).toList, glyph.isInert := by
  rw [glyphs_quote, List.forall_mem_map]
  intro c hc
  have hbreak : c ≠ '\n' := fun h => newline_notMem_quote s (h ▸ hc)
  simp [Glyph.isInert, hbreak]

section

variable {brackets inner : List OpenBracket}

theorem read?_of_closing? {c closing : Char} (h : closing? c = some closing) (endsLine : Bool) :
    read? brackets ⟨c, false⟩ endsLine = some (⟨closing, endsLine⟩ :: brackets) := by
  simp [read?, h]

/-- A bracket closes the innermost one. -/
theorem read?_closing {c closing : Char} (h : closing? c = some closing) (isBlock endsLine : Bool) :
    read? (⟨closing, isBlock⟩ :: brackets) ⟨closing, false⟩ endsLine = some brackets := by
  rcases closing?_cases h with ⟨-, rfl⟩ | ⟨-, rfl⟩ | ⟨-, rfl⟩ <;> rfl

theorem openAfter?_of_isInert {text : List Glyph} (h : ∀ glyph ∈ text, glyph.isInert) :
    openAfter? brackets text = some brackets := by
  induction text with
  | nil => rfl
  | cons glyph rest ih =>
    rw [List.forall_mem_cons] at h
    rw [openAfter?, read?_of_isInert h.1, Option.bind_some, ih h.2]

/-- **Where reading may be cut**: not before a line break. -/
theorem openAfter?_append {xs ys : List Glyph} (h : ys.head? ≠ some newline) :
    openAfter? brackets (xs ++ ys) =
      (openAfter? brackets xs).bind fun inner => openAfter? inner ys := by
  induction xs generalizing brackets with
  | nil => rfl
  | cons glyph rest ih =>
    have hhead : (rest ++ ys).head? = some newline ↔ rest.head? = some newline := by
      cases rest with
      | nil => simp [h]
      | cons next rest => rfl
    simp only [List.cons_append, openAfter?, hhead, ih]
    cases read? brackets glyph (rest.head? = some newline) <;> rfl

/-- After a line break reading goes on as before it. -/
theorem openAfter?_cons_newline {glyph : Glyph} (text : List Glyph)
    (h : openAfter? brackets [glyph, newline] = some inner) :
    openAfter? brackets (glyph :: newline :: text) = openAfter? inner text := by
  have hnewline : ∀ brackets endsLine, read? brackets newline endsLine = some brackets :=
    fun _ _ => rfl
  simp only [openAfter?, hnewline, List.head?_cons, Option.bind_some, Option.bind_fun_some] at h ⊢
  rw [h, Option.bind_some]

/-! ### Line breaks -/

variable {width : Nat}

theorem EndsLine.ne_nil {line : List Char} (h : EndsLine line) : line ≠ [] := by
  rintro rfl
  obtain ⟨c, -, hc⟩ := h
  cases hc

theorem EndsLine.append {line : List Char} (h : EndsLine line) (start : List Char) :
    EndsLine (start ++ line) := by
  obtain ⟨c, hmem, hc⟩ := h
  exact ⟨c, hmem, by rw [List.getLast?_append, hc, Option.some_or]⟩

theorem StartsLine.append {line : List Char} (h : StartsLine width brackets line)
    (rest : List Char) : StartsLine width brackets (line ++ rest) := by
  obtain ⟨c, tail, rfl, hblank, hbreak⟩ := h
  exact ⟨c, tail ++ rest, by rw [List.append_assoc, List.cons_append], hblank, hbreak⟩

/-- Whether each line break of a piece inside brackets stands between lines that end and start as
they should. -/
def LineBreaks (width : Nat) (brackets : List OpenBracket) (text : List Glyph) : Prop :=
  ∀ before glyph after, text = before ++ glyph :: after → glyph.char = '\n' →
    glyph = newline ∧ EndsLine (before.map Glyph.char) ∧
      ∃ inner, openAfter? brackets (before ++ [newline]) = some inner ∧
        StartsLine width inner (after.map Glyph.char)

namespace LineBreaks

theorem of_forall_ne {text : List Glyph} (h : ∀ glyph ∈ text, glyph.char ≠ '\n') :
    LineBreaks width brackets text := by
  rintro before glyph after rfl hchar
  exact absurd hchar (h glyph (by simp))

/-- No piece starts with a line break. -/
theorem head_ne {text : List Glyph} (h : LineBreaks width brackets text) :
    text.head? ≠ some newline := by
  cases text with
  | nil => simp
  | cons glyph rest =>
    intro hhead
    cases hhead
    exact (h [] newline rest rfl rfl).2.1.ne_nil rfl

theorem append {xs ys : List Glyph} (hxs : LineBreaks width brackets xs)
    (hread : openAfter? brackets xs = some inner) (hys : LineBreaks width inner ys) :
    LineBreaks width brackets (xs ++ ys) := by
  intro before glyph after htext hchar
  rcases List.append_eq_append_iff.1 htext with ⟨middle, hbefore, hsplit⟩ | ⟨middle, hxs', hsplit⟩
  · -- The line break stands in the second piece.
    obtain ⟨hnewline, hends, last, hlast, hstarts⟩ := hys middle glyph after hsplit hchar
    have hhead : (middle ++ [newline]).head? ≠ some newline := by
      intro hhead
      refine hys.head_ne ?_
      rw [hsplit, hnewline, ← hhead]
      cases middle <;> rfl
    refine ⟨hnewline, ?_, last, ?_, hstarts⟩
    · rw [hbefore, List.map_append]
      exact hends.append _
    · rw [hbefore, List.append_assoc, openAfter?_append hhead, hread, Option.bind_some, hlast]
  · cases middle with
    | nil =>
      -- It would be the first glyph of the second piece.
      have hys' : ys = glyph :: after := hsplit.symm
      obtain ⟨-, hends, -⟩ := hys [] glyph after hys' hchar
      exact absurd rfl hends.ne_nil
    | cons next middle =>
      obtain ⟨rfl, rfl⟩ := List.cons.inj hsplit
      obtain ⟨hnewline, hends, last, hlast, hstarts⟩ := hxs before glyph middle hxs' hchar
      refine ⟨hnewline, hends, last, hlast, ?_⟩
      show StartsLine width last ((middle ++ ys).map Glyph.char)
      rw [List.map_append]
      exact hstarts.append _

/-- The end of a line in front of a piece that starts the next one. -/
theorem cons_newline {c : Char} {text : List Glyph} (hends : c ∈ ['{', '(', ','])
    (hread : openAfter? brackets [⟨c, false⟩, newline] = some inner)
    (hstarts : StartsLine width inner (text.map Glyph.char)) (h : LineBreaks width inner text) :
    LineBreaks width brackets (⟨c, false⟩ :: newline :: text) := by
  intro before glyph after htext hchar
  match before, htext with
  | [], htext =>
    obtain ⟨rfl, -⟩ := List.cons.inj htext
    obtain rfl : c = '\n' := hchar
    exact absurd hends (by decide)
  | [_], htext =>
    obtain ⟨rfl, hrest⟩ := List.cons.inj htext
    obtain ⟨rfl, rfl⟩ := List.cons.inj hrest
    exact ⟨rfl, ⟨c, hends, rfl⟩, inner, hread, hstarts⟩
  | _ :: _ :: before, htext =>
    obtain ⟨rfl, hrest⟩ := List.cons.inj htext
    obtain ⟨rfl, hsplit⟩ := List.cons.inj hrest
    obtain ⟨hnewline, hbefore, last, hlast, hline⟩ := h before glyph after hsplit hchar
    refine ⟨hnewline, hbefore.append [c, '\n'], last, ?_, hline⟩
    rw [List.cons_append, List.cons_append, openAfter?_cons_newline _ hread, hlast]

end LineBreaks

/-! ### Pieces -/

/-- **A piece laid out inside brackets**: it leaves certain brackets open, and each of its lines
ends as it may and starts as the blocks around it ask for. -/
structure Laid (width : Nat) (brackets inner : List OpenBracket) (text : List Glyph) : Prop where
  openAfter : openAfter? brackets text = some inner
  breaks : LineBreaks width brackets text

namespace Laid

theorem of_isInert {text : List Glyph} (h : ∀ glyph ∈ text, glyph.isInert) :
    Laid width brackets brackets text := by
  refine ⟨openAfter?_of_isInert h, LineBreaks.of_forall_ne ?_⟩
  intro glyph hmem hchar
  have hinert := h glyph hmem
  simp [Glyph.isInert, hchar] at hinert

/-- **Pieces in a row.** -/
theorem append {last : List OpenBracket} {xs ys : List Glyph} (hxs : Laid width brackets inner xs)
    (hys : Laid width inner last ys) : Laid width brackets last (xs ++ ys) where
  openAfter := by
    rw [openAfter?_append hys.breaks.head_ne, hxs.openAfter, Option.bind_some, hys.openAfter]
  breaks := hxs.breaks.append hxs.openAfter hys.breaks

theorem nil : Laid width brackets brackets [] := of_isInert fun _ h => nomatch h

theorem flatMap {α : Type} {items : List α} {f : α → List Glyph}
    (h : ∀ item ∈ items, Laid width brackets brackets (f item)) :
    Laid width brackets brackets (items.flatMap f) := by
  induction items with
  | nil => exact nil
  | cons item items ih =>
    rw [List.forall_mem_cons] at h
    rw [List.flatMap_cons]
    exact h.1.append (ih h.2)

theorem intercalate {separator : List Glyph} {items : List (List Glyph)}
    (hseparator : Laid width brackets brackets separator)
    (h : ∀ item ∈ items, Laid width brackets brackets item) :
    Laid width brackets brackets (separator.intercalate items) := by
  cases items with
  | nil => exact nil
  | cons item items =>
    rw [List.forall_mem_cons] at h
    rw [intercalate_cons]
    exact h.1.append (flatMap fun next hnext => hseparator.append (h.2 next hnext))

/-- The end of a line in front of a piece that starts the next one. -/
theorem cons_newline {c : Char} {last : List OpenBracket} {text : List Glyph}
    (hends : c ∈ ['{', '(', ',']) (hread : openAfter? brackets (plain [c, '\n']) = some inner)
    (hstarts : StartsLine width inner (text.map Glyph.char)) (h : Laid width inner last text) :
    Laid width brackets last (plain [c, '\n'] ++ text) where
  openAfter := (openAfter?_cons_newline text hread).trans h.openAfter
  breaks := LineBreaks.cons_newline hends hread hstarts h.breaks

/-! ### Brackets and blocks -/

section

variable {opener closer : Char} (hpair : closing? opener = some closer)

include hpair

theorem of_opener : Laid width brackets (⟨closer, false⟩ :: brackets) (plain [opener]) := by
  have hopener : opener ≠ '\n' := by
    rintro rfl
    cases hpair
  refine ⟨?_, LineBreaks.of_forall_ne (by simpa [plain] using hopener)⟩
  exact congrArg (Option.bind · some) (read?_of_closing? hpair false)

theorem of_closer (isBlock : Bool) :
    Laid width (⟨closer, isBlock⟩ :: brackets) brackets (plain [closer]) := by
  refine ⟨?_, LineBreaks.of_forall_ne (by simpa [plain] using (closer_ne hpair).2)⟩
  exact congrArg (Option.bind · some) (read?_closing hpair isBlock false)

/-- **Between brackets on one line.** -/
theorem enclosed {text : List Glyph}
    (h : Laid width (⟨closer, false⟩ :: brackets) (⟨closer, false⟩ :: brackets) text) :
    Laid width brackets brackets (plain [opener] ++ text ++ plain [closer]) :=
  ((of_opener hpair).append h).append (of_closer hpair false)

end

end Laid

/-- The blanks in front of a line with blocks around it. -/
def blanks (width count : Nat) : List Glyph := plain (List.replicate (width * count) ' ')

theorem Laid.blanks (count : Nat) : Laid width brackets brackets (blanks width count) := by
  refine of_isInert ?_
  rw [Text.blanks, plain, List.forall_mem_map]
  intro c hc
  rw [List.eq_of_mem_replicate hc]
  rfl

theorem startsLine_blanks_append {count : Nat} {text : List Glyph} {c : Char}
    (htext : (text.map Glyph.char).head? = some c) (hcount : blocksAround brackets c = count)
    (hblank : c ≠ ' ') (hbreak : c ≠ '\n') :
    StartsLine width brackets ((Text.blanks width count ++ text).map Glyph.char) := by
  obtain ⟨rest, hrest⟩ := List.head?_eq_some_iff.1 htext
  refine ⟨c, rest, ?_, hblank, hbreak⟩
  rw [List.map_append, hrest, hcount, Text.blanks, plain, List.map_map]
  exact congrArg (· ++ c :: rest) (List.map_id _)

/-- Whether a row of a block starts with something else than a blank or the end of the block. -/
def StartsRow (closer : Char) (row : List Glyph) : Prop :=
  ∃ c, (row.map Glyph.char).head? = some c ∧ c ≠ ' ' ∧ c ≠ '\n' ∧ c ≠ closer

namespace Laid

section

variable {opener closer : Char} (hpair : closing? opener = some closer)
  {α : Type} {rows : List α} {f : α → List Glyph}

include hpair

/-- The rows of a block and what closes it start a line of the block, and they lead out of it. -/
theorem rows_append (hrows : ∀ row ∈ rows,
      Laid width (⟨closer, true⟩ :: brackets) (⟨closer, true⟩ :: brackets) (f row) ∧
        StartsRow closer (f row)) :
    let rest := (rows.flatMap fun row =>
        Text.blanks width (blocks brackets + 1) ++ f row ++ plain [',', '\n']) ++
      (Text.blanks width (blocks brackets) ++ plain [closer])
    Laid width (⟨closer, true⟩ :: brackets) brackets rest ∧
      StartsLine width (⟨closer, true⟩ :: brackets) (rest.map Glyph.char) := by
  -- A row ends its line, so what follows it has to start one: the two facts go together.
  induction rows with
  | nil =>
    have haround : blocksAround (⟨closer, true⟩ :: brackets) closer = blocks brackets := if_pos rfl
    obtain ⟨hblank, hbreak⟩ := closer_ne hpair
    exact ⟨(Laid.blanks _).append (of_closer hpair true),
      startsLine_blanks_append rfl haround hblank hbreak⟩
  | cons row rows ih =>
    rw [List.forall_mem_cons] at hrows
    obtain ⟨⟨hrow, c, hstart, hblank, hbreak, hcloser⟩, hrows⟩ := hrows
    obtain ⟨hrest, hline⟩ := ih hrows
    have haround : blocksAround (⟨closer, true⟩ :: brackets) c = blocks brackets + 1 :=
      if_neg fun h => hcloser (congrArg OpenBracket.closing (Option.some.inj h)).symm
    have hcomma : openAfter? (⟨closer, true⟩ :: brackets) (plain [',', '\n']) =
        some (⟨closer, true⟩ :: brackets) := rfl
    have hnext := cons_newline (by decide) hcomma hline hrest
    rw [List.flatMap_cons, List.append_assoc, List.append_assoc, List.append_assoc]
    refine ⟨(Laid.blanks _).append (hrow.append hnext), ?_⟩
    refine startsLine_blanks_append ?_ haround hblank hbreak
    rw [List.map_append, List.head?_append, hstart, Option.some_or]

/-- **Rows in a block.** -/
theorem block (hends : opener ∈ ['{', '(', ',']) (hrows : ∀ row ∈ rows,
      Laid width (⟨closer, true⟩ :: brackets) (⟨closer, true⟩ :: brackets) (f row) ∧
        StartsRow closer (f row)) :
    Laid width brackets brackets (plain [opener, '\n'] ++ ((rows.flatMap fun row =>
        Text.blanks width (blocks brackets + 1) ++ f row ++ plain [',', '\n']) ++
      (Text.blanks width (blocks brackets) ++ plain [closer]))) := by
  obtain ⟨hlaid, hstarts⟩ := rows_append hpair hrows
  have hopen : openAfter? brackets (plain [opener, '\n']) = some (⟨closer, true⟩ :: brackets) :=
    congrArg (Option.bind · some) (read?_of_closing? hpair true)
  exact cons_newline hends hopen hstarts hlaid

end

/-- A line break of a text, as the reader sees it. -/
theorem lineBreak {text : String} {before after : List Char}
    (h : Laid width [] [] (glyphs text.toList))
    (htext : text.toList = before ++ '\n' :: after) :
    EndsLine before ∧ ∃ brackets, openAfter? [] (glyphs (before ++ ['\n'])) = some brackets ∧
      StartsLine width brackets after := by
  have hsplit := glyphsFrom_append .outside before ('\n' :: after)
  have hbreak := glyphsFrom_append .outside before ['\n']
  rw [glyphsFrom] at hsplit hbreak
  rw [htext, glyphs, hsplit] at h
  obtain ⟨hnewline, hends, brackets, hbrackets, hstarts⟩ := h.breaks _ _ _ rfl rfl
  rw [map_char_glyphsFrom] at hends hstarts
  rw [hnewline] at hbreak
  exact ⟨hends, brackets, (congrArg (openAfter? []) hbreak).trans hbrackets, hstarts⟩

/-- **A text laid out inside no brackets is indented.** -/
theorem indented {text : String} (h : Laid width [] [] (glyphs text.toList)) :
    Indented width text where
  ends := fun _ _ htext => (h.lineBreak htext).1
  starts := fun _ _ htext => (h.lineBreak htext).2
  closed := h.openAfter

end Laid

end

end DocShape.Text
