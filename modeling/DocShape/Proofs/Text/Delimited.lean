import Mathlib.Data.List.Basic
import Mathlib.Data.List.Forall2

/-!
# Texts that show where they end

A text can be told from its continuation when no two texts of its kind, each
followed by anything, read the same unless they are the texts of the same thing.
Such texts may stand in a row: a list of them can be told from what follows as
long as none of them starts like the mark that closes the list.

* `SelfDelimiting`: **a text shows where it ends and what it stands for**.
* `forall₂_of_flatMap_append_eq`, `forall₂_of_intercalate_append_eq`: a closed list of
  such texts, in a row or between commas, does too.
* `eq_of_append_cons_eq`: texts that end at the first of their closing character.
* `eq_of_blanks_append_eq`: what follows the blanks at the start of a line.
-/

namespace DocShape.Text

/-- **Self-delimiting**: whatever follows, a text that starts with `form a` starts with the `form`
of no other value, values being the same by `same`; and then the continuations are equal. -/
def SelfDelimiting {α : Type} (same : α → α → Prop) (form : α → List Char) (a : α) : Prop :=
  ∀ b rest rest', form a ++ rest = form b ++ rest' → same a b ∧ rest = rest'

/-- Lists of self-delimiting texts, each list followed by the same closing mark. -/
theorem forall₂_of_flatMap_append_eq {α : Type} {same : α → α → Prop} {form : α → List Char}
    {close : List Char} (hclose : ∀ a rest rest', form a ++ rest ≠ close ++ rest') {as : List α} :
    ∀ {bs : List α} {rest rest' : List Char}, (∀ a ∈ as, SelfDelimiting same form a) →
      as.flatMap form ++ (close ++ rest) = bs.flatMap form ++ (close ++ rest') →
      List.Forall₂ same as bs ∧ rest = rest' := by
  induction as with
  | nil =>
    intro bs rest rest' _ h
    cases bs with
    | nil => exact ⟨List.Forall₂.nil, List.append_cancel_left h⟩
    | cons b bs =>
      rw [List.flatMap_cons, List.append_assoc] at h
      exact absurd h.symm (hclose b _ _)
  | cons a as ih =>
    intro bs rest rest' hforms h
    rw [List.forall_mem_cons] at hforms
    rw [List.flatMap_cons, List.append_assoc] at h
    cases bs with
    | nil => exact absurd h (hclose a _ _)
    | cons b bs =>
      rw [List.flatMap_cons, List.append_assoc] at h
      obtain ⟨hsame, htail⟩ := hforms.1 b _ _ h
      obtain ⟨hall, hrest⟩ := ih hforms.2 htail
      exact ⟨List.Forall₂.cons hsame hall, hrest⟩

/-- A list with separators is its first item, then each other item after a separator. -/
theorem intercalate_cons {α : Type} {separator item : List α} {items : List (List α)} :
    separator.intercalate (item :: items) =
      item ++ items.flatMap fun next => separator ++ next := by
  induction items generalizing item with
  | nil => rw [List.intercalate_singleton, List.flatMap_nil, List.append_nil]
  | cons next items ih =>
    rw [List.intercalate_cons_cons, ih, List.flatMap_cons, List.append_assoc, List.append_assoc]

/-- Lists of self-delimiting texts between commas, each list followed by the same closing
character. -/
theorem forall₂_of_intercalate_append_eq {α : Type} {same : α → α → Prop} {form : α → List Char}
    {close : Char} (hcomma : close ≠ ',') (hclose : ∀ a rest rest', form a ++ rest ≠ close :: rest')
    {as bs : List α} {rest rest' : List Char} (hforms : ∀ a ∈ as, SelfDelimiting same form a)
    (h : [',', ' '].intercalate (as.map form) ++ close :: rest =
      [',', ' '].intercalate (bs.map form) ++ close :: rest') :
    List.Forall₂ same as bs ∧ rest = rest' := by
  cases as with
  | nil =>
    cases bs with
    | nil => exact ⟨List.Forall₂.nil, (List.cons.inj h).2⟩
    | cons b bs =>
      rw [List.map_cons, intercalate_cons, List.append_assoc] at h
      exact absurd h.symm (hclose b _ _)
  | cons a as =>
    rw [List.forall_mem_cons] at hforms
    rw [List.map_cons, intercalate_cons, List.append_assoc] at h
    cases bs with
    | nil => exact absurd h (hclose a _ _)
    | cons b bs =>
      rw [List.map_cons, intercalate_cons, List.append_assoc, List.flatMap_map,
        List.flatMap_map] at h
      obtain ⟨hfirst, htail⟩ := hforms.1 b _ _ h
      have hnext : ∀ a ∈ as, SelfDelimiting same (fun a => [',', ' '] ++ form a) a := by
        intro a hmem b rest rest' hitems
        rw [List.append_assoc, List.append_assoc] at hitems
        exact hforms.2 a hmem b rest rest' (List.append_cancel_left hitems)
      have hend : ∀ (a : α) (rest rest' : List Char),
          [',', ' '] ++ form a ++ rest ≠ [close] ++ rest' :=
        fun _ _ _ he => hcomma (List.cons.inj he).1.symm
      obtain ⟨hall, hrest⟩ := forall₂_of_flatMap_append_eq hend hnext htail
      exact ⟨List.Forall₂.cons hfirst hall, hrest⟩

/-- Two texts that end at the first occurrence of the same character. -/
theorem eq_of_append_cons_eq {c : Char} {xs ys rest rest' : List Char} (hxs : c ∉ xs) (hys : c ∉ ys)
    (h : xs ++ c :: rest = ys ++ c :: rest') : xs = ys ∧ rest = rest' := by
  rcases List.append_eq_append_iff.1 h with ⟨zs, rfl, htail⟩ | ⟨zs, rfl, htail⟩
  · cases zs with
    | nil => exact ⟨(List.append_nil xs).symm, (List.cons.inj htail).2⟩
    | cons z zs => exact absurd (by simp [(List.cons.inj htail).1]) hys
  · cases zs with
    | nil => exact ⟨List.append_nil ys, (List.cons.inj htail).2.symm⟩
    | cons z zs => exact absurd (by simp [(List.cons.inj htail).1]) hxs

/-- Blanks followed by something else: the first other character is the same. -/
theorem eq_of_blanks_append_eq {m n : Nat} {c d : Char} {rest rest' : List Char} (hc : c ≠ ' ')
    (hd : d ≠ ' ')
    (h : List.replicate m ' ' ++ c :: rest = List.replicate n ' ' ++ d :: rest') : c = d := by
  have hdrop : ∀ (k : Nat) (x : Char) (tail : List Char), x ≠ ' ' →
      (List.replicate k ' ' ++ x :: tail).dropWhile (· == ' ') = x :: tail := by
    intro k x tail hx
    rw [List.dropWhile_append_of_pos (fun a ha => beq_iff_eq.2 (List.eq_of_mem_replicate ha)),
      List.dropWhile_cons_of_neg (by simpa using hx)]
  have htails := congrArg (List.dropWhile (· == ' ')) h
  rw [hdrop m c rest hc, hdrop n d rest' hd] at htails
  exact (List.cons.inj htails).1

end DocShape.Text
