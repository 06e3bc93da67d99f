import DocShape.Text.Quoted
import DocShape.Proofs.Text.Delimited

/-!
# Quoted text shows where it ends

The escape of a character is read back by `unescape`, whatever follows it, so
escapes are self-delimiting.  None of them starts with a quote, so the closing
quote ends the text.

* `unescape_escape_append`: a character is read back from its escape.
* `quote_selfDelimiting`: **a quoted text ends at its closing quote**.
-/

namespace DocShape.Text

/-! ### Reading back -/

def hexValue (c : Char) : Nat := if c.isDigit then c.toNat - 48 else c.toNat - 87

/-- The character whose escape a text starts with, and the text after that escape. -/
def unescape : List Char → Option (Char × List Char)
  | '\\' :: 'u' :: _ :: _ :: a :: b :: rest =>
    some (Char.ofNat (hexValue a * 16 + hexValue b), rest)
  | '\\' :: 'n' :: rest => some ('\n', rest)
  | '\\' :: 'r' :: rest => some ('\r', rest)
  | '\\' :: 't' :: rest => some ('\t', rest)
  | '\\' :: 'b' :: rest => some ('\x08', rest)
  | '\\' :: 'f' :: rest => some ('\x0c', rest)
  | '\\' :: c :: rest => some (c, rest)
  | c :: rest => some (c, rest)
  | [] => none

/-- A control character has two digits after the zeros. -/
theorem hexDigits_control : ∀ n < 32, ∃ k < 16, ∃ l < 16,
    hexDigits 4 n = ['0', '0', Nat.digitChar k, Nat.digitChar l] ∧
      hexValue (Nat.digitChar k) * 16 + hexValue (Nat.digitChar l) = n := by
  decide +kernel

theorem unescape_escape_append (c : Char) (rest : List Char) :
    unescape (escape c ++ rest) = some (c, rest) := by
  unfold escape
  split
  · rfl
  · rfl
  · rfl
  · rfl
  · rfl
  · rfl
  · rfl
  · next hquote hbackslash _ _ _ _ _ =>
    by_cases hcontrol : c < ' '
    · obtain ⟨k, _, l, _, hdigits, hvalue⟩ := hexDigits_control c.toNat hcontrol
      rw [if_pos hcontrol, hdigits]
      change some (Char.ofNat _, rest) = _
      rw [hvalue, Char.ofNat_toNat]
    · rw [if_neg hcontrol, List.singleton_append]
      unfold unescape
      split
      all_goals simp_all

theorem escape_selfDelimiting (c : Char) : SelfDelimiting Eq escape c := by
  intro d rest rest' h
  have hread := congrArg unescape h
  rw [unescape_escape_append, unescape_escape_append] at hread
  exact Prod.mk.inj (Option.some.inj hread)

/-- No escape starts with the closing quote. -/
theorem escape_append_ne_quote (c : Char) (rest rest' : List Char) :
    escape c ++ rest ≠ ['"'] ++ rest' := by
  intro h
  have hread := congrArg unescape h
  rw [unescape_escape_append] at hread
  obtain ⟨rfl, rfl⟩ := Prod.mk.inj (Option.some.inj hread)
  cases h

/-! ### Quoted text -/

theorem toList_quote (s : String) :
    (quote s).toList = '"' :: (s.toList.flatMap escape ++ ['"']) := by
  rw [quote, String.toList_ofList]

/-- **A quoted text ends at its closing quote** and determines what is quoted. -/
theorem quote_selfDelimiting (s : String) : SelfDelimiting Eq (fun t => (quote t).toList) s := by
  intro t rest rest' h
  simp only [toList_quote, List.cons_append, List.append_assoc, List.cons.injEq, true_and] at h
  obtain ⟨hchars, hrest⟩ := forall₂_of_flatMap_append_eq escape_append_ne_quote
    (fun c _ => escape_selfDelimiting c) h
  rw [List.forall₂_eq_eq_eq] at hchars
  exact ⟨String.toList_inj.1 hchars, hrest⟩

/-- A quoted text is not the start of a text without quotes. -/
theorem quote_append_ne {s : String} {text : List Char} {c : Char} {rest rest' : List Char}
    (htext : '"' ∉ text) (hc : c ≠ '"') : (quote s).toList ++ rest ≠ text ++ c :: rest' := by
  intro h
  rw [toList_quote, List.cons_append] at h
  cases text with
  | nil => exact hc (List.cons.inj h).1.symm
  | cons first text => exact htext ((List.cons.inj h).1 ▸ List.mem_cons_self)

/-! ### Escapes -/

theorem isAlphanum_of_mem_hexDigits {n : Nat} (hn : n < 32) :
    ∀ c ∈ hexDigits 4 n, c.isAlphanum = true := by
  have hall : ∀ n < 32, (hexDigits 4 n).all Char.isAlphanum = true := by decide +kernel
  exact List.all_eq_true.1 (hall n hn)

/-- A character stands for itself, or behind a backslash, or as its digits. -/
theorem escape_cases (c : Char) :
    (escape c = [c] ∧ c ≠ '"' ∧ c ≠ '\\' ∧ ¬ c < ' ') ∨
      (∃ d, escape c = ['\\', d] ∧ d ≠ '\n') ∨
      ∃ digits, escape c = '\\' :: 'u' :: digits ∧ ∀ d ∈ digits, d.isAlphanum = true := by
  unfold escape
  split
  · exact Or.inr (Or.inl ⟨_, rfl, by decide⟩)
  · exact Or.inr (Or.inl ⟨_, rfl, by decide⟩)
  · exact Or.inr (Or.inl ⟨_, rfl, by decide⟩)
  · exact Or.inr (Or.inl ⟨_, rfl, by decide⟩)
  · exact Or.inr (Or.inl ⟨_, rfl, by decide⟩)
  · exact Or.inr (Or.inl ⟨_, rfl, by decide⟩)
  · exact Or.inr (Or.inl ⟨_, rfl, by decide⟩)
  · next hquote hbackslash _ _ _ _ _ =>
    by_cases hcontrol : c < ' '
    · rw [if_pos hcontrol]
      exact Or.inr (Or.inr ⟨_, rfl, isAlphanum_of_mem_hexDigits hcontrol⟩)
    · rw [if_neg hcontrol]
      exact Or.inl ⟨rfl, hquote, hbackslash, hcontrol⟩

/-- Between quotes a line break is escaped. -/
theorem newline_notMem_quote (s : String) : '\n' ∉ (quote s).toList := by
  rw [toList_quote]
  have hescapes : '\n' ∉ s.toList.flatMap escape := by
    intro h
    obtain ⟨c, -, hc⟩ := List.mem_flatMap.1 h
    rcases escape_cases c with ⟨he, -, -, hcontrol⟩ | ⟨d, he, hd⟩ | ⟨digits, he, hdigits⟩
    · rw [he, List.mem_singleton] at hc
      exact hcontrol (hc ▸ by decide)
    · rw [he] at hc
      simp [hd.symm] at hc
    · rw [he] at hc
      simp only [List.mem_cons] at hc
      rcases hc with hc | hc | hc
      · cases hc
      · cases hc
      · exact absurd (hdigits _ hc) (by decide)
  simpa using hescapes

end DocShape.Text
