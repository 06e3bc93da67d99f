import DocShape.Text.Name

/-!
# Characters of names

The classes of characters are decided by comparing code points.  This file says
what they hold, as ranges of letters and digits.

* `isDocumentId_iff`: **the texts that have the form of a document id**.
* `notMem_of_isIdentifier`: what no identifier holds.
-/

namespace DocShape.Text

/-! ### Letters and digits -/

theorem isUpper_iff (c : Char) : c.isUpper = true ↔ 'A' ≤ c ∧ c ≤ 'Z' := decide_eq_true_iff

theorem isLower_iff (c : Char) : c.isLower = true ↔ 'a' ≤ c ∧ c ≤ 'z' := by
  change (decide ('a' ≤ c) && decide (c ≤ 'z')) = true ↔ _
  rw [Bool.and_eq_true, decide_eq_true_iff, decide_eq_true_iff]

theorem isDigit_iff (c : Char) : c.isDigit = true ↔ '0' ≤ c ∧ c ≤ '9' := by
  change (decide ('0' ≤ c) && decide (c ≤ '9')) = true ↔ _
  rw [Bool.and_eq_true, decide_eq_true_iff, decide_eq_true_iff]

theorem isAlphanum_iff (c : Char) :
    c.isAlphanum = true ↔ (c.isUpper = true ∨ c.isLower = true) ∨ c.isDigit = true := by
  change ((c.isUpper || c.isLower) || c.isDigit) = true ↔ _
  rw [Bool.or_eq_true, Bool.or_eq_true]

/-! ### Document ids -/

/-- The texts over ASCII letters, digits, underscore and hyphen that are not empty. -/
def IsIdText (s : String) : Prop :=
  s ≠ "" ∧ ∀ c ∈ s.toList,
    ('A' ≤ c ∧ c ≤ 'Z') ∨ ('a' ≤ c ∧ c ≤ 'z') ∨ ('0' ≤ c ∧ c ≤ '9') ∨ c = '_' ∨ c = '-'

theorem isIdChar_iff (c : Char) :
    isIdChar c = true ↔
      ('A' ≤ c ∧ c ≤ 'Z') ∨ ('a' ≤ c ∧ c ≤ 'z') ∨ ('0' ≤ c ∧ c ≤ '9') ∨ c = '_' ∨ c = '-' := by
  simp only [isIdChar, Bool.or_eq_true, decide_eq_true_eq, isAlphanum_iff, isUpper_iff, isLower_iff,
    isDigit_iff, or_assoc]

theorem isDocumentId_iff (s : String) : isDocumentId s = true ↔ IsIdText s := by
  rw [isDocumentId, Bool.and_eq_true, Bool.not_eq_true', List.isEmpty_eq_false_iff, IsIdText,
    List.all_eq_true]
  simp only [isIdChar_iff, ne_eq, String.toList_eq_nil_iff]

/-! ### Identifiers -/

theorem isIdentifierRest_of_start {c : Char} (h : isIdentifierStart c = true) :
    isIdentifierRest c = true := by
  simp only [isIdentifierStart, isIdentifierRest, Bool.or_eq_true, decide_eq_true_eq] at h ⊢
  rcases h with (h | h) | h
  · exact Or.inl (Or.inl (Bool.or_eq_true _ _ ▸ Or.inl h))
  · exact Or.inl (Or.inr h)
  · exact Or.inr h

theorem isIdentifierRest_of_mem {name : String} (h : isIdentifier name = true) :
    ∀ c ∈ name.toList, isIdentifierRest c = true := by
  unfold isIdentifier at h
  split at h
  · cases h
  · next first rest hname =>
    rw [Bool.and_eq_true, List.all_eq_true] at h
    rw [hname, List.forall_mem_cons]
    exact ⟨isIdentifierRest_of_start h.1, h.2⟩

/-- An identifier holds no character that is not of its class. -/
theorem notMem_of_isIdentifier {name : String} (h : isIdentifier name = true) {c : Char}
    (hc : isIdentifierRest c = false) : c ∉ name.toList := by
  intro hmem
  rw [isIdentifierRest_of_mem h c hmem] at hc
  cases hc

end DocShape.Text
