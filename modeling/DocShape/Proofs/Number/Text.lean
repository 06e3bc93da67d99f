import DocShape.Number.Basic

/-!
# The characters of a number

In a declaration a number is written with digits, a sign and a decimal point,
so nothing else of a declaration can be taken for a part of it.

* `Double.isDigit_of_mem_shortest`: a shortest decimal has decimal digits only.
* `Number.mem_declarationText`: **the characters of a number in a declaration**.
-/

namespace DocShape

/-- The characters of numbers in declarations. -/
def IsNumberChar (c : Char) : Prop := c.isDigit = true ∨ c = '-' ∨ c = '.'

instance : DecidablePred IsNumberChar :=
  fun c => inferInstanceAs (Decidable (c.isDigit = true ∨ c = '-' ∨ c = '.'))

theorem isNumberChar_of_mem_toDigits {n : Nat} {c : Char} (h : c ∈ Nat.toDigits 10 n) :
    IsNumberChar c :=
  Or.inl (Nat.isDigit_of_mem_toDigits (by decide) (by decide) h)

namespace Double

theorem isDigit_of_mem_decimalOf {g : Nat} {k : Int} {c : Char} (h : c ∈ (decimalOf g k).digits) :
    c.isDigit = true := by
  rw [decimalOf, List.mem_reverse] at h
  have hdigits := List.mem_reverse.1 ((List.dropWhile_sublist _).mem h)
  exact Nat.isDigit_of_mem_toDigits (by decide) (by decide) hdigits

theorem isDigit_of_mem_shortest {d : Double} {tiesUp : Bool} {c : Char}
    (h : c ∈ (d.shortest tiesUp).digits) : c.isDigit = true := by
  have hzero : ∀ x ∈ ['0'], x.isDigit = true := by
    intro x hx
    rw [List.mem_singleton.1 hx]
    rfl
  unfold shortest at h
  split at h
  · exact hzero c h
  · dsimp only at h
    cases hfound : (List.range 17).findSome? fun (i : Nat) =>
        (d.onGrid? tiesUp (d.leadingExponent - i)).map fun g =>
          decimalOf g (d.leadingExponent - i) with
    | none =>
      rw [hfound] at h
      exact hzero c h
    | some x =>
      rw [hfound] at h
      obtain ⟨i, _, hx⟩ := List.exists_of_findSome?_eq_some hfound
      obtain ⟨g, _, rfl⟩ := Option.map_eq_some_iff.1 hx
      exact isDigit_of_mem_decimalOf h

end Double

/-- A plain decimal with decimal digits has number characters only. -/
theorem Decimal.mem_plainText {x : Decimal} {keepsFraction : Bool}
    (hx : ∀ c ∈ x.digits, c.isDigit = true) :
    ∀ c ∈ x.plainText keepsFraction, IsNumberChar c := by
  have hdigits : ∀ c ∈ x.digits, IsNumberChar c := fun c hc => Or.inl (hx c hc)
  have hzeros : ∀ n, ∀ c ∈ List.replicate n '0', IsNumberChar c := by
    intro n c hc
    rw [List.eq_of_mem_replicate hc]
    exact Or.inl rfl
  have hpoint : IsNumberChar '.' := Or.inr (Or.inr rfl)
  unfold plainText
  split
  · simp only [List.forall_mem_cons, List.forall_mem_append]
    exact ⟨Or.inl rfl, hpoint, hzeros _, hdigits⟩
  · dsimp only
    split
    · simp only [List.forall_mem_append]
      refine ⟨⟨hdigits, hzeros _⟩, ?_⟩
      cases keepsFraction with
      | false => exact fun c hc => nomatch hc
      | true => exact List.forall_mem_cons.2 ⟨hpoint, hzeros 1⟩
    · simp only [List.forall_mem_cons, List.forall_mem_append]
      exact ⟨fun c hc => hdigits c (List.mem_of_mem_take hc), hpoint,
        fun c hc => hdigits c (List.mem_of_mem_drop hc)⟩

namespace Number

theorem mem_toString_int (n : Int) : ∀ c ∈ (toString n).toList, IsNumberChar c := by
  intro c hc
  rw [Int.toString_eq_repr, Int.repr_eq_if] at hc
  split at hc
  · rw [Nat.toList_repr] at hc
    exact isNumberChar_of_mem_toDigits hc
  · rw [String.toList_append, List.mem_append, Nat.toList_repr] at hc
    rcases hc with hc | hc
    · exact Or.inr (Or.inl (List.mem_singleton.1 hc))
    · exact isNumberChar_of_mem_toDigits hc

/-- **The characters of a number in a declaration** are digits, a minus sign and a point. -/
theorem mem_declarationText (n : Number) :
    ∀ c ∈ n.declarationText.toList, IsNumberChar c := by
  cases n with
  | integer n => exact mem_toString_int n
  | double d =>
    have hplain : ∀ c ∈ (d.shortest true).plainText false, IsNumberChar c :=
      Decimal.mem_plainText fun c hc => Double.isDigit_of_mem_shortest hc
    intro c hc
    rw [declarationText, Double.text, String.toList_ofList] at hc
    split at hc
    · rcases List.mem_cons.1 hc with rfl | hc
      · exact Or.inr (Or.inl rfl)
      · exact hplain c hc
    · exact hplain c hc

end Number

end DocShape
