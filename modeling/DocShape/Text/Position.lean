/-!
# Positions in reasons

A reason may end in the position it was found at, as in ` at line 3 column 5`. All that stands after
the last ` at line ` of a reason counts as its position, whatever it is.

* `Text.withoutPosition`: **the part of a reason before its position**.
-/

namespace DocShape.Text

/-- The characters before the last place where `mark` stands; `none` if it stands nowhere. -/
def beforeLast? (mark : List Char) : List Char → Option (List Char)
  | [] => if mark.isPrefixOf [] then some [] else none
  | c :: rest =>
    match beforeLast? mark rest with
    | some before => some (c :: before)
    | none => if mark.isPrefixOf (c :: rest) then some [] else none

/-- What comes before the last place is followed by the mark. -/
theorem append_mark_of_beforeLast? {mark s before : List Char}
    (h : beforeLast? mark s = some before) : before ++ mark <+: s := by
  induction s generalizing before with
  | nil =>
    simp only [beforeLast?] at h
    split at h
    · next hp => simpa [← Option.some.inj h] using hp
    · simp at h
  | cons c rest ih =>
    simp only [beforeLast?] at h
    split at h
    · next b hb =>
      rw [← Option.some.inj h]
      simpa using ih hb
    · split at h
      · next hp => simpa [← Option.some.inj h] using hp
      · simp at h

/-- There is no last place exactly where the mark stands nowhere. -/
theorem beforeLast?_eq_none_iff {mark s : List Char} :
    beforeLast? mark s = none ↔ ¬ mark <:+: s := by
  induction s with
  | nil => simp [beforeLast?]
  | cons c rest ih =>
    simp only [beforeLast?, List.infix_cons_iff, not_or, ← ih]
    split <;> simp_all

/-- The place is the last one: the mark does not stand again from its second character on. -/
theorem beforeLast?_append {mark after : List Char}
    (h : beforeLast? mark (mark ++ after).tail = none) (before : List Char) :
    beforeLast? mark (before ++ (mark ++ after)) = some before := by
  induction before with
  | nil =>
    cases hs : mark ++ after with
    | nil => simp_all [beforeLast?]
    | cons c rest =>
      have hp : mark <+: c :: rest := ⟨after, hs⟩
      simp_all [beforeLast?]
  | cons c before ih => simp [beforeLast?, ih]

/-- A reason without its position, as a whole if it has none. -/
def withoutPosition (reason : String) : String :=
  match beforeLast? " at line ".toList reason.toList with
  | some before => String.ofList before
  | none => reason

end DocShape.Text
