import DocShape.Proofs.Shape.ClosestVariant

/-!
# What a failed union says

A value that no variant of a union accepts gets one message, however many variants
there are.  It names the literals among the variants, if there are any.  If there are
none, it shows the variants, and for an array or an object also all messages about it
as the variant that comes nearest.

* `Shape.messages`: the messages about a value, which may be absent.
* `Mismatch.message_of_closest`: how a message is put together from a mismatch.
* `Shape.ExplainsUnion`: **what a failed union says**, the mismatch and its message.
* `Shape.messages_union_cases`: a union accepts a value or **gives one message that
  explains it**.
-/

namespace DocShape

/-! ### Messages -/

namespace Mismatch

/-- The sentence about a value that is not what was expected. -/
def sentence (observed expected place : String) : String :=
  "Type '" ++ observed ++ "' is not assignable to " ++ expected ++
    (if place = "" then "" else " for " ++ place)

variable (observed expected place : String)

theorem message_of_nil :
    message ⟨observed, expected, place, []⟩ = sentence observed expected place := by
  rw [message]
  exact String.append_empty

/-- The messages about the nearest variant follow the sentence. -/
theorem message_of_closest {closest : List (Mismatch String)} (h : closest ≠ []) :
    message ⟨observed, expected, place, closest⟩ = sentence observed expected place ++
      (" (closest variant: " ++ "; ".intercalate (closest.map message) ++ ")") := by
  have hclosest : closest.isEmpty = false := List.isEmpty_eq_false_iff.2 h
  rw [message, hclosest, messages_eq]
  rfl

end Mismatch

namespace Shape

/-- The messages about a value, which may be absent. -/
def messages (shape : Shape) (value : Option Json) (place : String) : List String :=
  (shape.check Place.extend value place).map Mismatch.message

theorem messages_some (shape : Shape) (value : Json) (place : String) :
    shape.messages (some value) place = shape.validate value place :=
  rfl

/-! ### What is expected of a union -/

def literal? : Shape → Option Literal
  | literal expected => some expected
  | _ => none

/-- The literals among the variants, in their order. -/
def namedLiterals (variants : List Shape) : String :=
  "one of " ++ " | ".intercalate ((variants.filterMap literal?).map Literal.text)

/-- All variants, in their order. -/
def shownVariants (variants : List Shape) : String :=
  "union v.union(" ++ ", ".intercalate (variants.map brief) ++ ")"

theorem namedLiterals_eq (variants : List Shape) :
    "one of " ++ " | ".intercalate (variants.filterMap literalText?) = namedLiterals variants := by
  have htext : literalText? = fun variant => variant.literal?.map Literal.text := by
    funext variant
    cases variant <;> rfl
  rw [namedLiterals, List.map_filterMap, htext]

theorem filterMap_literalText?_eq_nil_iff {variants : List Shape} :
    variants.filterMap literalText? = [] ↔ ∀ expected, literal expected ∉ variants := by
  rw [List.filterMap_eq_nil_iff]
  constructor
  · intro h expected hmem
    exact Option.some_ne_none _ (h _ hmem)
  · intro h variant hvariant
    cases variant with
    | literal expected => exact absurd hvariant (h expected)
    | _ => rfl

theorem shownVariants_eq (variants : List Shape) :
    "union " ++ (union variants).brief = shownVariants variants := by
  have hbrief : (union variants).brief =
      "v.union(" ++ ", ".intercalate (variants.map brief) ++ ")" := by
    rw [brief, briefAll_eq]
    rfl
  rw [hbrief, ← String.append_assoc, ← String.append_assoc]
  rfl

/-! ### The message of a union -/

/-- **What a failed union says**: the mismatch of a value that no variant accepts, and its
message. -/
inductive ExplainsUnion (variants : List Shape) (value : Option Json) (place : String) :
    Mismatch String → String → Prop
  /-- If there are literals, all of them are named. -/
  | named {expected : Literal} (hliteral : literal expected ∈ variants) :
      ExplainsUnion variants value place
        ⟨describe value, namedLiterals variants, place, []⟩
        (Mismatch.sentence (describe value) (namedLiterals variants) place)
  /-- Otherwise the variants are shown.  That is all if none is a container of the value's type. -/
  | shown (hliterals : ∀ expected, literal expected ∉ variants)
      (hcontainers : ∀ given ∈ value, ∀ variant ∈ variants, ¬ variant.SharesContainer given) :
      ExplainsUnion variants value place
        ⟨typeName value, shownVariants variants, place, []⟩
        (Mismatch.sentence (typeName value) (shownVariants variants) place)
  /-- If one is, the messages about the value as the nearest variant follow. -/
  | closest (hliterals : ∀ expected, literal expected ∉ variants) {given : Json}
      (hvalue : value = some given) {variant : Shape}
      (hclosest : IsClosest variants given place variant)
      (hrefused : variant.validate given place ≠ []) :
      ExplainsUnion variants value place
        ⟨typeName value, shownVariants variants, place,
          variant.check Place.extend (some given) place⟩
        (Mismatch.sentence (typeName value) (shownVariants variants) place ++
          (" (closest variant: " ++ "; ".intercalate (variant.validate given place) ++ ")"))

theorem explainsUnion_unionMismatch {variants : List Shape} {value : Option Json}
    (h : ∀ variant ∈ variants, variant.accepts value = false) (place : String) :
    let mismatch := unionMismatch (checkEach Place.extend variants value place) value place
    ExplainsUnion variants value place mismatch mismatch.message := by
  intro mismatch
  by_cases hliterals : variants.filterMap literalText? = []
  · have hnone := filterMap_literalText?_eq_nil_iff.1 hliterals
    have hmismatch : mismatch = ⟨typeName value, shownVariants variants, place,
        nearestMismatches Place.extend variants value place⟩ := by
      rw [← shownVariants_eq]
      exact (unionMismatch_checkEach _ _ _ _).trans (if_pos (List.isEmpty_iff.2 hliterals))
    rw [hmismatch]
    rcases nearestMismatches_closest variants value place with
      ⟨hcontainers, hnearest⟩ | ⟨given, variant, rfl, hclosest, hnearest⟩
    · rw [hnearest, Mismatch.message_of_nil]
      exact .shown hnone hcontainers
    · have hrefused : variant.check Place.extend (some given) place ≠ [] := by
        rw [ne_eq, check_eq_nil_iff, ← accepts_iff, h variant (List.mem_filter.1 hclosest.mem).1]
        exact Bool.false_ne_true
      rw [hnearest, Mismatch.message_of_closest _ _ _ hrefused]
      exact .closest hnone rfl hclosest (mt List.map_eq_nil_iff.1 hrefused)
  · have hmismatch : mismatch = ⟨describe value, namedLiterals variants, place, []⟩ := by
      rw [← namedLiterals_eq]
      exact (unionMismatch_checkEach _ _ _ _).trans (if_neg (mt List.isEmpty_iff.1 hliterals))
    obtain ⟨expected, hliteral⟩ : ∃ expected, literal expected ∈ variants := by
      by_contra hnone
      refine hliterals (filterMap_literalText?_eq_nil_iff.2 ?_)
      exact fun expected hmem => hnone ⟨expected, hmem⟩
    rw [hmismatch, Mismatch.message_of_nil]
    exact .named hliteral

/-- Where no literals are named, something is shown of a nearest variant exactly if some variant is
a container of the type of the value. -/
theorem ExplainsUnion.closest_ne_nil_iff {variants : List Shape} {value : Option Json}
    {place message : String} {mismatch : Mismatch String}
    (h : ExplainsUnion variants value place mismatch message)
    (hliterals : ∀ expected, literal expected ∉ variants) :
    mismatch.closest ≠ [] ↔
      ∃ given ∈ value, ∃ variant ∈ variants, variant.SharesContainer given := by
  cases h with
  | named hliteral => exact absurd hliteral (hliterals _)
  | shown _ hcontainers =>
    refine iff_of_false (not_not.2 rfl) ?_
    rintro ⟨given, hgiven, variant, hvariant, hshares⟩
    exact hcontainers given hgiven variant hvariant hshares
  | closest _ hvalue hclosest hrefused =>
    obtain ⟨hvariant, hshares⟩ := List.mem_filter.1 hclosest.mem
    refine iff_of_true ?_ ⟨_, hvalue, _, hvariant, of_decide_eq_true hshares⟩
    exact mt List.map_eq_nil_iff.2 hrefused

/-- **A failed union gives one message that explains it.**  A present or absent value is accepted by
some variant, and there is nothing to report, or by none, and there is one message: it names all
literals among the variants, or else shows the variants, with what is wrong with the value as the
variant that comes nearest, if there is any container of its type. -/
theorem messages_union_cases (variants : List Shape) (value : Option Json) (place : String) :
    (∃ variant ∈ variants, variant.accepts value = true) ∧
        (union variants).check Place.extend value place = [] ∧
        (union variants).messages value place = [] ∨
      (∀ variant ∈ variants, variant.accepts value = false) ∧
        ∃ mismatch message, (union variants).check Place.extend value place = [mismatch] ∧
          mismatch.message = message ∧ (union variants).messages value place = [message] ∧
          ExplainsUnion variants value place mismatch message ∧
          ((∀ expected, literal expected ∉ variants) → (mismatch.closest ≠ [] ↔
            ∃ given ∈ value, ∃ variant ∈ variants, variant.SharesContainer given)) := by
  rw [messages, check_union]
  cases hany : variants.any fun variant => variant.accepts value with
  | true => exact Or.inl ⟨List.any_eq_true.1 hany, rfl, rfl⟩
  | false =>
    have hnone : ∀ variant ∈ variants, variant.accepts value = false := by
      intro variant hvariant
      exact Bool.eq_false_iff.2 (List.any_eq_false.1 hany variant hvariant)
    have hexplains := explainsUnion_unionMismatch hnone place
    exact Or.inr ⟨hnone, _, _, rfl, rfl, rfl, hexplains, hexplains.closest_ne_nil_iff⟩

/-- The variants of an event: a click, an event of kind `a` or `b`, and a view. -/
def eventVariants : List Shape :=
  [object [⟨"kind", false, literal (.string "click")⟩, ⟨"x", false, float64⟩],
    object [⟨"kind", false, union [literal (.string "a"), literal (.string "b")]⟩],
    object [⟨"kind", false, literal (.string "view")⟩]]

/-- An event of another kind. -/
def otherEvent : Json := .object [("kind", .string "c")]

/-- The event comes nearer to the second variant than to the first, and the third comes too late. -/
theorem messages_union_cases_otherEvent :
    ∃ mismatch message, (union eventVariants).validate otherEvent "event" = [message] ∧
      ExplainsUnion eventVariants (some otherEvent) "event" mismatch message ∧
      message = "Type 'object' is not assignable to union v.union(v.object(\x7b...\x7d), " ++
        "v.object(\x7b...\x7d), v.object(\x7b...\x7d)) for event (closest variant: " ++
        "Type '\"c\"' is not assignable to one of \"a\" | \"b\" for event.kind)" := by
  rcases messages_union_cases eventVariants (some otherEvent) "event" with
    ⟨⟨variant, hvariant, haccepts⟩, -⟩ | ⟨-, mismatch, message, -, -, hmessages, hexplains, -⟩
  · have hrefused : ∀ variant ∈ eventVariants, variant.accepts (some otherEvent) = false := by
      decide +kernel
    rw [hrefused variant hvariant] at haccepts
    cases haccepts
  · rw [messages_some] at hmessages
    refine ⟨mismatch, message, hmessages, hexplains, ?_⟩
    refine List.singleton_inj.1 (hmessages.symm.trans ?_)
    decide +kernel

end Shape

end DocShape
