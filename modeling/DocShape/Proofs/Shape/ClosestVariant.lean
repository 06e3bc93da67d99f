import DocShape.Proofs.Shape.Acceptance

/-!
# The variant that comes nearest

A value that no variant of a union accepts gets one mismatch.  If there are no
literals among the variants, it shows what is wrong with an array or an object as the
variant that comes nearest: of the variants that are such containers, the first of
those with the fewest mismatches.

* `FirstLeast`: the first of the least elements of a list.
* `Shape.firstLeast_of_shortest?`: the shortest list comes before all that are as short.
* `Shape.IsClosest`: **the variant that comes nearest** to a value.
* `Shape.check_union`: a union accepts a value or gives one mismatch.
* `Shape.nearestMismatches_closest`: **what is shown are the mismatches with the variant that
  comes nearest**.
-/

namespace DocShape

/-! ### First of the least -/

/-- The first of the elements with the least size: all before it are larger, and none after it is
smaller. -/
def FirstLeast {γ : Type} (size : γ → Nat) (xs : List γ) (least : γ) : Prop :=
  ∃ before after, xs = before ++ least :: after ∧
    (∀ x ∈ before, size least < size x) ∧ ∀ x ∈ after, size least ≤ size x

namespace FirstLeast

variable {γ δ : Type} {size : γ → Nat} {xs : List γ} {least x : γ}

theorem mem (h : FirstLeast size xs least) : least ∈ xs := by
  obtain ⟨before, after, rfl, -, -⟩ := h
  exact List.mem_append_right _ List.mem_cons_self

theorem size_le (h : FirstLeast size xs least) (hx : x ∈ xs) : size least ≤ size x := by
  obtain ⟨before, after, rfl, hbefore, hafter⟩ := h
  rcases List.mem_append.1 hx with hx | hx
  · exact Nat.le_of_lt (hbefore x hx)
  · rcases List.mem_cons.1 hx with rfl | hx
    · exact Nat.le_refl _
    · exact hafter x hx

/-- A larger element before all others changes nothing. -/
theorem cons_of_lt (h : FirstLeast size xs least) (hx : size least < size x) :
    FirstLeast size (x :: xs) least := by
  obtain ⟨before, after, rfl, hbefore, hafter⟩ := h
  exact ⟨x :: before, after, rfl, List.forall_mem_cons.2 ⟨hx, hbefore⟩, hafter⟩

theorem head (h : ∀ y ∈ xs, size x ≤ size y) : FirstLeast size (x :: xs) x :=
  ⟨[], xs, rfl, fun _ hy => absurd hy List.not_mem_nil, h⟩

/-- The first of the least images belongs to the first of the elements with the least image. -/
theorem exists_of_map {f : δ → γ} {ys : List δ} (h : FirstLeast size (ys.map f) least) :
    ∃ y, FirstLeast (fun y => size (f y)) ys y ∧ f y = least := by
  obtain ⟨before, after, hsplit, hbefore, hafter⟩ := h
  obtain ⟨first, last, rfl, rfl, hlast⟩ := List.map_eq_append_iff.1 hsplit
  obtain ⟨y, rest, rfl, rfl, rfl⟩ := List.map_eq_cons_iff.1 hlast
  refine ⟨y, ⟨first, rest, rfl, ?_, ?_⟩, rfl⟩
  · exact fun z hz => hbefore (f z) (List.mem_map_of_mem hz)
  · exact fun z hz => hafter (f z) (List.mem_map_of_mem hz)

end FirstLeast

namespace Shape

section

variable {β : Type} {lists : List (List β)} {best : List β}

theorem shortest?_eq_none_iff : shortest? lists = none ↔ lists = [] := by
  cases lists with
  | nil => exact iff_of_true rfl rfl
  | cons list rest =>
    refine iff_of_false ?_ (List.cons_ne_nil _ _)
    rw [shortest?]
    split
    · split <;> exact Option.some_ne_none _
    · exact Option.some_ne_none _

/-- **The shortest list comes before all that are as short.** -/
theorem firstLeast_of_shortest? (h : shortest? lists = some best) :
    FirstLeast List.length lists best := by
  induction lists generalizing best with
  | nil => cases h
  | cons list rest ih =>
    rw [shortest?] at h
    cases hrest : shortest? rest with
    | none =>
      rw [hrest] at h
      cases h
      obtain rfl := shortest?_eq_none_iff.1 hrest
      exact .head fun _ hmem => absurd hmem List.not_mem_nil
    | some other =>
      have hother := ih hrest
      simp only [hrest] at h
      split at h
      · next hless =>
        cases h
        exact hother.cons_of_lt hless
      · next hnotLess =>
        cases h
        refine .head fun found hfound => ?_
        have hle := hother.size_le hfound
        omega

end

/-! ### Containers among the variants -/

/-- A variant and a value that are containers of the same type. -/
inductive SharesContainer : Shape → Json → Prop
  | object (fields : List (Field Shape)) (members : Members) :
      SharesContainer (object fields) (.object members)
  | record (keys values : Shape) (optional : Bool) (members : Members) :
      SharesContainer (record keys values optional) (.object members)
  | array (element : Shape) (items : List Json) : SharesContainer (array element) (.array items)

theorem sharesContainer_none (variant : Shape) : variant.sharesContainer none = false := by
  cases variant <;> rfl

theorem sharesContainer_iff {variant : Shape} {value : Json} :
    variant.sharesContainer (some value) = true ↔ variant.SharesContainer value := by
  constructor
  · intro h
    cases variant with
    | object fields =>
      cases value with
      | object members => exact .object fields members
      | _ => cases h
    | record keys values optional =>
      cases value with
      | object members => exact .record keys values optional members
      | _ => cases h
    | array element =>
      cases value with
      | array items => exact .array element items
      | _ => cases h
    | _ => cases h
  · rintro (_ | _ | _) <;> rfl

instance (variant : Shape) (value : Json) : Decidable (variant.SharesContainer value) :=
  decidable_of_iff _ sharesContainer_iff

theorem sharesContainer_some (variant : Shape) (value : Json) :
    variant.sharesContainer (some value) = decide (variant.SharesContainer value) := by
  rw [Bool.eq_iff_iff, sharesContainer_iff, decide_eq_true_iff]

/-- **The variant that comes nearest to a value**: of the variants that are containers of its type,
the first of those with the fewest messages. -/
def IsClosest (variants : List Shape) (value : Json) (place : String) (variant : Shape) : Prop :=
  FirstLeast (fun variant => (variant.validate value place).length)
    (variants.filter fun variant => variant.SharesContainer value) variant

/-! ### The mismatch of a union -/

section

variable {α : Type} (extend : α → Step → α)

/-- The mismatches with the nearest of the variants that are containers. -/
def nearestMismatches (variants : List Shape) (value : Option Json) (place : α) :
    List (Mismatch α) :=
  let containers := variants.filter fun variant => variant.sharesContainer value
  (shortest? (containers.map fun variant => variant.check extend value place)).getD []

theorem unionMismatch_checkEach (variants : List Shape) (value : Option Json) (place : α) :
    unionMismatch (checkEach extend variants value place) value place =
      if (variants.filterMap literalText?).isEmpty then
        ⟨typeName value, "union " ++ (union variants).brief, place,
          nearestMismatches extend variants value place⟩
      else
        valueMismatch ("one of " ++ " | ".intercalate (variants.filterMap literalText?)) value
          place := by
  have hvariants : (checkEach extend variants value place).map (·.1) = variants := by
    rw [checkEach_eq, List.map_map]
    exact List.map_id variants
  have hcontainers : ((checkEach extend variants value place).filter fun attempt =>
      attempt.1.sharesContainer value).map (·.2) =
        (variants.filter fun variant => variant.sharesContainer value).map fun variant =>
          variant.check extend value place := by
    rw [checkEach_eq, List.filter_map, List.map_map]
    rfl
  simp only [unionMismatch, hvariants, hcontainers, nearestMismatches]

/-- **A union is accepted, or it gives one mismatch.** -/
theorem check_union (variants : List Shape) (value : Option Json) (place : α) :
    (union variants).check extend value place =
      if variants.any fun variant => variant.accepts value then []
      else [unionMismatch (checkEach extend variants value place) value place] := by
  have hany : ((checkEach extend variants value place).any fun attempt => attempt.2.isEmpty) =
      variants.any fun variant => variant.accepts value := by
    rw [checkEach_eq, List.any_map]
    refine congrArg variants.any (funext fun variant => ?_)
    rw [Function.comp_apply, Bool.eq_iff_iff, List.isEmpty_iff, check_eq_nil_iff, accepts_iff]
  rw [check, hany]

/-- No variant comes near to a value if none is a container of its type. -/
theorem nearestMismatches_eq_nil {variants : List Shape} {value : Option Json}
    (h : ∀ variant ∈ variants, variant.sharesContainer value = false) (place : α) :
    nearestMismatches extend variants value place = [] := by
  have hnone : (variants.filter fun variant => variant.sharesContainer value) = [] :=
    List.filter_eq_nil_iff.2 fun variant hvariant => Bool.eq_false_iff.1 (h variant hvariant)
  rw [nearestMismatches, hnone]
  rfl

/-- What is shown of the nearest variant is what is wrong with the value as that variant. -/
theorem nearestMismatches_cases (variants : List Shape) (value : Option Json) (place : α) :
    (variants.filter fun variant => variant.sharesContainer value) = [] ∧
        nearestMismatches extend variants value place = [] ∨
      ∃ variant, FirstLeast (fun variant => (variant.check extend value place).length)
          (variants.filter fun variant => variant.sharesContainer value) variant ∧
        nearestMismatches extend variants value place = variant.check extend value place := by
  rw [nearestMismatches]
  cases hshortest : shortest? ((variants.filter fun variant =>
      variant.sharesContainer value).map fun variant => variant.check extend value place) with
  | none => exact Or.inl ⟨List.map_eq_nil_iff.1 (shortest?_eq_none_iff.1 hshortest), rfl⟩
  | some best =>
    obtain ⟨variant, hleast, hbest⟩ := (firstLeast_of_shortest? hshortest).exists_of_map
    exact Or.inr ⟨variant, hleast, hbest.symm⟩

end

/-- **What is shown are the mismatches of the value with the variant that comes nearest**, if there
is any container of its type. -/
theorem nearestMismatches_closest (variants : List Shape) (value : Option Json) (place : String) :
    (∀ given ∈ value, ∀ variant ∈ variants, ¬ variant.SharesContainer given) ∧
        nearestMismatches Place.extend variants value place = [] ∨
      ∃ given variant, value = some given ∧ IsClosest variants given place variant ∧
        nearestMismatches Place.extend variants value place =
          variant.check Place.extend (some given) place := by
  cases value with
  | none =>
    refine Or.inl ⟨?_, nearestMismatches_eq_nil _ (fun variant _ => variant.sharesContainer_none) _⟩
    rintro _ ⟨⟩
  | some given =>
    rcases nearestMismatches_cases Place.extend variants (some given) place with
      ⟨hnone, hnearest⟩ | ⟨variant, hleast, hnearest⟩
    · refine Or.inl ⟨?_, hnearest⟩
      rintro _ ⟨⟩ variant hvariant hshares
      exact List.filter_eq_nil_iff.1 hnone variant hvariant (sharesContainer_iff.2 hshares)
    · refine Or.inr ⟨given, variant, rfl, ?_, hnearest⟩
      simpa only [IsClosest, validate, List.length_map, sharesContainer_some] using hleast

end Shape

end DocShape
