import DocShape.Proofs.Shape.Acceptance
import DocShape.Proofs.Shape.Context

/-!
# Wider shapes

A shape is within another one if the other accepts whatever it accepts, an absent
value included.  What is accepted grows with every part of a shape: it is enough to
look at the parts, one lemma for each kind of shape.

* `Shape.Within`: one shape is within another, **wider** one.
* `Omittable.Within`: the same for what stands in a position, whether or not its
  optional flag counts there.
* `Shape.array_within`, `object_within`, `record_within`, `union_within`: from the
  parts to the shape.
* `Shape.Context.fill_within`: **a wider shape in one position makes the whole shape
  wider**.
-/

namespace DocShape

/-- Whether all values that a shape accepts are accepted by another one; the value may be absent. -/
def Shape.Within (narrow wide : Shape) : Prop :=
  ∀ value : Option Json, narrow.accepts value = true → wide.accepts value = true

theorem Shape.within_iff {narrow wide : Shape} :
    narrow.Within wide ↔ ∀ value, narrow.Admits value → wide.Admits value := by
  simp only [Within, accepts_iff]

theorem Shape.Within.refl (shape : Shape) : shape.Within shape := fun _ h => h

/-- Nothing is wider than `any`. -/
theorem Shape.within_any (shape : Shape) : shape.Within any := by
  rw [within_iff]
  intro value _
  trivial

/-! ### What stands in a position -/

namespace Omittable

/-- The values of a position whose flag counts. -/
def Admits (inside : Omittable) (value : Option Json) : Prop :=
  Shape.LeftOut inside.optional value ∨ inside.shape.Admits value

/-- Whether what stands in a position is within something else, both where the flag counts and
where it does not. -/
structure Within (narrow wide : Omittable) : Prop where
  shape : narrow.shape.Within wide.shape
  admits : ∀ value, narrow.Admits value → wide.Admits value

theorem Within.refl (inside : Omittable) : inside.Within inside := ⟨.refl _, fun _ h => h⟩

/-- A wider shape and a flag that is set if it was set before. -/
theorem Within.of_shape {narrow wide : Omittable} (hshape : narrow.shape.Within wide.shape)
    (hoptional : narrow.optional = true → wide.optional = true) : narrow.Within wide := by
  refine ⟨hshape, ?_⟩
  intro value hvalue
  rcases hvalue with ⟨hnarrow, hmissing⟩ | hadmits
  · exact Or.inl ⟨hoptional hnarrow, hmissing⟩
  · exact Or.inr (Shape.within_iff.1 hshape value hadmits)

/-- Where `any` stands the flag makes no difference. -/
theorem within_any (inside : Omittable) (optional : Bool) : inside.Within ⟨.any, optional⟩ :=
  ⟨inside.shape.within_any, fun _ _ => Or.inr trivial⟩

end Omittable

/-! ### From the parts to the shape -/

namespace Shape

theorem array_within {narrow wide : Shape} (h : narrow.Within wide) :
    (array narrow).Within (array wide) := by
  rw [within_iff] at h ⊢
  rintro value ⟨items, rfl, hitems⟩
  refine ⟨items, rfl, ?_⟩
  intro item hitem
  exact h (some item) (hitems item hitem)

/-- An object grows if each field that is left in it is a field that was there, grown. -/
theorem object_within {narrow wide : List (Field Shape)}
    (h : ∀ field ∈ wide, ∃ old ∈ narrow, old.name = field.name ∧
      Omittable.Within ⟨old.shape, old.optional⟩ ⟨field.shape, field.optional⟩) :
    (object narrow).Within (object wide) := by
  rw [within_iff]
  rintro value ⟨members, rfl, hmembers⟩
  rw [admitsFields_iff] at hmembers
  rw [admits_object]
  intro field hfield
  obtain ⟨hmem, hsystem⟩ := mem_userFields.1 hfield
  obtain ⟨old, hold, hname, hwithin⟩ := h field hmem
  -- A system field is known by its name alone.
  have huser : old ∈ userFields narrow := by
    rw [mem_userFields, Field.isSystem, hname]
    exact ⟨hold, hsystem⟩
  have hadmits := hmembers old huser
  rw [hname] at hadmits
  exact hwithin.admits _ hadmits

theorem record_within {narrowKeys wideKeys : Shape} (hkeys : narrowKeys.Within wideKeys)
    {narrow wide : Omittable} (hvalues : narrow.Within wide) :
    (record narrowKeys narrow.shape narrow.optional).Within
      (record wideKeys wide.shape wide.optional) := by
  rw [within_iff] at hkeys ⊢
  rintro value ⟨members, rfl, hmembers⟩
  refine ⟨members, rfl, ?_⟩
  intro member hmember
  obtain ⟨hkey, hentry⟩ := hmembers member hmember
  exact ⟨hkeys _ hkey, hvalues.admits _ hentry⟩

theorem union_within {narrow wide : List Shape}
    (h : ∀ variant ∈ narrow, ∃ other ∈ wide, variant.Within other) :
    (union narrow).Within (union wide) := by
  rw [within_iff]
  intro value hvalue
  rw [admits_union] at hvalue ⊢
  obtain ⟨variant, hvariant, hadmits⟩ := hvalue
  obtain ⟨other, hother, hwithin⟩ := h variant hvariant
  exact ⟨other, hother, within_iff.1 hwithin value hadmits⟩

/-! ### Frames and contexts -/

/-- What a frame makes grows with what is put into it. -/
theorem Frame.fill_within_fill (frame : Frame) {narrow wide : Omittable}
    (h : narrow.Within wide) : (frame.fill narrow).Within (frame.fill wide) := by
  cases frame with
  | element => exact array_within h.shape
  | field before name after =>
    refine object_within ?_
    intro field hfield
    rw [List.mem_append, List.mem_cons] at hfield
    rcases hfield with hbefore | rfl | hafter
    · exact ⟨field, List.mem_append_left _ hbefore, rfl, .refl _⟩
    · exact ⟨⟨name, narrow.optional, narrow.shape⟩, by simp, rfl, h⟩
    · exact ⟨field, by simp [hafter], rfl, .refl _⟩
  | key values => exact record_within h.shape (.refl values)
  | value keys => exact record_within (.refl keys) h
  | variant before after =>
    refine union_within ?_
    intro variant hvariant
    rw [List.mem_append, List.mem_cons] at hvariant
    rcases hvariant with hbefore | rfl | hafter
    · exact ⟨variant, List.mem_append_left _ hbefore, .refl _⟩
    · exact ⟨wide.shape, by simp, h.shape⟩
    · exact ⟨variant, by simp [hafter], .refl _⟩

namespace Context

theorem fill_within_fill (context : Context) {narrow wide : Omittable} (h : narrow.Within wide) :
    (context.fill narrow).Within (context.fill wide) := by
  induction context with
  | nil => exact h
  | cons around rest ih =>
    obtain ⟨frame, optional⟩ := around
    exact .of_shape (frame.fill_within_fill ih) (fun h => h)

/-- **A wider shape in one position makes the whole shape wider**, and so does setting the optional
flag of the position, which counts where the position is a field or the values of a record. -/
theorem fill_within (context : Context) {narrow wide : Omittable}
    (hshape : narrow.shape.Within wide.shape)
    (hoptional : narrow.optional = true → wide.optional = true) :
    (context.fill narrow).shape.Within (context.fill wide).shape :=
  (context.fill_within_fill (.of_shape hshape hoptional)).shape

theorem fill_within_recordOfFloats : int64.Within float64 ∧
    (union [null, record string int64 false]).Within (union [null, record string float64 true]) := by
  have hint : int64.Within float64 := by
    rw [within_iff]
    rintro value ⟨n, rfl, -⟩
    exact ⟨_, rfl⟩
  refine ⟨hint, ?_⟩
  exact @fill_within [(.variant [null] [], false), (.value string, false)] ⟨int64, false⟩
    ⟨float64, true⟩ hint (by decide)

end Context

end Shape

end DocShape
