import DocShape.Description.Loading

/-!
# Loading step by step

Loading one node takes off its markers, reads what the node under them describes,
and loads the parts.  This file says what each of these steps gives, so that proofs
about descriptions need not open the loader.

* `Layer.ofJson_of_typeTag`, `Layer.ofJson_of_wrapped`: what a node is around the
  description it holds.
* `Omittable.load_of_core`: **a node without markers is loaded as its form**.
* `Omittable.load_of_wrapper`: a wrapper adds its flag to what it holds.
* `Noted.traverse_map_eq_pure`: what gives no notice for any element gives none at all.
-/

namespace DocShape

/-! ### Results without notices -/

namespace Noted

variable {α β γ : Type}

theorem ext {x y : Noted α} (hvalue : x.value = y.value) (hnotices : x.notices = y.notices) :
    x = y := by
  cases x
  cases y
  cases hvalue
  cases hnotices
  rfl

theorem map_pure (f : α → β) (a : α) : f <$> (pure a : Noted α) = pure (f a) := rfl

theorem pure_bind (a : α) (f : α → Noted β) : (pure a : Noted α) >>= f = f a := rfl

theorem map_map (f : α → β) (g : β → γ) (x : Noted α) : g <$> f <$> x = (g ∘ f) <$> x := by
  refine ext ?_ ?_
  · rw [value_map, value_map, value_map, Function.comp_apply]
  · rw [notices_map, notices_map, notices_map]

theorem traverse_map_eq_pure {f : β → Noted γ} {k : α → β} {g : α → γ} {xs : List α}
    (h : ∀ x ∈ xs, f (k x) = pure (g x)) : traverse f (xs.map k) = pure (xs.map g) := by
  refine ext ?_ ?_
  · rw [value_traverse, value_pure, List.map_map]
    refine List.map_congr_left ?_
    intro x hx
    rw [Function.comp_apply, h x hx, value_pure]
  · rw [notices_traverse, notices_pure, List.flatMap_map, List.flatMap_eq_nil_iff]
    intro x hx
    rw [h x hx, notices_pure]

end Noted

/-! ### Markers -/

namespace Layer

theorem ofJson_of_typeTag {members : Members} {tag : String} (htag : typeTag? members = some tag)
    (h : lowerTag tag ≠ "optional") : ofJson (.object members) = core := by
  simp only [ofJson, Json.members?, htag, if_neg h]

theorem ofJson_of_wrapped {members : Members} {inner : Json} (htag : typeTag? members = none)
    (hinner : firstGiven? members ["fieldType", "shape"] = some inner) :
    ofJson (.object members) = wrapper inner := by
  simp only [ofJson, Json.members?, htag, hinner]

end Layer

namespace Peeled

theorem ofJson_of_core {node : Json} (h : Layer.ofJson node = .core) (room : Nat) :
    ofJson (room + 1) node = ⟨isFlaggedOptional node, .ok node⟩ := by
  rw [ofJson, h]

theorem ofJson_of_wrapper {node inner : Json} (h : Layer.ofJson node = .wrapper inner)
    (room : Nat) :
    ofJson (room + 1) node =
      ⟨isFlaggedOptional node || (ofJson room inner).optional, (ofJson room inner).core⟩ := by
  rw [ofJson, h]

end Peeled

/-! ### Nodes -/

theorem Form.ofJson_of_typeTag {members : Members} {tag : String}
    (htag : typeTag? members = some tag) :
    Form.ofJson (.object members) = Form.ofTag (lowerTag tag) members := by
  show (part (typeTag? members) .noTypeTag >>= fun tag => ofTag (lowerTag tag) members) = _
  rw [htag]
  rfl

namespace Omittable

variable {settings : Settings}

/-- **A node without markers is loaded as its form.** -/
theorem load_of_core {node : Json} {form : Form} (hcore : Layer.ofJson node = .core)
    (hform : Form.ofJson node = .ok form) (room : Nat) (place : String) :
    load settings (room + 1) place node =
      (⟨·, isFlaggedOptional node⟩) <$> form.load (load settings room) place := by
  rw [load, Peeled.ofJson_of_core hcore]
  simp only [Except.bind, hform]

/-- A wrapper around a node without markers adds its flag to what the node gives. -/
theorem load_of_wrapper {entry node : Json} (hentry : Layer.ofJson entry = .wrapper node)
    (hcore : Layer.ofJson node = .core) (hmarkers : 1 ≤ settings.maxOptionalDepth) (room : Nat)
    (place : String) :
    load settings (room + 1) place entry =
      (fun found => ⟨found.shape, isFlaggedOptional entry || found.optional⟩) <$>
        load settings (room + 1) place node := by
  obtain ⟨depth, hdepth⟩ := Nat.exists_eq_add_of_le' hmarkers
  rw [load, load, hdepth, Peeled.ofJson_of_wrapper hentry, Peeled.ofJson_of_core hcore,
    Peeled.ofJson_of_core hcore, Noted.map_map]
  rfl

theorem required_pure (place : String) (shape : Shape) :
    required place (pure ⟨shape, false⟩) = pure shape := rfl

end Omittable

end DocShape
