import DocShape.Proofs.Description.Slots

/-!
# The nesting limit

Each part of a node is loaded with one level less than the node, whatever kind of part it
is, and markers take no level.  So the levels that are left at a node and the steps that
lead to it always add up to the same number: nothing stands deeper than one level below
the limit, and what stands there was loaded with no level left, as `any`.

Where every node that loading comes to has a level left, nothing is cut off.  Then a larger
limit leaves more levels at each node, and changes nothing.

* `Shape.Site.depth`: how deep a part of a shape stands.
* `Slot.room_add_length_of_at?`: **the levels left and the steps taken** are the levels of
  the root.
* `Slot.load_eq_of_room_le`: with more levels, a node of which nothing is cut off is loaded
  the same.
* `Shape.nesting_ofJson`: **loaded shapes end at the limit**, and a limit that is not
  reached does not matter.
-/

namespace DocShape

open Shape (Part Inside Site)

/-- How deep a part of a shape stands: the shape itself at `0`, and whatever stands directly inside
a part one deeper than it. -/
def Shape.Site.depth (site : Site) : Nat := site.parts.length

theorem Noted.traverse_congr {α β : Type} {f g : α → Noted β} {xs : List α}
    (h : ∀ x ∈ xs, f x = g x) : traverse f xs = traverse g xs := by
  rw [traverse, traverse, List.map_congr_left h]

/-- What is loaded of a form depends on what is loaded of the nodes of its parts. -/
theorem Form.load_congr {child other : String → Json → Noted Omittable} (form : Form)
    (place : String) (h : ∀ node ∈ form.inside place,
      child node.place node.content = other node.place node.content) :
    form.load child place = form.load other place := by
  cases form with
  | leaf shape => rfl
  | array element =>
    have helement := h _ (List.mem_singleton_self _)
    simp only [load, helement]
  | object entries =>
    have hentries : ∀ entry ∈ entries, loadEntry child place entry = loadEntry other place entry := by
      rintro ⟨name?, node⟩ hentry
      cases name? with
      | none => rfl
      | some name =>
        have hnamed : (name, node) ∈ named entries :=
          List.mem_filterMap.2 ⟨(some name, node), hentry, rfl⟩
        obtain ⟨index, hindex⟩ := List.mem_iff_getElem?.1 hnamed
        have hnode := h _ (List.mem_map_of_mem (List.mk_mem_zipIdx_iff_getElem?.2 hindex))
        simp only [loadEntry, hnode]
    simp only [load, Noted.traverse_congr hentries]
  | record keys values =>
    have hkeys := h _ List.mem_cons_self
    have hvalues := h _ (List.mem_cons_of_mem _ (List.mem_singleton_self _))
    simp only [load, hkeys, hvalues]
  | union variants =>
    have hvariants : ∀ variant ∈ variants, Omittable.required place (child place variant) =
        Omittable.required place (other place variant) := by
      intro variant hvariant
      obtain ⟨index, hindex⟩ := List.mem_iff_getElem?.1 hvariant
      have hnode := h _ (List.mem_map_of_mem (List.mk_mem_zipIdx_iff_getElem?.2 hindex))
      rw [hnode]
    simp only [load, Noted.traverse_congr hvariants]

namespace Slot

variable {settings : Settings} {slot inner : Slot}

/-! ### Levels and steps -/

/-- A node with parts has a level left, and its parts have one less. -/
theorem room_child? {part : Part} (h : slot.child? settings part = some inner) :
    inner.room + 1 = slot.room := by
  obtain ⟨room, node⟩ := slot
  obtain ⟨child, hchild, rfl⟩ := Option.map_eq_some_iff.1 h
  cases room with
  | zero => cases hchild
  | succ room => rfl

/-- **The levels left and the steps taken** are the levels of the root. -/
theorem room_add_length_of_at? {parts : List Part} (h : slot.at? settings parts = some inner) :
    inner.room + parts.length = slot.room := by
  induction parts generalizing slot with
  | nil =>
    cases h
    rfl
  | cons part parts ih =>
    obtain ⟨next, hnext, hinner⟩ := Option.bind_eq_some_iff.1 h
    have hrest := ih hinner
    have hfirst := room_child? hnext
    rw [List.length_cons]
    omega

/-- Where no level is left, anything is read as `any`. -/
theorem shape_load_of_room_eq_zero (h : slot.room = 0) (place : String) :
    (slot.load settings place).value.shape = .any := by
  obtain ⟨room, node⟩ := slot
  cases h
  rfl

/-- The parts of a shape stand no deeper than there are levels, and where the last one is used up
they accept anything. -/
theorem depth_le_of_mem_sites {place : String} {site : Site}
    (h : site ∈ (slot.load settings place).value.shape.sites place) :
    site.depth ≤ slot.room ∧ (site.depth = slot.room → site.shape = .any) := by
  obtain ⟨inner, hinner, hshape⟩ := exists_of_mem_sites h
  have hroom := room_add_length_of_at? hinner
  have hdepth : site.depth = site.parts.length := rfl
  refine ⟨by omega, ?_⟩
  intro hlast
  have hzero : inner.room = 0 := by omega
  rw [hshape, shape_load_of_room_eq_zero hzero]

/-! ### More levels -/

/-- **With more levels, a node of which nothing is cut off is loaded the same.** -/
theorem load_eq_of_room_le {looser : Settings}
    (hmarkers : looser.maxOptionalDepth = settings.maxOptionalDepth)
    (h : ∀ parts inner, slot.at? settings parts = some inner → 0 < inner.room)
    {more : Nat} (hmore : slot.room ≤ more) (place : String) :
    Slot.load looser ⟨more, slot.node⟩ place = slot.load settings place := by
  obtain ⟨room, node⟩ := slot
  induction room generalizing more place node with
  | zero => exact absurd (h [] _ rfl) (Nat.lt_irrefl 0)
  | succ room ih =>
    obtain ⟨more, rfl⟩ := Nat.exists_eq_add_of_le' (Nat.le_trans (Nat.succ_pos room) hmore)
    rw [load, load, Omittable.load, Omittable.load, hmarkers]
    cases hform : (Peeled.ofJson (settings.maxOptionalDepth + 1) node).core.bind Form.ofJson with
    | error fault => rfl
    | ok form =>
      have hslot : Slot.form settings ⟨room + 1, node⟩ = .ok form := hform
      have hparts : form.load (Omittable.load looser more) place =
          form.load (Omittable.load settings room) place := by
        refine form.load_congr place ?_
        intro part hpart
        refine ih part.place part.content ?_ (Nat.le_of_succ_le_succ hmore)
        intro parts inner hinner
        exact h (part.part :: parts) inner ((at?_of_mem_inside hslot hpart parts).trans hinner)
      simp only [hparts]

end Slot

namespace Shape

/-- **Loaded shapes end at the limit.**  No part of a loaded shape stands deeper than one level below
the limit, each part that stands there accepts anything, and no union is empty.  If no node that
loading comes to stands below the limit, every larger limit gives the same shape with the same
notices. -/
theorem nesting_ofJson (settings : Settings) (node : Json) :
    (∀ site ∈ (ofJson settings node).value.sites "",
      site.depth ≤ settings.maxNestingDepth + 1 ∧
      (site.depth = settings.maxNestingDepth + 1 → site.shape = .any)) ∧
    (ofJson settings node).value.NoEmptyUnion ∧
    ((∀ parts slot, (Slot.root settings node).at? settings parts = some slot →
        parts.length ≤ settings.maxNestingDepth) →
      ∀ limit, settings.maxNestingDepth ≤ limit →
        ofJson { settings with maxNestingDepth := limit } node = ofJson settings node) := by
  refine ⟨?_, noEmptyUnion_ofJson settings node, ?_⟩
  · intro site hsite
    rw [ofJson, Omittable.value_required] at hsite
    have hload : site ∈ ((Slot.root settings node).load settings "").value.shape.sites "" := hsite
    exact Slot.depth_le_of_mem_sites hload
  · intro hreached limit hlimit
    have hlevels : ∀ parts slot, (Slot.root settings node).at? settings parts = some slot →
        0 < slot.room := by
      intro parts slot hslot
      have hroom : slot.room + parts.length = settings.maxNestingDepth + 1 :=
        Slot.room_add_length_of_at? hslot
      have hlength := hreached parts slot hslot
      omega
    have hmarkers : { settings with maxNestingDepth := limit }.maxOptionalDepth =
        settings.maxOptionalDepth := rfl
    have hload := Slot.load_eq_of_room_le hmarkers hlevels (Nat.succ_le_succ hlimit) ""
    exact congrArg (Omittable.required "") hload

/-- The description of a record of lists, which are wrapped and may be left out. -/
def recordOfLists : Json :=
  .object [("type", .string "record"), ("keys", .object [("type", .string "string")]),
    ("values", .object [("optional", .bool true), ("fieldType", .object
      [("type", .string "array"), ("value", .object [("type", .string "int64")])])])]

/-- A marker takes no level, so two levels below the root are enough. -/
theorem nesting_ofJson_recordOfLists :
    (∀ parts slot, (Slot.root { maxNestingDepth := 2 } recordOfLists).at? { maxNestingDepth := 2 }
        parts = some slot → parts.length ≤ 2) ∧
      ofJson { maxNestingDepth := 7 } recordOfLists =
        ofJson { maxNestingDepth := 2 } recordOfLists := by
  have hreached : ∀ parts slot, (Slot.root { maxNestingDepth := 2 } recordOfLists).at?
      { maxNestingDepth := 2 } parts = some slot → parts.length ≤ 2 := by
    intro parts slot hslot
    match parts with
    | [] => exact Nat.zero_le _
    | [_] => exact Nat.le_succ 1
    | [_, _] => exact Nat.le_refl 2
    | first :: second :: third :: rest =>
      -- Only two parts lead anywhere: the values of the record, and the elements of the list.
      cases first with
      | value => cases second <;> cases hslot
      | _ => cases hslot
  exact ⟨hreached, (nesting_ofJson { maxNestingDepth := 2 } recordOfLists).2.2 hreached 7
    (by decide)⟩

end Shape

end DocShape
