import DocShape.Proofs.Description.Inhabited
import DocShape.Proofs.Shape.Sites

/-!
# Nodes that are loaded

Loading goes down a description, and what it makes of each node stands somewhere in the
shape.  So the two can be gone down side by side: the parts of a shape lead to a site in
it, and the same parts lead to the node that was loaded there.

* `Form.inside`: the nodes of the parts of a form.
* `Slot`: a node to load; `Slot.form`: what it describes, or why it describes nothing.
* `Slot.at?`: **the node that is loaded as a part of the shape**.
* `Slot.sites_load`: the sites of a loaded node are its own and those of the nodes of its
  parts.
* `Slot.ind`: induction on a node to load.
* `Slot.exists_of_mem_sites`, `Slot.exists_site_of_at?`: **the sites of the shape are where
  nodes are loaded**.
-/

namespace DocShape

open Shape (Part Inside Site)

/-! ### The nodes of the parts of a form -/

namespace Form

/-- The entries that give fields. -/
def named (entries : List (Option String × Json)) : List (String × Json) :=
  entries.filterMap fun entry => entry.1.map fun name => (name, entry.2)

/-- The entries that give no field. -/
def unnamed : Form → List (Option String × Json)
  | object entries => entries.filter fun entry => entry.1.isNone
  | _ => []

/-- The nodes of the parts of a form at a place. -/
def inside (place : String) : Form → List (Inside Json)
  | leaf _ => []
  | array element => [⟨.element, Place.extend place .element, element⟩]
  | object entries => (named entries).zipIdx.map fun entry =>
      ⟨.field entry.2, Place.member place entry.1.1, entry.1.2⟩
  | record keys values =>
    [⟨.key, Place.extend place .key, keys⟩, ⟨.value, Place.extend place .value, values⟩]
  | union variants => variants.zipIdx.map fun variant => ⟨.variant variant.2, place, variant.1⟩

/-- The node of a part of a form. -/
def child? : Form → Part → Option Json
  | array element, .element => some element
  | object entries, .field index => (named entries)[index]?.map (·.2)
  | record keys _, .key => some keys
  | record _ values, .value => some values
  | union variants, .variant index => variants[index]?
  | _, _ => none

section

variable {form : Form} {place : String}

theorem child?_of_mem_inside {node : Inside Json} (h : node ∈ form.inside place) :
    form.child? node.part = some node.content := by
  cases form with
  | leaf shape => cases h
  | array element =>
    obtain rfl := List.mem_singleton.1 h
    rfl
  | object entries =>
    obtain ⟨entry, hentry, rfl⟩ := List.mem_map.1 h
    rw [child?, List.mem_zipIdx_iff_getElem?.1 hentry, Option.map_some]
  | record keys values =>
    rcases List.mem_cons.1 h with rfl | h
    · rfl
    · obtain rfl := List.mem_singleton.1 h
      rfl
  | union variants =>
    obtain ⟨variant, hvariant, rfl⟩ := List.mem_map.1 h
    exact List.mem_zipIdx_iff_getElem?.1 hvariant

theorem exists_mem_inside {part : Part} {child : Json} (h : form.child? part = some child)
    (place : String) : ∃ node ∈ form.inside place, node.part = part ∧ node.content = child := by
  cases form with
  | leaf shape => cases part <;> cases h
  | array element =>
    cases part <;> cases h
    exact ⟨_, List.mem_singleton_self _, rfl, rfl⟩
  | object entries =>
    cases part with
    | field index =>
      obtain ⟨entry, hentry, rfl⟩ := Option.map_eq_some_iff.1 h
      exact ⟨_, List.mem_map_of_mem (List.mk_mem_zipIdx_iff_getElem?.2 hentry), rfl, rfl⟩
    | _ => cases h
  | record keys values =>
    cases part <;> cases h
    · exact ⟨_, List.mem_cons_self, rfl, rfl⟩
    · exact ⟨_, List.mem_cons_of_mem _ (List.mem_singleton_self _), rfl, rfl⟩
  | union variants =>
    cases part with
    | variant index =>
      exact ⟨_, List.mem_map_of_mem (List.mk_mem_zipIdx_iff_getElem?.2 h), rfl, rfl⟩
    | _ => cases h

/-- What stands inside the shape of a form is what is loaded of the nodes of its parts. -/
theorem inside_load {child : String → Json → Noted Omittable} (h : form.Proper) (place : String) :
    (form.load child place).value.inside place = (form.inside place).map fun node =>
      ⟨node.part, node.place, (child node.place node.content).value.shape⟩ := by
  cases form with
  | leaf shape => exact Shape.inside_leaf h place
  | array element =>
    rw [value_load_array]
    rfl
  | object entries =>
    have hfields : (entries.filterMap fun entry => (loadEntry child place entry).value) =
        (named entries).map fun entry =>
          ⟨entry.1, (child (Place.member place entry.1) entry.2).value.optional,
            (child (Place.member place entry.1) entry.2).value.shape⟩ := by
      rw [named, List.map_filterMap]
      congr 1
      funext ⟨name?, node⟩
      cases name? <;> rfl
    rw [value_load_object, hfields, Shape.inside, inside, List.zipIdx_map, List.map_map,
      List.map_map]
    rfl
  | record keys values =>
    rw [value_load_record]
    rfl
  | union variants =>
    rw [value_load_union, Shape.inside, inside, List.zipIdx_map, List.map_map, List.map_map]
    rfl

end

end Form

/-! ### Nodes to load -/

/-- A node to load, and how many levels of nodes may be loaded, its own included. -/
structure Slot where
  room : Nat
  node : Json

namespace Slot

/-- The node that a description starts with. -/
def root (settings : Settings) (node : Json) : Slot := ⟨settings.maxNestingDepth + 1, node⟩

/-- The node of a part of a node. -/
def next (slot : Slot) (node : Json) : Slot := ⟨slot.room - 1, node⟩

section

variable (settings : Settings) (slot : Slot)

/-- The node without its markers, or why there is none. -/
def core : Except NodeFault Json :=
  if slot.room = 0 then .error .nestingTooDeep
  else (Peeled.ofJson (settings.maxOptionalDepth + 1) slot.node).core

/-- What the node describes, or why it describes nothing. -/
def form : Except NodeFault Form := (slot.core settings).bind Form.ofJson

def fault? : Option NodeFault :=
  match slot.form settings with
  | .ok _ => none
  | .error fault => some fault

def unnamed : List (Option String × Json) :=
  match slot.form settings with
  | .ok form => form.unnamed
  | .error _ => []

/-- The node that is loaded as a part of the shape. -/
def child? (part : Part) : Option Slot :=
  ((slot.form settings).toOption.bind fun form => form.child? part).map slot.next

/-- What the node is loaded as. -/
def load (place : String) : Noted Omittable := Omittable.load settings slot.room place slot.node

end

/-- The node that is loaded where the parts of the shape lead to. -/
def at? (settings : Settings) : List Part → Slot → Option Slot
  | [], slot => some slot
  | part :: parts, slot => (slot.child? settings part).bind (at? settings parts)

/-- Why the node that the parts lead to describes nothing. -/
def faultAt (settings : Settings) (slot : Slot) (parts : List Part) : Option NodeFault :=
  (slot.at? settings parts).bind fun inner => inner.fault? settings

/-- The entries without a name in the node that the parts lead to. -/
def unnamedAt (settings : Settings) (slot : Slot) (parts : List Part) :
    List (Option String × Json) :=
  ((slot.at? settings parts).map fun inner => inner.unnamed settings).getD []

section

variable {settings : Settings} {slot : Slot} {place : String}

/-- A node at fault is loaded as `any`, with a notice. -/
theorem load_of_error {fault : NodeFault} (h : slot.form settings = .error fault)
    (place : String) : slot.load settings place =
      ⟨⟨.any, (slot.load settings place).value.optional⟩, [.nodeDegraded place fault]⟩ := by
  obtain ⟨room, node⟩ := slot
  cases room with
  | zero =>
    cases h
    rfl
  | succ room =>
    have hform : (Peeled.ofJson (settings.maxOptionalDepth + 1) node).core.bind Form.ofJson =
        .error fault := h
    rw [load, Omittable.load, hform]
    rfl

/-- A node that describes something is loaded as its form. -/
theorem load_of_ok {form : Form} (h : slot.form settings = .ok form) (place : String) :
    slot.load settings place = (⟨·, (slot.load settings place).value.optional⟩) <$>
      form.load (fun place node => (slot.next node).load settings place) place := by
  obtain ⟨room, node⟩ := slot
  cases room with
  | zero => cases h
  | succ room =>
    have hform : (Peeled.ofJson (settings.maxOptionalDepth + 1) node).core.bind Form.ofJson =
        .ok form := h
    rw [load, Omittable.load, hform]
    rfl

theorem shape_load_of_ok {form : Form} (h : slot.form settings = .ok form) (place : String) :
    (slot.load settings place).value.shape =
      (form.load (fun place node => (slot.next node).load settings place) place).value := by
  rw [load_of_ok h, Noted.value_map]

theorem notices_load_of_ok {form : Form} (h : slot.form settings = .ok form) (place : String) :
    (slot.load settings place).notices =
      (form.load (fun place node => (slot.next node).load settings place) place).notices := by
  rw [load_of_ok h, Noted.notices_map]

theorem proper_form {form : Form} (h : slot.form settings = .ok form) : form.Proper := by
  rw [Slot.form] at h
  cases hcore : slot.core settings with
  | error fault =>
    rw [hcore] at h
    cases h
  | ok node =>
    rw [hcore] at h
    exact Form.proper_of_ofJson h

theorem sites_load_of_error {fault : NodeFault} (h : slot.form settings = .error fault)
    (place : String) :
    (slot.load settings place).value.shape.sites place = [⟨[], place, .any⟩] := by
  rw [load_of_error h]
  rfl

/-- **The sites of a loaded node** are its own and those of the nodes of its parts. -/
theorem sites_load {form : Form} (h : slot.form settings = .ok form) (place : String) :
    (slot.load settings place).value.shape.sites place =
      ⟨[], place, (slot.load settings place).value.shape⟩ ::
        (form.inside place).flatMap fun node =>
          (((slot.next node.content).load settings node.place).value.shape.sites
            node.place).map (Site.under node.part) := by
  rw [Shape.sites_eq]
  congr 1
  rw [shape_load_of_ok h, Form.inside_load (proper_form h), List.flatMap_map]

theorem child?_of_mem_inside {form : Form} (h : slot.form settings = .ok form)
    {node : Inside Json} (hnode : node ∈ form.inside place) :
    slot.child? settings node.part = some (slot.next node.content) := by
  rw [child?, h]
  show (form.child? node.part).map slot.next = _
  rw [Form.child?_of_mem_inside hnode, Option.map_some]

theorem at?_of_mem_inside {form : Form} (h : slot.form settings = .ok form)
    {node : Inside Json} (hnode : node ∈ form.inside place) (parts : List Part) :
    slot.at? settings (node.part :: parts) = (slot.next node.content).at? settings parts := by
  rw [at?, child?_of_mem_inside h hnode, Option.bind_some]

/-- Induction on a node to load: a property holds of nodes at fault, and passes from the nodes of
the parts to the node. -/
theorem ind (settings : Settings) {P : Slot → Prop}
    (fault : ∀ slot fault, slot.form settings = .error fault → P slot)
    (form : ∀ slot form, slot.form settings = .ok form → (∀ node, P (slot.next node)) → P slot)
    (slot : Slot) : P slot := by
  obtain ⟨room, node⟩ := slot
  induction room generalizing node with
  | zero => exact fault _ .nestingTooDeep rfl
  | succ room ih =>
    cases hform : Slot.form settings ⟨room + 1, node⟩ with
    | error found => exact fault _ found hform
    | ok found => exact form _ found hform ih

/-! ### Sites and nodes -/

/-- **At each site stands what the node there is loaded as.** -/
theorem exists_of_mem_sites {place : String} {site : Site}
    (h : site ∈ (slot.load settings place).value.shape.sites place) :
    ∃ inner, slot.at? settings site.parts = some inner ∧
      site.shape = (inner.load settings site.place).value.shape := by
  induction slot using Slot.ind settings generalizing place site with
  | fault slot fault hform =>
    rw [sites_load_of_error hform] at h
    obtain rfl := List.mem_singleton.1 h
    exact ⟨slot, rfl, by rw [load_of_error hform]⟩
  | form slot form hform ih =>
    rw [sites_load hform] at h
    rcases List.mem_cons.1 h with rfl | h
    · exact ⟨slot, rfl, rfl⟩
    · obtain ⟨node, hnode, h⟩ := List.mem_flatMap.1 h
      obtain ⟨site, hsite, rfl⟩ := List.mem_map.1 h
      obtain ⟨inner, hinner, hshape⟩ := ih node.content hsite
      exact ⟨inner, (at?_of_mem_inside hform hnode site.parts).trans hinner, hshape⟩

/-- **Every node that is loaded stands at a site.** -/
theorem exists_site_of_at? {parts : List Part} {inner : Slot}
    (h : slot.at? settings parts = some inner) (place : String) :
    ∃ site ∈ (slot.load settings place).value.shape.sites place, site.parts = parts := by
  induction parts generalizing slot place with
  | nil =>
    rw [Shape.sites_eq]
    exact ⟨_, List.mem_cons_self, rfl⟩
  | cons part parts ih =>
    obtain ⟨next, hnext, hinner⟩ := Option.bind_eq_some_iff.1 h
    obtain ⟨child, hchild, rfl⟩ := Option.map_eq_some_iff.1 hnext
    cases hform : slot.form settings with
    | error fault =>
      rw [hform] at hchild
      cases hchild
    | ok form =>
      rw [hform] at hchild
      obtain ⟨node, hnode, rfl, rfl⟩ := Form.exists_mem_inside hchild place
      obtain ⟨site, hsite, rfl⟩ := ih hinner node.place
      refine ⟨site.under node.part, ?_, rfl⟩
      rw [sites_load hform]
      refine List.mem_cons_of_mem _ (List.mem_flatMap.2 ⟨node, hnode, ?_⟩)
      exact List.mem_map_of_mem hsite

end

end Slot

end DocShape
