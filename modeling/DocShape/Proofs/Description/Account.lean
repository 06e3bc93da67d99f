import DocShape.Proofs.Description.FieldNames
import DocShape.Proofs.Description.Slots
import DocShape.Proofs.Notice.Repairs
import Mathlib.Data.List.Perm.Basic

/-!
# Every `any` is accounted for

A loaded shape accepts anything in two kinds of places: where the description says so, and
where it could not be read.  The second kind is never silent: at each site of the shape
there is the node that was loaded there, and this node either describes something or is at
fault, and then there is one notice, with the place of the site.

* `Form.filter_notices_load`, `Form.perm_filter_notices_load`: where the notices of a form
  come from.
* `Slot.filter_replacements`: **one notice for each fault**, in tree order.
* `Slot.perm_omissions`: one notice for each entry without a name.
* `Slot.form_eq_any_iff`: the nodes that describe anything.
* `Shape.degradations_ofJson`: **no degradation is silent**.
-/

namespace DocShape

open Shape (Part Inside Site)

/-! ### Lines about replaced and dropped parts -/

namespace Notice

/-- Whether a log line says that something was replaced, and gives a reason. -/
def isReplacement (notice : Notice) : Bool :=
  notice.isShapeDegraded && (notice.text? "reason").isSome

/-- Whether a log line says that something was dropped, without a reason. -/
def isOmission (notice : Notice) : Bool :=
  notice.isShapeDegraded && (notice.text? "reason").isNone

end Notice

open Notice

/-! ### Notices of forms -/

theorem flatMap_zipIdx {α β : Type} (f : α → List β) (xs : List α) :
    (xs.zipIdx.flatMap fun x => f x.1) = xs.flatMap f := by
  have h := List.flatMap_map (f := Prod.fst) (g := f) (l := xs.zipIdx)
  rw [List.zipIdx_map_fst] at h
  exact h.symm

namespace Form

section

variable {child : String → Json → Noted Omittable} {form : Form} {p : Notice → Bool}

theorem filter_notices_required (hp : ∀ place, p (markerStripped place) = false) (place : String)
    (found : Noted Omittable) :
    (Omittable.required place found).notices.filter p = found.notices.filter p := by
  rw [Omittable.required]
  split
  · rw [Noted.notices_note, Noted.notices_map, List.filter_append,
      List.filter_cons_of_neg (by rw [hp]; exact Bool.false_ne_true), List.filter_nil,
      List.append_nil]
  · rw [Noted.notices_map]

theorem filter_notices_load_object (place : String) (entries : List (Option String × Json)) :
    ((object entries).load child place).notices.filter p =
      entries.flatMap fun entry =>
        (if entry.1.isNone then [entrySkipped place].filter p else []) ++
        (named [entry]).flatMap fun entry =>
          (child (Place.member place entry.1) entry.2).notices.filter p := by
  rw [load, Noted.notices_map, Noted.notices_traverse, List.filter_flatMap]
  refine List.flatMap_congr ?_
  rintro ⟨name?, node⟩ -
  cases name? with
  | none => simp [loadEntry, named]
  | some name => simp [loadEntry, named]

theorem filter_notices_load_of_ne (hp : ∀ place, p (markerStripped place) = false)
    (h : ∀ entries, form ≠ object entries) (place : String) :
    (form.load child place).notices.filter p = (form.inside place).flatMap fun node =>
      (child node.place node.content).notices.filter p := by
  cases form with
  | leaf shape => rfl
  | array element =>
    rw [load, Noted.notices_map, filter_notices_required hp, inside, List.flatMap_cons,
      List.flatMap_nil, List.append_nil]
  | object entries => exact absurd rfl (h entries)
  | record keys values =>
    rw [load, Noted.notices_bind, Noted.notices_bind, Noted.notices_pure, List.append_nil,
      List.filter_append, filter_notices_required hp, inside, List.flatMap_cons,
      List.flatMap_cons, List.flatMap_nil, List.append_nil]
  | union variants =>
    rw [load, Noted.notices_map, Noted.notices_traverse, List.filter_flatMap, inside,
      List.flatMap_map]
    simp only [filter_notices_required hp]
    exact (flatMap_zipIdx (fun variant => (child place variant).notices.filter p) variants).symm

theorem named_eq_flatMap (entries : List (Option String × Json)) :
    named entries = entries.flatMap fun entry => named [entry] := by
  induction entries with
  | nil => rfl
  | cons entry rest ih =>
    rw [List.flatMap_cons, ← ih, named, named, named, ← List.filterMap_append]
    rfl

theorem flatMap_inside_object (place : String) (entries : List (Option String × Json)) :
    (((object entries).inside place).flatMap fun node =>
      (child node.place node.content).notices.filter p) =
        entries.flatMap fun entry => (named [entry]).flatMap fun entry =>
          (child (Place.member place entry.1) entry.2).notices.filter p := by
  rw [inside, List.flatMap_map]
  rw [flatMap_zipIdx (fun entry => (child (Place.member place entry.1) entry.2).notices.filter p)
    (named entries), named_eq_flatMap, List.flatMap_assoc]

/-- Lines that are not about entries without a name come from the parts, in their order. -/
theorem filter_notices_load (hstripped : ∀ place, p (markerStripped place) = false)
    (hskipped : ∀ place, p (entrySkipped place) = false) (form : Form) (place : String) :
    (form.load child place).notices.filter p = (form.inside place).flatMap fun node =>
      (child node.place node.content).notices.filter p := by
  cases form with
  | object entries =>
    have hnone : [entrySkipped place].filter p = [] :=
      List.filter_cons_of_neg (by rw [hskipped]; exact Bool.false_ne_true)
    rw [filter_notices_load_object, flatMap_inside_object, hnone]
    simp only [ite_self, List.nil_append]
  | _ => exact filter_notices_load_of_ne hstripped (fun _ => Form.noConfusion) place

/-- All lines come from the entries without a name and from the parts. -/
theorem perm_filter_notices_load (hstripped : ∀ place, p (markerStripped place) = false)
    (form : Form) (place : String) :
    ((form.load child place).notices.filter p).Perm
      (form.unnamed.flatMap (fun _ => [entrySkipped place].filter p) ++
        (form.inside place).flatMap fun node =>
          (child node.place node.content).notices.filter p) := by
  cases form with
  | object entries =>
    rw [filter_notices_load_object, flatMap_inside_object, unnamed, ← flatMap_ite]
    exact (List.flatMap_append_perm _ _ _).symm
  | _ =>
    rw [filter_notices_load_of_ne hstripped fun _ => Form.noConfusion]
    exact .refl _

end

end Form

/-! ### Notices and sites -/

namespace Slot

section

variable {settings : Settings} {slot : Slot} {place : String}

theorem faultAt_nil (settings : Settings) (slot : Slot) :
    slot.faultAt settings [] = slot.fault? settings :=
  rfl

theorem unnamedAt_nil (settings : Settings) (slot : Slot) :
    slot.unnamedAt settings [] = slot.unnamed settings :=
  rfl

theorem faultAt_of_mem_inside {form : Form} (h : slot.form settings = .ok form)
    {node : Inside Json} (hnode : node ∈ form.inside place) (parts : List Part) :
    slot.faultAt settings (node.part :: parts) =
      (slot.next node.content).faultAt settings parts := by
  rw [faultAt, at?_of_mem_inside h hnode, faultAt]

theorem unnamedAt_of_mem_inside {form : Form} (h : slot.form settings = .ok form)
    {node : Inside Json} (hnode : node ∈ form.inside place) (parts : List Part) :
    slot.unnamedAt settings (node.part :: parts) =
      (slot.next node.content).unnamedAt settings parts := by
  rw [unnamedAt, at?_of_mem_inside h hnode, unnamedAt]

/-- **One notice for each fault**: with a reason, at the place of what stands for the node, and in
the order of the tree. -/
theorem filter_replacements (settings : Settings) (slot : Slot) (place : String) :
    (slot.load settings place).notices.filter isReplacement =
      ((slot.load settings place).value.shape.sites place).filterMap fun site =>
        (slot.faultAt settings site.parts).map (nodeDegraded site.place) := by
  induction slot using Slot.ind settings generalizing place with
  | fault slot fault hform =>
    have hfault : slot.fault? settings = some fault := by rw [fault?, hform]
    rw [sites_load_of_error hform, load_of_error hform, List.filterMap_cons, faultAt_nil, hfault]
    rfl
  | form slot form hform ih =>
    have hfault : slot.fault? settings = none := by rw [fault?, hform]
    rw [notices_load_of_ok hform, Form.filter_notices_load (fun _ => rfl) (fun _ => rfl),
      sites_load hform, List.filterMap_cons, faultAt_nil, hfault, Option.map_none,
      List.filterMap_flatMap, List.flatMap_def, List.flatMap_def]
    congr 1
    refine List.map_congr_left ?_
    intro node hnode
    rw [ih, List.filterMap_map]
    refine List.filterMap_congr ?_
    intro site _
    rw [Function.comp_apply, Site.under, faultAt_of_mem_inside hform hnode]

/-- **One notice for each entry without a name**: without a reason, at the place of the object. -/
theorem perm_omissions (settings : Settings) (slot : Slot) (place : String) :
    ((slot.load settings place).notices.filter isOmission).Perm
      (((slot.load settings place).value.shape.sites place).flatMap fun site =>
        (slot.unnamedAt settings site.parts).map fun _ => entrySkipped site.place) := by
  induction slot using Slot.ind settings generalizing place with
  | fault slot fault hform =>
    have hunnamed : slot.unnamed settings = [] := by rw [unnamed, hform]
    rw [sites_load_of_error hform, load_of_error hform, List.flatMap_cons, unnamedAt_nil,
      hunnamed]
    exact .refl _
  | form slot form hform ih =>
    have hunnamed : slot.unnamed settings = form.unnamed := by rw [unnamed, hform]
    rw [notices_load_of_ok hform, sites_load hform, List.flatMap_cons, unnamedAt_nil, hunnamed]
    refine (Form.perm_filter_notices_load (fun _ => rfl) form place).trans ?_
    have hown : (form.unnamed.flatMap fun _ => [entrySkipped place].filter isOmission) =
        form.unnamed.map fun _ => entrySkipped place := List.map_eq_flatMap.symm
    rw [hown, List.flatMap_assoc]
    refine (List.Perm.flatMap_left _ ?_).append_left _
    intro node hnode
    refine (ih node.content node.place).trans (.of_eq ?_)
    rw [List.flatMap_map, List.flatMap_def, List.flatMap_def]
    congr 1
    refine List.map_congr_left ?_
    intro site _
    rw [Site.under, unnamedAt_of_mem_inside hform hnode]

end

end Slot

/-! ### Nodes that describe anything -/

namespace Form

/-- Only nodes tagged `any` or `unknown` describe anything at all. -/
theorem ofTag_eq_any_iff {tag : String} {members : Members} :
    ofTag tag members = .ok (leaf .any) ↔ tag = "any" ∨ tag = "unknown" := by
  constructor
  · intro h
    unfold ofTag at h
    split at h
    case h_11 => exact Or.inl rfl
    case h_12 => exact Or.inr rfl
    -- the leaves with data, and the forms with parts
    case h_13 | h_14 | h_15 | h_16 =>
      obtain ⟨_, _, h⟩ := exists_of_bind_eq_ok h
      cases h
    case h_17 =>
      obtain ⟨_, _, h⟩ := exists_of_bind_eq_ok h
      obtain ⟨_, _, h⟩ := exists_of_bind_eq_ok h
      cases h
    case h_18 => split at h <;> cases h
    all_goals cases h
  · rintro (rfl | rfl) <;> rfl

theorem ofJson_eq_any_iff {node : Json} :
    ofJson node = .ok (leaf .any) ↔ ∃ members : Members, node = .object members ∧
      (kind? members = some "any" ∨ kind? members = some "unknown") := by
  constructor
  · intro h
    obtain ⟨members, hmembers, hrest⟩ := exists_of_bind_eq_ok h
    obtain ⟨tag, htag, hform⟩ := exists_of_bind_eq_ok hrest
    refine ⟨members, Json.members?_eq_some_iff.1 (part_eq_ok hmembers), ?_⟩
    rw [kind?, part_eq_ok htag, Option.map_some, Option.some_inj, Option.some_inj]
    exact ofTag_eq_any_iff.1 hform
  · rintro ⟨members, rfl, hkind⟩
    rcases hkind with hkind | hkind
    · exact (ofJson_of_kind hkind (by decide)).2.trans (ofTag_eq_any_iff.2 (Or.inl rfl))
    · exact (ofJson_of_kind hkind (by decide)).2.trans (ofTag_eq_any_iff.2 (Or.inr rfl))

theorem eq_any_of_load {child : String → Json → Noted Omittable} {place : String} {form : Form}
    (h : (form.load child place).value = .any) : form = leaf .any := by
  cases form with
  | leaf shape => exact congrArg leaf h
  | array element =>
    rw [value_load_array] at h
    cases h
  | object entries =>
    rw [value_load_object] at h
    cases h
  | record keys values =>
    rw [value_load_record] at h
    cases h
  | union variants =>
    rw [value_load_union] at h
    cases h

end Form

namespace Slot

variable {settings : Settings} {slot : Slot}

theorem form_eq_any_iff : slot.form settings = .ok (.leaf .any) ↔
    ∃ members : Members, slot.core settings = .ok (.object members) ∧
      (kind? members = some "any" ∨ kind? members = some "unknown") := by
  rw [form]
  cases slot.core settings with
  | error fault => exact iff_of_false (by rintro ⟨⟩) (by rintro ⟨_, ⟨⟩, -⟩)
  | ok node =>
    refine Form.ofJson_eq_any_iff.trans ?_
    simp only [Except.ok.injEq]

theorem fault?_eq_none_iff : slot.fault? settings = none ↔
    ∃ form, slot.form settings = .ok form := by
  rw [fault?]
  cases slot.form settings <;> simp

/-- What is loaded as `any` is at fault or describes anything. -/
theorem form_of_load_eq_any {place : String} (h : (slot.load settings place).value.shape = .any)
    (hfault : slot.fault? settings = none) : slot.form settings = .ok (.leaf .any) := by
  obtain ⟨form, hform⟩ := fault?_eq_none_iff.1 hfault
  rw [shape_load_of_ok hform] at h
  rw [hform, Form.eq_any_of_load h]

/-- Only what stands at an `any` can be at fault. -/
theorem shape_eq_any_of_faultAt {place : String} {site : Site}
    (hsite : site ∈ (slot.load settings place).value.shape.sites place) {fault : NodeFault}
    (h : slot.faultAt settings site.parts = some fault) : site.shape = .any := by
  obtain ⟨inner, hinner, hshape⟩ := exists_of_mem_sites hsite
  rw [faultAt, hinner, Option.bind_some, fault?] at h
  cases hform : inner.form settings with
  | ok form =>
    rw [hform] at h
    cases h
  | error found => rw [hshape, load_of_error hform]

end Slot

/-! ### The account -/

namespace Shape

section

variable (settings : Settings) (node : Json)

theorem filter_notices_ofJson {p : Notice → Bool} (hp : ∀ place, p (markerStripped place) = false) :
    (ofJson settings node).notices.filter p =
      ((Slot.root settings node).load settings "").notices.filter p :=
  Form.filter_notices_required hp "" _

theorem value_ofJson :
    (ofJson settings node).value = ((Slot.root settings node).load settings "").value.shape :=
  Omittable.value_required "" _

/-- The lines with a reason are those of the faults that the leaves for anything stand for. -/
theorem filter_replacements_ofJson :
    (ofJson settings node).notices.filter isReplacement =
      (ofJson settings node).value.anyLeaves.filterMap fun leaf =>
        ((Slot.root settings node).faultAt settings leaf.parts).map (nodeDegraded leaf.place) := by
  rw [filter_notices_ofJson settings node (fun _ => rfl), Slot.filter_replacements, ← value_ofJson,
    anyLeaves, List.filterMap_filter]
  refine List.filterMap_congr ?_
  intro site hsite
  rw [value_ofJson] at hsite
  cases hfault : (Slot.root settings node).faultAt settings site.parts with
  | none => rw [Option.map_none, ite_self]
  | some fault =>
    have hany := Slot.shape_eq_any_of_faultAt hsite hfault
    rw [if_pos (isAny_iff.2 hany)]

/-- A leaf for anything that is no fault stands for a node that says so. -/
theorem faultAt_eq_none_iff {leaf : Site} (h : leaf ∈ (ofJson settings node).value.anyLeaves) :
    (Slot.root settings node).faultAt settings leaf.parts = none ↔ ∃ slot members,
      (Slot.root settings node).at? settings leaf.parts = some slot ∧
      slot.core settings = .ok (.object members) ∧
      (kind? members = some "any" ∨ kind? members = some "unknown") := by
  obtain ⟨hsite, hany⟩ := List.mem_filter.1 h
  rw [value_ofJson] at hsite
  obtain ⟨inner, hinner, hshape⟩ := Slot.exists_of_mem_sites hsite
  rw [Slot.faultAt, hinner, Option.bind_some]
  constructor
  · intro hfault
    have hform := Slot.form_of_load_eq_any (hshape.symm.trans (isAny_iff.1 hany)) hfault
    obtain ⟨members, hcore, hkind⟩ := Slot.form_eq_any_iff.1 hform
    exact ⟨inner, members, rfl, hcore, hkind⟩
  · rintro ⟨slot, members, hslot, hcore, hkind⟩
    obtain rfl := Option.some.inj hslot
    exact Slot.fault?_eq_none_iff.2 ⟨_, Slot.form_eq_any_iff.2 ⟨members, hcore, hkind⟩⟩

theorem perm_omissions_ofJson :
    ((ofJson settings node).notices.filter isOmission).Perm
      (((ofJson settings node).value.sites "").flatMap fun site =>
        ((Slot.root settings node).unnamedAt settings site.parts).map fun _ =>
          entrySkipped site.place) := by
  rw [filter_notices_ofJson settings node (fun _ => rfl), value_ofJson]
  exact Slot.perm_omissions settings _ ""

/-- The fields of a loaded object are its entries with a name. -/
theorem names_of_mem_sites {site : Site} (h : site ∈ (ofJson settings node).value.sites "")
    {slot : Slot} (hslot : (Slot.root settings node).at? settings site.parts = some slot)
    {entries : List (Option String × Json)} (hform : slot.form settings = .ok (.object entries)) :
    site.shape.fields.map (·.name) = entries.filterMap (·.1) := by
  rw [value_ofJson] at h
  obtain ⟨inner, hinner, hshape⟩ := Slot.exists_of_mem_sites h
  obtain rfl := Option.some.inj (hslot.symm.trans hinner)
  rw [hshape, Slot.shape_load_of_ok hform, Form.names_load]

/-- Where no line is given, nothing is at fault and no entry is without a name. -/
theorem exists_form_of_at? (h : ∀ notice ∈ (ofJson settings node).notices,
    notice.isShapeDegraded = false) {parts : List Part} {slot : Slot}
    (hslot : (Slot.root settings node).at? settings parts = some slot) :
    ∃ form, slot.form settings = .ok form ∧ form.unnamed = [] := by
  have hsite := Slot.exists_site_of_at? hslot ""
  rw [← value_ofJson] at hsite
  obtain ⟨site, hsite, rfl⟩ := hsite
  cases hform : slot.form settings with
  | error fault =>
    have hfault : (Slot.root settings node).faultAt settings site.parts = some fault := by
      rw [Slot.faultAt, hslot, Option.bind_some, Slot.fault?, hform]
    have hany := Slot.shape_eq_any_of_faultAt (value_ofJson settings node ▸ hsite) hfault
    have hline : nodeDegraded site.place fault ∈
        (ofJson settings node).notices.filter isReplacement := by
      rw [filter_replacements_ofJson, List.mem_filterMap]
      exact ⟨site, List.mem_filter.2 ⟨hsite, isAny_iff.2 hany⟩, by rw [hfault, Option.map_some]⟩
    have hnone := h _ (List.mem_filter.1 hline).1
    cases hnone
  | ok form =>
    refine ⟨form, rfl, List.eq_nil_iff_forall_not_mem.2 ?_⟩
    intro entry hentry
    have hunnamed : entry ∈ (Slot.root settings node).unnamedAt settings site.parts := by
      rw [Slot.unnamedAt, hslot, Option.map_some, Option.getD_some, Slot.unnamed, hform]
      exact hentry
    have hline : entrySkipped site.place ∈ (ofJson settings node).notices.filter isOmission := by
      rw [(perm_omissions_ofJson settings node).mem_iff, List.mem_flatMap]
      exact ⟨site, hsite, List.mem_map.2 ⟨entry, hunnamed, rfl⟩⟩
    have hnone := h _ (List.mem_filter.1 hline).1
    cases hnone

/-- **No degradation is silent.**  The places where a loaded shape accepts anything are those where
the description says so and those where it is at fault; each fault gives one line with its reason
and the place, in tree order, and there is no other such line.  Each entry without a name gives one
line without a reason, and all others give fields.  So where no line is given, every node that
loading comes to is read as it stands. -/
theorem degradations_ofJson :
    ((ofJson settings node).notices.filter isReplacement).map
        (fun line => (line.text? "path", line.text? "reason")) =
      (ofJson settings node).value.anyLeaves.filterMap (fun leaf =>
        ((Slot.root settings node).faultAt settings leaf.parts).map fun fault =>
          (some (if leaf.place = "" then "<root>" else leaf.place), some fault.message)) ∧
    (∀ leaf ∈ (ofJson settings node).value.anyLeaves,
      ((Slot.root settings node).faultAt settings leaf.parts = none ↔ ∃ slot members,
        (Slot.root settings node).at? settings leaf.parts = some slot ∧
        slot.core settings = .ok (.object members) ∧
        (kind? members = some "any" ∨ kind? members = some "unknown"))) ∧
    ((ofJson settings node).notices.filter isOmission).Perm
      (((ofJson settings node).value.sites "").flatMap fun site =>
        ((Slot.root settings node).unnamedAt settings site.parts).map fun _ =>
          entrySkipped site.place) ∧
    (∀ site ∈ (ofJson settings node).value.sites "", ∀ slot entries,
      (Slot.root settings node).at? settings site.parts = some slot →
      slot.form settings = .ok (.object entries) →
      site.shape.fields.map (·.name) = entries.filterMap (·.1)) ∧
    ((∀ notice ∈ (ofJson settings node).notices, notice.isShapeDegraded = false) →
      ∀ parts slot, (Slot.root settings node).at? settings parts = some slot →
        ∃ form, slot.form settings = .ok form ∧ form.unnamed = []) := by
  refine ⟨?_, ?_, perm_omissions_ofJson settings node, ?_, ?_⟩
  · rw [filter_replacements_ofJson, List.map_filterMap]
    refine List.filterMap_congr ?_
    intro leaf _
    rw [Option.map_map]
    rfl
  · intro leaf hleaf
    exact faultAt_eq_none_iff settings node hleaf
  · intro site hsite slot entries hslot hform
    exact names_of_mem_sites settings node hsite hslot hform
  · intro hsilent parts slot hslot
    exact exists_form_of_at? settings node hsilent hslot

example : (ofJson {} (.array [])).notices.map
    (fun line => (line.text? "path", line.text? "reason")) =
      [(some "<root>", some "shape is not a JSON object")] :=
  rfl

end

end Shape

end DocShape
