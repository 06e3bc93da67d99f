import DocShape.Proofs.Description.Containment

/-!
# The nodes that loading reads

Loading goes down from a node into its markers and its parts.  What becomes of a node
depends on what becomes of the nodes inside, and on nothing else about them: a node
may be exchanged for one that is read alike, wherever it stands.

* `Reads`: **the nodes that loading reads**, each with the path to it.
* `ReadAlike`: two nodes of which loading makes the same.
* `Reads.readAlike_replaceAt`: exchanging a node for one that is read alike changes
  nothing.
-/

namespace DocShape

/-! ### Nodes on the way -/

/-- **The nodes that loading reads**, from a node with so many levels of nodes to load and so many
nodes to look at for markers: shapes, wrappers and optional markers, each with the path to it. -/
inductive Reads (settings : Settings) :
    (room markers : Nat) → Json → List Step → Json → Prop
  | here {room markers : Nat} {node : Json} : node ≠ .null →
      Reads settings (room + 1) (markers + 1) node [] node
  /-- Into a node without a tag around another one. -/
  | wrapper {room markers : Nat} {members : Members} {name : String} {inner node : Json}
      {path : List Step} :
      typeTag? members = none →
      members.given? ["fieldType", "shape"] = some (name, inner) →
      Reads settings (room + 1) markers inner path node →
      Reads settings (room + 1) (markers + 1) (.object members) (.member name :: path) node
  /-- Into a node that is tagged as optional. -/
  | optional {room markers : Nat} {members : Members} {name : String} {inner node : Json}
      {path : List Step} :
      kind? members = some "optional" →
      members.given? ["value", "shape", "inner"] = some (name, inner) →
      Reads settings (room + 1) markers inner path node →
      Reads settings (room + 1) (markers + 1) (.object members) (.member name :: path) node
  /-- Into a part of a node without markers. -/
  | part {room markers : Nat} {root child node : Json} {steps path : List Step} {form : OpenForm} :
      PartAt root steps form child →
      Reads settings room (settings.maxOptionalDepth + 1) child path node →
      Reads settings (room + 1) (markers + 1) root (steps ++ path) node

theorem Reads.ne_null {settings : Settings} {room markers : Nat} {root node : Json}
    {path : List Step} (h : Reads settings room markers root path node) : root ≠ .null := by
  cases h with
  | here hne => exact hne
  | wrapper _ _ _ => exact Json.noConfusion
  | optional _ _ _ => exact Json.noConfusion
  | part hpart _ => cases hpart <;> exact Json.noConfusion

/-! ### Markers -/

namespace Layer

variable {node inner : Json}

theorem exists_of_wrapper (h : ofJson node = .wrapper inner) :
    ∃ (members : Members) (name : String), node = .object members ∧ typeTag? members = none ∧
      members.given? ["fieldType", "shape"] = some (name, inner) := by
  cases node with
  | object members =>
    simp only [ofJson, Json.members?] at h
    split at h
    · split at h <;> cases h
    · next htag =>
      split at h
      · next hfound =>
        cases h
        obtain ⟨name, hgiven⟩ := Members.exists_given?_of_firstGiven? hfound
        exact ⟨members, name, rfl, htag, hgiven⟩
      · cases h
  | _ => cases h

theorem exists_of_optional (h : ofJson node = .optional (some inner)) :
    ∃ (members : Members) (name : String), node = .object members ∧
      kind? members = some "optional" ∧
      members.given? ["value", "shape", "inner"] = some (name, inner) := by
  cases node with
  | object members =>
    simp only [ofJson, Json.members?] at h
    split at h
    · next tag htag =>
      split at h
      · next hoptional =>
        obtain ⟨name, hgiven⟩ := Members.exists_given?_of_firstGiven? (Layer.optional.inj h)
        refine ⟨members, name, rfl, ?_, hgiven⟩
        rw [kind?, htag, Option.map_some, hoptional]
      · cases h
    · split at h <;> cases h
  | _ => cases h

end Layer

/-! ### What is found of a node -/

namespace Omittable

variable {settings : Settings} {node : Json}

/-- A node without markers that describes something. -/
theorem shape_found_of_form {form : Form} (hlayer : Layer.ofJson node = .core)
    (hform : Form.ofJson node = .ok form) (room markers : Nat) (place : String) :
    (found settings (room + 1) (markers + 1) place node).shape =
      (form.load (load settings room) place).value := by
  rw [found, Peeled.ofJson_of_core hlayer]
  simp only [Except.bind, hform]

/-- A node without markers that describes nothing. -/
theorem shape_found_of_fault {fault : NodeFault} (hlayer : Layer.ofJson node = .core)
    (hform : Form.ofJson node = .error fault) (room markers : Nat) (place : String) :
    (found settings room markers place node).shape = .any := by
  cases room with
  | zero => rfl
  | succ room =>
    cases markers with
    | zero => rfl
    | succ markers =>
      rw [found, Peeled.ofJson_of_core hlayer]
      simp only [Except.bind, hform]

/-- An optional marker around nothing. -/
theorem shape_found_of_optional_none (hlayer : Layer.ofJson node = .optional none)
    (room markers : Nat) (place : String) :
    (found settings room markers place node).shape = .any := by
  cases room with
  | zero => rfl
  | succ room =>
    cases markers with
    | zero => rfl
    | succ markers =>
      rw [found, Peeled.ofJson, hlayer]
      rfl

end Omittable

/-! ### Nodes that are read alike -/

/-- Two nodes of which loading makes the same, with the same name if they are entries. -/
structure ReadAlike (settings : Settings) (old new : Json) : Prop where
  found_eq : ∀ room markers place, Omittable.found settings room markers place old =
    Omittable.found settings room markers place new
  name_eq : (Form.listEntry old).1 = (Form.listEntry new).1
  old_ne_null : old ≠ .null
  new_ne_null : new ≠ .null

section

variable {settings : Settings} {members : Members} {key : String} {inner new : Json}

/-- A node with a member under the name of a part is read alike with another value there, if only it
is loaded the same where it is looked at. -/
theorem ReadAlike.put (hkey : key ∈ partNames)
    (h : ∀ room markers place, Omittable.found settings (room + 1) (markers + 1) place
        (.object members) =
      Omittable.found settings (room + 1) (markers + 1) place (.object (members.put key new))) :
    ReadAlike settings (.object members) (.object (members.put key new)) := by
  obtain ⟨-, -, hfieldName, hname⟩ := ne_of_mem_partNames hkey
  refine ⟨?_, ?_, Json.noConfusion, Json.noConfusion⟩
  · intro room markers place
    cases room with
    | zero => rfl
    | succ room =>
      cases markers with
      | zero => rfl
      | succ markers => exact h room markers place
  · simp only [Form.listEntry, Json.get?, Json.members?, Option.bind_some,
      Members.lookup_put_of_ne hfieldName, Members.lookup_put_of_ne hname]

theorem ReadAlike.wrapper (htag : typeTag? members = none)
    (hgiven : members.given? ["fieldType", "shape"] = some (key, inner))
    (h : ReadAlike settings inner new) :
    ReadAlike settings (.object members) (.object (members.put key new)) := by
  have hkey := Members.mem_partNames hgiven (by decide)
  refine .put hkey fun room markers place => ?_
  have hlayer := layer_of_wrapper htag hgiven h.old_ne_null
  have hchanged := layer_of_wrapper ((typeTag?_put hkey).trans htag)
    (Members.given?_put hgiven new) h.new_ne_null
  rw [Omittable.found_of_wrapper hlayer, Omittable.found_of_wrapper hchanged, h.found_eq,
    isFlaggedOptional_put hkey]

theorem ReadAlike.optional (hkind : kind? members = some "optional")
    (hgiven : members.given? ["value", "shape", "inner"] = some (key, inner))
    (h : ReadAlike settings inner new) :
    ReadAlike settings (.object members) (.object (members.put key new)) := by
  have hkey := Members.mem_partNames hgiven (by decide)
  refine .put hkey fun room markers place => ?_
  have hlayer := layer_of_optional hkind hgiven h.old_ne_null
  have hchanged := layer_of_optional ((kind?_put hkey).trans hkind)
    (Members.given?_put hgiven new) h.new_ne_null
  rw [Omittable.found_of_optional hlayer, Omittable.found_of_optional hchanged, h.found_eq]

/-- A node is read alike with another part, if the part is read alike. -/
theorem ReadAlike.part {root child : Json} {steps : List Step} {form : OpenForm}
    {update : Json → Json} (hpart : PartAt root steps form child)
    (h : ReadAlike settings child (update child)) :
    ReadAlike settings root (root.updateAt update steps) := by
  have hupdated := hpart.updateAt (fun _ => h.name_eq.symm)
  have hflag : isFlaggedOptional (root.updateAt update steps) = isFlaggedOptional root :=
    hpart.isFlaggedOptional_updateAt
  obtain ⟨key, rest, hkey, rfl⟩ := hpart.exists_steps_eq
  obtain ⟨members, rfl⟩ : ∃ members, root = .object members := by cases hpart <;> exact ⟨_, rfl⟩
  cases hlookup : members.lookup key with
  | none =>
    -- The path leads nowhere, and nothing is changed.
    have hsame : (Json.object members).updateAt update (.member key :: rest) = .object members := by
      rw [Json.updateAt, hlookup]
    rw [hsame]
    exact ⟨fun _ _ _ => rfl, rfl, Json.noConfusion, Json.noConfusion⟩
  | some value =>
    rw [Json.updateAt_member hlookup] at hupdated hflag ⊢
    refine .put hkey fun room markers place => ?_
    rw [Omittable.found_of_partAt hpart h.old_ne_null,
      Omittable.found_of_partAt hupdated h.new_ne_null, h.found_eq, hflag]

/-- **Exchanging a node for one that is read alike changes nothing**, wherever it stands. -/
theorem Reads.readAlike_replaceAt {room markers : Nat} {root node : Json} {path : List Step}
    (h : Reads settings room markers root path node) (hnode : ReadAlike settings node new) :
    ReadAlike settings root (root.replaceAt path new) := by
  induction h with
  | here _ => exact hnode
  | wrapper htag hgiven _ ih =>
    rw [Json.replaceAt, Json.updateAt_member (Members.mem_of_given? hgiven).2]
    exact .wrapper htag hgiven (ih hnode)
  | optional hkind hgiven _ ih =>
    rw [Json.replaceAt, Json.updateAt_member (Members.mem_of_given? hgiven).2]
    exact .optional hkind hgiven (ih hnode)
  | part hpart _ ih =>
    rw [Json.replaceAt, Json.updateAt_append]
    exact .part hpart (ih hnode)

theorem ReadAlike.value_ofJson_eq {old new : Json} (h : ReadAlike settings old new) :
    (Shape.ofJson settings new).value = (Shape.ofJson settings old).value := by
  rw [Shape.ofJson, Shape.ofJson, Omittable.value_required, Omittable.value_required,
    Omittable.value_load_eq_found, Omittable.value_load_eq_found, h.found_eq]

end

end DocShape
