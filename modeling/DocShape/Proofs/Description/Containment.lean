import DocShape.Proofs.Description.Position

/-!
# A bad node is contained

Whatever is put in the place of a node that loading comes to, even if it describes
nothing at all: the loaded shape changes in one position only, where it may change
together with the optional flag of the position.

* `Omittable.found_of_partAt`: a part of a node is loaded into a frame that does not
  depend on it.
* `Contained`: what becomes of a changed node; kept by one step up
  (`Contained.of_marker`, `Contained.of_part`) and so along every path
  (`Leads.contained`).
* `Shape.ofJson_replaceAt`: **a replaced node changes the loaded shape in its own
  position**.
-/

namespace DocShape

open Shape (Frame Context Part)

/-! ### Loading a node with one of its parts -/

namespace OpenForm

variable (child : String → Json → Noted Omittable) (place : String)

/-- The place of the open node, as it is written in notices. -/
def childPlace : OpenForm → String
  | element => Place.extend place .element
  | entry _ name _ => Place.member place name
  | key _ => Place.extend place .key
  | value _ => Place.extend place .value
  | variant _ _ => place

/-- What the other nodes are loaded as, around the open one. -/
def frame : OpenForm → Frame
  | element => .element
  | entry before name after =>
    .field (before.filterMap fun entry => (Form.loadEntry child place entry).value) name
      (after.filterMap fun entry => (Form.loadEntry child place entry).value)
  | key values => .key (child (Place.extend place .value) values).value
  | value keys => .value (child (Place.extend place .key) keys).value.shape
  | variant before after =>
    .variant (before.map fun node => (child place node).value.shape)
      (after.map fun node => (child place node).value.shape)

theorem part_frame (form : OpenForm) : (form.frame child place).part = form.part := by
  cases form with
  | entry before name after =>
    rw [frame, Frame.part, part]
    congr 1
    induction before with
    | nil => rfl
    | cons entry rest ih =>
      obtain ⟨name?, node⟩ := entry
      cases name? with
      | none => exact ih
      | some name => exact congrArg Nat.succ ih
  | variant before after => rw [frame, Frame.part, part, List.length_map]
  | _ => rfl

/-- The open node is loaded into a frame that does not depend on it. -/
theorem value_load_fill (form : OpenForm) (node : Json) :
    ((form.fill node).load child place).value =
      (form.frame child place).fill (child (form.childPlace place) node).value := by
  cases form with
  | element => exact Form.value_load_array place node
  | entry before name after =>
    rw [fill, Form.value_load_object, List.filterMap_append, List.filterMap_cons]
    rfl
  | key values => exact Form.value_load_record place node values
  | value keys => exact Form.value_load_record place keys node
  | variant before after =>
    rw [fill, Form.value_load_union, List.map_append, List.map_cons]
    rfl

end OpenForm

namespace Omittable

variable {settings : Settings} {room markers : Nat} {place : String}

/-- What a node is loaded as when only so many nodes may be looked at for its markers. -/
def found (settings : Settings) (room markers : Nat) (place : String) (node : Json) : Omittable :=
  match room with
  | 0 => ⟨.any, false⟩
  | room + 1 =>
    let peeled := Peeled.ofJson markers node
    match peeled.core.bind Form.ofJson with
    | .ok form => ⟨(form.load (load settings room) place).value, peeled.optional⟩
    | .error _ => ⟨.any, peeled.optional⟩

theorem value_load_eq_found (node : Json) : (load settings room place node).value =
    found settings room (settings.maxOptionalDepth + 1) place node := by
  cases room with
  | zero => rfl
  | succ room =>
    rw [load, found]
    cases (Peeled.ofJson (settings.maxOptionalDepth + 1) node).core.bind Form.ofJson <;> rfl

theorem found_of_wrapper {node inner : Json} (h : Layer.ofJson node = .wrapper inner) :
    found settings (room + 1) (markers + 1) place node =
      ⟨(found settings (room + 1) markers place inner).shape,
        isFlaggedOptional node || (found settings (room + 1) markers place inner).optional⟩ := by
  rw [found, found, Peeled.ofJson_of_wrapper h]
  dsimp only
  split <;> rfl

theorem found_of_optional {node inner : Json} (h : Layer.ofJson node = .optional (some inner)) :
    found settings (room + 1) (markers + 1) place node =
      ⟨(found settings (room + 1) markers place inner).shape, true⟩ := by
  rw [found, found, Peeled.ofJson, h]
  dsimp only
  split <;> rfl

/-- **A part is loaded into a frame that does not depend on it.** -/
theorem found_of_partAt {node child : Json} {steps : List Step} {form : OpenForm}
    (h : PartAt node steps form child) (hchild : child ≠ .null) :
    found settings (room + 1) (markers + 1) place node =
      ⟨(form.frame (load settings room) place).fill (found settings room
        (settings.maxOptionalDepth + 1) (form.childPlace place) child),
        isFlaggedOptional node⟩ := by
  obtain ⟨hlayer, hform⟩ := h.ofJson_eq hchild
  rw [found, Peeled.ofJson_of_core hlayer]
  simp only [Except.bind, hform]
  rw [OpenForm.value_load_fill, value_load_eq_found]

end Omittable

/-! ### Replacing a node -/

/-- Whether what is found for a node, and for the node with anything but `null` at the end of a
path, is the same but for one position. -/
def Contained (find : Json → Omittable) (node : Json) (path : List Step) (parts : List Part) :
    Prop :=
  ∃ context : Context, context.parts = parts ∧ (∃ old, find node = context.fill old) ∧
    ∀ new, new ≠ .null → ∃ inside, find (node.replaceAt path new) = context.fill inside

namespace Contained

variable {find findInside : Json → Omittable} {node child : Json} {path : List Step}
  {parts : List Part}

/-- Around what is contained there may be anything that keeps the shape and looks at its flag. -/
theorem of_marker (h : Contained findInside child path parts) (steps : List Step)
    (change : Bool → Bool)
    (hold : find node = ⟨(findInside child).shape, change (findInside child).optional⟩)
    (hnew : ∀ new, new ≠ .null → find (node.replaceAt (steps ++ path) new) =
      ⟨(findInside (child.replaceAt path new)).shape,
        change (findInside (child.replaceAt path new)).optional⟩) :
    Contained find node (steps ++ path) parts := by
  obtain ⟨context, hparts, ⟨old, hchild⟩, hreplaced⟩ := h
  obtain ⟨changed, hsame, hchanged⟩ := context.exists_context_with_flag change
  refine ⟨changed, hsame.trans hparts, ?_, ?_⟩
  · rw [hold, hchild]
    exact hchanged old
  · intro new hne
    obtain ⟨inside, hinside⟩ := hreplaced new hne
    rw [hnew new hne, hinside]
    exact hchanged inside

/-- Around what is contained there may be a frame. -/
theorem of_part (h : Contained findInside child path parts) (steps : List Step) (frame : Frame)
    (optional : Bool)
    (hold : find node = ⟨frame.fill (findInside child), optional⟩)
    (hnew : ∀ new, new ≠ .null → find (node.replaceAt (steps ++ path) new) =
      ⟨frame.fill (findInside (child.replaceAt path new)), optional⟩) :
    Contained find node (steps ++ path) (frame.part :: parts) := by
  obtain ⟨context, rfl, ⟨old, hchild⟩, hreplaced⟩ := h
  refine ⟨(frame, optional) :: context, rfl, ⟨old, ?_⟩, ?_⟩
  · rw [hold, hchild]
    rfl
  · intro new hne
    obtain ⟨inside, hinside⟩ := hreplaced new hne
    refine ⟨inside, ?_⟩
    rw [hnew new hne, hinside]
    rfl

end Contained

namespace Leads

variable {settings : Settings} {room markers : Nat} {node : Json} {path : List Step}
  {parts : List Part}

theorem ne_null (h : Leads settings room markers node path parts) : node ≠ .null := by
  cases h with
  | here hne => exact hne
  | wrapper _ _ _ => exact Json.noConfusion
  | optional _ _ _ => exact Json.noConfusion
  | part hpart _ _ => cases hpart <;> exact Json.noConfusion

theorem replaceAt_ne_null (h : Leads settings room markers node path parts) {new : Json}
    (hnew : new ≠ .null) : node.replaceAt path new ≠ .null := by
  by_cases hpath : path = []
  · subst hpath
    exact hnew
  · obtain ⟨key, rest, -, rfl⟩ := h.exists_path_eq hpath
    have hnode := h.ne_null
    cases node with
    | object members =>
      rw [Json.replaceAt, Json.updateAt]
      split <;> exact Json.noConfusion
    | _ => exact hnode

/-- An entry keeps its name when something inside it is replaced. -/
theorem listEntry_replaceAt (h : Leads settings room markers node path parts) (hpath : path ≠ [])
    (new : Json) : (Form.listEntry (node.replaceAt path new)).1 = (Form.listEntry node).1 := by
  obtain ⟨key, rest, hkey, rfl⟩ := h.exists_path_eq hpath
  obtain ⟨-, -, hfieldName, hname⟩ := ne_of_mem_partNames hkey
  rw [Form.listEntry, Form.listEntry, Json.replaceAt, Json.get?_updateAt_of_ne hfieldName,
    Json.get?_updateAt_of_ne hname]

/-- **Along every path what is replaced is contained.** -/
theorem contained (h : Leads settings room markers node path parts) (place : String) :
    Contained (Omittable.found settings room markers place) node path parts := by
  induction h generalizing place with
  | here _ => exact ⟨[], rfl, ⟨_, rfl⟩, fun new _ => ⟨_, rfl⟩⟩
  | @wrapper room markers members name inner path parts htag hgiven hinner ih =>
    have hkey := Members.mem_partNames hgiven (by decide)
    have hlookup := (Members.mem_of_given? hgiven).2
    cases room with
    -- Too deep for anything to be looked at, before and after.
    | zero => exact (ih place).of_marker [.member name] id rfl (fun _ _ => rfl)
    | succ room =>
      refine (ih place).of_marker [.member name] (isFlaggedOptional (.object members) || ·) ?_ ?_
      · exact Omittable.found_of_wrapper (layer_of_wrapper htag hgiven hinner.ne_null)
      · intro new hnew
        have hlayer := layer_of_wrapper ((typeTag?_put hkey).trans htag)
          (Members.given?_put hgiven _) (hinner.replaceAt_ne_null hnew)
        have hreplaced : (Json.object members).replaceAt (.member name :: path) new =
            .object (members.put name (inner.replaceAt path new)) :=
          Json.updateAt_member hlookup path
        rw [List.singleton_append, hreplaced, Omittable.found_of_wrapper hlayer,
          isFlaggedOptional_put hkey]
  | @optional room markers members name inner path parts hkind hgiven hinner ih =>
    have hkey := Members.mem_partNames hgiven (by decide)
    have hlookup := (Members.mem_of_given? hgiven).2
    cases room with
    | zero => exact (ih place).of_marker [.member name] id rfl (fun _ _ => rfl)
    | succ room =>
      refine (ih place).of_marker [.member name] (fun _ => true) ?_ ?_
      · exact Omittable.found_of_optional (layer_of_optional hkind hgiven hinner.ne_null)
      · intro new hnew
        have hlayer := layer_of_optional ((kind?_put hkey).trans hkind)
          (Members.given?_put hgiven _) (hinner.replaceAt_ne_null hnew)
        have hreplaced : (Json.object members).replaceAt (.member name :: path) new =
            .object (members.put name (inner.replaceAt path new)) :=
          Json.updateAt_member hlookup path
        rw [List.singleton_append, hreplaced, Omittable.found_of_optional hlayer]
  | @part room markers node child steps path form parts hpart hentry hchild ih =>
    have hpart_frame := form.part_frame (Omittable.load settings room) place
    rw [← hpart_frame]
    refine (ih (form.childPlace place)).of_part steps _ (isFlaggedOptional node) ?_ ?_
    · exact Omittable.found_of_partAt hpart hchild.ne_null
    · intro new hnew
      -- The part is still read under its name, since the path goes on inside of it.
      have hreplaced : PartAt (node.replaceAt (steps ++ path) new) steps form
          (child.replaceAt path new) := by
        rw [Json.replaceAt, Json.updateAt_append]
        refine hpart.updateAt ?_
        intro hisEntry
        exact hchild.listEntry_replaceAt (hentry hisEntry) new
      have hflag : isFlaggedOptional (node.replaceAt (steps ++ path) new) =
          isFlaggedOptional node := by
        rw [Json.replaceAt, Json.updateAt_append]
        exact hpart.isFlaggedOptional_updateAt
      rw [Omittable.found_of_partAt hreplaced (hchild.replaceAt_ne_null hnew), hflag]

end Leads

/-- **A replaced node changes the loaded shape in its own position.**  Whatever stands at the end of
a path that loading comes to, and whatever else but `null` is put there: all of the loaded shape is
the same, but for the position that the path belongs to and the optional flag of that position. -/
theorem Shape.ofJson_replaceAt {settings : Settings} {node : Json} {path : List Step}
    {parts : List Part} (h : Leads settings (settings.maxNestingDepth + 1)
      (settings.maxOptionalDepth + 1) node path parts) :
    ∃ context : Context, context.parts = parts ∧
      (∃ old, (Shape.ofJson settings node).value = (context.fill old).shape) ∧
      ∀ new, new ≠ .null → ∃ inside,
        (Shape.ofJson settings (node.replaceAt path new)).value = (context.fill inside).shape := by
  obtain ⟨context, hparts, ⟨old, hold⟩, hreplaced⟩ := h.contained ""
  have hfound : ∀ node, (Shape.ofJson settings node).value =
      (Omittable.found settings (settings.maxNestingDepth + 1) (settings.maxOptionalDepth + 1) ""
        node).shape := by
    intro node
    rw [Shape.ofJson, Omittable.value_required, Omittable.value_load_eq_found]
  refine ⟨context, hparts, ⟨old, ?_⟩, ?_⟩
  · rw [hfound, hold]
  · intro new hnew
    obtain ⟨inside, hinside⟩ := hreplaced new hnew
    exact ⟨inside, by rw [hfound, hinside]⟩

/-- The description of a union with an array in it. -/
def unionOfArray : Json :=
  .object [("type", .string "union"), ("value", .array [.object [("type", .string "null")],
    .object [("type", .string "array"), ("value", .object [("type", .string "string")])]])]

/-- The description of an object with a list of fields, the one a wrapper around a union. -/
def wrappedUnion : Json :=
  .object [("type", .string "object"), ("fields", .array
    [.object [("fieldName", .string "tags"), ("shape", unionOfArray)]])]

theorem Shape.ofJson_replaceAt_wrappedUnion :
    let path : List Step := [.member "fields", .item 0, .member "shape", .member "value", .item 1,
      .member "value"]
    Leads {} 65 9 wrappedUnion path [.field 0, .variant 1, .element] ∧
      ∃ context : Context, context.parts = [.field 0, .variant 1, .element] ∧
        (∃ old, (Shape.ofJson {} wrappedUnion).value = (context.fill old).shape) ∧
        ∀ new, new ≠ .null → ∃ inside,
          (Shape.ofJson {} (wrappedUnion.replaceAt path new)).value =
            (context.fill inside).shape := by
  intro path
  have helement : PartAt (.object [("type", .string "array"),
      ("value", .object [("type", .string "string")])]) [.member "value"] .element
      (.object [("type", .string "string")]) := .element rfl rfl
  have hvariant : PartAt unionOfArray [.member "value", .item 1]
      (.variant [.object [("type", .string "null")]] []) (.object [("type", .string "array"),
        ("value", .object [("type", .string "string")])]) :=
    @PartAt.variant _ "value" [_] [] _ rfl rfl
  have hentry : PartAt wrappedUnion [.member "fields", .item 0] (.entry [] "tags" [])
      (.object [("fieldName", .string "tags"), ("shape", unionOfArray)]) :=
    @PartAt.listEntry _ "fields" "tags" [] [] _ rfl rfl rfl
  have h : Leads {} 65 9 wrappedUnion path [.field 0, .variant 1, .element] := by
    refine .part hentry (fun _ => List.cons_ne_nil _ _) (.wrapper rfl rfl ?_)
    refine .part hvariant (fun hentry => hentry.elim) (.part helement (fun hentry => hentry.elim) ?_)
    exact .here Json.noConfusion
  exact ⟨h, Shape.ofJson_replaceAt h⟩

end DocShape
