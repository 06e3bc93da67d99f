import DocShape.Proofs.Description.Containment

/-!
# Chains of optional markers

Around a description there may be any number of markers: nodes that are tagged as
optional and plain wrappers, in any order.  Loading takes off as many as it is
allowed to.  If it gets through to the end of the chain, what is left is the
description inside, and it may be left out as soon as one node of the chain says
so.  If it does not, the description is lost, but not what was said up to there.

* `Marks`: what one marker is around; `Chain`: the markers around a node, from the
  outside in.
* `saysOptional`: whether a node says that what it describes may be left out.
* `Peeled.ofJson_of_chain`: **a chain is taken off as a whole**, if there is room.
* `Omittable.load_of_chain`, `load_of_long_chain`, `load_of_chain_around_nothing`:
  what is loaded in each case, with all notices.
* `Omittable.load_markers`: **markers fold into one flag**, however they are
  stacked, which counts in fields and in the values of records only.
-/

namespace DocShape

/-! ### Markers -/

/-- What a marker is around. -/
inductive Marks : Json → Json → Prop
  /-- A node without a tag around another one. -/
  | wrapper {members : Members} {inner : Json} : typeTag? members = none →
      firstGiven? members ["fieldType", "shape"] = some inner → Marks (.object members) inner
  /-- A node that is tagged as optional, in any case. -/
  | optional {members : Members} {inner : Json} : kind? members = some "optional" →
      firstGiven? members ["value", "shape", "inner"] = some inner → Marks (.object members) inner

/-- Whether a node is tagged as optional, in any case. -/
def isTaggedOptional (node : Json) : Bool := node.members?.bind kind? == some "optional"

/-- Whether a node says that what it describes may be left out: by its tag, or by a member
`optional: true`. -/
def saysOptional (node : Json) : Bool := isTaggedOptional node || isFlaggedOptional node

/-- A node that is no marker, not even one around nothing. -/
def IsPlain (node : Json) : Prop := isTaggedOptional node = false ∧ ∀ inner, ¬ Marks node inner

/-- A node that is tagged as optional, but around nothing. -/
def MarksNothing (node : Json) : Prop :=
  isTaggedOptional node = true ∧ ∀ inner, ¬ Marks node inner

section

variable {node outer inner : Json} {members : Members}

theorem isTaggedOptional_iff :
    isTaggedOptional (.object members) = true ↔ kind? members = some "optional" :=
  beq_iff_eq

theorem layer_of_isPlain (h : IsPlain node) : Layer.ofJson node = .core := by
  obtain ⟨htagged, hmarks⟩ := h
  cases node with
  | object members =>
    cases htag : typeTag? members with
    | some tag =>
      refine Layer.ofJson_of_typeTag htag fun hoptional => ?_
      have hkind : kind? members = some "optional" := by
        rw [kind?, htag, Option.map_some, hoptional]
      rw [isTaggedOptional_iff.2 hkind] at htagged
      cases htagged
    | none =>
      cases hinner : firstGiven? members ["fieldType", "shape"] with
      | some inner => exact absurd (.wrapper htag hinner) (hmarks inner)
      | none => simp only [Layer.ofJson, Json.members?, htag, hinner]
  | _ => rfl

theorem layer_of_marksNothing (h : MarksNothing node) : Layer.ofJson node = .optional none := by
  obtain ⟨htagged, hmarks⟩ := h
  cases node with
  | object members =>
    have hkind := isTaggedOptional_iff.1 htagged
    cases hinner : firstGiven? members ["value", "shape", "inner"] with
    | some inner => exact absurd (.optional hkind hinner) (hmarks inner)
    | none => rw [layer_of_kind hkind, hinner]
  | _ => cases htagged

theorem saysOptional_of_isPlain (h : IsPlain node) :
    saysOptional node = isFlaggedOptional node := by
  rw [saysOptional, h.1, Bool.false_or]

/-! ### Taking off one marker -/

namespace Peeled

/-- **One marker is taken off**, and what it says is kept. -/
theorem ofJson_of_marks (h : Marks outer inner) (room : Nat) :
    ofJson (room + 1) outer =
      ⟨saysOptional outer || (ofJson room inner).optional, (ofJson room inner).core⟩ := by
  cases h with
  | @wrapper members inner htag hinner =>
    have htagged : isTaggedOptional (.object members) = false := by
      show (kind? members == some "optional") = false
      rw [kind?, htag]
      rfl
    rw [ofJson_of_wrapper (Layer.ofJson_of_wrapped htag hinner), saysOptional, htagged,
      Bool.false_or]
  | @optional members inner hkind hinner =>
    rw [ofJson, layer_of_kind hkind, hinner, saysOptional, isTaggedOptional_iff.2 hkind]
    rfl

theorem ofJson_of_marksNothing (h : MarksNothing node) (room : Nat) :
    ofJson (room + 1) node = ⟨true, .error .optionalWithoutShape⟩ := by
  rw [ofJson, layer_of_marksNothing h]

end Peeled

end

/-! ### Taking off a chain -/

/-- The markers around a node, from the outside in. -/
inductive Chain : Json → List Json → Json → Prop
  | nil (node : Json) : Chain node [] node
  | cons {outer inner node : Json} {markers : List Json} :
      Marks outer inner → Chain inner markers node → Chain outer (outer :: markers) node

section

variable {outer node : Json} {markers : List Json}

/-- A chain may be cut after any number of markers. -/
theorem Chain.exists_take (h : Chain outer markers node) (count : Nat) :
    ∃ between, Chain outer (markers.take count) between ∧
      Chain between (markers.drop count) node := by
  induction h generalizing count with
  | nil node => exact ⟨node, by rw [List.take_nil]; exact .nil node,
      by rw [List.drop_nil]; exact .nil node⟩
  | @cons outer inner node markers hmarks hchain ih =>
    cases count with
    | zero => exact ⟨outer, .nil outer, .cons hmarks hchain⟩
    | succ count =>
      obtain ⟨between, hbefore, hafter⟩ := ih count
      exact ⟨between, .cons hmarks hbefore, hafter⟩

/-- **A chain is taken off as a whole**, if there is room for its markers: the node inside is peeled
with the room that is left, and what any marker says is kept. -/
theorem Peeled.ofJson_of_chain (h : Chain outer markers node) (room : Nat) :
    ofJson (markers.length + room) outer =
      ⟨markers.any saysOptional || (ofJson room node).optional, (ofJson room node).core⟩ := by
  induction h with
  | nil node => rw [List.length_nil, Nat.zero_add, List.any_nil, Bool.false_or]
  | @cons outer inner node markers hmarks _ ih =>
    have hroom : (outer :: markers).length + room = markers.length + room + 1 := by
      rw [List.length_cons]
      omega
    rw [hroom, ofJson_of_marks hmarks, ih, List.any_cons, Bool.or_assoc]

/-- A chain that is longer than the room is taken off in part, and no node is found. -/
theorem Peeled.ofJson_of_long_chain {room : Nat} (h : Chain outer markers node)
    (hroom : room ≤ markers.length) :
    ofJson room outer = ⟨(markers.take room).any saysOptional, .error .optionalTooDeep⟩ := by
  obtain ⟨between, hbefore, -⟩ := h.exists_take room
  have hlength : (markers.take room).length + 0 = room := by
    rw [List.length_take]
    omega
  have hpeeled := ofJson_of_chain hbefore 0
  rw [hlength] at hpeeled
  rw [hpeeled, ofJson, Bool.or_false]

end

/-! ### Loading through a chain -/

namespace Omittable

variable {settings : Settings} {outer node : Json} {markers : List Json}

/-- Loading depends on a node only through what is left of it without its markers. -/
theorem load_of_core_eq {flag : Bool} {core : Except NodeFault Json}
    (houter : Peeled.ofJson (settings.maxOptionalDepth + 1) outer = ⟨flag, core⟩)
    (hnode : (Peeled.ofJson (settings.maxOptionalDepth + 1) node).core = core) (room : Nat)
    (place : String) :
    load settings (room + 1) place outer =
      (fun found => ⟨found.shape, flag⟩) <$> load settings (room + 1) place node := by
  rw [load, load, houter, hnode, Noted.map_map]
  rfl

/-- A fault among the markers is all that is loaded. -/
theorem load_of_core_error {flag : Bool} {fault : NodeFault}
    (houter : Peeled.ofJson (settings.maxOptionalDepth + 1) outer = ⟨flag, .error fault⟩)
    (room : Nat) (place : String) :
    load settings (room + 1) place outer = ⟨⟨.any, flag⟩, [.nodeDegraded place fault]⟩ := by
  rw [load, houter]
  rfl

/-- **Within the budget a chain comes to the node inside**, with one flag for all of its nodes. -/
theorem load_of_chain (h : Chain outer markers node) (hnode : IsPlain node)
    (hmarkers : markers.length ≤ settings.maxOptionalDepth) (room : Nat) (place : String) :
    load settings (room + 1) place outer =
      (fun found => ⟨found.shape, (markers ++ [node]).any saysOptional⟩) <$>
        load settings (room + 1) place node := by
  have hcore := layer_of_isPlain hnode
  obtain ⟨rest, hrest⟩ := Nat.exists_eq_add_of_le hmarkers
  refine load_of_core_eq ?_ (by rw [Peeled.ofJson_of_core hcore]) room place
  rw [hrest, Nat.add_assoc, Peeled.ofJson_of_chain h, Peeled.ofJson_of_core hcore, List.any_append,
    List.any_cons, List.any_nil, Bool.or_false, saysOptional_of_isPlain hnode]

/-- **Past the budget the description is lost**, and the flag is what the markers said up to
there. -/
theorem load_of_long_chain (h : Chain outer markers node)
    (hmarkers : settings.maxOptionalDepth < markers.length) (room : Nat) (place : String) :
    load settings (room + 1) place outer =
      ⟨⟨.any, (markers.take (settings.maxOptionalDepth + 1)).any saysOptional⟩,
        [.nodeDegraded place .optionalTooDeep]⟩ :=
  load_of_core_error (Peeled.ofJson_of_long_chain h hmarkers) room place

/-- **A chain around nothing is read as `any`** that may be left out. -/
theorem load_of_chain_around_nothing (h : Chain outer markers node) (hnode : MarksNothing node)
    (hmarkers : markers.length ≤ settings.maxOptionalDepth) (room : Nat) (place : String) :
    load settings (room + 1) place outer =
      ⟨⟨.any, true⟩, [.nodeDegraded place .optionalWithoutShape]⟩ := by
  obtain ⟨rest, hrest⟩ := Nat.exists_eq_add_of_le hmarkers
  refine load_of_core_error ?_ room place
  rw [hrest, Nat.add_assoc, Peeled.ofJson_of_chain h, Peeled.ofJson_of_marksNothing hnode,
    Bool.or_true]

theorem required_eq (place : String) (found : Noted Omittable) :
    required place found = ⟨found.value.shape,
      found.notices ++ if found.value.optional then [.markerStripped place] else []⟩ := by
  refine Noted.ext (value_required place found) ?_
  rw [required]
  split
  · rw [Noted.notices_note, Noted.notices_map]
  · rw [Noted.notices_map, List.append_nil]

/-- **Markers fold into one flag.**  Within the budget, a chain of markers around a plain node is
loaded as the node alone, and it may be left out exactly if some node of the chain says so; past the
budget it is read as `any`, with what is said up to there; around nothing it is `any` that may be
left out.  So any two chains around a node give the same shape, and are loaded alike if both say
that it may be left out.  The flag counts in fields and in the values of records; where nothing can
be left out it is dropped with a notice. -/
theorem load_markers (h : Chain outer markers node) (room : Nat) (place : String) :
    (markers.length ≤ settings.maxOptionalDepth → IsPlain node →
      load settings (room + 1) place outer =
          (fun found => ⟨found.shape, (markers ++ [node]).any saysOptional⟩) <$>
            load settings (room + 1) place node ∧
        (∀ other others, Chain other others node → others.length ≤ settings.maxOptionalDepth →
          (load settings (room + 1) place other).value.shape =
              (load settings (room + 1) place outer).value.shape ∧
            ((markers ++ [node]).any saysOptional = true →
              (others ++ [node]).any saysOptional = true →
              load settings (room + 1) place other = load settings (room + 1) place outer)) ∧
        (∀ form : OpenForm, ((form.fill outer).load (load settings (room + 1)) place).value =
          (form.frame (load settings (room + 1)) place).fill
            ⟨(load settings (room + 1) (form.childPlace place) node).value.shape,
              (markers ++ [node]).any saysOptional⟩) ∧
        required place (load settings (room + 1) place outer) =
          ⟨(load settings (room + 1) place node).value.shape,
            (load settings (room + 1) place node).notices ++
              if (markers ++ [node]).any saysOptional then [.markerStripped place] else []⟩) ∧
    (settings.maxOptionalDepth < markers.length →
      load settings (room + 1) place outer =
        ⟨⟨.any, (markers.take (settings.maxOptionalDepth + 1)).any saysOptional⟩,
          [.nodeDegraded place .optionalTooDeep]⟩) ∧
    (markers.length ≤ settings.maxOptionalDepth → MarksNothing node →
      load settings (room + 1) place outer =
        ⟨⟨.any, true⟩, [.nodeDegraded place .optionalWithoutShape]⟩) := by
  refine ⟨?_, fun hlong => load_of_long_chain h hlong room place,
    fun hmarkers hnode => load_of_chain_around_nothing h hnode hmarkers room place⟩
  intro hmarkers hnode
  have hload := load_of_chain h hnode hmarkers room
  refine ⟨hload place, ?_, ?_, ?_⟩
  · intro other others hother hothers
    have hload' := load_of_chain hother hnode hothers room place
    refine ⟨by rw [hload', hload place, Noted.value_map, Noted.value_map], ?_⟩
    intro hsays hsays'
    rw [hload', hload place, hsays, hsays']
  · intro form
    rw [OpenForm.value_load_fill, hload, Noted.value_map]
  · rw [required_eq, hload place, Noted.value_map, Noted.notices_map]

end Omittable

/-! ### A chain of three -/

def stringNode : Json := .object [("type", .string "string")]

def flaggedWrapper : Json := .object [("fieldType", stringNode), ("optional", .bool true)]

def optionalMarker : Json := .object [("type", .string "Optional"), ("value", flaggedWrapper)]

/-- A field entry around an optional marker around a wrapper with a flag. -/
def markedEntry : Json := .object [("fieldName", .string "a"), ("shape", optionalMarker)]

theorem chain_markedEntry :
    Chain markedEntry [markedEntry, optionalMarker, flaggedWrapper] stringNode :=
  .cons (.wrapper rfl rfl) (.cons (.optional rfl rfl) (.cons (.wrapper rfl rfl) (.nil stringNode)))

theorem isPlain_stringNode : IsPlain stringNode := by
  refine ⟨rfl, ?_⟩
  rintro inner (⟨htag, -⟩ | ⟨hkind, -⟩)
  · exact absurd htag (by decide)
  · exact absurd hkind (by decide)

/-- An optional marker around nothing. -/
def emptyMarker : Json := .object [("type", .string "OPTIONAL"), ("value", .null)]

theorem marksNothing_emptyMarker : MarksNothing emptyMarker := by
  refine ⟨rfl, ?_⟩
  rintro inner (⟨htag, -⟩ | ⟨-, hinner⟩)
  · exact absurd htag (by decide)
  · cases hinner

/-- Three markers are folded with a budget of three and are too many for a budget of two; a wrapper
around an empty marker gives `any`. -/
theorem Omittable.load_markers_markedEntry :
    let emptyEntry : Json := .object [("shape", emptyMarker)]
    Chain markedEntry [markedEntry, optionalMarker, flaggedWrapper] stringNode ∧
      IsPlain stringNode ∧
      load { maxOptionalDepth := 3 } 1 "a" markedEntry = ⟨⟨.string, true⟩, []⟩ ∧
      load { maxOptionalDepth := 2 } 1 "a" markedEntry =
        ⟨⟨.any, true⟩, [.nodeDegraded "a" .optionalTooDeep]⟩ ∧
      Chain emptyEntry [emptyEntry] emptyMarker ∧ MarksNothing emptyMarker ∧
      load { maxOptionalDepth := 2 } 1 "a" emptyEntry =
        ⟨⟨.any, true⟩, [.nodeDegraded "a" .optionalWithoutShape]⟩ := by
  intro emptyEntry
  have hempty : Chain emptyEntry [emptyEntry] emptyMarker :=
    .cons (.wrapper rfl rfl) (.nil emptyMarker)
  refine ⟨chain_markedEntry, isPlain_stringNode, ?_, ?_, hempty, marksNothing_emptyMarker, ?_⟩
  · exact ((load_markers chain_markedEntry 0 "a").1 (by decide) isPlain_stringNode).1
  · exact (load_markers chain_markedEntry 0 "a").2.1 (by decide)
  · exact (load_markers hempty 0 "a").2.2 (by decide) marksNothing_emptyMarker

end DocShape
