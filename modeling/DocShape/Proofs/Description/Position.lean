import DocShape.Proofs.Description.Inhabited
import DocShape.Proofs.Description.Loading
import DocShape.Proofs.Json.Replacing
import DocShape.Proofs.Shape.Context

/-!
# Positions in a description

A description holds further descriptions: in its markers, and as the element of an
array, the entries of an object, the keys and the values of a record or the variants
of a union.  Each stands at the end of a path of steps into the JSON value.

* `OpenForm`: what one node describes, with the node of one part left open.
* `PartAt`: where the parts of a node stand.
* `PartAt.ofJson_eq`, `PartAt.exists_of_ofJson`: these are the parts that are read off
  the node.
* `PartAt.updateAt`: changing a part changes nothing else about the node.
* `Leads`: **the positions that loading comes to**, each with the part of the loaded
  shape that it is read for.
-/

namespace DocShape

/-! ### Members under one of several names -/

namespace Members

/-- The first of the names that is there at all, with its member. -/
def given? (members : Members) (names : List String) : Option (String × Json) :=
  names.findSome? fun name => (members.lookup name).map fun value => (name, value)

variable {members : Members} {names : List String} {key : String} {value : Json}

theorem mem_of_given? (h : members.given? names = some (key, value)) :
    key ∈ names ∧ members.lookup key = some value := by
  obtain ⟨name, hname, hfound⟩ := List.exists_of_findSome?_eq_some h
  obtain ⟨found, hlookup, heq⟩ := Option.map_eq_some_iff.1 hfound
  cases heq
  exact ⟨hname, hlookup⟩

theorem firstGiven?_eq (members : Members) (names : List String) :
    firstGiven? members names =
      ((members.given? names).map (·.2)).filter fun value => !value.isNull := by
  rw [firstGiven?, given?]
  congr 1
  induction names with
  | nil => rfl
  | cons name rest ih =>
    rw [List.findSome?_cons, List.findSome?_cons]
    cases members.lookup name with
    | none => exact ih
    | some value => rfl

theorem firstGiven?_of_given? (h : members.given? names = some (key, value))
    (hvalue : value ≠ .null) : firstGiven? members names = some value := by
  have hnull : value.isNull = false := by cases value <;> simp_all [Json.isNull]
  simp [firstGiven?_eq, h, hnull]

theorem exists_given?_of_firstGiven? (h : firstGiven? members names = some value) :
    ∃ key, members.given? names = some (key, value) := by
  rw [firstGiven?_eq] at h
  obtain ⟨⟨key, found⟩, hgiven, rfl⟩ :=
    Option.map_eq_some_iff.1 (Option.eq_some_of_filter_eq_some h)
  exact ⟨key, hgiven⟩

/-- A member that is given is still given with another value. -/
theorem given?_put (h : members.given? names = some (key, value)) (new : Json) :
    (members.put key new).given? names = some (key, new) := by
  induction names with
  | nil => cases h
  | cons name rest ih =>
    rw [given?, List.findSome?_cons] at h ⊢
    by_cases hname : name = key
    · subst hname
      rw [lookup_put_self]
      rfl
    · rw [lookup_put_of_ne hname]
      cases hlookup : members.lookup name with
      | none =>
        rw [hlookup] at h
        exact ih h
      | some found =>
        rw [hlookup] at h
        cases h
        exact absurd rfl hname

/-- Under other names nothing is given anew. -/
theorem firstGiven?_put_of_given? (h : members.given? names = some (key, value))
    {others : List String} (hothers : ∀ name ∈ names, name ∉ others) (new : Json) :
    firstGiven? (members.put key new) others = firstGiven? members others := by
  have hkey := hothers key (mem_of_given? h).1
  clear hothers
  rw [firstGiven?, firstGiven?]
  congr 1
  induction others with
  | nil => rfl
  | cons name rest ih =>
    rw [List.mem_cons, not_or] at hkey
    rw [List.findSome?_cons, List.findSome?_cons, lookup_put_of_ne (Ne.symm hkey.1), ih hkey.2]

end Members

/-- The tag of a node, in lower case. -/
def kind? (members : Members) : Option String := (typeTag? members).map lowerTag

/-! ### Parts of a node -/

/-- What one node describes, with the node of one part left open. -/
inductive OpenForm where
  | element
  | entry (before : List (Option String × Json)) (name : String)
    (after : List (Option String × Json))
  | key (values : Json)
  | value (keys : Json)
  | variant (before after : List Json)

namespace OpenForm

def fill : OpenForm → Json → Form
  | element, node => .array node
  | entry before name after, node => .object (before ++ (some name, node) :: after)
  | key values, node => .record node values
  | value keys, node => .record keys node
  | variant before after, node => .union (before ++ node :: after)

/-- The part of the loaded shape that the open node is read for. Entries without a name give no
field. -/
def part : OpenForm → Shape.Part
  | element => .element
  | entry before _ _ => .field (before.filterMap (·.1)).length
  | key _ => .key
  | value _ => .value
  | variant before _ => .variant before.length

/-- Whether the open node is an entry, which may hold its name beside its description. -/
def IsEntry : OpenForm → Prop
  | entry _ _ _ => True
  | _ => False

end OpenForm

/-- Where a part of a node stands: the path to it, and all else that the node describes. -/
inductive PartAt : Json → List Step → OpenForm → Json → Prop
  | element {members : Members} {name : String} {node : Json} :
      kind? members = some "array" →
      members.given? ["value", "element", "shape"] = some (name, node) →
      PartAt (.object members) [.member name] .element node
  | key {members : Members} {name : String} {node values : Json} :
      kind? members = some "record" →
      members.given? ["keys", "keyShape"] = some (name, node) →
      firstGiven? members ["values", "valueShape"] = some values →
      PartAt (.object members) [.member name] (.key values) node
  | value {members : Members} {name : String} {node keys : Json} :
      kind? members = some "record" →
      members.given? ["values", "valueShape"] = some (name, node) →
      firstGiven? members ["keys", "keyShape"] = some keys →
      PartAt (.object members) [.member name] (.value keys) node
  | variant {members : Members} {name : String} {before after : List Json} {node : Json} :
      kind? members = some "union" →
      members.given? ["value", "variants", "shapes"] =
        some (name, .array (before ++ node :: after)) →
      PartAt (.object members) [.member name, .item before.length] (.variant before after) node
  /-- An entry in a map of fields. -/
  | mapEntry {members before after : Members} {name fieldName : String} {node : Json} :
      kind? members = some "object" →
      members.given? ["value", "fields"] =
        some (name, .object (before ++ (fieldName, node) :: after)) →
      fieldName ∉ before.map (·.1) →
      PartAt (.object members) [.member name, .member fieldName]
        (.entry (before.map fun entry => (some entry.1, entry.2)) fieldName
          (after.map fun entry => (some entry.1, entry.2))) node
  /-- An entry in a list of fields. -/
  | listEntry {members : Members} {name fieldName : String} {before after : List Json}
      {node : Json} :
      kind? members = some "object" →
      members.given? ["value", "fields"] = some (name, .array (before ++ node :: after)) →
      (Form.listEntry node).1 = some fieldName →
      PartAt (.object members) [.member name, .item before.length]
        (.entry (before.map Form.listEntry) fieldName (after.map Form.listEntry)) node

/-! ### Steps into a description -/

/-- The names under which a node holds other nodes. -/
def partNames : List String :=
  ["fieldType", "shape", "value", "inner", "element", "fields", "keys", "keyShape", "values",
    "valueShape", "variants", "shapes"]

theorem Members.mem_partNames {members : Members} {names : List String} {key : String}
    {value : Json} (h : members.given? names = some (key, value)) (hnames : names ⊆ partNames) :
    key ∈ partNames :=
  hnames (mem_of_given? h).1

/-- Below no part is there a tag, a flag or the name of an entry. -/
theorem ne_of_mem_partNames {key : String} (h : key ∈ partNames) :
    "type" ≠ key ∧ "optional" ≠ key ∧ "fieldName" ≠ key ∧ "name" ≠ key := by
  revert key
  decide

section

variable {node child : Json} {steps : List Step} {form : OpenForm}

theorem PartAt.exists_steps_eq (h : PartAt node steps form child) :
    ∃ key rest, key ∈ partNames ∧ steps = .member key :: rest := by
  cases h with
  | element _ hgiven => exact ⟨_, _, Members.mem_partNames hgiven (by decide), rfl⟩
  | key _ hgiven _ => exact ⟨_, _, Members.mem_partNames hgiven (by decide), rfl⟩
  | value _ hgiven _ => exact ⟨_, _, Members.mem_partNames hgiven (by decide), rfl⟩
  | variant _ hgiven => exact ⟨_, _, Members.mem_partNames hgiven (by decide), rfl⟩
  | mapEntry _ hgiven _ => exact ⟨_, _, Members.mem_partNames hgiven (by decide), rfl⟩
  | listEntry _ hgiven _ => exact ⟨_, _, Members.mem_partNames hgiven (by decide), rfl⟩

end

/-! ### A node and one of its parts -/

section

variable {members : Members} {kind key : String} {new : Json}

theorem ofJson_of_kind (h : kind? members = some kind) (hkind : kind ≠ "optional") :
    Layer.ofJson (.object members) = .core ∧
      Form.ofJson (.object members) = Form.ofTag kind members := by
  obtain ⟨tag, htag, rfl⟩ := Option.map_eq_some_iff.1 h
  exact ⟨Layer.ofJson_of_typeTag htag hkind, Form.ofJson_of_typeTag htag⟩

namespace Form

theorem part_eq_ok {α : Type} {found : Option α} {fault : NodeFault} {value : α}
    (h : part found fault = .ok value) : found = some value := by
  cases found with
  | none => cases h
  | some found => exact congrArg some (Except.ok.inj h)

theorem ofTag_array {element : Json}
    (h : firstGiven? members ["value", "element", "shape"] = some element) :
    ofTag "array" members = .ok (.array element) := by
  rw [ofTag, h]
  rfl

theorem ofTag_object {fields : Json} {entries : List (Option String × Json)}
    (hfields : firstGiven? members ["value", "fields"] = some fields)
    (hentries : entries? fields = some entries) :
    ofTag "object" members = .ok (.object entries) := by
  rw [ofTag, hfields, Option.bind_some, hentries]
  rfl

theorem ofTag_record {keys values : Json}
    (hkeys : firstGiven? members ["keys", "keyShape"] = some keys)
    (hvalues : firstGiven? members ["values", "valueShape"] = some values) :
    ofTag "record" members = .ok (.record keys values) := by
  rw [ofTag, hkeys, hvalues]
  rfl

theorem ofTag_union {variants : List Json}
    (h : firstGiven? members ["value", "variants", "shapes"] = some (.array variants))
    (hne : variants ≠ []) : ofTag "union" members = .ok (.union variants) := by
  obtain ⟨first, rest, rfl⟩ := List.exists_cons_of_ne_nil hne
  rw [ofTag, h]
  rfl

end Form

theorem typeTag?_put (h : key ∈ partNames) : typeTag? (members.put key new) = typeTag? members := by
  rw [typeTag?, typeTag?, Members.lookup_put_of_ne (ne_of_mem_partNames h).1]

theorem kind?_put (h : key ∈ partNames) : kind? (members.put key new) = kind? members := by
  rw [kind?, kind?, typeTag?_put h]

theorem isFlaggedOptional_put (h : key ∈ partNames) :
    isFlaggedOptional (.object (members.put key new)) = isFlaggedOptional (.object members) := by
  have hlookup : (members.put key new).lookup "optional" = members.lookup "optional" :=
    Members.lookup_put_of_ne (ne_of_mem_partNames h).2.1
  show (((members.put key new).lookup "optional").bind Json.bool?).getD false = _
  rw [hlookup]
  rfl

theorem layer_of_wrapper (htag : typeTag? members = none)
    (hgiven : members.given? ["fieldType", "shape"] = some (key, new)) (hnew : new ≠ .null) :
    Layer.ofJson (.object members) = .wrapper new :=
  Layer.ofJson_of_wrapped htag (Members.firstGiven?_of_given? hgiven hnew)

theorem layer_of_kind (hkind : kind? members = some "optional") :
    Layer.ofJson (.object members) =
      .optional (firstGiven? members ["value", "shape", "inner"]) := by
  obtain ⟨tag, htag, hoptional⟩ := Option.map_eq_some_iff.1 hkind
  simp only [Layer.ofJson, Json.members?, htag, if_pos hoptional]

theorem layer_of_optional (hkind : kind? members = some "optional")
    (hgiven : members.given? ["value", "shape", "inner"] = some (key, new)) (hnew : new ≠ .null) :
    Layer.ofJson (.object members) = .optional (some new) := by
  rw [layer_of_kind hkind, Members.firstGiven?_of_given? hgiven hnew]

end

namespace PartAt

variable {node child : Json} {steps : List Step} {form : OpenForm}

/-- **A node with a part is read as a form with that part.** -/
theorem ofJson_eq (h : PartAt node steps form child) (hchild : child ≠ .null) :
    Layer.ofJson node = .core ∧ Form.ofJson node = .ok (form.fill child) := by
  cases h with
  | element hkind hgiven =>
    obtain ⟨hlayer, hform⟩ := ofJson_of_kind hkind (by decide)
    have helement := Members.firstGiven?_of_given? hgiven hchild
    exact ⟨hlayer, hform.trans (Form.ofTag_array helement)⟩
  | key hkind hgiven hvalues =>
    obtain ⟨hlayer, hform⟩ := ofJson_of_kind hkind (by decide)
    have hkeys := Members.firstGiven?_of_given? hgiven hchild
    exact ⟨hlayer, hform.trans (Form.ofTag_record hkeys hvalues)⟩
  | value hkind hgiven hkeys =>
    obtain ⟨hlayer, hform⟩ := ofJson_of_kind hkind (by decide)
    have hvalues := Members.firstGiven?_of_given? hgiven hchild
    exact ⟨hlayer, hform.trans (Form.ofTag_record hkeys hvalues)⟩
  | variant hkind hgiven =>
    obtain ⟨hlayer, hform⟩ := ofJson_of_kind hkind (by decide)
    have hvariants := Members.firstGiven?_of_given? hgiven Json.noConfusion
    exact ⟨hlayer, hform.trans (Form.ofTag_union hvariants (by simp))⟩
  | mapEntry hkind hgiven _ =>
    obtain ⟨hlayer, hform⟩ := ofJson_of_kind hkind (by decide)
    have hfields := Members.firstGiven?_of_given? hgiven Json.noConfusion
    refine ⟨hlayer, hform.trans (Form.ofTag_object hfields ?_)⟩
    rw [Form.entries?, List.map_append, List.map_cons]
  | listEntry hkind hgiven hname =>
    obtain ⟨hlayer, hform⟩ := ofJson_of_kind hkind (by decide)
    have hfields := Members.firstGiven?_of_given? hgiven Json.noConfusion
    have hentry : Form.listEntry child = (some _, child) := Prod.ext hname rfl
    refine ⟨hlayer, hform.trans (Form.ofTag_object hfields ?_)⟩
    rw [Form.entries?, List.map_append, List.map_cons, hentry]

section

variable {members : Members} {child : Json}

/-- Every entry with a name stands somewhere in the fields of an object. -/
theorem exists_of_entries {key name : String} {fields : Json}
    {before after : List (Option String × Json)} (hkind : kind? members = some "object")
    (hgiven : members.given? ["value", "fields"] = some (key, fields))
    (hdistinct : ∀ entries, fields = .object entries → (entries.map (·.1)).Nodup)
    (h : Form.entries? fields = some (before ++ (some name, child) :: after)) :
    ∃ steps, PartAt (.object members) steps (.entry before name after) child := by
  cases fields with
  | object entries =>
    obtain ⟨first, last, rfl, rfl, hlast⟩ := List.map_eq_append_iff.1 (Option.some.inj h)
    obtain ⟨⟨fieldName, entry⟩, rest, rfl, hentry, rfl⟩ := List.map_eq_cons_iff.1 hlast
    cases hentry
    have hfirst : name ∉ first.map (·.1) := by
      have hnames := hdistinct _ rfl
      rw [List.map_append, List.map_cons, List.nodup_append] at hnames
      intro hmem
      exact hnames.2.2 name hmem name List.mem_cons_self rfl
    exact ⟨_, .mapEntry hkind hgiven hfirst⟩
  | array entries =>
    obtain ⟨first, last, rfl, rfl, hlast⟩ := List.map_eq_append_iff.1 (Option.some.inj h)
    obtain ⟨entry, rest, rfl, hentry, rfl⟩ := List.map_eq_cons_iff.1 hlast
    obtain rfl : entry = child := congrArg Prod.snd hentry
    exact ⟨_, .listEntry hkind hgiven (congrArg Prod.fst hentry)⟩
  | _ => cases h

theorem exists_of_ofTag {tag : String} {form : OpenForm} (hkind : kind? members = some tag)
    (hdistinct : ∀ name entries, members.lookup name = some (.object entries) →
      (entries.map (·.1)).Nodup)
    (h : Form.ofTag tag members = .ok (form.fill child)) :
    ∃ steps, PartAt (.object members) steps form child := by
  unfold Form.ofTag at h
  split at h
  -- the array
  case h_15 =>
    obtain ⟨element, helement, h⟩ := exists_of_bind_eq_ok h
    obtain ⟨key, hgiven⟩ := Members.exists_given?_of_firstGiven? (Form.part_eq_ok helement)
    cases form <;> cases h
    exact ⟨_, .element hkind hgiven⟩
  -- the object
  case h_16 =>
    obtain ⟨entries, hentries, h⟩ := exists_of_bind_eq_ok h
    obtain ⟨fields, hfields, hread⟩ := Option.bind_eq_some_iff.1 (Form.part_eq_ok hentries)
    obtain ⟨key, hgiven⟩ := Members.exists_given?_of_firstGiven? hfields
    cases form <;> cases h
    refine exists_of_entries hkind hgiven ?_ hread
    rintro _ rfl
    exact hdistinct key _ (Members.mem_of_given? hgiven).2
  -- the record
  case h_17 =>
    obtain ⟨keys, hkeys, h⟩ := exists_of_bind_eq_ok h
    obtain ⟨values, hvalues, h⟩ := exists_of_bind_eq_ok h
    replace hkeys := Form.part_eq_ok hkeys
    replace hvalues := Form.part_eq_ok hvalues
    cases form <;> cases h
    · obtain ⟨name, hgiven⟩ := Members.exists_given?_of_firstGiven? hkeys
      exact ⟨_, .key hkind hgiven hvalues⟩
    · obtain ⟨name, hgiven⟩ := Members.exists_given?_of_firstGiven? hvalues
      exact ⟨_, .value hkind hgiven hkeys⟩
  -- the union
  case h_18 =>
    split at h
    next first rest hvariants =>
      obtain ⟨items, hfound, hread⟩ := Option.bind_eq_some_iff.1 hvariants
      obtain ⟨key, hgiven⟩ := Members.exists_given?_of_firstGiven? hfound
      cases items with
      | array items =>
        cases hread
        cases form with
        | variant before after =>
          have hitems : first :: rest = before ++ child :: after :=
            Form.union.inj (Except.ok.inj h)
          rw [hitems] at hgiven
          exact ⟨_, .variant hkind hgiven⟩
        | _ => cases h
      | _ => cases hread
    · cases h
  -- the leaves with data, and then those without
  case h_13 | h_14 =>
    obtain ⟨_, _, h⟩ := exists_of_bind_eq_ok h
    cases form <;> cases h
  all_goals cases form <;> cases h

/-- **Every part that is read off a node stands somewhere in it**, as long as no object directly
inside has two members of one name. -/
theorem exists_of_ofJson {node : Json} {form : OpenForm}
    (hdistinct : ∀ name entries, node.get? name = some (.object entries) →
      (entries.map (·.1)).Nodup)
    (h : Form.ofJson node = .ok (form.fill child)) : ∃ steps, PartAt node steps form child := by
  obtain ⟨members, hmembers, hrest⟩ := exists_of_bind_eq_ok h
  obtain ⟨tag, htag, hform⟩ := exists_of_bind_eq_ok hrest
  cases node with
  | object entries =>
    cases hmembers
    exact exists_of_ofTag (congrArg (Option.map lowerTag) (Form.part_eq_ok htag)) hdistinct hform
  | _ => cases hmembers

end

/-- **A changed part is still a part**, of a node that describes the same otherwise; an entry in a
list has to keep its name. -/
theorem updateAt {update : Json → Json} (h : PartAt node steps form child)
    (hname : form.IsEntry → (Form.listEntry (update child)).1 = (Form.listEntry child).1) :
    PartAt (node.updateAt update steps) steps form (update child) := by
  cases h with
  | element hkind hgiven =>
    have hkey := Members.mem_partNames hgiven (by decide)
    rw [Json.updateAt_member (Members.mem_of_given? hgiven).2]
    exact .element ((kind?_put hkey).trans hkind) (Members.given?_put hgiven _)
  | key hkind hgiven hvalues =>
    have hkey := Members.mem_partNames hgiven (by decide)
    rw [Json.updateAt_member (Members.mem_of_given? hgiven).2]
    exact .key ((kind?_put hkey).trans hkind) (Members.given?_put hgiven _)
      ((Members.firstGiven?_put_of_given? hgiven (by decide) _).trans hvalues)
  | value hkind hgiven hkeys =>
    have hkey := Members.mem_partNames hgiven (by decide)
    rw [Json.updateAt_member (Members.mem_of_given? hgiven).2]
    exact .value ((kind?_put hkey).trans hkind) (Members.given?_put hgiven _)
      ((Members.firstGiven?_put_of_given? hgiven (by decide) _).trans hkeys)
  | variant hkind hgiven =>
    have hkey := Members.mem_partNames hgiven (by decide)
    rw [Json.updateAt_member (Members.mem_of_given? hgiven).2, Json.updateAt_item]
    exact .variant ((kind?_put hkey).trans hkind) (Members.given?_put hgiven _)
  | mapEntry hkind hgiven hfirst =>
    have hkey := Members.mem_partNames hgiven (by decide)
    rw [Json.updateAt_member (Members.mem_of_given? hgiven).2,
      Json.updateAt_member (Members.lookup_append_cons hfirst), Members.put_append_cons hfirst]
    exact .mapEntry ((kind?_put hkey).trans hkind) (Members.given?_put hgiven _) hfirst
  | listEntry hkind hgiven hentry =>
    have hkey := Members.mem_partNames hgiven (by decide)
    rw [Json.updateAt_member (Members.mem_of_given? hgiven).2, Json.updateAt_item]
    exact .listEntry ((kind?_put hkey).trans hkind) (Members.given?_put hgiven _)
      ((hname trivial).trans hentry)

theorem isFlaggedOptional_updateAt {update : Json → Json} (h : PartAt node steps form child) :
    isFlaggedOptional (node.updateAt update steps) = isFlaggedOptional node := by
  obtain ⟨key, rest, hkey, rfl⟩ := h.exists_steps_eq
  rw [isFlaggedOptional, isFlaggedOptional,
    Json.get?_updateAt_of_ne (ne_of_mem_partNames hkey).2.1]

end PartAt

/-! ### Positions -/

/-- **The positions that loading comes to**, from a node with so many levels of nodes to load and
so many nodes to look at for markers: the path to what stands there, which is not `null`, and the
part of the loaded shape that it is read for.  An entry as a whole is none, as it may hold its name,
but what it is wrapped around is. -/
inductive Leads (settings : Settings) :
    (room markers : Nat) → Json → List Step → List Shape.Part → Prop
  | here {room markers : Nat} {node : Json} : node ≠ .null → Leads settings room markers node [] []
  /-- Into a node without a tag around another one. -/
  | wrapper {room markers : Nat} {members : Members} {name : String} {inner : Json}
      {path : List Step} {parts : List Shape.Part} :
      typeTag? members = none →
      members.given? ["fieldType", "shape"] = some (name, inner) →
      Leads settings room markers inner path parts →
      Leads settings room (markers + 1) (.object members) (.member name :: path) parts
  /-- Into a node that is tagged as optional. -/
  | optional {room markers : Nat} {members : Members} {name : String} {inner : Json}
      {path : List Step} {parts : List Shape.Part} :
      kind? members = some "optional" →
      members.given? ["value", "shape", "inner"] = some (name, inner) →
      Leads settings room markers inner path parts →
      Leads settings room (markers + 1) (.object members) (.member name :: path) parts
  /-- Into a part of a node without markers. -/
  | part {room markers : Nat} {node child : Json} {steps path : List Step} {form : OpenForm}
      {parts : List Shape.Part} :
      PartAt node steps form child →
      (form.IsEntry → path ≠ []) →
      Leads settings room (settings.maxOptionalDepth + 1) child path parts →
      Leads settings (room + 1) (markers + 1) node (steps ++ path) (form.part :: parts)

theorem Leads.exists_path_eq {settings : Settings} {room markers : Nat} {node : Json}
    {path : List Step} {parts : List Shape.Part}
    (h : Leads settings room markers node path parts)
    (hpath : path ≠ []) : ∃ key rest, key ∈ partNames ∧ path = .member key :: rest := by
  cases h with
  | here => exact absurd rfl hpath
  | wrapper _ hgiven _ => exact ⟨_, _, Members.mem_partNames hgiven (by decide), rfl⟩
  | optional _ hgiven _ => exact ⟨_, _, Members.mem_partNames hgiven (by decide), rfl⟩
  | part hpart _ _ =>
    obtain ⟨key, rest, hkey, rfl⟩ := hpart.exists_steps_eq
    exact ⟨key, _, hkey, rfl⟩

end DocShape
