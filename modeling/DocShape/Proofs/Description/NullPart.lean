import DocShape.Proofs.Description.Reading

/-!
# Members that are `null`

A part of a node may stand under several names.  Of these the first that is there at
all is looked at, and if its member is `null`, there is no such part, whatever stands
under the names after it.  So a member that is `null` counts as absent as long as it
hides no part: taking it away does not change the loaded shape.  Where it hides a
part, the node is read as `any`.

* `Members.Hides`: a `null` before a member that is not.
* `HidesPart`: the same for the names that a node with its tag is read under.
* `Shape.ofJson_withoutNull`: **a `null` is as good as absent where it hides no part**.
* `Shape.exists_hiddenPart`: an array that loses its element to a `null`.
-/

namespace DocShape

/-! ### Members without one of them -/

namespace Members

variable {members : Members} {names : List String} {key name : String}

/-- If the first of the names that is there is another one, it still is without the member. -/
theorem given?_without (h : ∀ value, members.given? names ≠ some (key, value)) :
    (members.without key).given? names = members.given? names := by
  induction names with
  | nil => rfl
  | cons name rest ih =>
    simp only [given?, List.findSome?_cons] at h ih ⊢
    by_cases hname : name = key
    · subst hname
      rw [lookup_without_self]
      cases hlookup : members.lookup name with
      | none =>
        rw [hlookup] at h
        exact ih h
      | some value =>
        rw [hlookup] at h
        exact absurd rfl (h value)
    · rw [lookup_without_of_ne hname]
      cases hlookup : members.lookup name with
      | none =>
        rw [hlookup] at h
        exact ih h
      | some value => rfl

/-- Whether a member is `null` and is looked at in the place of one that is not. -/
def Hides (members : Members) (key : String) (names : List String) : Prop :=
  members.given? names = some (key, .null) ∧
    ∃ name value, (members.without key).given? names = some (name, value) ∧ value ≠ .null

theorem firstGiven?_of_given?_null (h : members.given? names = some (key, .null)) :
    firstGiven? members names = none := by
  rw [firstGiven?_eq, h]
  rfl

/-- **A member that is `null` and hides nothing is as good as absent.** -/
theorem firstGiven?_without (hnull : members.lookup key = some .null)
    (h : ¬ members.Hides key names) :
    firstGiven? (members.without key) names = firstGiven? members names := by
  by_cases hgiven : members.given? names = some (key, .null)
  · rw [firstGiven?_of_given?_null hgiven, firstGiven?_eq]
    cases hnext : (members.without key).given? names with
    | none => rfl
    | some next =>
      obtain ⟨name, value⟩ := next
      have hvalue : value = .null := by
        by_contra hne
        exact h ⟨hgiven, name, value, hnext, hne⟩
      rw [hvalue]
      rfl
  · rw [firstGiven?_eq, firstGiven?_eq, given?_without]
    intro value hvalue
    obtain rfl : value = .null := by
      have hlookup := (mem_of_given? hvalue).2
      rw [hnull] at hlookup
      exact (Option.some.inj hlookup).symm
    exact hgiven hvalue

end Members

/-! ### The names of the parts -/

/-- The names under which the parts of a node with a tag in lower case are looked for, one list for
each part; a node without a tag may be a wrapper. -/
def namesOfParts : Option String → List (List String)
  | none => [["fieldType", "shape"]]
  | some "optional" => [["value", "shape", "inner"]]
  | some "array" => [["value", "element", "shape"]]
  | some "object" => [["value", "fields"]]
  | some "record" => [["keys", "keyShape"], ["values", "valueShape"]]
  | some "union" => [["value", "variants", "shapes"]]
  | some _ => []

/-- Whether a member is `null` and hides a part of the node. -/
def HidesPart (members : Members) (key : String) : Prop :=
  ∃ names ∈ namesOfParts (kind? members), members.Hides key names

/-! ### Nodes that hide no part -/

section

variable {members changed : Members} {key : String}

theorem Form.ofJson_of_noTag (h : typeTag? members = none) :
    Form.ofJson (.object members) = .error .noTypeTag := by
  show (part (typeTag? members) .noTypeTag >>= fun tag => ofTag (lowerTag tag) members) = _
  rw [h]
  rfl

/-- What a node describes depends on the members that its tag looks for, and on no others. -/
theorem Form.ofTag_congr {tag : String}
    (hparts : ∀ names ∈ namesOfParts (some tag),
      firstGiven? changed names = firstGiven? members names)
    (hvalue : (changed.lookup "value").bind Literal.ofJson? =
      (members.lookup "value").bind Literal.ofJson?)
    (htable : changed.lookup "tableName" = members.lookup "tableName") :
    ofTag tag changed = ofTag tag members := by
  unfold ofTag
  split
  -- the literal and the reference
  case h_13 => simp only [hvalue]
  case h_14 => simp only [htable]
  -- the array, the object, the record and the union
  case h_15 => simp only [hparts _ List.mem_cons_self]
  case h_16 => simp only [hparts _ List.mem_cons_self]
  case h_17 =>
    simp only [hparts _ List.mem_cons_self, hparts _ (List.mem_cons_of_mem _ List.mem_cons_self)]
  case h_18 => simp only [hparts _ List.mem_cons_self]
  all_goals rfl

theorem Layer.ofJson_congr (htag : typeTag? changed = typeTag? members)
    (hparts : ∀ names ∈ namesOfParts (kind? members),
      firstGiven? changed names = firstGiven? members names) :
    Layer.ofJson (.object changed) = Layer.ofJson (.object members) := by
  rw [kind?] at hparts
  simp only [Layer.ofJson, Json.members?, htag]
  cases hfound : typeTag? members with
  | none =>
    rw [hfound] at hparts
    simp only [hparts _ List.mem_cons_self]
  | some tag =>
    rw [hfound, Option.map_some] at hparts
    dsimp only
    split
    · next hoptional =>
      rw [hoptional] at hparts
      rw [hparts _ List.mem_cons_self]
    · rfl

theorem Form.ofJson_congr (htag : typeTag? changed = typeTag? members)
    (hparts : ∀ names ∈ namesOfParts (kind? members),
      firstGiven? changed names = firstGiven? members names)
    (hvalue : (changed.lookup "value").bind Literal.ofJson? =
      (members.lookup "value").bind Literal.ofJson?)
    (htable : changed.lookup "tableName" = members.lookup "tableName") :
    Form.ofJson (.object changed) = Form.ofJson (.object members) := by
  rw [kind?] at hparts
  cases hfound : typeTag? members with
  | none => rw [ofJson_of_noTag hfound, ofJson_of_noTag (htag.trans hfound)]
  | some tag =>
    rw [hfound] at hparts
    rw [Form.ofJson_of_typeTag hfound, Form.ofJson_of_typeTag (htag.trans hfound)]
    exact Form.ofTag_congr hparts hvalue htable

/-- Nodes that are the same for their markers, for what they describe and for their flag are found
alike. -/
theorem Omittable.found_congr {settings : Settings} {old new : Json}
    (hlayer : Layer.ofJson new = Layer.ofJson old) (hform : Form.ofJson new = Form.ofJson old)
    (hflag : isFlaggedOptional new = isFlaggedOptional old) (room markers : Nat) (place : String) :
    found settings room markers place new = found settings room markers place old := by
  cases room with
  | zero => rfl
  | succ room =>
    cases markers with
    | zero => rfl
    | succ markers =>
      rw [found, found, Peeled.ofJson, Peeled.ofJson, hlayer, hflag]
      cases Layer.ofJson old with
      | core => simp only [Except.bind, hform]
      | wrapper inner => rfl
      | optional inner? => cases inner? <;> rfl

/-- **Without a member that is `null` and hides no part, a node is read alike.** -/
theorem ReadAlike.without {settings : Settings} (hkey : key ∈ partNames)
    (hnull : members.lookup key = some .null) (h : ¬ HidesPart members key) :
    ReadAlike settings (.object members) (.object (members.without key)) := by
  obtain ⟨htype, hoptional, hfieldName, hname⟩ := ne_of_mem_partNames hkey
  have htable : "tableName" ≠ key := by
    rintro rfl
    exact absurd hkey (by decide)
  have htag : typeTag? (members.without key) = typeTag? members := by
    rw [typeTag?, typeTag?, Members.lookup_without_of_ne htype]
  have hparts : ∀ names ∈ namesOfParts (kind? members),
      firstGiven? (members.without key) names = firstGiven? members names :=
    fun names hnames => Members.firstGiven?_without hnull fun hhides => h ⟨names, hnames, hhides⟩
  have hvalue : ((members.without key).lookup "value").bind Literal.ofJson? =
      (members.lookup "value").bind Literal.ofJson? := by
    by_cases hvalue : "value" = key
    · rw [hvalue, Members.lookup_without_self, hnull]
      rfl
    · rw [Members.lookup_without_of_ne hvalue]
  have hflag : isFlaggedOptional (.object (members.without key)) =
      isFlaggedOptional (.object members) := by
    simp only [isFlaggedOptional, Json.get?, Json.members?, Option.bind_some,
      Members.lookup_without_of_ne hoptional]
  refine ⟨?_, ?_, Json.noConfusion, Json.noConfusion⟩
  · intro room markers place
    exact (Omittable.found_congr (Layer.ofJson_congr htag hparts)
      (Form.ofJson_congr htag hparts hvalue (Members.lookup_without_of_ne htable)) hflag
      room markers place).symm
  · simp only [Form.listEntry, Json.get?, Json.members?, Option.bind_some,
      Members.lookup_without_of_ne hfieldName, Members.lookup_without_of_ne hname]

/-! ### Nodes that hide a part -/

theorem Omittable.shape_found_of_kind {settings : Settings} {tag : String} {fault : NodeFault}
    (hkind : kind? members = some tag) (htag : tag ≠ "optional")
    (hform : Form.ofTag tag members = .error fault) (room markers : Nat) (place : String) :
    (found settings room markers place (.object members)).shape = .any := by
  obtain ⟨hlayer, hsame⟩ := ofJson_of_kind hkind htag
  exact shape_found_of_fault hlayer (hsame.trans hform) room markers place

/-- **A node without one of its parts is read as `any`.** -/
theorem Omittable.shape_found_of_firstGiven?_eq_none {settings : Settings} {names : List String}
    (hnames : names ∈ namesOfParts (kind? members)) (h : firstGiven? members names = none)
    (room markers : Nat) (place : String) :
    (found settings room markers place (.object members)).shape = .any := by
  unfold namesOfParts at hnames
  split at hnames
  case h_1 hkind =>
    have htag : typeTag? members = none := Option.map_eq_none_iff.1 hkind
    obtain rfl := List.mem_singleton.1 hnames
    have hlayer : Layer.ofJson (.object members) = .core := by
      simp only [Layer.ofJson, Json.members?, htag, h]
    exact shape_found_of_fault hlayer (Form.ofJson_of_noTag htag) room markers place
  case h_2 hkind =>
    obtain rfl := List.mem_singleton.1 hnames
    have hlayer : Layer.ofJson (.object members) = .optional none := by
      rw [layer_of_kind hkind, h]
    exact shape_found_of_optional_none hlayer room markers place
  case h_3 hkind =>
    obtain rfl := List.mem_singleton.1 hnames
    have hform : Form.ofTag "array" members = .error .arrayWithoutElement := by
      rw [Form.ofTag, h]
      rfl
    exact shape_found_of_kind hkind (by decide) hform room markers place
  case h_4 hkind =>
    obtain rfl := List.mem_singleton.1 hnames
    have hform : Form.ofTag "object" members = .error .objectWithoutFields := by
      rw [Form.ofTag, h]
      rfl
    exact shape_found_of_kind hkind (by decide) hform room markers place
  case h_5 hkind =>
    have hform : Form.ofTag "record" members = .error .recordIncomplete := by
      rw [Form.ofTag]
      rcases List.mem_cons.1 hnames with rfl | hvalues
      · rw [h]
        rfl
      · obtain rfl := List.mem_singleton.1 hvalues
        rw [h]
        cases firstGiven? members ["keys", "keyShape"] <;> rfl
    exact shape_found_of_kind hkind (by decide) hform room markers place
  case h_6 hkind =>
    obtain rfl := List.mem_singleton.1 hnames
    have hform : Form.ofTag "union" members = .error .unionWithoutVariants := by
      rw [Form.ofTag, h]
      rfl
    exact shape_found_of_kind hkind (by decide) hform room markers place
  case h_7 => cases hnames

end

/-! ### Taking a `null` away -/

/-- **A `null` is as good as absent where it hides no part.**  In any node that loading reads, a
member under the name of a part that is `null` may be taken away without changing the loaded shape,
unless it is looked at in the place of another member that is not `null`; such a node is read as
`any`. -/
theorem Shape.ofJson_withoutNull {settings : Settings} {root : Json} {path : List Step}
    {members : Members} {key : String}
    (h : Reads settings (settings.maxNestingDepth + 1) (settings.maxOptionalDepth + 1) root path
      (.object members))
    (hkey : key ∈ partNames) (hnull : members.lookup key = some .null) :
    (¬ HidesPart members key →
      (Shape.ofJson settings (root.replaceAt path (.object (members.without key)))).value =
        (Shape.ofJson settings root).value) ∧
    (HidesPart members key → ∀ room place,
      (Omittable.load settings room place (.object members)).value.shape = .any) := by
  constructor
  · intro hhides
    exact (h.readAlike_replaceAt (.without hkey hnull hhides)).value_ofJson_eq
  · rintro ⟨names, hnames, hgiven, -⟩ room place
    rw [Omittable.value_load_eq_found]
    exact Omittable.shape_found_of_firstGiven?_eq_none hnames
      (Members.firstGiven?_of_given?_null hgiven) _ _ _

/-- An entry that is described under both names of a wrapper, once by `null`. -/
def twiceDescribed : Members :=
  [("fieldName", .string "tags"), ("shape", .null), ("fieldType", .object
    [("type", .string "array"), ("element", .object [("type", .string "string")])])]

theorem Shape.ofJson_withoutNull_twiceDescribed :
    let root : Json :=
      .object [("type", .string "object"), ("fields", .array [.object twiceDescribed])]
    let path : List Step := [.member "fields", .item 0]
    Reads {} 65 9 root path (.object twiceDescribed) ∧ "shape" ∈ partNames ∧
      twiceDescribed.lookup "shape" = some .null ∧ ¬ HidesPart twiceDescribed "shape" ∧
      (Shape.ofJson {} (root.replaceAt path (.object (twiceDescribed.without "shape")))).value =
        (Shape.ofJson {} root).value := by
  intro root path
  have hentry : PartAt root path (.entry [] "tags" []) (.object twiceDescribed) :=
    @PartAt.listEntry _ "fields" "tags" [] [] _ rfl rfl rfl
  have hreads : Reads {} 65 9 root path (.object twiceDescribed) :=
    .part hentry (.here Json.noConfusion)
  have hkey : "shape" ∈ partNames := by decide
  have hhides : ¬ HidesPart twiceDescribed "shape" := by
    rintro ⟨names, hnames, hgiven, -⟩
    obtain rfl := List.mem_singleton.1 hnames
    have hname := congrArg Prod.fst (Option.some.inj hgiven)
    exact absurd hname (by decide)
  exact ⟨hreads, hkey, rfl, hhides, (Shape.ofJson_withoutNull hreads hkey rfl).1 hhides⟩

/-- **A `null` that hides a part.**  An array has its element under `element`, but `value` is there
too, as `null`: it is read as `any`, and without that member as an array. -/
theorem Shape.exists_hiddenPart :
    ∃ (root : Json) (path : List Step) (members : Members) (key : String),
      Reads {} 65 9 root path (.object members) ∧ key ∈ partNames ∧
      members.lookup key = some .null ∧
      (Shape.ofJson {} (root.replaceAt path (.object (members.without key)))).value ≠
        (Shape.ofJson {} root).value := by
  refine ⟨_, [], [("type", .string "array"), ("value", .null),
    ("element", .object [("type", .string "string")])], "value", .here Json.noConfusion, by decide,
    rfl, ?_⟩
  change Shape.array .string ≠ .any
  exact Shape.noConfusion

end DocShape
