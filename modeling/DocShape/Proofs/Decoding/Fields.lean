import DocShape.Proofs.Decoding.Members
import DocShape.Proofs.Description.Inhabited

/-!
# The members of a field

Each member of an object belongs to at most one field of a record, or to none.  So an
object falls into the members of each field and the rest, and a record is read from it
field by field: a required field needs exactly one member, any other field at most one,
and the rest is no matter.

* `Members.under`: the members under some names.
* `Members.perm_under`: under names that are all different, they fall apart.
* `Decode.Passes`: what the check asks of the members of a field.
* `Decode.Key.passes_and_required_iff`, `Decode.Key.passes_and_orElse_iff`: **what a field
  is read as**.
* `Decode.string_eq_ok_iff` and its companions: each value that can be decoded is written
  in one way.
-/

namespace DocShape

/-! ### Members under some names -/

/-- The members under some names, in order. -/
def Members.under (names : List String) (members : Members) : Members :=
  members.filter fun member => member.1 ∈ names

namespace Members

theorem mem_under {names : List String} {members : Members} {member : String × Json} :
    member ∈ members.under names ↔ member ∈ members ∧ member.1 ∈ names := by
  rw [under, List.mem_filter, decide_eq_true_iff]

theorem under_append (names : List String) (members others : Members) :
    under names (members ++ others) = under names members ++ under names others :=
  List.filter_append _ _

/-- Among the members under more names are those under some of them. -/
theorem under_under {names more : List String} (h : names ⊆ more) (members : Members) :
    under names (members.under more) = members.under names := by
  rw [under, under, under, List.filter_filter]
  refine List.filter_congr fun member _ => ?_
  rw [← Bool.decide_and, decide_eq_decide]
  exact and_iff_left_of_imp fun hmem => h hmem

theorem under_eq_nil {names : List String} {members : Members}
    (h : ∀ member ∈ members, member.1 ∉ names) : members.under names = [] :=
  List.filter_eq_nil_iff.2 fun member hmember => by simpa using h member hmember

theorem under_eq_self {names : List String} {members : Members}
    (h : ∀ member ∈ members, member.1 ∈ names) : members.under names = members :=
  List.filter_eq_self.2 fun member hmember => by simpa using h member hmember

/-- Under distinct names each member is the only one of its name. -/
theorem under_name_eq {members : Members} (h : (members.map (·.1)).Nodup) {member : String × Json}
    (hmember : member ∈ members) : members.under [member.1] = [member] := by
  induction members with
  | nil => cases hmember
  | cons first rest ih =>
    rw [List.map_cons, List.nodup_cons] at h
    rcases List.mem_cons.1 hmember with rfl | hrest
    · have hothers : under [member.1] rest = [] := by
        refine under_eq_nil fun other hother => ?_
        rw [List.mem_singleton]
        rintro he
        exact h.1 (List.mem_map.2 ⟨other, hother, he⟩)
      rw [← List.singleton_append (l := rest), under_append, hothers, under_eq_self (by simp),
        List.append_nil]
    · have hfirst : under [member.1] ([first] : Members) = [] := by
        refine under_eq_nil fun other hother => ?_
        rw [List.mem_singleton.1 hother, List.mem_singleton]
        rintro he
        exact h.1 (List.mem_map.2 ⟨member, hrest, he.symm⟩)
      rw [← List.singleton_append (l := rest), under_append, hfirst, ih h.2 hrest, List.nil_append]

/-- **Under names that are all different, members fall apart.** -/
theorem perm_under {groups : List (List String)} (h : groups.flatten.Nodup) (members : Members) :
    (members.under groups.flatten).Perm (groups.flatMap fun names => members.under names) := by
  induction groups with
  | nil =>
    rw [under_eq_nil (by simp)]
    exact .nil
  | cons names groups ih =>
    rw [List.flatten_cons, List.nodup_append] at h
    obtain ⟨-, hgroups, hdisjoint⟩ := h
    rw [List.flatten_cons, List.flatMap_cons]
    have hsplit := List.filter_append_perm (fun member => member.1 ∈ names)
      (members.under (names ++ groups.flatten))
    have hfirst : (members.under (names ++ groups.flatten)).under names = members.under names :=
      under_under (List.subset_append_left _ _) members
    have hrest : (members.under (names ++ groups.flatten)).filter
        (fun member => !decide (member.1 ∈ names)) = members.under groups.flatten := by
      rw [under, under, List.filter_filter]
      refine List.filter_congr fun member _ => ?_
      have hother := hdisjoint member.1
      by_cases hname : member.1 ∈ names
      · have hnot : member.1 ∉ groups.flatten := fun hmem => hother hname _ hmem rfl
        simp [hname, hnot]
      · simp [hname]
    rw [← under, hfirst, hrest] at hsplit
    exact hsplit.symm.trans ((ih hgroups).append_left _)

end Members

namespace Decode

open Members (under)

variable {members : Members}

/-! ### The check, field by field -/

/-- What the check asks of the members of a field: there is none, or one that decodes. -/
def Passes (rule : Rule) (members : Members) : Prop :=
  members.under rule.names = [] ∨
    ∃ member, members.under rule.names = [member] ∧ rule.check member.2 = .ok ()

theorem passes_iff {rule : Rule} : Passes rule members ↔
    (∀ member ∈ members, rule.covers member.1 = true → rule.check member.2 = .ok ()) ∧
      members.countP (fun member => rule.covers member.1) ≤ 1 := by
  have hunder : members.under rule.names = members.filter fun member => rule.covers member.1 := by
    refine List.filter_congr fun member _ => ?_
    rw [Bool.eq_iff_iff, decide_eq_true_iff, Rule.covers_iff]
  have hmembers : (∀ member ∈ members, rule.covers member.1 = true →
      rule.check member.2 = .ok ()) ↔
      ∀ member ∈ members.under rule.names, rule.check member.2 = .ok () := by
    simp only [hunder, List.mem_filter, and_imp]
  rw [hmembers, List.countP_eq_length_filter, ← hunder, Passes]
  rcases members.under rule.names with _ | ⟨first, _ | ⟨second, rest⟩⟩ <;> simp

theorem checkMembers_eq_ok_iff_passes {rules : List Rule}
    (hrules : (rules.flatMap Rule.names).Nodup) :
    checkMembers rules [] members = .ok () ↔ ∀ rule ∈ rules, Passes rule members := by
  rw [checkMembers_eq_ok_iff hrules]
  exact forall₂_congr fun rule _ => passes_iff.symm

section

variable {α : Type} {key : Key α} {value : α}

theorem Key.find?_eq_under (key : Key α) (members : Members) :
    key.find? members = (members.under key.names).head?.map (·.2) := by
  rw [find?, under, List.head?_filter]
  congr 2
  funext member
  rw [Bool.eq_iff_iff, decide_eq_true_iff, Key.covers_iff]

/-- **A required field is read** from exactly one member. -/
theorem Key.passes_and_required_iff : Passes key.rule members ∧ key.required members = .ok value ↔
    ∃ member, members.under key.names = [member] ∧ key.decode member.2 = .ok value := by
  rw [required, find?_eq_under]
  show (members.under key.names = [] ∨ ∃ member, members.under key.names = [member] ∧
    key.rule.check member.2 = .ok ()) ∧ _ ↔ _
  rcases members.under key.names with _ | ⟨first, _ | ⟨second, rest⟩⟩
  · simp
  · simp only [List.cons.injEq, reduceCtorEq, and_true, false_or, exists_eq_left', List.head?_cons,
      Option.map_some, rule_check_eq_ok_iff]
    exact ⟨fun h => h.2, fun h => ⟨⟨value, h⟩, h⟩⟩
  · simp

/-- **A field with a default is read** from one member, or it has its default. -/
theorem Key.passes_and_orElse_iff {fallback : α} :
    Passes key.rule members ∧ key.orElse fallback members = .ok value ↔
      members.under key.names = [] ∧ fallback = value ∨
      ∃ member, members.under key.names = [member] ∧ key.decode member.2 = .ok value := by
  rw [orElse, find?_eq_under]
  show (members.under key.names = [] ∨ ∃ member, members.under key.names = [member] ∧
    key.rule.check member.2 = .ok ()) ∧ _ ↔ _
  rcases members.under key.names with _ | ⟨first, _ | ⟨second, rest⟩⟩
  · simp
  · simp only [List.cons.injEq, reduceCtorEq, and_true, false_or, false_and, exists_eq_left',
      List.head?_cons, Option.map_some, rule_check_eq_ok_iff]
    exact ⟨fun h => h.2, fun h => ⟨⟨value, h⟩, h⟩⟩
  · simp

/-- A decoder takes one value of each result, and no other. -/
def Key.Inverts (key : Key α) (encode : α → Json) : Prop :=
  ∀ given found, key.decode given = .ok found ↔ given = encode found

variable {encode : α → Json}

/-- A field with one name has one member under it. -/
theorem Key.Inverts.exists_under_iff (h : key.Inverts encode) (halias : key.alias? = none) :
    (∃ member, members.under key.names = [member] ∧ key.decode member.2 = .ok value) ↔
      members.under [key.name] = [(key.name, encode value)] := by
  have hnames : key.names = [key.name] := by
    rw [Key.names, halias, Option.toList_none]
  rw [hnames]
  constructor
  · rintro ⟨⟨name, given⟩, hunder, hdecode⟩
    obtain rfl := (h given value).1 hdecode
    have hmem : (name, encode value) ∈ members.under [key.name] := by
      rw [hunder]
      exact List.mem_singleton_self _
    have hname : name = key.name := List.mem_singleton.1 (Members.mem_under.1 hmem).2
    rw [hunder, hname]
  · intro hunder
    exact ⟨_, hunder, (h _ value).2 rfl⟩

theorem Key.Inverts.passes_and_required_iff (h : key.Inverts encode) (halias : key.alias? = none) :
    Passes key.rule members ∧ key.required members = .ok value ↔
      members.under [key.name] = [(key.name, encode value)] := by
  rw [Key.passes_and_required_iff, h.exists_under_iff halias]

/-- The field at a place of an array. -/
theorem Key.Inverts.element_eq_ok_iff (h : key.Inverts encode) {kind : RecordKind} {place : Nat}
    {items : List Json} :
    key.element kind place items = .ok value ↔ items[place]? = some (encode value) := by
  rw [element]
  cases items[place]? with
  | none => exact iff_of_false (fun h => nomatch h) (fun h => nomatch h)
  | some given =>
    rw [Option.some.injEq]
    exact h given value

theorem Key.Inverts.elementOr_eq_ok_iff (h : key.Inverts encode) {fallback : α} {place : Nat}
    {items : List Json} : key.elementOr fallback place items = .ok value ↔
      items[place]? = none ∧ fallback = value ∨ items[place]? = some (encode value) := by
  rw [elementOr]
  cases items[place]? with
  | none => simp
  | some given =>
    simp only [reduceCtorEq, false_and, false_or, Option.some.injEq]
    exact h given value

/-- An array has at most as many elements as the record has fields. -/
theorem checkLength_eq_ok_iff {kind : RecordKind} {items : List Json} {error : DecodeError} :
    checkLength kind items error = .ok () ↔ items.length ≤ kind.size := by
  rw [checkLength]
  split
  · exact iff_of_false (fun h => nomatch h) (by omega)
  · exact iff_of_true rfl (by omega)

end

/-! ### Values -/

theorem string_eq_ok_iff {value : Json} {s : String} : string value = .ok s ↔ value = .string s := by
  cases value <;> simp [string]

theorem mapM_string_eq_ok_iff {items : List Json} {texts : List String} :
    items.mapM string = .ok texts ↔ items = texts.map .string := by
  induction items generalizing texts with
  | nil => cases texts <;> simp [pure, Except.pure]
  | cons item rest ih =>
    rw [List.mapM_cons]
    constructor
    · intro h
      obtain ⟨text, htext, h⟩ := exists_of_bind_eq_ok h
      obtain ⟨others, hothers, h⟩ := exists_of_bind_eq_ok h
      cases h
      rw [string_eq_ok_iff.1 htext, ih.1 hothers, List.map_cons]
    · intro h
      cases texts with
      | nil => cases h
      | cons text others =>
        obtain ⟨rfl, hrest⟩ := List.cons.inj h
        rw [string_eq_ok_iff.2 rfl, ih.2 hrest]
        rfl

theorem strings_eq_ok_iff {value : Json} {texts : List String} :
    strings value = .ok texts ↔ value = .array (texts.map .string) := by
  rw [strings]
  cases value with
  | array items =>
    rw [Json.array.injEq]
    exact mapM_string_eq_ok_iff
  | _ => exact iff_of_false (fun h => nomatch h) (fun h => nomatch h)

theorem smallCount_eq_ok_iff {value : Json} {n : UInt32} :
    smallCount value = .ok n ↔ value = .ofNat n.toNat := by
  constructor
  · intro h
    match value with
    | .number (.integer whole) =>
      rw [smallCount, natBelow] at h
      split at h
      case isTrue hbound =>
        obtain rfl := Except.ok.inj h
        have hnat : whole.toNat < UInt32.size := by omega
        rw [UInt32.toNat_ofNat_of_lt' hnat, Json.ofNat, Json.ofInt, Int.toNat_of_nonneg hbound.1]
      case isFalse => cases h
  · rintro rfl
    have hbound : (0 : Int) ≤ n.toNat ∧ (n.toNat : Int) < UInt32.size :=
      ⟨Int.natCast_nonneg _, by exact_mod_cast n.toNat_lt⟩
    rw [Json.ofNat, Json.ofInt, smallCount, natBelow, if_pos hbound, Int.toNat_natCast]
    exact congrArg _ UInt32.ofNat_toNat

end Decode

end DocShape
