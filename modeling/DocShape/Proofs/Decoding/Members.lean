import DocShape.Decoding.Record
import DocShape.Proofs.Json.Members
import DocShape.Proofs.Json.Parts
import Mathlib.Data.List.Dedup
import Mathlib.Data.List.Pairwise

/-!
# Members that make a record

The members of an object are checked in the order in which they are written: a member
that belongs to no field is passed over, any other needs a value that decodes and a
field that has not been given before, under this name or the other.  So the order does
not matter: **an object passes if the values of every field decode and no field is given
more than once**.

* `Rule.names`, `Key.names`: the names that a field goes by.
* `checkMembers_eq_ok_iff`: **the members that pass**, field by field.
* `countP_covers_le_one_iff`: where no two members have the same name, a field is given
  more than once only by both of its names.
* `Key.find?_eq_findSome?`: a field that is given once is found by looking up its names.
-/

namespace DocShape.Decode

/-! ### Names of fields -/

/-- The names that a field goes by. -/
def Rule.names (rule : Rule) : List String := rule.name :: rule.alias?.toList

/-- The names that a field goes by. -/
def Key.names {α : Type} (key : Key α) : List String := key.name :: key.alias?.toList

theorem Rule.covers_iff {rule : Rule} {name : String} :
    rule.covers name = true ↔ name ∈ rule.names := by
  rw [covers, names, Bool.or_eq_true, beq_iff_eq, List.mem_cons]
  cases rule.alias? <;> simp

theorem Key.covers_iff {α : Type} {key : Key α} {name : String} :
    key.covers name = true ↔ name ∈ key.names := by
  rw [covers, names, Bool.or_eq_true, beq_iff_eq, List.mem_cons]
  cases key.alias? <;> simp

section

variable {rules : List Rule} {rule : Rule} {name : String}

/-- If the names of the fields are all different, no name belongs to two of them. -/
theorem rule_unique (hrules : (rules.flatMap Rule.names).Nodup) {other : Rule}
    (hrule : rule ∈ rules) (hother : other ∈ rules) (hname : name ∈ rule.names)
    (hname' : name ∈ other.names) : rule = other := by
  obtain ⟨-, hdisjoint⟩ := List.nodup_flatMap.1 hrules
  have hsymm : Std.Symm (Function.onFun List.Disjoint Rule.names) := ⟨fun _ _ h =>
    List.Disjoint.symm h⟩
  by_contra hne
  exact hdisjoint.forall hrule hother hne hname hname'

end

/-! ### The check -/

section

variable {rules : List Rule} {members : Members}

/-- The members that pass after some fields have been seen. -/
theorem checkMembers_eq_ok_iff_of_seen (hrules : (rules.flatMap Rule.names).Nodup)
    {seen : List String} :
    checkMembers rules seen members = .ok () ↔ ∀ rule ∈ rules,
      (∀ member ∈ members, rule.covers member.1 = true → rule.check member.2 = .ok ()) ∧
      members.countP (fun member => rule.covers member.1) + (if rule.name ∈ seen then 1 else 0) ≤
        1 := by
  induction members generalizing seen with
  | nil =>
    refine iff_of_true rfl ?_
    intro rule _
    refine ⟨List.forall_mem_nil _, ?_⟩
    rw [List.countP_nil]
    split <;> omega
  | cons member rest ih =>
    obtain ⟨name, value⟩ := member
    simp only [List.forall_mem_cons, List.countP_cons]
    rw [checkMembers]
    cases hfound : rules.find? (·.covers name) with
    | none =>
      simp only [ih]
      refine forall₂_congr ?_
      intro rule hrule
      have hskip : rule.covers name = false := by simpa using List.find?_eq_none.1 hfound rule hrule
      simp [hskip]
    | some rule =>
      have hrule := List.mem_of_find?_eq_some hfound
      have hcovers := List.find?_some hfound
      by_cases hseen : rule.name ∈ seen
      · -- The field has been given before.
        refine iff_of_false (by simp [hseen]) ?_
        intro h
        obtain ⟨-, hcount⟩ := h rule hrule
        rw [if_pos hcovers, if_pos hseen] at hcount
        omega
      · cases hcheck : rule.check value with
        | error error =>
          refine iff_of_false (by simp [hseen, hcheck]) ?_
          intro h
          have hok := (h rule hrule).1.1 hcovers
          rw [hcheck] at hok
          cases hok
        | ok _ =>
          simp only [hseen, if_false, hcheck, ih]
          refine forall₂_congr ?_
          intro other hother
          by_cases hsame : other = rule
          · subst hsame
            simp [hcovers, hcheck, hseen]
          · have hskip : other.covers name = false := by
              rw [Bool.eq_false_iff]
              intro h
              exact hsame (rule_unique hrules hother hrule (Rule.covers_iff.1 h)
                (Rule.covers_iff.1 hcovers))
            have hname : other.name ≠ rule.name := by
              intro h
              refine hsame (rule_unique hrules hother hrule List.mem_cons_self ?_)
              rw [h]
              exact List.mem_cons_self
            simp [hskip, hname]

/-- **The members that pass**: the values of each field decode, and no field is given more than
once. -/
theorem checkMembers_eq_ok_iff (hrules : (rules.flatMap Rule.names).Nodup) :
    checkMembers rules [] members = .ok () ↔ ∀ rule ∈ rules,
      (∀ member ∈ members, rule.covers member.1 = true → rule.check member.2 = .ok ()) ∧
      members.countP (fun member => rule.covers member.1) ≤ 1 := by
  rw [checkMembers_eq_ok_iff_of_seen hrules]
  simp only [List.not_mem_nil, if_false, Nat.add_zero]

/-- Members that pass still pass when one of them gets another value that its field can have. -/
theorem checkMembers_put (hrules : (rules.flatMap Rule.names).Nodup)
    (h : checkMembers rules [] members = .ok ()) {name : String} (hname : name ∈ members.map (·.1))
    {value : Json} (hvalue : ∀ rule ∈ rules, name ∈ rule.names → rule.check value = .ok ()) :
    checkMembers rules [] (members.put name value) = .ok () := by
  rw [checkMembers_eq_ok_iff hrules] at h ⊢
  intro rule hrule
  obtain ⟨hchecks, hcount⟩ := h rule hrule
  constructor
  · intro member hmember hcovers
    rcases Members.mem_put hmember with rfl | hold
    · exact hvalue rule hrule (Rule.covers_iff.1 hcovers)
    · exact hchecks member hold hcovers
  · have hnames : ∀ members : Members,
        members.countP (fun member => rule.covers member.1) =
          (members.map (·.1)).countP rule.covers := by
      intro members
      rw [List.countP_map]
      rfl
    rw [hnames, Members.names_put, if_pos hname, ← hnames]
    exact hcount

end

/-! ### Members of distinct names -/

section

variable {rule : Rule} {members : Members}

/-- Under distinct names the members of a field are what its names are looked up as. -/
theorem forall_covered_iff (hmembers : (members.map (·.1)).Nodup) {P : Json → Prop} :
    (∀ member ∈ members, rule.covers member.1 = true → P member.2) ↔
      ∀ name ∈ rule.names, ∀ value, members.lookup name = some value → P value := by
  simp only [Rule.covers_iff, Members.lookup_eq_some_iff hmembers]
  exact ⟨fun h name hname value hmem => h (name, value) hmem hname,
    fun h member hmem hname => h member.1 hname member.2 hmem⟩

/-- Under distinct names a field is given more than once only by both of its names. -/
theorem countP_covers_le_one_iff (hnames : rule.names.Nodup)
    (hmembers : (members.map (·.1)).Nodup) :
    members.countP (fun member => rule.covers member.1) ≤ 1 ↔ ∀ other ∈ rule.alias?,
      ¬ ((members.lookup rule.name).isSome = true ∧ (members.lookup other).isSome = true) := by
  have hcount : members.countP (fun member => rule.covers member.1) =
      (members.map (·.1)).countP rule.covers := by
    rw [List.countP_map]
    rfl
  have hone := List.nodup_iff_count_le_one.1 hmembers
  simp only [hcount, Members.isSome_lookup_iff, ← List.count_pos_iff]
  cases halias : rule.alias? with
  | none =>
    have hcovers : rule.covers = fun name => name == rule.name := by
      funext name
      simp [Rule.covers, halias]
    refine iff_of_true ?_ (fun _ h => nomatch h)
    rw [hcovers]
    exact hone rule.name
  | some other =>
    have hne : other ≠ rule.name := by
      rw [Rule.names, halias] at hnames
      simpa using (List.nodup_cons.1 hnames).1 ∘ fun h => by simp [h]
    have hsum : ∀ names : List String,
        names.countP rule.covers = names.count rule.name + names.count other := by
      intro names
      induction names with
      | nil => rfl
      | cons name rest ih =>
        rw [List.countP_cons, List.count_cons, List.count_cons, ih]
        by_cases hname : name = rule.name
        · simp [Rule.covers, hname, Ne.symm hne]
          omega
        · by_cases hother : name = other
          · simp [Rule.covers, halias, hother, hne]
            omega
          · simp [Rule.covers, halias, hname, hother]
    have hfirst := hone rule.name
    have hsecond := hone other
    simp only [hsum, Option.mem_some_iff, forall_eq']
    omega

end

/-! ### Looking up a field -/

/-- A field that is given at most once has the value of any member that belongs to it. -/
theorem Key.find?_eq_some_of_mem {α : Type} {key : Key α} {members : Members}
    (h : members.countP (fun member => key.covers member.1) ≤ 1) {name : String} {value : Json}
    (hmem : (name, value) ∈ members) (hname : name ∈ key.names) :
    key.find? members = some value := by
  induction members with
  | nil => cases hmem
  | cons member rest ih =>
    rw [List.countP_cons] at h
    rcases List.mem_cons.1 hmem with rfl | hrest
    · rw [find?, List.find?_cons_of_pos (by exact Key.covers_iff.2 hname), Option.map_some]
    · have hcovered : 0 < rest.countP (fun member => key.covers member.1) :=
        List.countP_pos_iff.2 ⟨_, hrest, Key.covers_iff.2 hname⟩
      have hfirst : ¬ key.covers member.1 = true := by
        intro hcovers
        rw [if_pos hcovers] at h
        omega
      rw [if_neg hfirst] at h
      rw [find?, List.find?_cons_of_neg (by exact hfirst)]
      exact ih h hrest

/-- A field that is given at most once is found by looking up its names. -/
theorem Key.find?_eq_findSome? {α : Type} {key : Key α} {members : Members}
    (h : members.countP (fun member => key.covers member.1) ≤ 1) :
    key.find? members = key.names.findSome? fun name => members.lookup name := by
  cases hfound : key.names.findSome? fun name => members.lookup name with
  | some value =>
    obtain ⟨name, hname, hlookup⟩ := List.exists_of_findSome?_eq_some hfound
    obtain ⟨before, after, rfl, -⟩ := List.lookup_eq_some_iff.1 hlookup
    exact find?_eq_some_of_mem h (List.mem_append_right before List.mem_cons_self) hname
  | none =>
    rw [find?, Option.map_eq_none_iff, List.find?_eq_none]
    intro member hmember hcovers
    have hnone := List.findSome?_eq_none_iff.1 hfound member.1 (Key.covers_iff.1 hcovers)
    have hsome := Members.isSome_lookup_iff.2 (List.mem_map_of_mem (f := (·.1)) hmember)
    rw [hnone] at hsome
    cases hsome

/-! ### Fields that may be null -/

/-- A decoder that takes the values of one JSON type. -/
def Takes {α : Type} (decode : Json → Except DecodeError α) (read? : Json → Option α) : Prop :=
  ∀ value, (decode value).toOption = read? value

theorem takes_string : Takes string Json.string? := by
  intro value
  cases value <;> rfl

theorem takes_boolean : Takes boolean Json.bool? := by
  intro value
  cases value <;> rfl

theorem takes_sequence : Takes sequence Json.items? := by
  intro value
  cases value <;> rfl

/-- A member that is there, but is neither `null` nor of the type that is asked for. -/
def Mistyped {α : Type} (read? : Json → Option α) (members : Members) (name : String) : Prop :=
  ∃ value, members.lookup name = some value ∧ value ≠ .null ∧ read? value = none

section

variable {α : Type} {decode : Json → Except DecodeError α} {read? : Json → Option α}
  {key : Key (Option α)} {members : Members}

theorem exists_nullable_eq_ok_iff (htakes : Takes decode read?) {value : Json} :
    (∃ found, nullable decode value = .ok found) ↔ ¬ (value ≠ .null ∧ read? value = none) := by
  rw [← htakes, not_and_or, not_not]
  cases value with
  | null => exact iff_of_true ⟨none, rfl⟩ (Or.inl rfl)
  | _ =>
    simp only [nullable, Json.isNull, Bool.false_eq_true, if_false, reduceCtorEq, false_or]
    cases decode _ with
    | error error => exact iff_of_false (by rintro ⟨_, ⟨⟩⟩) (by simp [Except.toOption])
    | ok found => exact iff_of_true ⟨some found, rfl⟩ (by simp [Except.toOption])

theorem Key.rule_check_eq_ok_iff {β : Type} {key : Key β} {value : Json} :
    key.rule.check value = .ok () ↔ ∃ found, key.decode value = .ok found := by
  show (key.decode value).map (fun _ => ()) = .ok () ↔ _
  cases key.decode value with
  | error error => exact iff_of_false (by rintro ⟨⟩) (by rintro ⟨_, ⟨⟩⟩)
  | ok found => exact iff_of_true rfl ⟨found, rfl⟩

/-- **A field that may be null passes the check** unless a member of one of its names has the wrong
type, or both of its names are given. -/
theorem Key.passes_iff (hkey : key.decode = nullable decode) (htakes : Takes decode read?)
    (hnames : key.names.Nodup) (hmembers : (members.map (·.1)).Nodup) :
    ((∀ member ∈ members, key.rule.covers member.1 = true → key.rule.check member.2 = .ok ()) ∧
        members.countP (fun member => key.rule.covers member.1) ≤ 1) ↔
      (∀ name ∈ key.names, ¬ Mistyped read? members name) ∧ ∀ other ∈ key.alias?,
        ¬ ((members.lookup key.name).isSome = true ∧ (members.lookup other).isSome = true) := by
  refine and_congr ?_ (countP_covers_le_one_iff hnames hmembers)
  rw [forall_covered_iff hmembers (P := fun value => key.rule.check value = .ok ())]
  refine forall₂_congr ?_
  intro name _
  simp only [rule_check_eq_ok_iff, hkey, exists_nullable_eq_ok_iff htakes, Mistyped, not_exists,
    not_and]

/-- What a field that may be null is read as. -/
theorem Key.orElse_none_eq (hkey : key.decode = nullable decode) (htakes : Takes decode read?)
    (hnull : read? .null = none) {found : Option α} (h : key.orElse none members = .ok found) :
    found = (key.find? members).bind read? := by
  rw [orElse] at h
  cases hvalue : key.find? members with
  | none =>
    rw [hvalue] at h
    exact (Except.ok.inj h).symm
  | some value =>
    rw [hvalue, hkey] at h
    rw [Option.bind_some]
    cases value with
    | null =>
      rw [hnull]
      exact (Except.ok.inj h).symm
    | _ =>
      simp only [nullable, Json.isNull, Bool.false_eq_true, if_false] at h
      rw [← htakes]
      cases hdecode : decode _ with
      | error error =>
        rw [hdecode] at h
        cases h
      | ok value =>
        rw [hdecode] at h
        exact (Except.ok.inj h).symm

/-- A field whose members pass the check is read. -/
theorem Key.exists_orElse_eq_ok {β : Type} {key : Key β} (fallback : β)
    (h : ∀ member ∈ members, key.rule.covers member.1 = true → key.rule.check member.2 = .ok ()) :
    ∃ found, key.orElse fallback members = .ok found := by
  rw [orElse, find?]
  cases hmember : members.find? fun member => key.covers member.1 with
  | none => exact ⟨fallback, rfl⟩
  | some member =>
    have hcovers := List.find?_some hmember
    exact rule_check_eq_ok_iff.1 (h member (List.mem_of_find?_eq_some hmember) hcovers)

end

end DocShape.Decode
