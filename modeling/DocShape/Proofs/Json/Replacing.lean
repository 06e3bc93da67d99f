import DocShape.Json.Basic
import DocShape.Place

/-!
# Replacing a value inside a value

What stands inside a JSON value is reached by a path of steps, to the member of an
object under a name or to an element of an array.

* `Members.without`: the members but for those of one name.
* `Json.updateAt`: the value with what stands at the end of a path changed.
* `Json.replaceAt`: **the value with something else at the end of a path**.
* `Json.get?_updateAt_of_ne`: the members beside the path stay.
-/

namespace DocShape

namespace Members

variable {name other key : String} {value : Json} {members : Members}

theorem lookup_put_self : (put name value members).lookup name = some value := by
  induction members with
  | nil => simp [put]
  | cons member rest ih =>
    obtain ⟨key, old⟩ := member
    by_cases hkey : key = name
    · simp [put, hkey]
    · have hne : (name == key) = false := beq_eq_false_iff_ne.2 (Ne.symm hkey)
      rw [put, if_neg hkey, List.lookup_cons, hne]
      exact ih

theorem lookup_put_of_ne (h : other ≠ name) :
    (put name value members).lookup other = members.lookup other := by
  have hne : (other == name) = false := beq_eq_false_iff_ne.2 h
  induction members with
  | nil => simp [put, List.lookup_cons, hne]
  | cons member rest ih =>
    obtain ⟨key, old⟩ := member
    by_cases hkey : key = name
    · simp [put, hkey, List.lookup_cons, hne]
    · simp only [put, if_neg hkey, List.lookup_cons, ih]

/-- The first member of a name is the one that gets the new value. -/
theorem put_append_cons {before after : Members} {old : Json} (h : name ∉ before.map (·.1)) :
    put name value (before ++ (name, old) :: after) = before ++ (name, value) :: after := by
  induction before with
  | nil => simp [put]
  | cons member rest ih =>
    obtain ⟨key, kept⟩ := member
    rw [List.map_cons, List.mem_cons, not_or] at h
    rw [List.cons_append, put, if_neg (Ne.symm h.1), ih h.2, List.cons_append]

theorem lookup_append_cons {before after : Members} (h : name ∉ before.map (·.1)) :
    (before ++ (name, value) :: after).lookup name = some value := by
  have hput : put name value (before ++ (name, .null) :: after) = before ++ (name, value) :: after :=
    put_append_cons h
  rw [← hput]
  exact lookup_put_self

/-- The members but for those of one name. -/
def without (key : String) (members : Members) : Members :=
  members.filter fun member => member.1 != key

theorem lookup_without_self : (members.without key).lookup key = none := by
  rw [List.lookup_eq_none_iff]
  intro member hmember
  have hne := (List.mem_filter.1 hmember).2
  rw [bne_iff_ne] at hne ⊢
  exact hne.symm

theorem lookup_without_of_ne (h : name ≠ key) :
    (members.without key).lookup name = members.lookup name := by
  induction members with
  | nil => rfl
  | cons member rest ih =>
    obtain ⟨other, value⟩ := member
    rw [without, List.filter_cons]
    by_cases hother : other = key
    · have hname : (name == other) = false := beq_eq_false_iff_ne.2 (hother ▸ h)
      rw [if_neg (by simp [hother]), List.lookup_cons, hname]
      exact ih
    · rw [if_pos (by simp [hother]), List.lookup_cons, List.lookup_cons]
      cases name == other with
      | true => rfl
      | false => exact ih

end Members

namespace Json

/-- The value with what stands at the end of a path changed; a path that leads nowhere changes
nothing. -/
def updateAt (update : Json → Json) : List Step → Json → Json
  | [], value => update value
  | .member name :: path, object members =>
    match members.lookup name with
    | some value => object (Members.put name (updateAt update path value) members)
    | none => object members
  | .item index :: path, array items => array (items.modify index (updateAt update path))
  | _ :: _, value => value

/-- The value with `new` in the place of what stands at the end of a path. -/
def replaceAt (value : Json) (path : List Step) (new : Json) : Json :=
  value.updateAt (fun _ => new) path

example : (object [("a", array [null, null]), ("b", null)]).replaceAt [.member "a", .item 1]
    (bool true) = object [("a", array [null, bool true]), ("b", null)] := rfl

variable {update : Json → Json}

theorem updateAt_append (steps path : List Step) (value : Json) :
    updateAt update (steps ++ path) value = updateAt (updateAt update path) steps value := by
  induction steps generalizing value with
  | nil => rfl
  | cons step steps ih =>
    have hrest : updateAt update (steps ++ path) = updateAt (updateAt update path) steps :=
      funext ih
    rw [List.cons_append]
    cases step <;> cases value <;> simp only [updateAt, hrest]

theorem updateAt_member {members : Members} {name : String} {value : Json}
    (h : members.lookup name = some value) (path : List Step) :
    updateAt update (.member name :: path) (object members) =
      object (members.put name (updateAt update path value)) := by
  simp only [updateAt, h]

/-- Under an index a path leads to the element that so many others stand before. -/
theorem updateAt_item (before after : List Json) (value : Json) (path : List Step) :
    updateAt update (.item before.length :: path) (array (before ++ value :: after)) =
      array (before ++ updateAt update path value :: after) := by
  rw [updateAt]
  congr 1
  induction before with
  | nil => rfl
  | cons first rest ih => rw [List.cons_append, List.length_cons, List.modify_succ_cons, ih]; rfl

/-- A path that starts under another name leaves a member as it is. -/
theorem get?_updateAt_of_ne {name key : String} (h : name ≠ key) (path : List Step)
    (value : Json) : (updateAt update (.member key :: path) value).get? name = value.get? name := by
  cases value with
  | object members =>
    rw [updateAt]
    split
    · exact Members.lookup_put_of_ne h
    · rfl
  | _ => rfl

end Json

end DocShape
