import DocShape.Shape.Default

/-!
# Members under distinct names

`Members.put` overwrites, so an object built from fields may lose some.  Under
pairwise distinct names it loses none, and looking up a name finds the field of
that name.

* `Members.lookup_eq_some_iff`: every member is found by its name.
* `Members.nodup_put`: writing a member keeps names distinct.
* `Members.ofList_of_nodup`: fields with distinct names are kept as they are.
* `Members.lookup_ofList_filter`: what an object built from some of the fields
  holds under the name of any field.
-/

namespace DocShape.Members

theorem isSome_lookup_iff {name : String} {members : Members} :
    (members.lookup name).isSome = true ↔ name ∈ members.map (·.1) := by
  induction members with
  | nil => simp
  | cons member rest ih =>
    obtain ⟨key, value⟩ := member
    rw [List.lookup_cons, List.map_cons, List.mem_cons, ← ih]
    by_cases hname : name = key
    · simp [hname]
    · simp [hname, beq_eq_false_iff_ne.2 hname]

/-- Under distinct names every member is found by its name. -/
theorem lookup_eq_some_iff {name : String} {value : Json} {members : Members}
    (h : (members.map (·.1)).Nodup) :
    members.lookup name = some value ↔ (name, value) ∈ members := by
  induction members with
  | nil => simp
  | cons member rest ih =>
    obtain ⟨key, first⟩ := member
    rw [List.map_cons, List.nodup_cons] at h
    rw [List.lookup_cons, List.mem_cons, Prod.mk.injEq]
    by_cases hname : name = key
    · subst hname
      have hnew : (name, value) ∉ rest := by
        intro hmem
        exact h.1 (List.mem_map.2 ⟨_, hmem, rfl⟩)
      simp [hnew, eq_comm]
    · simp [hname, beq_eq_false_iff_ne.2 hname, ih h.2]

theorem names_put (name : String) (value : Json) (members : Members) :
    (members.put name value).map (·.1) =
      if name ∈ members.map (·.1) then members.map (·.1) else members.map (·.1) ++ [name] := by
  induction members with
  | nil => rfl
  | cons member rest ih =>
    obtain ⟨key, old⟩ := member
    by_cases hkey : key = name
    · simp [put, hkey]
    · rw [put, if_neg hkey, List.map_cons, ih, List.map_cons]
      by_cases hname : name ∈ rest.map (·.1)
      · simp only [hname, List.mem_cons, or_true, if_true]
      · simp only [hname, List.mem_cons, Ne.symm hkey, or_self, if_false, List.cons_append]

/-- Writing a member keeps names distinct. -/
theorem nodup_put {name : String} {value : Json} {members : Members}
    (h : (members.map (·.1)).Nodup) : ((members.put name value).map (·.1)).Nodup := by
  rw [names_put]
  by_cases hname : name ∈ members.map (·.1)
  · rw [if_pos hname]
    exact h
  · rw [if_neg hname, List.nodup_append]
    refine ⟨h, by simp, ?_⟩
    intro other hother last hlast
    rw [List.mem_singleton.1 hlast]
    rintro rfl
    exact hname hother

theorem put_of_forall_ne {name : String} {value : Json} : ∀ {members : Members},
    (∀ member ∈ members, member.1 ≠ name) →
      put name value members = members ++ [(name, value)] := by
  intro members
  induction members with
  | nil => intro _; rfl
  | cons member rest ih =>
    intro h
    rw [List.forall_mem_cons] at h
    rw [put, if_neg h.1, ih h.2, List.cons_append]

/-- **Fields with distinct names are kept as they are.** -/
theorem ofList_of_nodup {fields : List (String × Json)} (h : (fields.map (·.1)).Nodup) :
    ofList fields = fields := by
  have aux : ∀ (fields : List (String × Json)) (kept : Members),
      ((kept ++ fields).map (·.1)).Nodup →
      fields.foldl (fun members field => members.put field.1 field.2) kept = kept ++ fields := by
    intro fields
    induction fields with
    | nil => intro kept _; rw [List.append_nil, List.foldl_nil]
    | cons field rest ih =>
      intro kept hnames
      obtain ⟨name, value⟩ := field
      have hnew : ∀ member ∈ kept, member.1 ≠ name := by
        intro member hmember
        rw [List.map_append, List.nodup_append] at hnames
        exact hnames.2.2 _ (List.mem_map_of_mem hmember) _ (by simp)
      have happend : kept ++ (name, value) :: rest = (kept ++ [(name, value)]) ++ rest := by simp
      rw [happend] at hnames
      rw [List.foldl_cons, put_of_forall_ne hnew, happend]
      exact ih (kept ++ [(name, value)]) hnames
  exact aux fields [] (by simpa using h)

/-- An object built from the fields that satisfy `p` holds those and no others. -/
theorem lookup_ofList_filter {fields : List (Field Shape)} (h : (fields.map (·.name)).Nodup)
    (p : Field Shape → Bool) (g : Field Shape → Json) {field : Field Shape}
    (hfield : field ∈ fields) :
    (ofList ((fields.filter p).map fun field => (field.name, g field))).lookup field.name =
      if p field then some (g field) else none := by
  have hkept : (((fields.filter p).map fun field => (field.name, g field)).map (·.1)).Nodup := by
    rw [List.map_map]
    exact h.sublist (List.filter_sublist.map _)
  rw [ofList_of_nodup hkept]
  clear hkept
  induction fields with
  | nil => cases hfield
  | cons first rest ih =>
    rw [List.map_cons, List.nodup_cons] at h
    have hne : ∀ other ∈ rest, first.name ≠ other.name := by
      intro other hother he
      exact h.1 (he ▸ List.mem_map_of_mem hother)
    rw [List.filter_cons]
    rcases List.mem_cons.1 hfield with rfl | hrest
    · cases hp : p field with
      | true => rw [if_pos rfl, List.map_cons, List.lookup_cons_self, if_pos rfl]
      | false =>
        rw [if_neg (by decide), if_neg (by decide), List.lookup_eq_none_iff]
        intro member hmember
        obtain ⟨other, hother, rfl⟩ := List.mem_map.1 hmember
        exact bne_iff_ne.2 (hne other (List.mem_filter.1 hother |>.1))
    · have hstep : (field.name == first.name) = false := by
        rw [beq_eq_false_iff_ne]
        exact (hne field hrest).symm
      split
      · rw [List.map_cons, List.lookup_cons, hstep]
        exact ih h.2 hrest
      · exact ih h.2 hrest

end DocShape.Members
