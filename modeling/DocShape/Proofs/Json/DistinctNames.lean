import DocShape.Json.Reader
import DocShape.Proofs.Json.Members
import DocShape.Proofs.Json.Parts

/-!
# Names in a value that is read from a text

A text may repeat a member.  Reading it keeps the first place and the last value, so no
object in the value has two members of one name.

* `Json.distinctNames_ofText?`: **the names in a value that is read from a text are
  distinct**, in every object inside.
-/

namespace DocShape

namespace Json

theorem distinctNames_scalar {value : Json} (h : value.parts = [value])
    (hobject : ∀ members, value ≠ object members) : value.DistinctNames := by
  intro part hpart members he
  rw [h, List.mem_singleton] at hpart
  exact absurd (hpart ▸ he) (hobject members)

theorem distinctNames_array {items : List Json} (h : ∀ item ∈ items, item.DistinctNames) :
    (array items).DistinctNames := by
  rw [DistinctNames, parts, List.forall_mem_cons, partsOfItems_eq, List.forall_mem_flatMap]
  refine ⟨?_, h⟩
  intro members he
  cases he

theorem distinctNames_object {members : Members} (hnames : (members.map (·.1)).Nodup)
    (hvalues : ∀ member ∈ members, member.2.DistinctNames) : (object members).DistinctNames := by
  rw [DistinctNames, parts, List.forall_mem_cons, partsOfMembers_eq, List.forall_mem_flatMap]
  refine ⟨?_, hvalues⟩
  intro members' he
  rw [← object.inj he]
  exact hnames

/-- Writing a member keeps the names distinct in all objects inside. -/
theorem DistinctNames.put {members : Members} (h : (object members).DistinctNames) {value : Json}
    (hvalue : value.DistinctNames) (name : String) :
    (object (members.put name value)).DistinctNames := by
  refine distinctNames_object (Members.nodup_put h.nodup) ?_
  intro member hmember
  rcases Members.mem_put hmember with rfl | hold
  · exact hvalue
  · exact h.of_subset (parts_subset_of_mem_members hold)

/-- Every tree is read as a value whose objects have distinct names. -/
theorem distinctNames_toJson? (room : Nat) (written : Written) {value : Json}
    (h : written.toJson? room = some value) : value.DistinctNames := by
  revert value
  -- Elements and members are added to those that are done, and keep what holds of these.
  refine Written.toJson?.induct
    (fun room written => ∀ {value}, written.toJson? room = some value → value.DistinctNames)
    (fun room done members => (object done).DistinctNames → ∀ {all},
      Written.membersToJson? room done members = some all → (object all).DistinctNames)
    (fun room done items => (∀ item ∈ done, item.DistinctNames) → ∀ {all},
      Written.itemsToJson? room done items = some all → ∀ item ∈ all, item.DistinctNames)
    ?null ?bool ?number ?string ?arrayTooDeep ?array ?objectTooDeep ?object ?itemsDone ?item
    ?badItem ?membersDone ?member ?badMember room written
  case null =>
    intro room value h
    rw [Written.toJson?] at h
    cases h
    exact distinctNames_scalar rfl (fun _ => Json.noConfusion)
  case bool =>
    intro room b value h
    rw [Written.toJson?] at h
    cases h
    exact distinctNames_scalar rfl (fun _ => Json.noConfusion)
  case number =>
    intro room n value h
    rw [Written.toJson?] at h
    obtain ⟨n, -, rfl⟩ := Option.map_eq_some_iff.1 h
    exact distinctNames_scalar rfl (fun _ => Json.noConfusion)
  case string =>
    intro room pieces value h
    rw [Written.toJson?] at h
    obtain ⟨s, -, rfl⟩ := Option.map_eq_some_iff.1 h
    exact distinctNames_scalar rfl (fun _ => Json.noConfusion)
  case arrayTooDeep =>
    intro items value h
    rw [Written.toJson?, if_pos rfl] at h
    cases h
  case array =>
    intro room items hroom ih value h
    rw [Written.toJson?, if_neg hroom] at h
    obtain ⟨values, hvalues, rfl⟩ := Option.map_eq_some_iff.1 h
    exact distinctNames_array (ih (List.forall_mem_nil _) hvalues)
  case objectTooDeep =>
    intro members value h
    rw [Written.toJson?, if_pos rfl] at h
    cases h
  case object =>
    intro room members hroom ih value h
    rw [Written.toJson?, if_neg hroom] at h
    obtain ⟨values, hvalues, rfl⟩ := Option.map_eq_some_iff.1 h
    exact ih (distinctNames_object List.nodup_nil (List.forall_mem_nil _)) hvalues
  case itemsDone =>
    intro room done hdone all h
    rw [Written.itemsToJson?] at h
    cases h
    intro item hitem
    exact hdone item (List.mem_reverse.1 hitem)
  case item =>
    intro room done item rest value hvalue ih ihrest hdone all h
    rw [Written.itemsToJson?, hvalue] at h
    exact ihrest (List.forall_mem_cons.2 ⟨ih hvalue, hdone⟩) h
  case badItem =>
    intro room done item rest hvalue ih hdone all h
    rw [Written.itemsToJson?, hvalue] at h
    cases h
  case membersDone =>
    intro room done hdone all h
    rw [Written.membersToJson?] at h
    cases h
    exact hdone
  case member =>
    intro room done pieces written rest name value hvalue hname ih ihrest hdone all h
    rw [Written.membersToJson?, hname, hvalue] at h
    exact ihrest (hdone.put (ih hvalue) name) h
  case badMember =>
    intro room done pieces written rest hbad ih hdone all h
    rw [Written.membersToJson?] at h
    split at h
    · next name value hname hvalue => exact (hbad name value hname hvalue).elim
    · cases h

/-- **The names in a value that is read from a text are distinct**, in every object inside. -/
theorem distinctNames_ofText? {text : String} {value : Json} (h : ofText? text = some value) :
    value.DistinctNames := by
  obtain ⟨written, -, hvalue⟩ := Option.bind_eq_some_iff.1 h
  exact distinctNames_toJson? maxNesting written hvalue

end Json

end DocShape
