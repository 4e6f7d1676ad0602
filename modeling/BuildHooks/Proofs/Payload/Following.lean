import BuildHooks.Proofs.Payload.Field
import BuildHooks.Proofs.Text.Numeral
import BuildHooks.Proofs.Text.Split

/-! Where paths lead. A name leads to the member of an object that has it, and to an item of a list if it
is a number; a path is the names on a route with dots between them, and is followed along the route. -/

namespace BuildHooks.Payload

/-- From a document the names lead down, one after another, to a value in it. -/
inductive Leads : Json → List String → Json → Prop where
  | here (v : Json) : Leads v [] v
  | member (members : Json.Members) (name : String) (names : List String) (v w : Json)
      (hget : members.get? name = some v) (hrest : Leads v names w) :
      Leads (.object members) (name :: names) w
  | item (items : List Json) (name : String) (names : List String) (i : Nat) (v w : Json)
      (hi : i < Text.wordEnd)
      (hname : Text.Numeral name.toList i ∨
        ∃ digits, name.toList = '+' :: digits ∧ Text.Numeral digits i)
      (hget : items[i]? = some v) (hrest : Leads v names w) : Leads (.array items) (name :: names) w

/-- Names on the way to a field, of which there is one at least. Since none of them has a dot in it, the
route can be told by a path. -/
structure Route where
  names : List String
  begun : names ≠ [] := by decide
  undotted : ∀ name ∈ names, '.' ∉ name.toList := by decide

def Route.path (route : Route) : String :=
  ".".intercalate route.names

variable {payload : Payload} {route : Route} {name : String} {names : List String} {u v w : Json}

theorem leads_cons_iff : Leads v (name :: names) w ↔
    ∃ u, step? v name.toList = some u ∧ Leads u names w := by
  constructor
  · intro h
    cases h with
    | member members name names u w hget hrest =>
        refine ⟨u, ?_, hrest⟩
        rw [step?, String.ofList_toList]
        exact hget
    | item items name names i u w hi hname hget hrest =>
        have hindex : index? name.toList = some i :=
          Text.naturalBelow?_eq_some_iff.mpr ⟨hi, hname⟩
        refine ⟨u, ?_, hrest⟩
        rw [step?, hindex]
        exact hget
  · rintro ⟨u, hstep, hrest⟩
    unfold step? at hstep
    split at hstep
    · next members =>
      rw [String.ofList_toList] at hstep
      exact .member members name names u w hstep hrest
    · next items =>
      obtain ⟨i, hindex, hget⟩ := Option.bind_eq_some_iff.mp hstep
      obtain ⟨hi, hname⟩ := Text.naturalBelow?_eq_some_iff.mp hindex
      exact .item items name names i u w hi hname hget hrest
    · cases hstep

theorem follow?_eq_some_iff : follow? v (names.map String.toList) = some w ↔ Leads v names w := by
  induction names generalizing v with
  | nil =>
      rw [List.map_nil, follow?, Option.some_inj]
      constructor
      · rintro rfl
        exact .here v
      · intro h
        cases h
        rfl
  | cons name names ih =>
      rw [List.map_cons, follow?, Option.bind_eq_some_iff, leads_cons_iff]
      simp only [ih]

theorem Leads.unique (hv : Leads u names v) (hw : Leads u names w) : v = w := by
  rw [← follow?_eq_some_iff] at hv hw
  rw [hv] at hw
  exact Option.some.inj hw

theorem Route.split_path (route : Route) :
    Text.split '.' route.path.toList = route.names.map String.toList := by
  rw [path, String.toList_intercalate]
  apply Text.split_intercalate
  · intro part hpart
    obtain ⟨name, hname, rfl⟩ := List.mem_map.mp hpart
    exact route.undotted name hname
  · rw [Ne, List.map_eq_nil_iff]
    exact route.begun

/-- The field at a path is the value that the route leads to. -/
theorem field?_path_eq_some_iff :
    payload.field? route.path = some v ↔ Leads (.object payload) route.names v := by
  rw [field?, route.split_path, follow?_eq_some_iff]

theorem present?_path_eq_some_iff :
    payload.present? route.path = some v ↔ Leads (.object payload) route.names v ∧ v ≠ .null := by
  rw [← field?_path_eq_some_iff]
  unfold present?
  split
  · next hnull =>
    rw [hnull]
    exact iff_of_false (fun h => by cases h) fun ⟨hv, hne⟩ => hne (Option.some.inj hv).symm
  · next hnot =>
    constructor
    · intro h
      refine ⟨h, ?_⟩
      rintro rfl
      exact hnot h
    · exact And.left

end BuildHooks.Payload
