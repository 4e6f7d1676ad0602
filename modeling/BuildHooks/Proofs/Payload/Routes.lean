import BuildHooks.Proofs.Payload.Following

/-! Routes and paths tell each other, so every path is followed from a payload along one route. The field
at it is what the route leads to, and there is none exactly if a value on the way refuses the next name: an
object without that member, a list without that place, or a value with nothing in it. What is nested in a
payload stands at the path of what selects it, and a path that goes on is followed from the field before. -/

namespace BuildHooks

namespace Json

variable {members before after : Members} {name : String} {v : Json}

theorem Members.get?_eq_none_iff : members.get? name = none ↔ name ∉ members.map Prod.fst := by
  rw [Members.get?, Option.map_eq_none_iff, List.find?_eq_none, List.mem_map]
  constructor
  · rintro hnone ⟨m, hm, rfl⟩
    exact hnone m hm (beq_self_eq_true m.1)
  · intro h m hm heq
    exact h ⟨m, hm, beq_iff_eq.mp heq⟩

/-- The first member of a name is the one with that name. -/
theorem Members.get?_append_cons (h : name ∉ before.map Prod.fst) :
    Members.get? (before ++ (name, v) :: after) name = some v := by
  have hnone : before.find? (fun m => m.1 == name) = none :=
    Option.map_eq_none_iff.mp (Members.get?_eq_none_iff.mpr h)
  have hself : ((name, v) :: after).find? (fun m => m.1 == name) = some (name, v) :=
    List.find?_cons_of_pos (beq_self_eq_true name)
  rw [Members.get?, List.find?_append, hnone, Option.none_or, hself]
  rfl

end Json

namespace Payload

/-- What selects a value in the one around it: the name of a member, with no dot in it, or a place in a
list. -/
inductive Selector where
  | member (name : String) (undotted : '.' ∉ name.toList := by decide)
  | item (i : Nat) (bounded : i < Text.wordEnd := by decide)

def Selector.name : Selector → String
  | member name _ => name
  | item i _ => Text.showNat i

variable {payload : Payload} {name : String} {names : List String} {i j : Nat} {v w : Json}

/-! ### A path and its route -/

/-- The names between the dots of a path. -/
def Route.ofPath (path : String) : Route where
  names := Text.splitText '.' path
  begun := by
    rw [Text.splitText, Ne, List.map_eq_nil_iff]
    exact Text.split_ne_nil '.' path.toList
  undotted := by
    intro name hname
    obtain ⟨part, hpart, rfl⟩ := List.mem_map.mp hname
    rw [String.toList_ofList]
    exact Text.notMem_of_mem_split hpart

theorem Route.path_ofPath (path : String) : (ofPath path).path = path := by
  have hparts : (Text.splitText '.' path).map String.toList = Text.split '.' path.toList := by
    rw [Text.splitText, List.map_map]
    exact List.map_id'' (fun _ => String.toList_ofList) _
  rw [← String.toList_inj, Route.path, String.toList_intercalate, ofPath, hparts]
  exact Text.intercalate_split '.' path.toList

theorem Route.eq_of_path_eq {route route' : Route} (h : route.path = route'.path) : route = route' := by
  have hnames : route.names.map String.toList = route'.names.map String.toList := by
    rw [← route.split_path, ← route'.split_path, h]
  have hinjective : Function.Injective String.toList := fun _ _ => String.toList_inj.mp
  cases route
  cases route'
  congr
  exact List.map_injective_iff.mpr hinjective hnames

/-! ### What is nested -/

theorem Selector.undotted (selector : Selector) : '.' ∉ selector.name.toList := by
  cases selector with
  | member name hname => exact hname
  | item i hi =>
      intro hdot
      have hdigit := Text.isDigit_of_mem_showNat hdot
      revert hdigit
      decide

/-- One value is nested in another, where the selectors say. -/
inductive Nests : Json → List Selector → Json → Prop where
  | here (v : Json) : Nests v [] v
  | member (before after : Json.Members) (name : String) (hname : '.' ∉ name.toList)
      (selectors : List Selector) (v w : Json) (hfirst : name ∉ before.map Prod.fst)
      (hrest : Nests v selectors w) :
      Nests (.object (before ++ (name, v) :: after)) (.member name hname :: selectors) w
  | item (items : List Json) (i : Nat) (hi : i < Text.wordEnd) (selectors : List Selector) (v w : Json)
      (hget : items[i]? = some v) (hrest : Nests v selectors w) :
      Nests (.array items) (.item i hi :: selectors) w

theorem Nests.leads {selectors : List Selector} (h : Nests v selectors w) :
    Leads v (selectors.map Selector.name) w := by
  induction h with
  | here v => exact .here v
  | member before after name hname selectors v w hfirst _ ih =>
      exact .member _ name _ v w (Json.Members.get?_append_cons hfirst) ih
  | item items i hi selectors v w hget _ ih =>
      exact .item items _ _ i v w hi (.inl (Text.numeral_showNat i)) hget ih

/-- What is nested in a payload stands at the path of its selectors. -/
theorem field?_of_nests {selectors : List Selector} (h : Nests (.object payload) selectors v)
    (hselectors : selectors ≠ []) :
    payload.field? (".".intercalate (selectors.map Selector.name)) = some v := by
  let route : Route :=
    { names := selectors.map Selector.name
      begun := fun hnil => hselectors (List.map_eq_nil_iff.mp hnil)
      undotted := List.forall_mem_map.mpr fun selector _ => selector.undotted }
  show payload.field? route.path = some v
  exact field?_path_eq_some_iff.mpr h.leads

/-! ### Where the way ends -/

/-- The name is a number, perhaps with a plus sign in front. -/
def Counts (name : String) (i : Nat) : Prop :=
  Text.Numeral name.toList i ∨ ∃ digits, name.toList = '+' :: digits ∧ Text.Numeral digits i

theorem Counts.unique (hi : Counts name i) (hj : Counts name j) : i = j := by
  -- Below a bound above both, either is what the name is read as.
  have hbound : i < max i j + 1 ∧ j < max i j + 1 := by omega
  have hread := Text.naturalBelow?_eq_some_iff.mpr ⟨hbound.1, hi⟩
  rw [Text.naturalBelow?_eq_some_iff.mpr ⟨hbound.2, hj⟩] at hread
  exact (Option.some.inj hread).symm

theorem index?_eq_some_iff : index? name.toList = some i ↔ i < Text.wordEnd ∧ Counts name i :=
  Text.naturalBelow?_eq_some_iff

/-- Nothing in the value is selected by the name. -/
inductive Refuses : Json → String → Prop where
  | absent (members : Json.Members) (name : String) (h : name ∉ members.map Prod.fst) :
      Refuses (.object members) name
  /-- The name is no number. -/
  | uncounted (items : List Json) (name : String) (h : ∀ i, ¬Counts name i) :
      Refuses (.array items) name
  /-- The list ends before the place. Places are words, so a larger number selects nothing either. -/
  | beyond (items : List Json) (name : String) (i : Nat) (hname : Counts name i)
      (h : items.length ≤ i ∨ Text.wordEnd ≤ i) : Refuses (.array items) name
  | string (s name : String) : Refuses (.string s) name
  | number (n : Json.Number) (name : String) : Refuses (.number n) name
  | bool (b : Bool) (name : String) : Refuses (.bool b) name
  | null (name : String) : Refuses .null name

theorem refuses_iff : Refuses v name ↔ step? v name.toList = none := by
  constructor
  · intro h
    cases h with
    | absent members name h =>
        rw [step?, String.ofList_toList]
        exact Json.Members.get?_eq_none_iff.mpr h
    | uncounted items name h =>
        rw [step?, Option.bind_eq_none_iff]
        intro i hi
        exact absurd (index?_eq_some_iff.mp hi).2 (h i)
    | beyond items name i hname h =>
        rw [step?, Option.bind_eq_none_iff]
        intro j hj
        obtain ⟨hbound, hcounts⟩ := index?_eq_some_iff.mp hj
        obtain rfl := hname.unique hcounts
        exact List.getElem?_eq_none (h.resolve_right (Nat.not_le.mpr hbound))
    | string | number | bool | null => rfl
  · intro h
    cases v with
    | object members =>
        rw [step?, String.ofList_toList] at h
        exact .absent members name (Json.Members.get?_eq_none_iff.mp h)
    | array items =>
        rw [step?, Option.bind_eq_none_iff] at h
        by_cases hname : ∃ i, Counts name i
        · obtain ⟨i, hi⟩ := hname
          apply Refuses.beyond items name i hi
          by_cases hbound : i < Text.wordEnd
          · exact .inl (List.getElem?_eq_none_iff.mp (h i (index?_eq_some_iff.mpr ⟨hbound, hi⟩)))
          · exact .inr (Nat.not_lt.mp hbound)
        · exact .uncounted items name (not_exists.mp hname)
    | string s => exact .string s name
    | number n => exact .number n name
    | bool b => exact .bool b name
    | null => exact .null name

/-- The names lead down to a value that refuses the next of them, whatever comes after. -/
def Breaks (v : Json) (names : List String) : Prop :=
  ∃ before name after u, names = before ++ name :: after ∧ Leads v before u ∧ Refuses u name

theorem not_breaks_nil : ¬Breaks v [] := by
  rintro ⟨before, name, after, _, heq, _⟩
  exact List.append_ne_nil_of_right_ne_nil before (List.cons_ne_nil name after) heq.symm

theorem breaks_cons_iff : Breaks v (name :: names) ↔
    Refuses v name ∨ ∃ u, step? v name.toList = some u ∧ Breaks u names := by
  constructor
  · rintro ⟨before, last, after, w, heq, hleads, hrefuses⟩
    cases before with
    | nil =>
        cases heq
        cases hleads
        exact .inl hrefuses
    | cons first before =>
        cases heq
        obtain ⟨u, hstep, hrest⟩ := leads_cons_iff.mp hleads
        exact .inr ⟨u, hstep, before, last, after, w, rfl, hrest, hrefuses⟩
  · rintro (hrefuses | ⟨u, hstep, before, last, after, w, rfl, hrest, hrefuses⟩)
    · exact ⟨[], name, names, v, rfl, .here v, hrefuses⟩
    · exact ⟨name :: before, last, after, w, rfl, leads_cons_iff.mpr ⟨u, hstep, hrest⟩, hrefuses⟩

/-- By induction on the names, since a value that has the first leaves the others to what it selects. -/
theorem follow?_eq_none_iff : follow? v (names.map String.toList) = none ↔ Breaks v names := by
  induction names generalizing v with
  | nil => exact iff_of_false (fun h => by cases h) not_breaks_nil
  | cons name names ih =>
      rw [List.map_cons, follow?, breaks_cons_iff, refuses_iff]
      cases hstep : step? v name.toList with
      | none => exact iff_of_true rfl (.inl rfl)
      | some u =>
          rw [Option.bind_some, ih]
          simp

/-! ### Fields and paths -/

theorem follow?_append (segments onward : List (List Char)) :
    follow? v (segments ++ onward) = (follow? v segments).bind fun u => follow? u onward := by
  induction segments generalizing v with
  | nil => rfl
  | cons segment segments ih =>
      rw [List.cons_append, follow?, follow?, Option.bind_assoc]
      simp only [ih]

theorem field?_append (payload : Payload) (lead path : String) :
    payload.field? (lead ++ "." ++ path) =
      (payload.field? lead).bind fun u => follow? u (Text.split '.' path.toList) := by
  have hsplit : Text.split '.' (lead ++ "." ++ path).toList =
      Text.split '.' lead.toList ++ Text.split '.' path.toList := by
    rw [← Text.split_append, String.toList_append, String.toList_append, List.append_assoc]
    rfl
  rw [field?, hsplit, follow?_append, field?]

/-- A payload is followed along a route, told by its path. -/
structure Followed (payload : Payload) (route : Route) : Prop where
  /-- The field is what the route leads to. -/
  leads : ∀ v, payload.field? route.path = some v ↔ Leads (.object payload) route.names v
  /-- There is no field if a value on the way refuses the next name, and not otherwise. -/
  breaks : payload.field? route.path = none ↔ Breaks (.object payload) route.names
  /-- After another path the route is followed from the field there. -/
  onward : ∀ lead v, payload.field? (lead ++ "." ++ route.path) = some v ↔
    ∃ u, payload.field? lead = some u ∧ Leads u route.names v

theorem followed (payload : Payload) (route : Route) : Followed payload route where
  leads _ := field?_path_eq_some_iff
  breaks := by rw [field?, route.split_path, follow?_eq_none_iff]
  onward lead v := by
    rw [field?_append, route.split_path, Option.bind_eq_some_iff]
    simp only [follow?_eq_some_iff]

/-- In a list a number may have a plus sign and zeros before it. -/
example : field? [("refUpdates", .array [.null, .bool true])] "refUpdates.+01" = some (.bool true) :=
  rfl

/-- What is nested in a payload is the field at its path, each path is that of one route, and along every
route the payload is followed. -/
theorem fields_along_routes (payload : Payload) :
    (∀ selectors v, selectors ≠ [] → Nests (.object payload) selectors v →
      payload.field? (".".intercalate (selectors.map Selector.name)) = some v) ∧
    (∀ path : String, ∃! route : Route, route.path = path) ∧
    ∀ route : Route, Followed payload route := by
  refine ⟨?_, ?_, followed payload⟩
  · intro selectors v hselectors hnests
    exact field?_of_nests hnests hselectors
  · intro path
    refine ⟨.ofPath path, Route.path_ofPath path, ?_⟩
    rintro route rfl
    exact Route.eq_of_path_eq (Route.path_ofPath route.path).symm

/-- A number names a member of an object and a place in a list, and a name may be empty. -/
theorem fields_along_routes_numbered :
    let payload : Payload :=
      [("", .object [("1", .null), ("0", .array [.null, .object [("+1", .string "main")]])])]
    let selectors : List Selector := [.member "", .member "0", .item 1, .member "+1"]
    selectors ≠ [] ∧ Nests (.object payload) selectors (.string "main") ∧
      payload.field? ".0.1.+1" = some (.string "main") := by
  intro payload selectors
  have hselectors : selectors ≠ [] := List.cons_ne_nil _ _
  have hnests : Nests (.object payload) selectors (.string "main") := by
    apply Nests.member [] [] "" _ _ _ _ List.not_mem_nil
    apply Nests.member [("1", .null)] [] "0" _ _ _ _ (by decide)
    apply Nests.item _ 1 _ _ _ _ rfl
    apply Nests.member [] [] "+1" _ _ _ _ List.not_mem_nil
    exact .here _
  have hpath : ".".intercalate (selectors.map Selector.name) = ".0.1.+1" := by decide
  rw [← hpath]
  exact ⟨hselectors, hnests, (fields_along_routes payload).1 selectors _ hselectors hnests⟩

end Payload

end BuildHooks
