import BuildHooks.Proofs.FirstWrong
import BuildHooks.Proofs.Payload.Following

/-! Checks of a payload. A check asks something of the value that a route leads to, and a reader that makes
checks one after another accepts a payload if all of them pass, and reports the first that fails. -/

namespace BuildHooks.Payload

/-- What is asked of a field: a text that is not blank, a text or nothing, a whole number above zero, or a
whole number of 64 bits or nothing. -/
inductive Demand where
  | text
  | optionalText
  | positive
  | optionalInteger

namespace Demand

/-- The field must be there. -/
def required : Demand → Bool
  | text | positive => true
  | optionalText | optionalInteger => false

/-- What the field must be, as a phrase. -/
def phrase : Demand → String
  | text => "a non-empty string"
  | optionalText => "a string"
  | positive => "a positive integer"
  | optionalInteger => "an integer"

/-- The values that the demand is content with. -/
inductive Admits : Demand → Json → Prop where
  | text (s : String) (h : ∃ c ∈ s.toList, Text.isBlank c = false) : Admits .text (.string s)
  | optionalText (s : String) : Admits .optionalText (.string s)
  | positive (n : Int) (h : 0 < n) : Admits .positive (.number (.integer n))
  | optionalInteger (n : Int) (hlow : -(Text.signedEnd : Int) ≤ n) (hhigh : n < Text.signedEnd) :
      Admits .optionalInteger (.number (.integer n))

end Demand

/-- There is nothing at the end of the route, or nothing but null. -/
def Absent (payload : Payload) (route : Route) : Prop :=
  ∀ v, Leads (.object payload) route.names v → v = .null

inductive Check where
  | field (route : Route) (demand : Demand)
  /-- The text there has the mark of repositories' addresses in it. -/
  | marked (route : Route)

namespace Check

inductive Passes (payload : Payload) : Check → Prop where
  | absent (route : Route) (demand : Demand) (hdemand : demand.required = false)
      (h : Absent payload route) : Passes payload (.field route demand)
  | admitted (route : Route) (demand : Demand) (v : Json)
      (hleads : Leads (.object payload) route.names v) (h : demand.Admits v) :
      Passes payload (.field route demand)
  | marked (route : Route) (s : String) (hleads : Leads (.object payload) route.names (.string s))
      (h : "/_git/".toList <:+: s.toList) : Passes payload (.marked route)

/-- How a check fails, and what is reported then. -/
inductive Fails (payload : Payload) : Check → Rejection → Prop where
  | missing (route : Route) (demand : Demand) (hdemand : demand.required = true)
      (h : Absent payload route) : Fails payload (.field route demand) (.missing route.path)
  | invalid (route : Route) (demand : Demand) (v : Json)
      (hleads : Leads (.object payload) route.names v) (hnull : v ≠ .null) (h : ¬demand.Admits v) :
      Fails payload (.field route demand) (.invalid route.path demand.phrase)
  | unmarked (route : Route) (s : String) (hleads : Leads (.object payload) route.names (.string s))
      (h : ¬"/_git/".toList <:+: s.toList) :
      Fails payload (.marked route) (.invalid route.path "a Git remote URL containing '/_git/'")

end Check

variable {α β : Type} {payload : Payload} {route : Route} {check : Check} {checks : List Check}

/-- The result is that of making the checks in their order. -/
structure Checked (payload : Payload) (checks : List Check) (result : Except Rejection α) : Prop where
  accepts : (∃ a, result = .ok a) ↔ ∀ check ∈ checks, check.Passes payload
  rejects : ∀ r, result = .error r ↔
    FirstWrong (fun _ check r => Check.Fails payload check r) checks r

/-- The result is that of making one check. -/
structure Tests (payload : Payload) (check : Check) (result : Except Rejection α) : Prop where
  passes : (∃ a, result = .ok a) ↔ check.Passes payload
  fails : ∀ r, result = .error r ↔ check.Fails payload r

theorem checked_nil (a : α) : Checked payload [] (.ok a) where
  accepts := ⟨fun _ _ h => absurd h List.not_mem_nil, fun _ => ⟨a, rfl⟩⟩
  rejects := fun _ => iff_of_false (fun h => by cases h) not_firstWrong_nil

/-- A check that is made before others comes first; if it fails the others are not made. -/
theorem Checked.bind {x : Except Rejection α} {f : α → Except Rejection β} (hx : Tests payload check x)
    (hf : ∀ a, x = .ok a → Checked payload checks (f a)) :
    Checked payload (check :: checks) (x >>= f) := by
  cases x with
  | ok a =>
      have hpasses := hx.passes.mp ⟨a, rfl⟩
      have hnot : ∀ r, ¬check.Fails payload r := by
        intro r hr
        have h := (hx.fails r).mpr hr
        cases h
      have hrest := hf a rfl
      constructor
      · rw [List.forall_mem_cons, and_iff_right hpasses]
        exact hrest.accepts
      · intro r
        rw [firstWrong_iff_of_right hnot]
        exact hrest.rejects r
  | error fault =>
      have hfault := (hx.fails fault).mp rfl
      constructor
      · refine iff_of_false (fun ⟨_, h⟩ => by cases h) fun h => ?_
        obtain ⟨_, hok⟩ := hx.passes.mpr (h check List.mem_cons_self)
        cases hok
      · intro r
        rw [firstWrong_iff_of_wrong hfault, ← hx.fails r, Except.error.injEq]
        exact ⟨Except.error.inj, fun h => by rw [h]; rfl⟩

theorem absent_iff : Absent payload route ↔ payload.present? route.path = none := by
  rw [Option.eq_none_iff_forall_ne_some]
  constructor
  · intro h v hv
    obtain ⟨hleads, hnull⟩ := present?_path_eq_some_iff.mp hv
    exact hnull (h v hleads)
  · intro h v hleads
    by_contra hnull
    exact h v (present?_path_eq_some_iff.mpr ⟨hleads, hnull⟩)

theorem Demand.Admits.ne_null {demand : Demand} {v : Json} (h : demand.Admits v) : v ≠ .null := by
  rintro rfl
  cases h

namespace Check

variable {r r' : Rejection}

theorem Fails.not_passes (h : check.Fails payload r) : ¬check.Passes payload := by
  intro hpasses
  cases h with
  | missing route demand hdemand habsent =>
      cases hpasses with
      | absent _ _ hoptional _ => rw [hdemand] at hoptional; cases hoptional
      | admitted _ _ v hleads hadmits => exact hadmits.ne_null (habsent v hleads)
  | invalid route demand v hleads hnull hnot =>
      cases hpasses with
      | absent _ _ _ habsent => exact hnull (habsent v hleads)
      | admitted _ _ w hleads' hadmits =>
          rw [hleads'.unique hleads] at hadmits
          exact hnot hadmits
  | unmarked route s hleads hnot =>
      cases hpasses with
      | marked _ t hleads' hmark =>
          cases hleads'.unique hleads
          exact hnot hmark

theorem Fails.unique (h : check.Fails payload r) (h' : check.Fails payload r') : r = r' := by
  cases h with
  | missing route demand _ habsent =>
      cases h' with
      | missing => rfl
      | invalid _ _ v hleads hnull _ => exact absurd (habsent v hleads) hnull
  | invalid route demand v hleads hnull _ =>
      cases h' with
      | missing _ _ _ habsent => exact absurd (habsent v hleads) hnull
      | invalid => rfl
  | unmarked route s _ _ =>
      cases h' with
      | unmarked => rfl

end Check

theorem tests_of_passes {a : α} (h : check.Passes payload) : Tests payload check (.ok a) where
  passes := ⟨fun _ => h, fun _ => ⟨a, rfl⟩⟩
  fails := fun _ => iff_of_false (fun h => by cases h) fun hfails => hfails.not_passes h

theorem tests_of_fails {r : Rejection} (h : check.Fails payload r) :
    Tests payload check (.error r : Except Rejection α) where
  passes := iff_of_false (fun ⟨_, h⟩ => by cases h) h.not_passes
  fails := by
    intro r'
    constructor
    · intro heq
      cases heq
      exact h
    · intro h'
      rw [h.unique h']

/-! ### The readers of fields -/

section

variable {demand : Demand} {v : Json}

theorem tests_missing (h : payload.present? route.path = none) (hdemand : demand.required = true) :
    Tests payload (.field route demand) (.error (.missing route.path) : Except Rejection α) :=
  tests_of_fails (.missing route demand hdemand (absent_iff.mpr h))

theorem tests_left_out (h : payload.present? route.path = none) (hdemand : demand.required = false)
    {a : α} : Tests payload (.field route demand) (.ok a) :=
  tests_of_passes (.absent route demand hdemand (absent_iff.mpr h))

theorem tests_admitted (h : payload.present? route.path = some v) (hadmits : demand.Admits v) {a : α} :
    Tests payload (.field route demand) (.ok a) :=
  tests_of_passes (.admitted route demand v (present?_path_eq_some_iff.mp h).1 hadmits)

theorem tests_refused (h : payload.present? route.path = some v) (hnot : ¬demand.Admits v) :
    Tests payload (.field route demand)
      (.error (.invalid route.path demand.phrase) : Except Rejection α) := by
  obtain ⟨hleads, hnull⟩ := present?_path_eq_some_iff.mp h
  exact tests_of_fails (.invalid route demand v hleads hnull hnot)

end

theorem tests_requiredText (payload : Payload) (route : Route) :
    Tests payload (.field route .text) (payload.requiredText route.path) := by
  unfold requiredText
  split
  · next hnone => exact tests_missing hnone rfl
  · next s hs =>
    split
    · next hblank =>
      refine tests_refused hs fun h => ?_
      cases h with
      | text _ h =>
          rw [isAllBlank_eq_false_iff.mpr h] at hblank
          cases hblank
    · next hfilled =>
      rw [Bool.not_eq_true, isAllBlank_eq_false_iff] at hfilled
      exact tests_admitted hs (.text s hfilled)
  · next v hother hv =>
    refine tests_refused hv fun h => ?_
    cases h with
    | text s _ => exact hother s rfl

theorem tests_optionalText (payload : Payload) (route : Route) :
    Tests payload (.field route .optionalText) (payload.optionalText route.path) := by
  unfold optionalText
  split
  · next hnone => exact tests_left_out hnone rfl
  · next s hs => exact tests_admitted hs (.optionalText s)
  · next v hother hv =>
    refine tests_refused hv fun h => ?_
    cases h with
    | optionalText s => exact hother s rfl

/-- The numbers that are read as positive are those that are admitted as such. -/
theorem isSome_positive_iff {v : Json} :
    (numberOf? (fun n => n.unsigned?.filter (0 < ·)) v).isSome = true ↔ Demand.positive.Admits v := by
  rw [Option.isSome_iff_exists]
  constructor
  · rintro ⟨n, hn⟩
    obtain ⟨rfl, hpos⟩ := numberOf?_positive_eq_some_iff.mp hn
    exact .positive n (Int.ofNat_lt.mpr hpos)
  · intro h
    cases h with
    | positive i hpos =>
        obtain ⟨n, rfl⟩ := Int.eq_ofNat_of_zero_le (Int.le_of_lt hpos)
        exact ⟨n, numberOf?_positive_eq_some_iff.mpr ⟨rfl, Int.ofNat_lt.mp hpos⟩⟩

theorem isSome_optionalInteger_iff {v : Json} :
    (numberOf? Json.Number.signed? v).isSome = true ↔ Demand.optionalInteger.Admits v := by
  rw [Option.isSome_iff_exists]
  constructor
  · rintro ⟨i, hi⟩
    obtain ⟨rfl, hlow, hhigh⟩ := numberOf?_signed_eq_some_iff.mp hi
    exact .optionalInteger i hlow hhigh
  · intro h
    cases h with
    | optionalInteger i hlow hhigh =>
        exact ⟨i, numberOf?_signed_eq_some_iff.mpr ⟨rfl, hlow, hhigh⟩⟩

theorem tests_requiredPositive (payload : Payload) (route : Route) :
    Tests payload (.field route .positive) (payload.requiredPositive route.path) := by
  unfold requiredPositive
  split
  · next hnone => exact tests_missing hnone rfl
  · next v hv =>
    split
    · next n hn => exact tests_admitted hv (isSome_positive_iff.mp (Option.isSome_of_eq_some hn))
    · next hn =>
      refine tests_refused hv fun h => ?_
      rw [← isSome_positive_iff, hn] at h
      cases h

theorem tests_optionalInteger (payload : Payload) (route : Route) :
    Tests payload (.field route .optionalInteger) (payload.optionalInteger route.path) := by
  unfold optionalInteger
  split
  · next hnone => exact tests_left_out hnone rfl
  · next v hv =>
    split
    · next n hn => exact tests_admitted hv (isSome_optionalInteger_iff.mp (Option.isSome_of_eq_some hn))
    · next hn =>
      refine tests_refused hv fun h => ?_
      rw [← isSome_optionalInteger_iff, hn] at h
      cases h

end BuildHooks.Payload
