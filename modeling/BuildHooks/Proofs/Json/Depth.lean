import BuildHooks.Proofs.Json.Fits

/-! How deep a document nests and which numbers stand in it, computed along the document. To fit is to
have no name twice in an object, only numbers that are admitted, and no more levels than there may be, so
each of the three can be told apart from the others. -/

namespace BuildHooks.Json

mutual

/-- How many levels of lists and objects a document nests; an empty one is a level too. -/
def depth : Json → Nat
  | .null => 0
  | .bool _ => 0
  | .number _ => 0
  | .string _ => 0
  | .array items => depthOfItems items + 1
  | .object members => depthOfMembers members + 1

def depthOfItems : List Json → Nat
  | [] => 0
  | x :: xs => max (depth x) (depthOfItems xs)

def depthOfMembers : List (String × Json) → Nat
  | [] => 0
  | (_, x) :: ms => max (depth x) (depthOfMembers ms)

end

mutual

/-- The numbers that stand in a document, in their order. -/
def numbers : Json → List Number
  | .null => []
  | .bool _ => []
  | .number n => [n]
  | .string _ => []
  | .array items => numbersOfItems items
  | .object members => numbersOfMembers members

def numbersOfItems : List Json → List Number
  | [] => []
  | x :: xs => numbers x ++ numbersOfItems xs

def numbersOfMembers : List (String × Json) → List Number
  | [] => []
  | (_, x) :: ms => numbers x ++ numbersOfMembers ms

end

/-- No object in the document has a name twice. -/
inductive Named : Json → Prop where
  | null : Named .null
  | bool (b : Bool) : Named (.bool b)
  | number (n : Number) : Named (.number n)
  | string (s : String) : Named (.string s)
  | array (items : List Json) (h : ∀ x ∈ items, Named x) : Named (.array items)
  | object (members : Members) (names : (members.map Prod.fst).Nodup)
      (h : ∀ m ∈ members, Named m.2) : Named (.object members)

variable {k : Nat} {n : Number}

theorem depthOfItems_le_iff {items : List Json} : depthOfItems items ≤ k ↔ ∀ x ∈ items, depth x ≤ k := by
  induction items with
  | nil => simp [depthOfItems]
  | cons x xs ih => rw [depthOfItems, Nat.max_le, ih, List.forall_mem_cons]

theorem depthOfMembers_le_iff {members : Members} :
    depthOfMembers members ≤ k ↔ ∀ m ∈ members, depth m.2 ≤ k := by
  induction members with
  | nil => simp [depthOfMembers]
  | cons m ms ih => rw [depthOfMembers, Nat.max_le, ih, List.forall_mem_cons]

theorem mem_numbersOfItems_iff {items : List Json} :
    n ∈ numbersOfItems items ↔ ∃ x ∈ items, n ∈ numbers x := by
  induction items with
  | nil => simp [numbersOfItems]
  | cons x xs ih => rw [numbersOfItems, List.mem_append, ih, List.exists_mem_cons_iff]

theorem mem_numbersOfMembers_iff {members : Members} :
    n ∈ numbersOfMembers members ↔ ∃ m ∈ members, n ∈ numbers m.2 := by
  induction members with
  | nil => simp [numbersOfMembers]
  | cons m ms ih => rw [numbersOfMembers, List.mem_append, ih, List.exists_mem_cons_iff]

variable {admitted admitted' : Number → Prop} {v : Json}

theorem Fits.measured (h : Fits admitted k v) :
    Named v ∧ (∀ n ∈ numbers v, admitted n) ∧ depth v ≤ k := by
  induction h with
  | null k => exact ⟨.null, by simp [numbers], Nat.zero_le k⟩
  | bool k b => exact ⟨.bool b, by simp [numbers], Nat.zero_le k⟩
  | number k n hn => exact ⟨.number n, by simpa [numbers] using hn, Nat.zero_le k⟩
  | string k s => exact ⟨.string s, by simp [numbers], Nat.zero_le k⟩
  | array k items _ ih =>
      refine ⟨.array items fun x hx => (ih x hx).1, fun n hn => ?_, ?_⟩
      · obtain ⟨x, hx, hn⟩ := mem_numbersOfItems_iff.mp hn
        exact (ih x hx).2.1 n hn
      · exact Nat.succ_le_succ (depthOfItems_le_iff.mpr fun x hx => (ih x hx).2.2)
  | object k members names _ ih =>
      refine ⟨.object members names fun m hm => (ih m hm).1, fun n hn => ?_, ?_⟩
      · obtain ⟨m, hm, hn⟩ := mem_numbersOfMembers_iff.mp hn
        exact (ih m hm).2.1 n hn
      · exact Nat.succ_le_succ (depthOfMembers_le_iff.mpr fun m hm => (ih m hm).2.2)

theorem Named.fits (h : Named v) (hnumbers : ∀ n ∈ numbers v, admitted n) (hdepth : depth v ≤ k) :
    Fits admitted k v := by
  induction h generalizing k with
  | null => exact .null k
  | bool b => exact .bool k b
  | number n => exact .number k n (hnumbers n (List.mem_singleton_self n))
  | string s => exact .string k s
  | array items _ ih =>
      rw [depth] at hdepth
      obtain ⟨k, rfl⟩ : ∃ j, k = j + 1 := ⟨k - 1, by omega⟩
      have hitems := depthOfItems_le_iff.mp (Nat.le_of_succ_le_succ hdepth)
      exact .array k items fun x hx =>
        ih x hx (fun n hn => hnumbers n (mem_numbersOfItems_iff.mpr ⟨x, hx, hn⟩)) (hitems x hx)
  | object members names _ ih =>
      rw [depth] at hdepth
      obtain ⟨k, rfl⟩ : ∃ j, k = j + 1 := ⟨k - 1, by omega⟩
      have hmembers := depthOfMembers_le_iff.mp (Nat.le_of_succ_le_succ hdepth)
      exact .object k members names fun m hm =>
        ih m hm (fun n hn => hnumbers n (mem_numbersOfMembers_iff.mpr ⟨m, hm, hn⟩)) (hmembers m hm)

/-- A document fits if it has each of the three properties on its own. -/
theorem fits_iff :
    Fits admitted k v ↔ Named v ∧ (∀ n ∈ numbers v, admitted n) ∧ depth v ≤ k :=
  ⟨Fits.measured, fun h => h.1.fits h.2.1 h.2.2⟩

theorem Fits.mono (h : Fits admitted k v) (himp : ∀ n, admitted n → admitted' n) :
    Fits admitted' k v := by
  obtain ⟨hnamed, hnumbers, hdepth⟩ := fits_iff.mp h
  exact hnamed.fits (fun n hn => himp n (hnumbers n hn)) hdepth

theorem Fits.of_depth_le {j : Nat} (h : Fits admitted j v) (hdepth : depth v ≤ k) :
    Fits admitted k v := by
  obtain ⟨hnamed, hnumbers, _⟩ := fits_iff.mp h
  exact hnamed.fits hnumbers hdepth

/-- Nothing, within so many lists: there is a document of every depth. -/
def nested : Nat → Json
  | 0 => .null
  | n + 1 => .array [nested n]

theorem depth_nested (n : Nat) : depth (nested n) = n := by
  induction n with
  | zero => rfl
  | succ n ih => rw [nested, depth, depthOfItems, ih, depthOfItems, Nat.max_zero]

theorem numbers_nested (n : Nat) : numbers (nested n) = [] := by
  induction n with
  | zero => rfl
  | succ n ih => rw [nested, numbers, numbersOfItems, ih]; rfl

theorem named_nested (n : Nat) : Named (nested n) := by
  induction n with
  | zero => exact .null
  | succ n ih =>
      refine .array _ fun x hx => ?_
      rw [List.mem_singleton.mp hx]
      exact ih

end BuildHooks.Json
