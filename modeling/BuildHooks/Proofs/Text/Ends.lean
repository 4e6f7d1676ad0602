import Mathlib.Data.List.DropRight
import Mathlib.Data.List.Forall2
import BuildHooks.Proofs.Text.Lowercase

/-! The ends of a text and the case of its letters. What is taken off the ends of a text is all that
stands there and nothing behind it, and the small forms of two texts are one exactly if each letter of
the one is the letter of the other in some case. -/

namespace BuildHooks.Text

/-- The same character, or a capital and a small letter of ASCII that are one letter. -/
inductive SameLetter : Char → Char → Prop where
  | same (c : Char) : SameLetter c c
  | lowered (n : Nat) (h : n < 26) : SameLetter (Char.ofNat (65 + n)) (Char.ofNat (97 + n))
  | raised (n : Nat) (h : n < 26) : SameLetter (Char.ofNat (97 + n)) (Char.ofNat (65 + n))

/-- The same text up to the case of ASCII letters. -/
def SameLetters : List Char → List Char → Prop :=
  List.Forall₂ SameLetter

theorem exists_of_mem_capitals : ∀ c ∈ capitals,
    ∃ n < 26, c = Char.ofNat (65 + n) ∧ c.toLower = Char.ofNat (97 + n) :=
  List.all_iff_forall_prop.mp (by decide)

theorem sameLetter_iff {c d : Char} : SameLetter c d ↔ c.toLower = d.toLower := by
  constructor
  · intro h
    have hletters : ∀ n < 26, (Char.ofNat (65 + n)).toLower = (Char.ofNat (97 + n)).toLower := by decide
    cases h with
    | same => rfl
    | lowered n h => exact hletters n h
    | raised n h => exact (hletters n h).symm
  · intro h
    rcases toLower_cases c with hc | hc <;> rcases toLower_cases d with hd | hd
    · rw [hc, hd] at h
      subst h
      exact .same c
    · obtain ⟨n, hn, rfl, hlower⟩ := exists_of_mem_capitals d hd
      rw [hc, hlower] at h
      subst h
      exact .raised n hn
    · obtain ⟨n, hn, rfl, hlower⟩ := exists_of_mem_capitals c hc
      rw [hd, hlower] at h
      subst h
      exact .lowered n hn
    · have hinj : ∀ n < 26, ∀ m < 26, Char.ofNat (97 + n) = Char.ofNat (97 + m) → n = m := by decide
      obtain ⟨n, hn, rfl, hlower⟩ := exists_of_mem_capitals c hc
      obtain ⟨m, hm, rfl, hlower'⟩ := exists_of_mem_capitals d hd
      rw [hlower, hlower'] at h
      obtain rfl := hinj n hn m hm h
      exact .same _

theorem sameLetters_iff {cs ds : List Char} :
    SameLetters cs ds ↔ cs.map Char.toLower = ds.map Char.toLower := by
  have hsame : SameLetter = fun c d => c.toLower = d.toLower := by
    funext c d
    exact propext sameLetter_iff
  rw [← List.forall₂_eq_eq_eq, List.forall₂_map_left_iff, List.forall₂_map_right_iff, SameLetters, hsame]

variable {p : Char → Bool} {cs ds left middle right : List Char}

theorem dropEndWhile_append (h : ∀ c ∈ ds, p c = true) :
    dropEndWhile p (cs ++ ds) = dropEndWhile p cs := by
  rw [dropEndWhile, List.reverse_append, List.dropWhile_append_of_pos, dropEndWhile]
  intro c hc
  exact h c (List.mem_reverse.mp hc)

theorem dropEndWhile_eq_self (h : ∀ c, cs.getLast? = some c → p c = false) :
    dropEndWhile p cs = cs := by
  apply List.rdropWhile_eq_self_iff.mpr
  intro hne hlast
  rw [h _ (List.getLast?_eq_some_getLast hne)] at hlast
  cases hlast

/-- What stands between characters that are taken off, and neither begins nor ends with such a one, is
what remains. -/
theorem dropBothWhile_between (hleft : ∀ c ∈ left, p c = true) (hright : ∀ c ∈ right, p c = true)
    (hfirst : ∀ c, middle.head? = some c → p c = false)
    (hlast : ∀ c, middle.getLast? = some c → p c = false) :
    dropBothWhile p (left ++ (middle ++ right)) = middle := by
  rw [dropBothWhile, List.dropWhile_append_of_pos hleft]
  cases middle with
  | nil =>
      rw [List.nil_append, List.dropWhile_eq_nil_iff.mpr hright]
      rfl
  | cons c middle =>
      have hc : ¬p c = true := by
        rw [hfirst c rfl]
        exact Bool.false_ne_true
      rw [List.cons_append, List.dropWhile_cons_of_neg hc, ← List.cons_append,
        dropEndWhile_append hright, dropEndWhile_eq_self hlast]

end BuildHooks.Text
