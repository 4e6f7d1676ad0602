import BuildHooks.Json.Reader

/-! What a text was read as, taken apart. A value that is read is a list, an object or a scalar; items
and members are read one at a time, and after each the list or the object ends or goes on. Whatever holds
of every value that is read is shown along these cases. -/

namespace BuildHooks

namespace Except

variable {ε α β : Type}

theorem bind_eq_ok {x : Except ε α} {f : α → Except ε β} {b : β} :
    (x >>= f) = .ok b ↔ ∃ a, x = .ok a ∧ f a = .ok b := by
  cases x with
  | error e =>
      constructor
      · intro h
        cases h
      · rintro ⟨a, h, _⟩
        cases h
  | ok a =>
      constructor
      · intro h
        exact ⟨a, rfl, h⟩
      · rintro ⟨a', h, hb⟩
        cases h
        exact hb

theorem map_eq_ok {x : Except ε α} {f : α → β} {b : β} :
    x.map f = .ok b ↔ ∃ a, x = .ok a ∧ f a = b := by
  cases x with
  | error e =>
      constructor
      · intro h
        cases h
      · rintro ⟨a, h, _⟩
        cases h
  | ok a =>
      constructor
      · intro h
        exact ⟨a, rfl, Except.ok.inj h⟩
      · rintro ⟨a', h, hb⟩
        cases h
        rw [← hb]
        rfl

end Except

namespace Json

/-- The words that stand for values: the first letter, the others and the value. -/
def words : List (Char × List Char × Json) :=
  [('n', ['u', 'l', 'l'], .null), ('t', ['r', 'u', 'e'], .bool true),
   ('f', ['a', 'l', 's', 'e'], .bool false)]

variable {cs rest : List Char} {v : Json}

theorem readWordAs_eq_ok {word : List Char} {w : Json} (h : readWordAs word w cs = .ok (v, rest)) :
    readWord word cs = .ok rest ∧ v = w := by
  obtain ⟨r, hread, hr⟩ := Except.map_eq_ok.mp h
  cases hr
  exact ⟨hread, rfl⟩

/-- A scalar is a string, a number with or without a sign, or a word. -/
theorem readScalar_cases {c : Char} (h : readScalar c cs = .ok (v, rest)) :
    (c = '"' ∧ ∃ s, readString cs = .ok (s, rest) ∧ v = .string s) ∨
      (c = '-' ∧ ∃ n, readNumeral true cs = .ok (n, rest) ∧ v = .number n) ∨
      (∃ n, readNumeral false (c :: cs) = .ok (n, rest) ∧ v = .number n) ∨
      ∃ word, (c, word, v) ∈ words ∧ readWord word cs = .ok rest := by
  have hword : ∀ word w, (c, word, w) ∈ words → readWordAs word w cs = .ok (v, rest) →
      ∃ word, (c, word, v) ∈ words ∧ readWord word cs = .ok rest := by
    intro word w hmem hw
    obtain ⟨hread, rfl⟩ := readWordAs_eq_ok hw
    exact ⟨word, hmem, hread⟩
  unfold readScalar at h
  split at h
  · next hc =>
    obtain ⟨r, hread, hr⟩ := Except.map_eq_ok.mp h
    cases hr
    exact .inl ⟨hc, r.1, hread, rfl⟩
  · split at h
    · next hc =>
      obtain ⟨r, hread, hr⟩ := Except.map_eq_ok.mp h
      cases hr
      exact .inr (.inl ⟨hc, r.1, hread, rfl⟩)
    · split at h
      · obtain ⟨r, hread, hr⟩ := Except.map_eq_ok.mp h
        cases hr
        exact .inr (.inr (.inl ⟨r.1, hread, rfl⟩))
      · refine .inr (.inr (.inr ?_))
        split at h
        · next hc => exact hword _ _ (by simp [words, hc]) h
        · split at h
          · next hc => exact hword _ _ (by simp [words, hc]) h
          · split at h
            · next hc => exact hword _ _ (by simp [words, hc]) h
            · cases h

/-- A value is a list, empty or with items, an object, empty or with members, or a scalar. -/
theorem readValue_cases {steps levels : Nat} (h : readValue (steps + 1) levels cs = .ok (v, rest)) :
    (∃ k rest₁ onward, levels = k + 1 ∧ dropGap cs = '[' :: rest₁ ∧ listStart rest₁ = .ok onward ∧
      (onward = .finished rest ∧ v = .array [] ∨
        ∃ rest₂, onward = .next rest₂ ∧ readItems steps k [] rest₂ = .ok (v, rest))) ∨
    (∃ k rest₁ onward, levels = k + 1 ∧ dropGap cs = '{' :: rest₁ ∧ objectStart rest₁ = .ok onward ∧
      (onward = .finished rest ∧ v = .object [] ∨
        ∃ rest₂, onward = .next rest₂ ∧ readMembers steps k [] rest₂ = .ok (v, rest))) ∨
    ∃ c rest₁, dropGap cs = c :: rest₁ ∧ readScalar c rest₁ = .ok (v, rest) := by
  unfold readValue at h
  split at h
  · cases h
  · next hbracket =>
    split at h
    · cases h
    · split at h
      · cases h
      · next hstart =>
        cases h
        exact .inl ⟨_, _, _, rfl, hbracket, hstart, .inl ⟨rfl, rfl⟩⟩
      · next hstart => exact .inl ⟨_, _, _, rfl, hbracket, hstart, .inr ⟨_, rfl, h⟩⟩
  · next hbrace =>
    split at h
    · cases h
    · split at h
      · cases h
      · next hstart =>
        cases h
        exact .inr (.inl ⟨_, _, _, rfl, hbrace, hstart, .inl ⟨rfl, rfl⟩⟩)
      · next hstart => exact .inr (.inl ⟨_, _, _, rfl, hbrace, hstart, .inr ⟨_, rfl, h⟩⟩)
  · next hscalar => exact .inr (.inr ⟨_, _, hscalar, h⟩)

theorem readItems_cases {steps levels : Nat} {done : List Json}
    (h : readItems (steps + 1) levels done cs = .ok (v, rest)) :
    ∃ x rest₁ onward, readValue steps levels cs = .ok (x, rest₁) ∧ listOnward rest₁ = .ok onward ∧
      (onward = .finished rest ∧ v = .array (x :: done).reverse ∨
        ∃ rest₂, onward = .next rest₂ ∧ readItems steps levels (x :: done) rest₂ = .ok (v, rest)) := by
  unfold readItems at h
  split at h
  · cases h
  · next hvalue =>
    split at h
    · cases h
    · next honward =>
      cases h
      exact ⟨_, _, _, hvalue, honward, .inl ⟨rfl, rfl⟩⟩
    · next honward => exact ⟨_, _, _, hvalue, honward, .inr ⟨_, rfl, h⟩⟩

theorem readMembers_cases {steps levels : Nat} {done : Members}
    (h : readMembers (steps + 1) levels done cs = .ok (v, rest)) :
    ∃ name x rest₁ rest₂ rest₃ onward, readString cs = .ok (name, rest₁) ∧
      readColon rest₁ = .ok rest₂ ∧ readValue steps levels rest₂ = .ok (x, rest₃) ∧
      objectOnward rest₃ = .ok onward ∧
      (onward = .finished rest ∧ v = .object (done.put name x) ∨
        ∃ rest₄, onward = .next rest₄ ∧
          readMembers steps levels (done.put name x) rest₄ = .ok (v, rest)) := by
  unfold readMembers at h
  split at h
  · cases h
  · next hname =>
    split at h
    · cases h
    · next hcolon =>
      split at h
      · cases h
      · next hvalue =>
        split at h
        · cases h
        · next honward =>
          cases h
          exact ⟨_, _, _, _, _, _, hname, hcolon, hvalue, honward, .inl ⟨rfl, rfl⟩⟩
        · next honward => exact ⟨_, _, _, _, _, _, hname, hcolon, hvalue, honward, .inr ⟨_, rfl, h⟩⟩

/-- A text is read as a value after which only blanks are left. -/
theorem read_of_parse {text : String} (h : parse text = .ok v) :
    ∃ rest, readValue (stepsFor text.toList) maxLevels text.toList = .ok (v, rest) ∧
      dropGap rest = [] := by
  unfold parse parseWith readWhole at h
  cases hread : readValue (stepsFor text.toList) maxLevels text.toList with
  | error e =>
      simp only [hread] at h
      cases h
  | ok r =>
      obtain ⟨w, rest⟩ := r
      simp only [hread] at h
      split at h
      · next hw =>
        cases h
        split at hw
        · next hrest =>
          cases hw
          exact ⟨rest, rfl, hrest⟩
        · cases hw
      · cases h

end Json

end BuildHooks
