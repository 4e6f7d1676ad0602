/-!
Cutting a text: at a leading text, at the first place where another text stands, and at every
occurrence of a separating character. Each cut says what came before and what comes after, so that
the text is the parts put together again.
-/

namespace BuildHooks.Text

/-- What follows `lead`, if the text starts with it. -/
def dropLead? : List Char → List Char → Option (List Char)
  | [], cs => some cs
  | _ :: _, [] => none
  | l :: lead, c :: cs => if l = c then dropLead? lead cs else none

theorem dropLead?_length {lead cs rest : List Char} (h : dropLead? lead cs = some rest) :
    cs.length = lead.length + rest.length := by
  induction lead generalizing cs with
  | nil =>
      cases h
      simp
  | cons l lead ih =>
      cases cs with
      | nil => cases h
      | cons c cs =>
          simp only [dropLead?, Option.ite_none_right_eq_some] at h
          simp only [List.length_cons, ih h.2]
          omega

/-- The text before the first place where `mark` stands, reversed onto `passed`, and the text after
that occurrence. -/
def breakAtFrom? (mark passed : List Char) : List Char → Option (List Char × List Char)
  | [] => if mark.isEmpty then some (passed.reverse, []) else none
  | c :: cs =>
    match dropLead? mark (c :: cs) with
    | some rest => some (passed.reverse, rest)
    | none => breakAtFrom? mark (c :: passed) cs

/-- The text before the first occurrence of `mark`, and the text after that occurrence. -/
def breakAt? (mark cs : List Char) : Option (List Char × List Char) :=
  breakAtFrom? mark [] cs

theorem breakAtFrom?_length {mark passed cs : List Char} {parts : List Char × List Char}
    (h : breakAtFrom? mark passed cs = some parts) :
    passed.length + cs.length = parts.1.length + mark.length + parts.2.length := by
  induction cs generalizing passed with
  | nil =>
      simp only [breakAtFrom?, Option.ite_none_right_eq_some, List.isEmpty_iff] at h
      obtain ⟨rfl, hparts⟩ := h
      cases hparts
      simp
  | cons c cs ih =>
      rw [breakAtFrom?] at h
      split at h
      · next rest hrest =>
        cases h
        simp only [dropLead?_length hrest, List.length_reverse]
        omega
      · have hlength := ih h
        simp only [List.length_cons] at hlength ⊢
        omega

theorem breakAt?_length {mark cs : List Char} {parts : List Char × List Char}
    (h : breakAt? mark cs = some parts) :
    cs.length = parts.1.length + mark.length + parts.2.length := by
  rw [← breakAtFrom?_length h, List.length_nil, Nat.zero_add]

/-- The parts of a text between occurrences of `sep`: `done` holds the finished parts and `part`
the current one, both reversed. -/
def splitFrom (sep : Char) (done : List (List Char)) (part : List Char) :
    List Char → List (List Char)
  | [] => (part.reverse :: done).reverse
  | c :: cs =>
    if c = sep then splitFrom sep (part.reverse :: done) [] cs
    else splitFrom sep done (c :: part) cs

/-- The parts of a text between occurrences of `sep`; one more than there are occurrences. -/
def split (sep : Char) (cs : List Char) : List (List Char) :=
  splitFrom sep [] [] cs

/-- The parts of `s` between occurrences of `sep`, as texts. -/
def splitText (sep : Char) (s : String) : List String :=
  (split sep s.toList).map String.ofList

/-- The lines of a text: the parts between line feeds, each without a carriage return at its end. -/
def lines (cs : List Char) : List (List Char) :=
  (split '\n' cs).map fun line => if line.getLast? = some '\r' then line.dropLast else line

end BuildHooks.Text
