import BuildHooks.Event.Page
import BuildHooks.Proofs.Text.Cut

/-! What filling a template comes to. The first place that is left is looked for again and again, which is
one pass over the template: no two places overlap, and no place is the beginning of another. How a template
falls into pieces hangs on the template alone, so nothing that is put in can make a place or unmake one. -/

namespace BuildHooks.Event

/-- A part of a template: a character that is kept, or a place. -/
inductive Piece where
  | kept (c : Char)
  | filled (place : Place)

namespace Piece

/-- How the piece is written in a template. -/
def source : Piece → List Char
  | kept c => [c]
  | filled place => place.mark

/-- How the piece is written in the page. -/
def shown (v : PageValues) : Piece → List Char
  | kept c => [c]
  | filled place => (v.value place).toList

end Piece

/-- The page that is written in one pass over a template. Where a place starts its value is written and the
place passed over, anywhere else one character is copied. -/
inductive Scans (v : PageValues) : List Char → List Char → Prop where
  | nil : Scans v [] []
  | place (p : Place) (rest out : List Char) (h : Scans v rest out) :
      Scans v (p.mark ++ rest) ((v.value p).toList ++ out)
  | copy (c : Char) (rest out : List Char) (hnone : ∀ p : Place, ¬p.mark <+: c :: rest)
      (h : Scans v rest out) : Scans v (c :: rest) (c :: out)

/-- The pieces that are met in one pass over a template. -/
inductive Reads : List Char → List Piece → Prop where
  | nil : Reads [] []
  | place (p : Place) (rest : List Char) (pieces : List Piece) (h : Reads rest pieces) :
      Reads (p.mark ++ rest) (.filled p :: pieces)
  | copy (c : Char) (rest : List Char) (pieces : List Piece)
      (hnone : ∀ p : Place, ¬p.mark <+: c :: rest) (h : Reads rest pieces) :
      Reads (c :: rest) (.kept c :: pieces)

variable {p q : Place} {c : Char} {cs before after rest out : List Char} {pieces other : List Piece}
  {v : PageValues}

theorem Place.mark_eq_cons (p : Place) : p.mark = '{' :: (p.name.toList ++ ['}']) :=
  rfl

/-- No place is the beginning of another. -/
theorem Place.eq_of_mark_append (h : p.mark ++ after = q.mark ++ rest) : p = q ∧ after = rest := by
  have hfree : ∀ p q : Place, p.mark <+: q.mark → p = q := by
    intro p q
    cases p <;> cases q <;> decide
  have hp : p.mark <+: q.mark ++ rest := h ▸ List.prefix_append _ _
  have hpq : p = q := by
    rcases List.prefix_or_prefix_of_prefix hp (List.prefix_append _ _) with hle | hle
    · exact hfree p q hle
    · exact (hfree q p hle).symm
  subst hpq
  exact ⟨rfl, List.append_cancel_left h⟩

/-- A place behind the start of another one stands behind its end too, since a brace opens nothing but a
place. -/
theorem Place.apart (h : q.mark ++ rest = before ++ (p.mark ++ after)) :
    before = [] ∧ p = q ∧ after = rest ∨
      ∃ between, before = q.mark ++ between ∧ rest = between ++ (p.mark ++ after) := by
  have hinner : ∀ q : Place, '{' ∉ q.name.toList ++ ['}'] := by
    intro q
    cases q <;> decide
  rcases List.append_eq_append_iff.mp h with ⟨between, hbefore, hrest⟩ | ⟨gap, hq, hp⟩
  · exact .inr ⟨between, hbefore, hrest⟩
  · cases before with
    | nil =>
        rw [List.nil_append] at hq
        rw [← hq] at hp
        exact .inl ⟨rfl, Place.eq_of_mark_append hp⟩
    | cons b before =>
        rw [Place.mark_eq_cons, List.cons_append, List.cons.injEq] at hq
        obtain ⟨rfl, hq⟩ := hq
        cases gap with
        | nil =>
            refine .inr ⟨[], ?_, hp.symm⟩
            rw [Place.mark_eq_cons, hq, List.append_nil, List.append_nil]
        | cons g gap =>
            rw [Place.mark_eq_cons, List.cons_append, List.cons_append, List.cons.injEq] at hp
            have hmem : '{' ∈ q.name.toList ++ ['}'] := by
              rw [hq, hp.1]
              exact List.mem_append_right _ List.mem_cons_self
            exact absurd hmem (hinner q)

/-! ### One pass -/

namespace Reads

theorem of_place (h : Reads (p.mark ++ rest) pieces) :
    ∃ more, pieces = .filled p :: more ∧ Reads rest more := by
  generalize hcs : p.mark ++ rest = cs at h
  cases h with
  | nil =>
      rw [Place.mark_eq_cons] at hcs
      cases hcs
  | place q rest' more h =>
      obtain ⟨rfl, rfl⟩ := Place.eq_of_mark_append hcs
      exact ⟨more, rfl, h⟩
  | copy c rest' more hnone h => exact absurd (hcs ▸ List.prefix_append _ _) (hnone p)

theorem of_cons (hnone : ∀ p : Place, ¬p.mark <+: c :: rest) (h : Reads (c :: rest) pieces) :
    ∃ more, pieces = .kept c :: more ∧ Reads rest more := by
  generalize hcs : c :: rest = cs at h
  cases h with
  | nil => cases hcs
  | place q rest' more h => exact absurd (hcs ▸ List.prefix_append _ _) (hnone q)
  | copy c' rest' more hnone h =>
      cases hcs
      exact ⟨more, rfl, h⟩

/-- A template falls into pieces in one way. -/
theorem unique (h : Reads cs pieces) (h' : Reads cs other) : pieces = other := by
  induction h generalizing other with
  | nil =>
      generalize hcs : ([] : List Char) = cs at h'
      cases h' with
      | nil => rfl
      | place q rest more h =>
          rw [Place.mark_eq_cons] at hcs
          cases hcs
      | copy c rest more hnone h => cases hcs
  | place p rest pieces _ ih =>
      obtain ⟨more, rfl, hmore⟩ := h'.of_place
      rw [ih hmore]
  | copy c rest pieces hnone _ ih =>
      obtain ⟨more, rfl, hmore⟩ := h'.of_cons hnone
      rw [ih hmore]

end Reads

/-! ### The first place -/

/-- What the pages are that a template makes. -/
structure Filled (template : String) : Prop where
  /-- The page is what one pass over the template writes, and nothing else is. -/
  scanned : ∀ (v : PageValues) (page : List Char),
    Scans v template.toList page ↔ (v.fill template).toList = page
  /-- The template falls into pieces, whatever is put in: every place that is written in it is filled, and
  all other characters stay in their order. -/
  parted : ∃ pieces : List Piece, pieces.flatMap Piece.source = template.toList ∧
    (∀ v : PageValues, (v.fill template).toList = pieces.flatMap (Piece.shown v)) ∧
    ∀ (p : Place) (before after : List Char), template.toList = before ++ (p.mark ++ after) →
      ∃ earlier later, pieces = earlier ++ .filled p :: later ∧
        earlier.flatMap Piece.source = before ∧ later.flatMap Piece.source = after

end BuildHooks.Event
