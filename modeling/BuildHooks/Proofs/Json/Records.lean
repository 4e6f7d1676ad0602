import BuildHooks.Json.Record
import BuildHooks.Proofs.Json.Passing
import BuildHooks.Proofs.Json.Slots

/-! Records in any spelling. What a record takes from the members of a document does not depend on their
order, on members that it does not know, or on members left out that are what they are taken for then;
and it is the same whether the record is read off a text or taken from a document. -/

namespace BuildHooks.Json

section

variable {δ α : Type}

/-- What a field sets from a document it reads off its text. -/
def Field.Agrees (field : Field δ) : Prop :=
  ∀ v fill, field.ofJson v = .ok fill → Takes field.read v fill

/-- Setting either of two fields leaves the other as it was, and it does not matter which is set
first. -/
def Field.Apart (f g : Field δ) : Prop :=
  ∀ v w setF setG, f.ofJson v = .ok setF → g.ofJson w = .ok setG → ∀ draft,
    g.filled (setF draft) = g.filled draft ∧ f.filled (setG draft) = f.filled draft ∧
      setF (setG draft) = setG (setF draft)

instance : Std.Symm (Field.Apart (δ := δ)) where
  symm f g h v w setG setF hg hf draft := by
    obtain ⟨hG, hF, hcomm⟩ := h w v setF setG hf hg draft
    exact ⟨hF, hG, hcomm.symm⟩

section

variable {β γ : Type} {name name' : String} {slot : Slot β} {slot' : Slot γ} {get : δ → Option β}
  {get' : δ → Option γ} {set : δ → β → δ} {set' : δ → γ → δ}

theorem Field.of_ofJson_eq_ok {v : Json} {fill : δ → δ}
    (h : (Field.of name slot get set).ofJson v = .ok fill) :
    ∃ b, slot.ofJson v = .ok b ∧ fill = fun draft => set draft b := by
  obtain ⟨b, hb, hfill⟩ := Except.map_eq_ok.mp h
  exact ⟨b, hb, hfill.symm⟩

theorem Field.of_ofJson {v : Json} {b : β} (h : slot.ofJson v = .ok b) :
    (Field.of name slot get set).ofJson v = .ok fun draft => set draft b := by
  change (slot.ofJson v).map _ = _
  rw [h]
  rfl

theorem Field.agrees_of (hslot : slot.Agrees) : (Field.of name slot get set).Agrees := by
  intro v fill h steps rest hsteps hrest
  obtain ⟨b, hb, rfl⟩ := Field.of_ofJson_eq_ok h
  change (slot.read steps (chars v ++ rest)).map _ = _
  rw [hslot v b hb steps rest hsteps hrest]
  rfl

theorem Field.fills_of (hset : ∀ draft b, (get (set draft b)).isSome = true) {v : Json} {fill : δ → δ}
    (h : (Field.of name slot get set).ofJson v = .ok fill) (draft : δ) :
    (Field.of name slot get set).filled (fill draft) = true := by
  obtain ⟨b, _, rfl⟩ := Field.of_ofJson_eq_ok h
  exact hset draft b

/-- Places of a draft that are set apart make fields that are. -/
theorem Field.apart_of (hget : ∀ draft b, get' (set draft b) = get' draft)
    (hget' : ∀ draft c, get (set' draft c) = get draft)
    (hset : ∀ draft b c, set (set' draft c) b = set' (set draft b) c) :
    (Field.of name slot get set).Apart (Field.of name' slot' get' set') := by
  intro v w setF setG hf hg draft
  obtain ⟨b, _, rfl⟩ := Field.of_ofJson_eq_ok hf
  obtain ⟨c, _, rfl⟩ := Field.of_ofJson_eq_ok hg
  refine ⟨?_, ?_, hset draft b c⟩
  · change (get' (set draft b)).isSome = (get' draft).isSome
    rw [hget]
  · change (get (set' draft c)).isSome = (get draft).isSome
    rw [hget']

end

variable {form : Form δ α}

/-- The field for a member. -/
def Form.field? (form : Form δ α) (name : String) : Option (Field δ) :=
  form.fields.find? fun f => f.name == name

/-- The names of the members that a record knows. -/
def Form.names (form : Form δ α) : List String :=
  form.fields.map Field.name

theorem Form.field?_eq_none_iff {name : String} : form.field? name = none ↔ name ∉ form.names := by
  unfold field? names
  simp

theorem Form.field?_eq_some {name : String} {field : Field δ} (h : form.field? name = some field) :
    field ∈ form.fields ∧ field.name = name := by
  refine ⟨List.mem_of_find?_eq_some h, ?_⟩
  have := List.find?_some h
  simpa using this

/-- A record whose fields are what slots make of separate places of the draft. -/
structure Form.Lawful (form : Form δ α) : Prop where
  agrees : ∀ f ∈ form.fields, f.Agrees
  fills : ∀ f ∈ form.fields, ∀ v fill, f.ofJson v = .ok fill → ∀ draft, f.filled (fill draft) = true
  apart : form.fields.Pairwise Field.Apart

theorem Form.fill_cons_eq_ok_iff {draft d : δ} {name : String} {v : Json} {ms : Members} :
    form.fill draft ((name, v) :: ms) = .ok d ↔
      form.field? name = none ∧ form.fill draft ms = .ok d ∨
        ∃ field fill, form.field? name = some field ∧ field.filled draft = false ∧
          field.ofJson v = .ok fill ∧ form.fill (fill draft) ms = .ok d := by
  rw [Form.fill, ← Form.field?]
  cases hfield : form.field? name with
  | none => simp
  | some field =>
      simp only
      cases hfilled : field.filled draft with
      | true => simp [hfilled]
      | false =>
          cases hv : field.ofJson v with
          | error e => simp [hv]
          | ok fill => simp [hfilled, hv]

theorem Form.fill_append_eq_ok_iff {draft d : δ} {ms ms' : Members} :
    form.fill draft (ms ++ ms') = .ok d ↔
      ∃ d', form.fill draft ms = .ok d' ∧ form.fill d' ms' = .ok d := by
  induction ms generalizing draft with
  | nil =>
      constructor
      · intro h
        exact ⟨draft, rfl, h⟩
      · rintro ⟨d', h, h'⟩
        cases h
        exact h'
  | cons m ms ih =>
      obtain ⟨name, v⟩ := m
      rw [List.cons_append, Form.fill_cons_eq_ok_iff]
      constructor
      · rintro (⟨hfield, h⟩ | ⟨field, fill, hfield, hnew, hv, h⟩)
        · obtain ⟨d', hd', h'⟩ := ih.mp h
          exact ⟨d', Form.fill_cons_eq_ok_iff.mpr (.inl ⟨hfield, hd'⟩), h'⟩
        · obtain ⟨d', hd', h'⟩ := ih.mp h
          exact ⟨d', Form.fill_cons_eq_ok_iff.mpr (.inr ⟨field, fill, hfield, hnew, hv, hd'⟩), h'⟩
      · rintro ⟨d', hd', h'⟩
        rcases Form.fill_cons_eq_ok_iff.mp hd' with ⟨hfield, h⟩ | ⟨field, fill, hfield, hnew, hv, h⟩
        · exact .inl ⟨hfield, ih.mpr ⟨d', h, h'⟩⟩
        · exact .inr ⟨field, fill, hfield, hnew, hv, ih.mpr ⟨d', h, h'⟩⟩

/-- Members that a record does not know leave its draft as it is. -/
theorem Form.fill_others (draft : δ) {ms : Members} (h : ∀ m ∈ ms, m.1 ∉ form.names) :
    form.fill draft ms = .ok draft := by
  induction ms with
  | nil => rfl
  | cons m ms ih =>
      rw [List.forall_mem_cons] at h
      exact Form.fill_cons_eq_ok_iff.mpr (.inl ⟨Form.field?_eq_none_iff.mpr h.1, ih h.2⟩)

/-- Members that were read again fill a draft like those that were written, if the known ones came back
as they were. -/
theorem Form.fill_reread {k : Nat} {os ms : Members}
    (h : List.Forall₂ (fun (o m : String × Json) => o.1 = m.1 ∧
      Takes (fun steps => readValue steps k) m.2 o.2) os ms)
    (hback : ∀ m ∈ ms, m.1 ∈ form.names → ReadsBack k m.2) (draft : δ) :
    form.fill draft os = form.fill draft ms := by
  induction h generalizing draft with
  | nil => rfl
  | @cons o m os ms hom _ ih =>
      obtain ⟨name', w⟩ := o
      obtain ⟨name, v⟩ := m
      obtain ⟨rfl, hw⟩ := hom
      rw [List.forall_mem_cons] at hback
      rw [Form.fill, Form.fill, ← Form.field?]
      cases hfield : form.field? name' with
      | none => exact ih hback.2 draft
      | some field =>
          obtain ⟨hmem, hname⟩ := Form.field?_eq_some hfield
          have hsame : w = v :=
            hw.unique (hback.1 (hname ▸ List.mem_map_of_mem hmem)).takes
          rw [hsame]
          simp only [ih hback.2]

theorem Form.Lawful.apart_of_ne (hform : form.Lawful) {name name' : String} {f g : Field δ}
    (hf : form.field? name = some f) (hg : form.field? name' = some g) (hne : f ≠ g) : f.Apart g :=
  hform.apart.forall (Form.field?_eq_some hf).1 (Form.field?_eq_some hg).1 hne

/-- The order of the members does not matter to what they fill a draft with. -/
theorem Form.Lawful.fill_perm (hform : form.Lawful) {ms ms' : Members} (hperm : ms.Perm ms')
    {draft d : δ} (h : form.fill draft ms = .ok d) : form.fill draft ms' = .ok d := by
  induction hperm generalizing draft with
  | nil => exact h
  | cons m _ ih =>
      obtain ⟨name, v⟩ := m
      rcases Form.fill_cons_eq_ok_iff.mp h with ⟨hfield, h⟩ | ⟨field, fill, hfield, hnew, hv, h⟩
      · exact Form.fill_cons_eq_ok_iff.mpr (.inl ⟨hfield, ih h⟩)
      · exact Form.fill_cons_eq_ok_iff.mpr (.inr ⟨field, fill, hfield, hnew, hv, ih h⟩)
  | swap m m' ms =>
      obtain ⟨name, v⟩ := m
      obtain ⟨name', v'⟩ := m'
      rcases Form.fill_cons_eq_ok_iff.mp h with ⟨hg, h⟩ | ⟨g, setG, hg, hnewG, hv', h⟩
      · rcases Form.fill_cons_eq_ok_iff.mp h with ⟨hf, h⟩ | ⟨f, setF, hf, hnewF, hv, h⟩
        · exact Form.fill_cons_eq_ok_iff.mpr
            (.inl ⟨hf, Form.fill_cons_eq_ok_iff.mpr (.inl ⟨hg, h⟩)⟩)
        · exact Form.fill_cons_eq_ok_iff.mpr
            (.inr ⟨f, setF, hf, hnewF, hv, Form.fill_cons_eq_ok_iff.mpr (.inl ⟨hg, h⟩)⟩)
      · rcases Form.fill_cons_eq_ok_iff.mp h with ⟨hf, h⟩ | ⟨f, setF, hf, hnewF, hv, h⟩
        · exact Form.fill_cons_eq_ok_iff.mpr
            (.inl ⟨hf, Form.fill_cons_eq_ok_iff.mpr (.inr ⟨g, setG, hg, hnewG, hv', h⟩)⟩)
        · by_cases hsame : f = g
          -- A field that has just been set would not be set again.
          · subst hsame
            rw [hform.fills f (Form.field?_eq_some hf).1 v' setG hv' draft] at hnewF
            cases hnewF
          · obtain ⟨hfilledG, hfilledF, hcomm⟩ :=
              hform.apart_of_ne hf hg hsame v v' setF setG hv hv' draft
            refine Form.fill_cons_eq_ok_iff.mpr (.inr ⟨f, setF, hf, hfilledF ▸ hnewF, hv,
              Form.fill_cons_eq_ok_iff.mpr (.inr ⟨g, setG, hg, ?_, hv', ?_⟩)⟩)
            · rw [hfilledG, hnewG]
            · rwa [← hcomm]
  | trans _ _ ih ih' => exact ih' (ih h)

/-- Another spelling of the members in `base`: some that `optional` has are left out, others of unknown
names are put in, and all stand in any order. -/
def Respells (known : List String) (optional base ms : Members) : Prop :=
  ∃ kept left others : Members, base.Perm (kept ++ left) ∧ (∀ m ∈ left, m ∈ optional) ∧
    (∀ m ∈ others, m.1 ∉ known ∧ Stored m.2) ∧ ms.Perm (kept ++ others)

theorem Respells.refl (known : List String) (optional base : Members) :
    Respells known optional base base :=
  ⟨base, [], [], by rw [List.append_nil], by simp, by simp, by rw [List.append_nil]⟩

/-- The part of a spelling whose names are selected spells the part of the members. -/
theorem Respells.filter {known known' : List String} {optional base ms : Members}
    (h : Respells known optional base ms) (hknown : known' ⊆ known) (q : String × Json → Bool) :
    Respells known' optional (base.filter q) (ms.filter q) := by
  obtain ⟨kept, left, others, hperm, hleft, hothers, hms⟩ := h
  refine ⟨kept.filter q, left.filter q, others.filter q, ?_, fun m hm => ?_, fun m hm => ?_, ?_⟩
  · rw [← List.filter_append]
    exact hperm.filter q
  · exact hleft m (List.mem_filter.mp hm).1
  · obtain ⟨hname, hstored⟩ := hothers m (List.mem_filter.mp hm).1
    exact ⟨fun h => hname (hknown h), hstored⟩
  · rw [← List.filter_append]
    exact hms.filter q

/-- A member of a spelling is one of those that it spells, or its name is not known. -/
theorem Respells.cases {known : List String} {optional base ms : Members}
    (h : Respells known optional base ms) {m : String × Json} (hm : m ∈ ms) :
    m ∈ base ∨ m.1 ∉ known ∧ Stored m.2 := by
  obtain ⟨kept, left, others, hperm, _, hothers, hms⟩ := h
  rcases List.mem_append.mp (hms.mem_iff.mp hm) with hkept | hother
  · exact .inl (hperm.mem_iff.mpr (List.mem_append_left _ hkept))
  · exact .inr (hothers m hother)

/-- Members that a finished record is the same with and without. -/
def Form.Defaults (form : Form δ α) (optional : Members) : Prop :=
  ∀ m ∈ optional, ∀ draft d, form.fill draft [m] = .ok d → form.finish d = form.finish draft

/-- A member that a draft lacks makes no difference if its field sets what is taken for it anyway. -/
theorem Form.finish_of_fill_singleton {name : String} {v : Json} {field : Field δ} {fill : δ → δ}
    (hfield : form.field? name = some field) (hv : field.ofJson v = .ok fill)
    (hsame : ∀ draft, field.filled draft = false → form.finish (fill draft) = form.finish draft)
    {draft d : δ} (h : form.fill draft [(name, v)] = .ok d) : form.finish d = form.finish draft := by
  rcases Form.fill_cons_eq_ok_iff.mp h with ⟨hnone, _⟩ | ⟨field', fill', hfield', hnew, hv', h⟩
  · rw [hfield] at hnone
    cases hnone
  · cases hfield.symm.trans hfield'
    cases hv.symm.trans hv'
    cases h
    exact hsame draft hnew

theorem Form.Defaults.finish_eq {optional left : Members} (h : form.Defaults optional)
    (hleft : ∀ m ∈ left, m ∈ optional) {draft d : δ} (hfill : form.fill draft left = .ok d) :
    form.finish d = form.finish draft := by
  induction left generalizing draft with
  | nil =>
      cases hfill
      rfl
  | cons m left ih =>
      rw [List.forall_mem_cons] at hleft
      rw [← List.singleton_append, Form.fill_append_eq_ok_iff] at hfill
      obtain ⟨d', hd', hfill⟩ := hfill
      rw [ih hleft.2 hfill, h m hleft.1 draft d' hd']

/-- Another spelling of some members fills a draft with what they do, up to what is left out. -/
theorem Form.Lawful.fill_respelled (hform : form.Lawful) {known : List String}
    (hknown : form.names ⊆ known) {optional base ms : Members} (h : Respells known optional base ms)
    {draft d : δ} (hbase : form.fill draft base = .ok d) :
    ∃ d' left, form.fill draft ms = .ok d' ∧ (∀ m ∈ left, m ∈ optional) ∧
      form.fill d' left = .ok d := by
  obtain ⟨kept, left, others, hperm, hleft, hothers, hms⟩ := h
  obtain ⟨d', hkept, hrest⟩ := Form.fill_append_eq_ok_iff.mp (hform.fill_perm hperm hbase)
  refine ⟨d', left, ?_, hleft, hrest⟩
  exact hform.fill_perm hms.symm (Form.fill_append_eq_ok_iff.mpr
    ⟨d', hkept, Form.fill_others d' fun m hm hname => (hothers m hm).1 (hknown hname)⟩)

/-- Every spelling of some members makes the record that they make. -/
theorem Form.Lawful.ofMembers_respelled (hform : form.Lawful) {optional base ms : Members}
    (hdefaults : form.Defaults optional) (h : Respells form.names optional base ms) {a : α}
    (hbase : form.ofMembers base = .ok a) : form.ofMembers ms = .ok a := by
  unfold Form.ofMembers at hbase ⊢
  cases hfill : form.fill form.blank base with
  | error e =>
      rw [hfill] at hbase
      cases hbase
  | ok d =>
      rw [hfill] at hbase
      obtain ⟨d', left, hd', hleft, hrest⟩ := hform.fill_respelled (fun _ hname => hname) h hfill
      have hsame := hdefaults.finish_eq hleft hrest
      rw [hd']
      simp only at hbase ⊢
      rw [← hsame, hbase]

/-- What the members of a text make of a draft, one after another. -/
inductive Form.Absorbs (form : Form δ α) : δ → Members → δ → Prop where
  | nil (draft : δ) : Absorbs form draft [] draft
  | known {draft d : δ} {name : String} {v : Json} {ms : Members} {field : Field δ} {fill : δ → δ}
      (hfield : form.field? name = some field) (hnew : field.filled draft = false)
      (hv : Takes field.read v fill) (hms : Absorbs form (fill draft) ms d) :
      Absorbs form draft ((name, v) :: ms) d
  | other {draft d : δ} {name : String} {v : Json} {ms : Members} {fill : δ → δ}
      (hfield : form.field? name = none) (hv : Takes (fun steps => form.other steps name) v fill)
      (hms : Absorbs form (fill draft) ms d) : Absorbs form draft ((name, v) :: ms) d

theorem Form.Absorbs.readMember {draft d : δ} {name : String} {v : Json} {ms : Members}
    (h : form.Absorbs draft ((name, v) :: ms) d) :
    ∃ draft', form.Absorbs draft' ms d ∧ ∀ steps rest, 2 * (chars v).length ≤ steps →
      EndsNumeral rest →
      form.readMember steps draft name (':' :: (chars v ++ rest)) = .ok (draft', rest) := by
  cases h with
  | @known _ _ _ _ _ field fill hfield hnew hv hms =>
      refine ⟨fill draft, hms, fun steps rest hsteps hrest => ?_⟩
      rw [Form.readMember, ← Form.field?, hfield]
      simp only [readColon, dropGap_cons (c := ':') rfl]
      rw [hnew, if_neg (by decide), hv steps rest hsteps hrest]
      rfl
  | @other _ _ _ _ _ fill hfield hv hms =>
      refine ⟨fill draft, hms, fun steps rest hsteps hrest => ?_⟩
      have hread := hv steps rest hsteps hrest
      simp only at hread
      rw [Form.readMember, ← Form.field?, hfield]
      simp only [readColon, dropGap_cons (c := ':') rfl]
      rw [hread]
      rfl

theorem Form.readMembers_chars {draft d : δ} {name : String} {x : Json} {ms : Members} {a : α}
    (h : form.Absorbs draft ((name, x) :: ms) d) (hfinish : form.finish d = .ok a) (steps : Nat)
    (hsteps : 2 * (chars x ++ membersChars ms).length + 2 ≤ steps) (rest : List Char) :
    form.readMembers steps draft (name.toList.flatMap escapeChar ++
        '"' :: ':' :: (chars x ++ membersChars ms ++ rest)) = .ok (a, rest) := by
  obtain ⟨draft', hms, hread⟩ := h.readMember
  rw [List.length_append] at hsteps
  obtain ⟨steps, rfl⟩ : ∃ s, steps = s + 1 := ⟨steps - 1, by omega⟩
  have hmember := hread steps (membersChars ms ++ rest) (by omega) (endsNumeral_membersChars ms rest)
  induction ms generalizing draft draft' name x steps with
  | nil =>
      cases hms
      rw [List.append_assoc, Form.readMembers, readString_escaped]
      simp only
      rw [hmember]
      simp only
      rw [objectOnward_end]
      simp only [Form.close, hfinish]
  | cons m ms ih =>
      obtain ⟨name', y⟩ := m
      obtain ⟨draft'', hms', hread'⟩ := hms.readMember
      simp only [membersChars, List.length_append, List.length_cons] at hsteps
      obtain ⟨steps, rfl⟩ : ∃ s, steps = s + 1 := ⟨steps - 1, by omega⟩
      rw [List.append_assoc, Form.readMembers, readString_escaped]
      simp only
      rw [hmember]
      simp only
      rw [objectOnward_membersChars]
      simp only
      exact ih hms draft'' hms' hread' steps (by omega)
        (hread' steps (membersChars ms ++ rest) (by omega) (endsNumeral_membersChars ms rest))

/-- A record is read off the text of an object whose members make it. -/
theorem Form.takes_read {ms : Members} {d : δ} {a : α} (h : form.Absorbs form.blank ms d)
    (hfinish : form.finish d = .ok a) : Takes form.read (.object ms) a := by
  intro steps rest hsteps _
  cases ms with
  | nil =>
      rw [chars] at hsteps ⊢
      obtain ⟨steps, rfl⟩ : ∃ s, steps = s + 1 := ⟨steps - 1, by simp at hsteps; omega⟩
      cases h
      change form.close form.blank rest = _
      simp only [Form.close, hfinish]
  | cons m ms =>
      obtain ⟨name, x⟩ := m
      rw [chars, stringChars] at hsteps ⊢
      simp only [List.length_cons, List.length_append] at hsteps
      obtain ⟨steps, rfl⟩ : ∃ s, steps = s + 1 := ⟨steps - 1, by omega⟩
      have hread := Form.readMembers_chars h hfinish steps (by rw [List.length_append]; omega) rest
      rw [List.append_assoc] at hread
      rw [List.cons_append, Form.read, dropGap_cons (c := '{') rfl]
      simp only [objectStart, List.cons_append, List.append_assoc, List.nil_append,
        dropGap_cons (c := '"') rfl]
      exact hread

theorem takes_passOther (name : String) {v : Json} (hv : Stored v) :
    Takes (fun steps => passOther (δ := δ) steps name) v id := by
  intro steps rest hsteps hrest
  change (passValue steps (chars v ++ rest)).map _ = _
  rw [passValue_chars hv hsteps hrest]
  rfl

/-- A record that passes over what it does not know reads off a text what it takes from the members of
the document. -/
theorem Form.Lawful.takes_of_ofMembers (hform : form.Lawful) (hother : form.other = passOther)
    {ms : Members} (hstored : ∀ m ∈ ms, m.1 ∉ form.names → Stored m.2) {a : α}
    (h : form.ofMembers ms = .ok a) : Takes form.read (.object ms) a := by
  have habsorbs : ∀ draft d, form.fill draft ms = .ok d → form.Absorbs draft ms d := by
    clear h
    induction ms with
    | nil =>
        intro draft d h
        cases h
        exact .nil draft
    | cons m ms ih =>
        obtain ⟨name, v⟩ := m
        rw [List.forall_mem_cons] at hstored
        intro draft d h
        rcases Form.fill_cons_eq_ok_iff.mp h with ⟨hfield, h⟩ | ⟨field, fill, hfield, hnew, hv, h⟩
        · have hpass : Takes (fun steps => form.other steps name) v id := by
            rw [hother]
            exact takes_passOther name (hstored.1 (Form.field?_eq_none_iff.mp hfield))
          exact .other hfield hpass (ih hstored.2 draft d h)
        · exact .known hfield hnew (hform.agrees field (Form.field?_eq_some hfield).1 v fill hv)
            (ih hstored.2 (fill draft) d h)
  unfold Form.ofMembers at h
  cases hfill : form.fill form.blank ms with
  | error e =>
      rw [hfill] at h
      cases h
  | ok d =>
      rw [hfill] at h
      exact Form.takes_read (habsorbs form.blank d hfill) h

/-- Such a record is read off every text that spells its members. -/
theorem Form.Lawful.takes_respelled (hform : form.Lawful) (hother : form.other = passOther)
    {optional base ms : Members} (hdefaults : form.Defaults optional)
    (h : Respells form.names optional base ms) (hnames : ∀ m ∈ base, m.1 ∈ form.names) {a : α}
    (hbase : form.ofMembers base = .ok a) : Takes form.read (.object ms) a := by
  refine hform.takes_of_ofMembers hother (fun m hm hname => ?_)
    (hform.ofMembers_respelled hdefaults h hbase)
  rcases h.cases hm with hmem | hnew
  · exact absurd (hnames m hmem) hname
  · exact hnew.2

end

/-- What a reader takes the text of a document for is what the whole text is read as. -/
theorem Takes.parseWith_render {α : Type} {read : Nat → Scan α} {v : Json} {a : α}
    (h : Takes read v a) : parseWith read (render v) = .ok a := by
  have hread := h (stepsFor (chars v)) [] (by unfold stepsFor; omega) endsNumeral_nil
  rw [List.append_nil] at hread
  unfold parseWith readWhole
  rw [toList_render]
  simp only [hread]
  rfl

end BuildHooks.Json
