import Mathlib.Data.List.Forall2
import BuildHooks.Payload.Field
import BuildHooks.Proofs.Json.RoundTrip

/-! Texts that write documents with whole numbers of any size. Objects are written member by member, with
blanks where the reader allows them; a name may be spelled in any way and may come more than once. Some
whole numbers are written by their digits, be they more than a word holds, and any text that is read as a
value may write it. The reader takes such a text for the document, if a word holds the numbers. Otherwise
it finds a fault, or makes a number real that is too large; it never makes it another whole number. -/

namespace BuildHooks.Json

def Blank (gap : List Char) : Prop :=
  ∀ c ∈ gap, isGap c = true

/-- From enough steps on, the reader takes the text for `v`, with up to `k` levels in it, whatever
follows. -/
def ReadAs (k : Nat) (v : Json) (text : List Char) : Prop :=
  ∀ steps rest, 2 * text.length ≤ steps → EndsNumeral rest →
    readValue steps k (text ++ rest) = .ok (v, rest)

/-- The reader finds a fault in the text, whatever follows. -/
def Unreadable (k : Nat) (text : List Char) : Prop :=
  ∀ steps rest, 2 * text.length ≤ steps → EndsNumeral rest →
    ∃ fault, readValue steps k (text ++ rest) = .error fault

/-- The text goes on after a quote with a name and the quote that closes it. -/
def SpellsName (text : List Char) (name : String) : Prop :=
  ∀ rest, readString (text ++ rest) = .ok (name, rest)

variable {k : Nat} {v : Json} {text gap : List Char} {c : Char}

theorem isGap_ends (h : isGap c = true) :
    Text.digitValue? c = none ∧ c ≠ '.' ∧ c ≠ 'e' ∧ c ≠ 'E' := by
  simp only [isGap, Bool.or_eq_true, beq_iff_eq] at h
  rcases h with ((rfl | rfl) | rfl) | rfl <;> decide

theorem Blank.dropGap (h : Blank gap) (cs : List Char) : dropGap (gap ++ cs) = Json.dropGap cs := by
  rw [Json.dropGap, List.dropWhile_append_of_pos h]
  rfl

theorem Blank.endsNumeral (h : Blank gap) {rest : List Char} (hrest : EndsNumeral rest) :
    EndsNumeral (gap ++ rest) := by
  cases gap with
  | nil => exact hrest
  | cons c gap =>
      intro d hd
      cases hd
      exact isGap_ends (h c List.mem_cons_self)

theorem readValue_gap (h : Blank gap) (steps k : Nat) (cs : List Char) :
    readValue (steps + 1) k (gap ++ cs) = readValue (steps + 1) k cs := by
  rw [readValue, readValue, h.dropGap]

/-! ### Whole numbers in decimal -/

theorem readNumeralRest_of_dropped (negative : Bool) (significand : Nat) {dropped : Nat}
    (hdropped : dropped ≠ 0) {rest : List Char} (hrest : EndsNumeral rest) :
    readNumeralRest negative significand dropped rest =
      realNumeral negative significand dropped rest := by
  unfold readNumeralRest
  split
  · exact absurd rfl (hrest _ rfl).2.1
  · exact absurd rfl (hrest _ rfl).2.2.1
  · exact absurd rfl (hrest _ rfl).2.2.2
  · rw [if_neg hdropped]

/-- Digits that a word does not hold are read as a real number, if there is one that large. -/
theorem readNumeral_long (negative : Bool) {n : Nat} (hn : Text.wordEnd ≤ n) :
    ∃ significand dropped : Nat, ∀ rest, EndsNumeral rest →
      readNumeral negative (Nat.toDigits 10 n ++ rest) =
        realNumeral negative significand dropped rest := by
  obtain ⟨d, cs, hcs, hd, hpos⟩ := Text.toDigits_eq_cons n
  have hread := Text.digitsFrom?_toDigits n
  rw [hcs] at hread ⊢
  simp only [Text.digitsFrom?, Text.digitValue?_digitChar hd, Nat.zero_mul, Nat.zero_add] at hread
  have hword : d < Text.wordEnd := by
    unfold Text.wordEnd
    omega
  obtain ⟨taken, left, significand, rfl, _, _, _, hleft, hgather⟩ := gatherDigits_digits hread hword
  refine ⟨significand, 0 + left.length, fun rest hrest => ?_⟩
  have hdropped : 0 + left.length ≠ 0 := by
    rw [Nat.zero_add, Ne, List.length_eq_zero_iff]
    exact fun hnil => absurd (hleft hnil) (Nat.not_lt.mpr hn)
  have hcount := countDigits_append
    (fun c hc => Text.isDigit_of_digitsFrom? hread c (List.mem_append_right _ hc))
    hrest.startsWithDigit 0
  obtain ⟨e, rfl⟩ : ∃ e, d = e + 1 := ⟨d - 1, by unfold Text.wordEnd at hn; omega⟩
  rw [List.cons_append, readNumeral]
  simp only [Text.digitValue?_digitChar hd, hgather 0 rest hrest.startsWithDigit, hcount]
  exact readNumeralRest_of_dropped negative significand hdropped hrest

theorem wholeNumeral_eq_integer {negative : Bool} {n : Nat} {i : Int}
    (h : wholeNumeral negative n = .integer i) : i = if negative then -(n : Int) else n := by
  unfold wholeNumeral at h
  cases negative with
  | false =>
      cases h
      rfl
  | true =>
      rw [if_neg (by decide)] at h
      split at h
      · cases h
        rfl
      · split at h
        · cases h
        · cases h
          rfl

/-- Digits are not read as another whole number than they write. -/
theorem readNumeral_decimal (negative : Bool) (n : Nat) :
    (∀ rest, EndsNumeral rest →
      ∃ fault, readNumeral negative (Nat.toDigits 10 n ++ rest) = .error fault) ∨
    ∃ number, (∀ i, number = .integer i → i = if negative then -(n : Int) else n) ∧
      ∀ rest, EndsNumeral rest →
        readNumeral negative (Nat.toDigits 10 n ++ rest) = .ok (number, rest) := by
  by_cases hn : n < Text.wordEnd
  · exact .inr ⟨_, fun i => wholeNumeral_eq_integer,
      fun rest hrest => readNumeral_toDigits negative hn hrest⟩
  · obtain ⟨significand, dropped, hread⟩ := readNumeral_long negative (Nat.not_lt.mp hn)
    unfold realNumeral at hread
    cases hreal : Binary64.ofDecimal? negative significand dropped with
    | none =>
        simp only [hreal] at hread
        exact .inl fun rest hrest => ⟨_, hread rest hrest⟩
    | some x =>
        simp only [hreal] at hread
        refine .inr ⟨.real x, fun i hi => ?_, hread⟩
        cases hi

/-- The digits of a whole number are read after its sign. -/
theorem readValue_decimal (i : Int) (steps k : Nat) (rest : List Char) :
    readValue (steps + 1) k ((Number.integer i).chars ++ rest) =
      (readNumeral (decide (i < 0)) (Nat.toDigits 10 i.natAbs ++ rest)).map
        fun r => (.number r.1, r.2) := by
  rw [chars_integer]
  by_cases hneg : i < 0
  · rw [if_pos hneg, List.cons_append, readValue_minus, decide_eq_true hneg]
  · obtain ⟨d, cs, hcs, hd, _⟩ := Text.toDigits_eq_cons i.natAbs
    rw [if_neg hneg, hcs, List.cons_append, readValue_digit hd, decide_eq_false hneg]

theorem length_chars_integer_pos (i : Int) : 0 < (Number.integer i).chars.length := by
  obtain ⟨c, cs, hcs, _⟩ := chars_number_eq_cons (.integer i)
  rw [hcs, List.length_cons]
  exact Nat.succ_pos _

/-- A number that the reader may find where a whole number was written. -/
def Number.StandsFor (number : Number) (i : Int) : Prop :=
  ∀ j, number = .integer j → j = i

theorem unreadable_or_readAs_decimal (i : Int) (k : Nat) (hgap : Blank gap) :
    Unreadable k (gap ++ (Number.integer i).chars) ∨
      ∃ number : Number, number.StandsFor i ∧
        ReadAs k (.number number) (gap ++ (Number.integer i).chars) := by
  have hsign : (if decide (i < 0) = true then -(i.natAbs : Int) else i.natAbs) = i := by
    simp only [decide_eq_true_eq]
    split <;> omega
  have hstart : ∀ steps rest, 2 * (gap ++ (Number.integer i).chars).length ≤ steps →
      readValue steps k (gap ++ (Number.integer i).chars ++ rest) =
        (readNumeral (decide (i < 0)) (Nat.toDigits 10 i.natAbs ++ rest)).map
          fun r => (.number r.1, r.2) := by
    intro steps rest hsteps
    have hpos := length_chars_integer_pos i
    rw [List.length_append] at hsteps
    obtain ⟨steps, rfl⟩ : ∃ s, steps = s + 1 := ⟨steps - 1, by omega⟩
    rw [List.append_assoc, readValue_gap hgap, readValue_decimal]
  rcases readNumeral_decimal (decide (i < 0)) i.natAbs with hfault | ⟨number, hnumber, hread⟩
  · left
    intro steps rest hsteps hrest
    obtain ⟨fault, hfault⟩ := hfault rest hrest
    exact ⟨fault, by rw [hstart steps rest hsteps, hfault]; rfl⟩
  · right
    refine ⟨number, fun j hj => (hnumber j hj).trans hsign, ?_⟩
    intro steps rest hsteps hrest
    rw [hstart steps rest hsteps, hread rest hrest]
    rfl

theorem readAs_decimal {i : Int} (hi : (Number.integer i).Exact) (k : Nat) (hgap : Blank gap) :
    ReadAs k (.number (.integer i)) (gap ++ (Number.integer i).chars) := by
  intro steps rest hsteps hrest
  have hpos := length_chars_integer_pos i
  rw [List.length_append] at hsteps
  obtain ⟨steps, rfl⟩ : ∃ s, steps = s + 1 := ⟨steps - 1, by omega⟩
  rw [List.append_assoc, readValue_gap hgap, readValue_exact hi hrest]

/-! ### Objects, member by member -/

/-- Gives names their values one after another. -/
def Members.putAll (done : Members) : Members → Members
  | [] => done
  | m :: ms => Members.putAll (done.put m.1 m.2) ms

/-- The members that are left of what a text writes: each name once, with its last value. -/
def Members.settle (members : Members) : Members :=
  Members.putAll [] members

section

variable (value : Json → List Char → Prop)

/-- The text writes a member, from after the first quote of its name. -/
inductive WritesMember : String × Json → List Char → Prop where
  | intro (name : String) (v : Json) (nameText gap valueText after : List Char)
      (hname : SpellsName nameText name) (hgap : Blank gap) (hvalue : value v valueText)
      (hafter : Blank after) :
      WritesMember (name, v) (nameText ++ (gap ++ ':' :: (valueText ++ after)))

/-- The text writes members, from after the first quote of their first name to the brace that closes
the object. -/
inductive WritesMembers : Members → List Char → Prop where
  | last (m : String × Json) (text : List Char) (hm : WritesMember value m text) :
      WritesMembers [m] (text ++ ['}'])
  | more (m : String × Json) (ms : Members) (text gap texts : List Char)
      (hm : WritesMember value m text) (hgap : Blank gap) (hms : WritesMembers ms texts) :
      WritesMembers (m :: ms) (text ++ ',' :: (gap ++ '"' :: texts))

/-- The text writes an object that has these members, one at least. -/
inductive WritesObject : Members → List Char → Prop where
  | intro (ms : Members) (before gap text : List Char) (hbefore : Blank before) (hgap : Blank gap)
      (hms : WritesMembers value ms text) : WritesObject ms (before ++ '{' :: (gap ++ '"' :: text))

end

theorem endsNumeral_comma (rest : List Char) : EndsNumeral (',' :: rest) := by
  intro c hc
  cases hc
  decide

theorem endsNumeral_brace (rest : List Char) : EndsNumeral ('}' :: rest) := by
  intro c hc
  cases hc
  decide

theorem objectOnward_gap (hgap : Blank gap) (cs : List Char) :
    objectOnward (gap ++ cs) = objectOnward cs := by
  rw [objectOnward, objectOnward, hgap.dropGap]

theorem objectOnward_comma (hgap : Blank gap) (cs : List Char) :
    objectOnward (',' :: (gap ++ '"' :: cs)) = .ok (.next cs) := by
  simp only [objectOnward, dropGap_cons (c := ',') rfl, hgap.dropGap, dropGap_cons (c := '"') rfl]

theorem readColon_gap (hgap : Blank gap) (cs : List Char) : readColon (gap ++ ':' :: cs) = .ok cs := by
  simp only [readColon, hgap.dropGap, dropGap_cons (c := ':') rfl]

theorem objectOnward_brace (rest : List Char) : objectOnward ('}' :: rest) = .ok (.finished rest) := rfl

variable {value value' : Json → List Char → Prop} {m : String × Json} {ms : Members} {steps : Nat}

theorem WritesMember.read_last (hm : WritesMember (ReadAs k) m text) (done : Members)
    (hsteps : 2 * text.length ≤ steps) (rest : List Char) :
    readMembers (steps + 1) k done (text ++ '}' :: rest) =
      .ok (.object (done.put m.1 m.2), rest) := by
  cases hm with
  | intro name v nameText gap valueText after hname hgap hvalue hafter =>
      simp only [List.length_append, List.length_cons] at hsteps
      have hread := hvalue steps (after ++ '}' :: rest) (by omega)
        (hafter.endsNumeral (endsNumeral_brace rest))
      simp only [List.append_assoc, List.cons_append]
      rw [readMembers, hname]
      simp only [readColon_gap hgap, hread, objectOnward_gap hafter, objectOnward_brace]

theorem WritesMember.read_more (hm : WritesMember (ReadAs k) m text) (hgap : Blank gap)
    (done : Members) (hsteps : 2 * text.length ≤ steps) (cs : List Char) :
    readMembers (steps + 1) k done (text ++ ',' :: (gap ++ '"' :: cs)) =
      readMembers steps k (done.put m.1 m.2) cs := by
  cases hm with
  | intro name v nameText gap' valueText after hname hgap' hvalue hafter =>
      simp only [List.length_append, List.length_cons] at hsteps
      have hread := hvalue steps (after ++ ',' :: (gap ++ '"' :: cs)) (by omega)
        (hafter.endsNumeral (endsNumeral_comma _))
      simp only [List.append_assoc, List.cons_append]
      rw [readMembers, hname]
      simp only [readColon_gap hgap', hread, objectOnward_gap hafter, objectOnward_comma hgap]

theorem WritesMember.unreadable (hm : WritesMember (fun _ => Unreadable k) m text) (done : Members)
    (hsteps : 2 * text.length ≤ steps) {tail : List Char} (htail : EndsNumeral tail) :
    ∃ fault, readMembers (steps + 1) k done (text ++ tail) = .error fault := by
  cases hm with
  | intro name v nameText gap valueText after hname hgap hvalue hafter =>
      simp only [List.length_append, List.length_cons] at hsteps
      obtain ⟨fault, hfault⟩ := hvalue steps (after ++ tail) (by omega) (hafter.endsNumeral htail)
      refine ⟨fault, ?_⟩
      simp only [List.append_assoc, List.cons_append]
      rw [readMembers, hname]
      simp only [readColon_gap hgap, hfault]

theorem WritesMembers.read (hms : WritesMembers (ReadAs k) ms text) (done : Members)
    (hsteps : 2 * text.length ≤ steps) (rest : List Char) :
    readMembers steps k done (text ++ rest) = .ok (.object (done.putAll ms), rest) := by
  induction hms generalizing done steps with
  | last m text hm =>
      rw [List.length_append, List.length_singleton] at hsteps
      obtain ⟨steps, rfl⟩ : ∃ s, steps = s + 1 := ⟨steps - 1, by omega⟩
      have hsize : 2 * text.length ≤ steps := by omega
      rw [List.append_assoc, List.singleton_append, hm.read_last done hsize rest]
      rfl
  | more m ms text gap texts hm hgap hms ih =>
      simp only [List.length_append, List.length_cons] at hsteps
      obtain ⟨steps, rfl⟩ : ∃ s, steps = s + 1 := ⟨steps - 1, by omega⟩
      have hsize : 2 * text.length ≤ steps := by omega
      simp only [List.append_assoc, List.cons_append]
      rw [hm.read_more hgap done hsize]
      exact ih _ (by omega)

theorem readValue_object {before : List Char} (hbefore : Blank before) (hgap : Blank gap)
    (steps k : Nat) (cs : List Char) :
    readValue (steps + 1) (k + 1) (before ++ '{' :: (gap ++ '"' :: cs)) =
      readMembers steps k [] cs := by
  rw [readValue_gap hbefore, readValue, dropGap_cons rfl]
  simp only [objectStart, hgap.dropGap, dropGap_cons (c := '"') rfl]

theorem WritesObject.readAs (h : WritesObject (ReadAs k) ms text) :
    ReadAs (k + 1) (.object ms.settle) text := by
  cases h with
  | intro before gap text hbefore hgap hms =>
      intro steps rest hsteps _
      simp only [List.length_append, List.length_cons] at hsteps
      obtain ⟨steps, rfl⟩ : ∃ s, steps = s + 1 := ⟨steps - 1, by omega⟩
      simp only [List.append_assoc, List.cons_append]
      rw [readValue_object hbefore hgap]
      exact hms.read [] (by omega) rest

theorem blank_nil : Blank [] :=
  fun _ hc => absurd hc List.not_mem_nil

theorem writesMember_chars (name : String) (hvalue : value v (chars v)) :
    WritesMember value (name, v) (name.toList.flatMap escapeChar ++ '"' :: ':' :: chars v) := by
  have hname : SpellsName (name.toList.flatMap escapeChar ++ ['"']) name := by
    intro rest
    rw [List.append_assoc]
    exact readString_escaped name rest
  have hmember := WritesMember.intro name v _ [] (chars v) [] hname blank_nil hvalue blank_nil
  simpa only [List.append_assoc, List.nil_append, List.append_nil, List.cons_append] using hmember

theorem writesMembers_chars (name : String) (v : Json) (ms : Members)
    (hvalue : ∀ m ∈ (name, v) :: ms, value m.2 (chars m.2)) :
    WritesMembers value ((name, v) :: ms)
      (name.toList.flatMap escapeChar ++ '"' :: ':' :: (chars v ++ membersChars ms)) := by
  have hmember := writesMember_chars name (hvalue (name, v) List.mem_cons_self)
  induction ms generalizing name v with
  | nil =>
      rw [membersChars]
      simpa only [List.append_assoc, List.cons_append] using WritesMembers.last _ _ hmember
  | cons m ms ih =>
      obtain ⟨name', v'⟩ := m
      have hrest := List.forall_mem_cons.mp hvalue
      have hnext := writesMember_chars name' (hrest.2 (name', v') List.mem_cons_self)
      have hmembers := WritesMembers.more _ _ _ [] _ hmember blank_nil (ih name' v' hrest.2 hnext)
      rw [membersChars, stringChars]
      simpa only [List.append_assoc, List.cons_append, List.nil_append] using hmembers

/-- The compact text of an object writes it, if the texts of the values write these. -/
theorem writesObject_chars {members : Members} (hne : members ≠ [])
    (hvalue : ∀ m ∈ members, value m.2 (chars m.2)) :
    WritesObject value members (chars (.object members)) := by
  cases members with
  | nil => exact absurd rfl hne
  | cons m ms =>
      obtain ⟨name, v⟩ := m
      have hobject := WritesObject.intro _ [] [] _ blank_nil blank_nil
        (writesMembers_chars name v ms hvalue)
      rw [chars, stringChars]
      simpa only [List.append_assoc, List.cons_append, List.nil_append] using hobject

/-! ### Numbers that are too large -/

section

variable {R : Json → Json → Prop} {name : String} {v' : Json} {ms' done done' : Members}

/-- Members of one name, with related values. -/
def Alike (R : Json → Json → Prop) (m m' : String × Json) : Prop :=
  m.1 = m'.1 ∧ R m.2 m'.2

theorem map_fst_of_alike (h : List.Forall₂ (Alike R) ms ms') :
    ms.map Prod.fst = ms'.map Prod.fst := by
  induction h with
  | nil => rfl
  | cons hm _ ih => rw [List.map_cons, List.map_cons, hm.1, ih]

theorem alike_put (h : List.Forall₂ (Alike R) ms ms') (name : String) (hv : R v v') :
    List.Forall₂ (Alike R) (ms.put name v) (ms'.put name v') := by
  by_cases hmem : name ∈ ms.map Prod.fst
  · have hmem' := hmem
    rw [map_fst_of_alike h] at hmem'
    rw [Members.put_of_mem hmem, Members.put_of_mem hmem', List.forall₂_map_left_iff,
      List.forall₂_map_right_iff]
    apply h.imp
    rintro ⟨a, x⟩ ⟨_, x'⟩ ⟨rfl, hx⟩
    by_cases ha : a = name
    · simp only [ha, beq_self_eq_true, if_true]
      exact ⟨rfl, hv⟩
    · simp only [beq_eq_false_iff_ne.mpr ha, Bool.false_eq_true, if_false]
      exact ⟨rfl, hx⟩
  · have hmem' := hmem
    rw [map_fst_of_alike h] at hmem'
    rw [Members.put_of_notMem hmem, Members.put_of_notMem hmem']
    apply List.rel_append h
    exact .cons ⟨rfl, hv⟩ .nil

theorem alike_putAll (h : List.Forall₂ (Alike R) ms ms')
    (hdone : List.Forall₂ (Alike R) done done') :
    List.Forall₂ (Alike R) (done.putAll ms) (done'.putAll ms') := by
  induction h generalizing done done' with
  | nil => exact hdone
  | cons hm _ ih =>
      apply ih
      rw [← hm.1]
      exact alike_put hdone _ hm.2

theorem alike_get? (h : List.Forall₂ (Alike R) ms ms') (hv : ms.get? name = some v) :
    ∃ v', ms'.get? name = some v' ∧ R v v' := by
  induction h with
  | nil => cases hv
  | @cons m m' ms ms' hm _ ih =>
      obtain ⟨hname, hvalue⟩ := hm
      simp only [Members.get?, List.find?_cons] at hv ih ⊢
      rw [← hname]
      by_cases hfirst : m.1 = name
      · simp only [hfirst, beq_self_eq_true] at hv ⊢
        cases hv
        exact ⟨m'.2, rfl, hvalue⟩
      · simp only [beq_eq_false_iff_ne.mpr hfirst] at hv ⊢
        exact ih hv

theorem WritesMember.unreadable_or
    (hvalue : ∀ v text, value v text → Unreadable k text ∨ ∃ v', R v v' ∧ ReadAs k v' text)
    (hm : WritesMember value m text) :
    WritesMember (fun _ => Unreadable k) m text ∨
      ∃ m', Alike R m m' ∧ WritesMember (ReadAs k) m' text := by
  cases hm with
  | intro name v nameText gap valueText after hname hgap hv hafter =>
      rcases hvalue v valueText hv with hfault | ⟨v', hR, hread⟩
      · exact .inl (.intro name v nameText gap valueText after hname hgap hfault hafter)
      · exact .inr ⟨(name, v'), ⟨rfl, hR⟩,
          .intro name v' nameText gap valueText after hname hgap hread hafter⟩

/-- A reader of members finds a fault in the first value that it cannot read, and else reads all. -/
theorem WritesMembers.unreadable_or
    (hvalue : ∀ v text, value v text → Unreadable k text ∨ ∃ v', R v v' ∧ ReadAs k v' text)
    (hms : WritesMembers value ms text) :
    (∀ steps done rest, 2 * text.length ≤ steps →
      ∃ fault, readMembers steps k done (text ++ rest) = .error fault) ∨
    ∃ ms', List.Forall₂ (Alike R) ms ms' ∧ WritesMembers (ReadAs k) ms' text := by
  induction hms with
  | last m text hm =>
      rcases hm.unreadable_or hvalue with hfault | ⟨m', hm', hread⟩
      · left
        intro steps done rest hsteps
        rw [List.length_append, List.length_singleton] at hsteps
        obtain ⟨steps, rfl⟩ : ∃ s, steps = s + 1 := ⟨steps - 1, by omega⟩
        rw [List.append_assoc, List.singleton_append]
        exact hfault.unreadable done (by omega) (endsNumeral_brace rest)
      · exact .inr ⟨[m'], .cons hm' .nil, .last m' text hread⟩
  | more m ms text gap texts hm hgap hms ih =>
      have hsize : ∀ {steps}, 2 * (text ++ ',' :: (gap ++ '"' :: texts)).length ≤ steps →
          ∃ s, steps = s + 1 ∧ 2 * text.length ≤ s ∧ 2 * texts.length ≤ s := by
        intro steps hsteps
        simp only [List.length_append, List.length_cons] at hsteps
        exact ⟨steps - 1, by omega, by omega, by omega⟩
      rcases hm.unreadable_or hvalue with hfault | ⟨m', hm', hread⟩
      · left
        intro steps done rest hsteps
        obtain ⟨steps, rfl, htext, _⟩ := hsize hsteps
        simp only [List.append_assoc, List.cons_append]
        exact hfault.unreadable done htext (endsNumeral_comma _)
      · rcases ih with hfault | ⟨ms', hms', hreads⟩
        · left
          intro steps done rest hsteps
          obtain ⟨steps, rfl, htext, htexts⟩ := hsize hsteps
          simp only [List.append_assoc, List.cons_append]
          rw [hread.read_more hgap done htext]
          exact hfault steps _ rest htexts
        · exact .inr ⟨m' :: ms', .cons hm' hms', .more m' ms' text gap texts hread hgap hreads⟩

theorem WritesObject.unreadable_or
    (hvalue : ∀ v text, value v text → Unreadable k text ∨ ∃ v', R v v' ∧ ReadAs k v' text)
    (h : WritesObject value ms text) :
    Unreadable (k + 1) text ∨
      ∃ ms', List.Forall₂ (Alike R) ms.settle ms' ∧ ReadAs (k + 1) (.object ms') text := by
  cases h with
  | intro before gap text hbefore hgap hms =>
      rcases hms.unreadable_or hvalue with hfault | ⟨ms', hms', hread⟩
      · left
        intro steps rest hsteps _
        simp only [List.length_append, List.length_cons] at hsteps
        obtain ⟨steps, rfl⟩ : ∃ s, steps = s + 1 := ⟨steps - 1, by omega⟩
        simp only [List.append_assoc, List.cons_append]
        rw [readValue_object hbefore hgap]
        exact hfault steps [] rest (by omega)
      · right
        refine ⟨Members.settle ms', alike_putAll hms' .nil, ?_⟩
        exact WritesObject.readAs (.intro ms' before gap text hbefore hgap hread)

end

/-! ### Documents -/

/-- The text writes one of the numbers by its digits. -/
inductive WritesDecimal (numbers : List Int) : Json → List Char → Prop where
  | intro (i : Int) (gap : List Char) (hi : i ∈ numbers) (hgap : Blank gap) :
      WritesDecimal numbers (.number (.integer i)) (gap ++ (Number.integer i).chars)

/-- The text writes the document, which has up to `k` levels. Wherever objects alone lead to, the numbers
may be written by their digits, whether or not a word holds them. -/
def Writes (numbers : List Int) : Nat → Json → List Char → Prop
  | 0, v, text => ReadAs 0 v text ∨ WritesDecimal numbers v text
  | k + 1, v, text => ReadAs (k + 1) v text ∨ WritesDecimal numbers v text ∨
      ∃ ms, v = .object (Members.settle ms) ∧ WritesObject (Writes numbers k) ms text

variable {numbers : List Int}

theorem WritesDecimal.readAs (hexact : ∀ i ∈ numbers, (Number.integer i).Exact)
    (h : WritesDecimal numbers v text) : ReadAs k v text := by
  cases h with
  | intro i gap hi hgap => exact readAs_decimal (hexact i hi) k hgap

theorem WritesObject.imp (himp : ∀ v text, value v text → value' v text)
    (h : WritesObject value ms text) : WritesObject value' ms text := by
  have hmember : ∀ {m text}, WritesMember value m text → WritesMember value' m text := by
    rintro _ _ ⟨name, v, nameText, gap, valueText, after, hname, hgap, hvalue, hafter⟩
    exact .intro name v nameText gap valueText after hname hgap (himp v valueText hvalue) hafter
  cases h with
  | intro before gap text hbefore hgap hms =>
      refine .intro ms before gap text hbefore hgap ?_
      induction hms with
      | last m text hm => exact .last m text (hmember hm)
      | more m ms text gap texts hm hgap' _ ih => exact .more m ms text gap texts (hmember hm) hgap' ih

/-- A text is read as what it writes, if a word holds the numbers. -/
theorem Writes.readAs (hexact : ∀ i ∈ numbers, (Number.integer i).Exact)
    (h : Writes numbers k v text) : ReadAs k v text := by
  induction k generalizing v text with
  | zero =>
      rcases h with hread | hdecimal
      · exact hread
      · exact hdecimal.readAs hexact
  | succ k ih =>
      rcases h with hread | hdecimal | ⟨ms, rfl, hobject⟩
      · exact hread
      · exact hdecimal.readAs hexact
      · exact (hobject.imp fun v text => ih).readAs

/-- Wherever there is a whole number in `v` there is a number in `v'` that may have been read for it. -/
def Keeps (v v' : Json) : Prop :=
  ∀ segments i, Payload.follow? v segments = some (.number (.integer i)) →
    ∃ number : Number, Payload.follow? v' segments = some (.number number) ∧ number.StandsFor i

theorem keeps_self (v : Json) : Keeps v v := by
  intro segments i h
  refine ⟨.integer i, h, fun j hj => ?_⟩
  cases hj
  rfl

theorem keeps_number {number : Number} {i : Int} (h : number.StandsFor i) :
    Keeps (.number (.integer i)) (.number number) := by
  intro segments j hj
  cases segments with
  | nil =>
      cases hj
      exact ⟨number, rfl, h⟩
  | cons segment segments => cases hj

theorem keeps_object {ms ms' : Members} (h : List.Forall₂ (Alike Keeps) ms ms') :
    Keeps (.object ms) (.object ms') := by
  intro segments i hi
  cases segments with
  | nil => cases hi
  | cons segment segments =>
      obtain ⟨v, hv, hi⟩ := Option.bind_eq_some_iff.mp hi
      obtain ⟨v', hv', hkeeps⟩ := alike_get? h hv
      obtain ⟨number, hnumber, hstands⟩ := hkeeps segments i hi
      refine ⟨number, ?_, hstands⟩
      exact Option.bind_eq_some_iff.mpr ⟨v', hv', hnumber⟩

theorem WritesDecimal.unreadable_or (h : WritesDecimal numbers v text) (k : Nat) :
    Unreadable k text ∨ ∃ v', Keeps v v' ∧ ReadAs k v' text := by
  cases h with
  | intro i gap hi hgap =>
      rcases unreadable_or_readAs_decimal i k hgap with hfault | ⟨number, hstands, hread⟩
      · exact .inl hfault
      · exact .inr ⟨.number number, keeps_number hstands, hread⟩

/-- Whatever the numbers are, the reader never takes a text for a document with other whole numbers. -/
theorem Writes.unreadable_or (h : Writes numbers k v text) :
    Unreadable k text ∨ ∃ v', Keeps v v' ∧ ReadAs k v' text := by
  induction k generalizing v text with
  | zero =>
      rcases h with hread | hdecimal
      · exact .inr ⟨v, keeps_self v, hread⟩
      · exact hdecimal.unreadable_or 0
  | succ k ih =>
      rcases h with hread | hdecimal | ⟨ms, rfl, hobject⟩
      · exact .inr ⟨v, keeps_self v, hread⟩
      · exact hdecimal.unreadable_or (k + 1)
      · rcases hobject.unreadable_or fun _ _ h => ih h with hfault | ⟨ms', hms', hread⟩
        · exact .inl hfault
        · exact .inr ⟨.object ms', keeps_object hms', hread⟩

theorem putAll_of_nodup {done members : Members} (names : ((done ++ members).map Prod.fst).Nodup) :
    done.putAll members = done ++ members := by
  induction members generalizing done with
  | nil => rw [Members.putAll, List.append_nil]
  | cons m ms ih =>
      have hnew : m.1 ∉ done.map Prod.fst := by
        rw [List.map_append, List.map_cons] at names
        exact fun hmem => (List.nodup_append.mp names).2.2 _ hmem _ List.mem_cons_self rfl
      rw [List.append_cons] at names ⊢
      rw [Members.putAll, Members.put_of_notMem hnew]
      exact ih names

/-- The compact text of a document without repeated names writes it. -/
theorem writes_of_fits (h : Fits Number.Whole k v) : Writes numbers k v (chars v) := by
  cases k with
  | zero => exact .inl (readsBack h)
  | succ k => exact .inl (readsBack h)

theorem writes_decimal {i : Int} (hi : i ∈ numbers) :
    Writes numbers k (.number (.integer i)) (chars (.number (.integer i))) := by
  have hdecimal := WritesDecimal.intro i [] hi blank_nil
  cases k with
  | zero => exact .inr hdecimal
  | succ k => exact .inr (.inl hdecimal)

theorem writes_object {members : Members} (hne : members ≠ []) (names : (members.map Prod.fst).Nodup)
    (h : ∀ m ∈ members, Writes numbers k m.2 (chars m.2)) :
    Writes numbers (k + 1) (.object members) (chars (.object members)) := by
  have hsettle : Members.settle members = members := putAll_of_nodup names
  refine .inr (.inr ⟨members, ?_, writesObject_chars hne h⟩)
  rw [hsettle]

theorem parse_of_readAs {body : String} {after : List Char} (hafter : Blank after)
    (hbody : body.toList = text ++ after) (h : ReadAs maxLevels v text) : parse body = .ok v := by
  have hread := h (stepsFor body.toList) after
    (by rw [hbody, stepsFor, List.length_append]; omega)
    (by simpa using hafter.endsNumeral endsNumeral_nil)
  have hrest : dropGap after = [] := by simpa [dropGap] using hafter.dropGap []
  unfold parse parseWith readWhole
  rw [hbody] at hread ⊢
  simp only [hread, hrest]

theorem parse_of_unreadable {body : String} {after : List Char} (hafter : Blank after)
    (hbody : body.toList = text ++ after) (h : Unreadable maxLevels text) :
    ∃ complaint, parse body = .error complaint := by
  obtain ⟨fault, hfault⟩ := h (stepsFor body.toList) after
    (by rw [hbody, stepsFor, List.length_append]; omega)
    (by simpa using hafter.endsNumeral endsNumeral_nil)
  refine ⟨fault.complaint body.toList, ?_⟩
  unfold parse parseWith readWhole
  rw [hbody] at hfault ⊢
  simp only [hfault]

end BuildHooks.Json
