import BuildHooks.Payload.Document
import BuildHooks.Proofs.Json.Depth
import BuildHooks.Proofs.Json.Spelling
import BuildHooks.Proofs.Json.Strings

/-! A document reads back from its compact text, if its numbers are whole and fit into words, its
objects have no name twice and it does not nest deeper than the reader goes. Every value is read up to
whatever stands after it, so the readers of items and of members go from one to the next. -/

namespace BuildHooks

namespace Json

mutual

/-- The characters of the compact text of a document. -/
def chars : Json → List Char
  | .null => ['n', 'u', 'l', 'l']
  | .bool true => ['t', 'r', 'u', 'e']
  | .bool false => ['f', 'a', 'l', 's', 'e']
  | .number n => n.chars
  | .string s => stringChars s
  | .array [] => ['[', ']']
  | .array (x :: xs) => '[' :: (chars x ++ itemsChars xs)
  | .object [] => ['{', '}']
  | .object ((name, x) :: ms) => '{' :: (stringChars name ++ ':' :: (chars x ++ membersChars ms))

/-- The characters of further items, each after a comma, and of the bracket that closes them. -/
def itemsChars : List Json → List Char
  | [] => [']']
  | x :: xs => ',' :: (chars x ++ itemsChars xs)

/-- The characters of further members, each after a comma, and of the brace that closes them. -/
def membersChars : List (String × Json) → List Char
  | [] => ['}']
  | (name, x) :: ms => ',' :: (stringChars name ++ ':' :: (chars x ++ membersChars ms))

end

mutual

theorem toList_write (done : String) (v : Json) : (write done v).toList = done.toList ++ chars v := by
  match v with
  | .null => rw [write, String.toList_append]; rfl
  | .bool true => rw [write, String.toList_append]; rfl
  | .bool false => rw [write, String.toList_append]; rfl
  | .number n => rw [write, String.toList_append]; rfl
  | .string s => rw [write, toList_writeString]; rfl
  | .array [] => rw [write, String.toList_append]; rfl
  | .array (x :: xs) =>
      rw [write, toList_writeItems, toList_write, String.toList_push, chars, List.append_assoc,
        List.append_assoc]
      rfl
  | .object [] => rw [write, String.toList_append]; rfl
  | .object ((name, x) :: ms) =>
      rw [write, toList_writeMembers, toList_write, String.toList_push, toList_writeString,
        String.toList_push, chars]
      simp only [List.append_assoc, List.cons_append, List.nil_append]

theorem toList_writeItems (done : String) (xs : List Json) :
    ((writeItems done xs).push ']').toList = done.toList ++ itemsChars xs := by
  match xs with
  | [] => rw [writeItems, String.toList_push]; rfl
  | x :: xs =>
      rw [writeItems, toList_writeItems, toList_write, String.toList_push, itemsChars,
        List.append_assoc, List.append_assoc]
      rfl

theorem toList_writeMembers (done : String) (ms : List (String × Json)) :
    ((writeMembers done ms).push '}').toList = done.toList ++ membersChars ms := by
  match ms with
  | [] => rw [writeMembers, String.toList_push]; rfl
  | (name, x) :: ms =>
      rw [writeMembers, toList_writeMembers, toList_write, String.toList_push, toList_writeString,
        String.toList_push, membersChars]
      simp only [List.append_assoc, List.cons_append, List.nil_append]

end

theorem toList_render (v : Json) : (render v).toList = chars v := by
  rw [render, toList_write]
  rfl

theorem dropGap_cons {c : Char} (hc : isGap c = false) (cs : List Char) :
    dropGap (c :: cs) = c :: cs := by
  rw [dropGap, List.dropWhile_cons_of_neg (by rw [hc]; decide)]

theorem digitChar_scalar {d : Nat} (hd : d < 10) :
    isGap (Nat.digitChar d) = false ∧ Nat.digitChar d ≠ ']' ∧ Nat.digitChar d ≠ '[' ∧
      Nat.digitChar d ≠ '{' ∧ Nat.digitChar d ≠ '"' ∧ Nat.digitChar d ≠ '-' := by
  revert d
  decide

/-- The text of a document starts with a character that is neither blank nor the end of a list. -/
theorem chars_eq_cons (v : Json) : ∃ c cs, chars v = c :: cs ∧ isGap c = false ∧ c ≠ ']' := by
  cases v with
  | null => exact ⟨_, _, by rw [chars], rfl, by decide⟩
  | bool b =>
      cases b with
      | true => exact ⟨_, _, by rw [chars], rfl, by decide⟩
      | false => exact ⟨_, _, by rw [chars], rfl, by decide⟩
  | number n =>
      obtain ⟨c, cs, hcs, rfl | ⟨d, hd, rfl⟩⟩ := chars_number_eq_cons n
      · exact ⟨_, _, by rw [chars, hcs], rfl, by decide⟩
      · exact ⟨_, _, by rw [chars, hcs], (digitChar_scalar hd).1, (digitChar_scalar hd).2.1⟩
  | string s => exact ⟨_, _, by rw [chars, stringChars], rfl, by decide⟩
  | array items =>
      cases items with
      | nil => exact ⟨_, _, by rw [chars], rfl, by decide⟩
      | cons x xs => exact ⟨_, _, by rw [chars], rfl, by decide⟩
  | object members =>
      cases members with
      | nil => exact ⟨_, _, by rw [chars], rfl, by decide⟩
      | cons m ms => exact ⟨_, _, by rw [chars], rfl, by decide⟩

theorem endsNumeral_itemsChars (xs : List Json) (rest : List Char) :
    EndsNumeral (itemsChars xs ++ rest) := by
  intro c hc
  cases xs with
  | nil =>
      cases hc
      decide
  | cons x xs =>
      rw [itemsChars] at hc
      cases hc
      decide

theorem endsNumeral_membersChars (ms : List (String × Json)) (rest : List Char) :
    EndsNumeral (membersChars ms ++ rest) := by
  intro c hc
  cases ms with
  | nil =>
      cases hc
      decide
  | cons m ms =>
      rw [membersChars] at hc
      cases hc
      decide

theorem readValue_scalar {c : Char} (hgap : isGap c = false) (hlist : c ≠ '[') (hobject : c ≠ '{')
    (steps levels : Nat) (cs : List Char) :
    readValue (steps + 1) levels (c :: cs) = readScalar c cs := by
  rw [readValue, dropGap_cons hgap]
  split
  · next h => cases h
  · next h =>
    cases h
    exact absurd rfl hlist
  · next h =>
    cases h
    exact absurd rfl hobject
  · next h =>
    cases h
    rfl

theorem readValue_minus (steps levels : Nat) (cs : List Char) :
    readValue (steps + 1) levels ('-' :: cs) =
      (readNumeral true cs).map fun r => (.number r.1, r.2) := by
  rw [readValue_scalar rfl (by decide) (by decide), readScalar, if_neg (by decide), if_pos rfl]

theorem readValue_digit {d : Nat} (hd : d < 10) (steps levels : Nat) (cs : List Char) :
    readValue (steps + 1) levels (Nat.digitChar d :: cs) =
      (readNumeral false (Nat.digitChar d :: cs)).map fun r => (.number r.1, r.2) := by
  obtain ⟨hgap, _, hlist, hobject, hquote, hminus⟩ := digitChar_scalar hd
  rw [readValue_scalar hgap hlist hobject, readScalar, if_neg hquote, if_neg hminus,
    Text.digitValue?_digitChar hd, if_pos Option.isSome_some]

theorem readValue_exact {n : Number} (hn : n.Exact) {rest : List Char} (hrest : EndsNumeral rest)
    (steps levels : Nat) :
    readValue (steps + 1) levels (n.chars ++ rest) = .ok (.number n, rest) := by
  cases n with
  | real x => cases hn
  | integer n =>
      obtain ⟨hlow, hhigh⟩ := hn
      have hword : n.natAbs < Text.wordEnd := by
        unfold Text.signedEnd at hlow
        unfold Text.wordEnd at hhigh ⊢
        omega
      rw [chars_integer]
      split
      · next hneg =>
        have hwhole : wholeNumeral true n.natAbs = .integer n := by
          unfold wholeNumeral
          rw [if_neg (by decide), if_pos ⟨by omega, by omega⟩]
          congr 1
          omega
        rw [List.cons_append, readValue_minus, readNumeral_toDigits true hword hrest, hwhole]
        rfl
      · next hpos =>
        have hwhole : wholeNumeral false n.natAbs = .integer n := by
          unfold wholeNumeral
          rw [if_pos Bool.not_false]
          congr 1
          omega
        have hread := readNumeral_toDigits false hword hrest
        obtain ⟨d, cs, hcs, hd, _⟩ := Text.toDigits_eq_cons n.natAbs
        rw [hcs, List.cons_append] at hread ⊢
        rw [readValue_digit hd, hread, hwhole]
        rfl

theorem readValue_number {n : Number} (hn : n.Whole) {rest : List Char} (hrest : EndsNumeral rest)
    (steps levels : Nat) :
    readValue (steps + 1) levels (n.chars ++ rest) = .ok (.number n, rest) := by
  rcases hn with hexact | rfl
  · exact readValue_exact hexact hrest steps levels
  · rw [chars_negativeZero, List.cons_append, readValue_minus]
    change (readNumeral true ('0' :: '.' :: '0' :: rest)).map _ = _
    rw [readNumeral_negativeZero hrest]
    rfl

/-- From enough steps on, a reader takes the text of `v` for `a` whatever follows it. -/
def Takes {α : Type} (read : Nat → Scan α) (v : Json) (a : α) : Prop :=
  ∀ steps rest, 2 * (chars v).length ≤ steps → EndsNumeral rest →
    read steps (chars v ++ rest) = .ok (a, rest)

theorem Takes.unique {α : Type} {read : Nat → Scan α} {v : Json} {a b : α} (ha : Takes read v a)
    (hb : Takes read v b) : a = b := by
  have hread := ha (2 * (chars v).length) [] le_rfl endsNumeral_nil
  rw [hb (2 * (chars v).length) [] le_rfl endsNumeral_nil] at hread
  cases hread
  rfl

/-- From enough steps on, the reader takes the text of `v` for `v` whatever follows it. -/
def ReadsBack (levels : Nat) (v : Json) : Prop :=
  ∀ steps rest, 2 * (chars v).length ≤ steps → EndsNumeral rest →
    readValue steps levels (chars v ++ rest) = .ok (v, rest)

theorem ReadsBack.takes {k : Nat} {v : Json} (h : ReadsBack k v) :
    Takes (fun steps => readValue steps k) v v :=
  h

theorem listStart_chars (v : Json) (rest : List Char) :
    listStart (chars v ++ rest) = .ok (.next (chars v ++ rest)) := by
  obtain ⟨c, cs, hcs, hgap, hend⟩ := chars_eq_cons v
  rw [hcs, List.cons_append, listStart, dropGap_cons hgap]
  split
  · next he => cases he
  · next he =>
    cases he
    exact absurd rfl hend
  · next he =>
    cases he
    rfl

theorem listOnward_itemsChars (v : Json) (vs : List Json) (rest : List Char) :
    listOnward (itemsChars (v :: vs) ++ rest) = .ok (.next (chars v ++ itemsChars vs ++ rest)) := by
  obtain ⟨c, cs, hcs, hgap, hend⟩ := chars_eq_cons v
  rw [itemsChars, hcs, List.cons_append, listOnward, dropGap_cons rfl]
  simp only
  rw [List.cons_append, List.cons_append, dropGap_cons hgap]
  split
  · next he => cases he
  · next he =>
    cases he
    exact absurd rfl hend
  · next he =>
    cases he
    rfl

theorem listOnward_end (rest : List Char) :
    listOnward (itemsChars [] ++ rest) = .ok (.finished rest) := by
  rw [itemsChars]
  rfl

section

variable {k steps : Nat} {x w : Json}

/-- One item is read, and the others are left. -/
theorem readItems_next (hx : Takes (fun steps => readValue steps k) x w) (y : Json) (ys done : List Json)
    (hsteps : 2 * (chars x).length ≤ steps) (rest : List Char) :
    readItems (steps + 1) k done (chars x ++ itemsChars (y :: ys) ++ rest) =
      readItems steps k (w :: done) (chars y ++ itemsChars ys ++ rest) := by
  have hread := hx steps (itemsChars (y :: ys) ++ rest) hsteps (endsNumeral_itemsChars (y :: ys) rest)
  simp only at hread
  rw [List.append_assoc, readItems, hread]
  simp only
  rw [listOnward_itemsChars]

theorem readItems_last (hx : Takes (fun steps => readValue steps k) x w) (done : List Json)
    (hsteps : 2 * (chars x).length ≤ steps) (rest : List Char) :
    readItems (steps + 1) k done (chars x ++ itemsChars [] ++ rest) =
      .ok (.array (w :: done).reverse, rest) := by
  have hread := hx steps (itemsChars [] ++ rest) hsteps (endsNumeral_itemsChars [] rest)
  simp only at hread
  rw [List.append_assoc, readItems, hread]
  simp only
  rw [listOnward_end]

theorem readItems_chars {xs : List Json} (hreads : ∀ y ∈ x :: xs, ReadsBack k y) (done : List Json)
    (steps : Nat) (hsteps : 2 * (chars x ++ itemsChars xs).length ≤ steps) (rest : List Char) :
    readItems steps k done (chars x ++ itemsChars xs ++ rest) =
      .ok (.array (done.reverse ++ x :: xs), rest) := by
  have hx := (hreads x List.mem_cons_self).takes
  induction xs generalizing x done steps with
  | nil =>
      rw [itemsChars, List.length_append, List.length_singleton] at hsteps
      obtain ⟨steps, rfl⟩ : ∃ s, steps = s + 1 := ⟨steps - 1, by omega⟩
      rw [readItems_last hx done (by omega), List.reverse_cons]
  | cons y ys ih =>
      rw [List.length_append, itemsChars, List.length_cons] at hsteps
      obtain ⟨steps, rfl⟩ : ∃ s, steps = s + 1 := ⟨steps - 1, by omega⟩
      have hys := List.forall_mem_cons.mp hreads
      rw [readItems_next hx y ys done (by omega),
        ih hys.2 (x :: done) steps (by omega) (hys.2 y List.mem_cons_self).takes, List.reverse_cons,
        List.append_assoc]
      rfl

theorem objectOnward_membersChars (name : String) (x : Json) (ms : Members) (rest : List Char) :
    objectOnward (membersChars ((name, x) :: ms) ++ rest) =
      .ok (.next (name.toList.flatMap escapeChar ++
        '"' :: ':' :: (chars x ++ membersChars ms ++ rest))) := by
  rw [membersChars, stringChars]
  simp only [objectOnward, List.cons_append, List.append_assoc, List.nil_append,
    dropGap_cons (c := ',') rfl, dropGap_cons (c := '"') rfl]

theorem objectOnward_end (rest : List Char) :
    objectOnward (membersChars [] ++ rest) = .ok (.finished rest) := by
  rw [membersChars]
  rfl

/-- One member is read, and the others are left. -/
theorem readMembers_next (hx : Takes (fun steps => readValue steps k) x w) (name name' : String)
    (y : Json) (ms done : Members) (hsteps : 2 * (chars x).length ≤ steps) (rest : List Char) :
    readMembers (steps + 1) k done (name.toList.flatMap escapeChar ++
        '"' :: ':' :: (chars x ++ membersChars ((name', y) :: ms) ++ rest)) =
      readMembers steps k (done.put name w) (name'.toList.flatMap escapeChar ++
        '"' :: ':' :: (chars y ++ membersChars ms ++ rest)) := by
  have hread := hx steps (membersChars ((name', y) :: ms) ++ rest) hsteps
    (endsNumeral_membersChars ((name', y) :: ms) rest)
  simp only at hread
  rw [List.append_assoc, readMembers, readString_escaped]
  simp only [readColon, dropGap_cons (c := ':') rfl]
  rw [hread]
  simp only
  rw [objectOnward_membersChars]

theorem readMembers_last (hx : Takes (fun steps => readValue steps k) x w) (name : String)
    (done : Members) (hsteps : 2 * (chars x).length ≤ steps) (rest : List Char) :
    readMembers (steps + 1) k done (name.toList.flatMap escapeChar ++
        '"' :: ':' :: (chars x ++ membersChars [] ++ rest)) =
      .ok (.object (done.put name w), rest) := by
  have hread := hx steps (membersChars [] ++ rest) hsteps (endsNumeral_membersChars [] rest)
  simp only at hread
  rw [List.append_assoc, readMembers, readString_escaped]
  simp only [readColon, dropGap_cons (c := ':') rfl]
  rw [hread]
  simp only
  rw [objectOnward_end]

theorem readMembers_chars (name : String) (x : Json) (ms : Members)
    (hreads : ∀ m ∈ (name, x) :: ms, ReadsBack k m.2) (done : Members)
    (names : ((done ++ (name, x) :: ms).map Prod.fst).Nodup) (steps : Nat)
    (hsteps : 2 * (chars x ++ membersChars ms).length + 2 ≤ steps) (rest : List Char) :
    readMembers steps k done (name.toList.flatMap escapeChar ++
        '"' :: ':' :: (chars x ++ membersChars ms ++ rest)) =
      .ok (.object (done ++ (name, x) :: ms), rest) := by
  have hput : done.put name x = done ++ [(name, x)] := by
    refine Members.put_of_notMem ?_ x
    rw [List.map_append, List.map_cons] at names
    exact fun hmem => (List.nodup_append.mp names).2.2 _ hmem _ List.mem_cons_self rfl
  have hx := (hreads (name, x) List.mem_cons_self).takes
  rw [List.length_append] at hsteps
  obtain ⟨steps, rfl⟩ : ∃ s, steps = s + 1 := ⟨steps - 1, by omega⟩
  induction ms generalizing name x done steps with
  | nil => rw [readMembers_last hx name done (by simp only; omega), hput]
  | cons m ms ih =>
      obtain ⟨name', y⟩ := m
      simp only [membersChars, List.length_append, List.length_cons] at hsteps
      obtain ⟨steps, rfl⟩ : ∃ s, steps = s + 1 := ⟨steps - 1, by omega⟩
      have hms := List.forall_mem_cons.mp hreads
      rw [← List.singleton_append, ← List.append_assoc, ← hput] at names
      rw [readMembers_next hx name name' y ms done (by simp only; omega),
        ih name' y hms.2 (done.put name x) names
          (by
            refine Members.put_of_notMem ?_ y
            rw [List.map_append, List.map_cons] at names
            exact fun hmem => (List.nodup_append.mp names).2.2 _ hmem _ List.mem_cons_self rfl)
          (hms.2 (name', y) List.mem_cons_self).takes steps (by omega), hput, List.append_assoc]
      rfl

end

/-- A document is read back from its text as it was. -/
theorem readsBack {k : Nat} {v : Json} (h : Fits Number.Whole k v) : ReadsBack k v := by
  induction h with
  | null =>
      intro steps rest hsteps hrest
      rw [chars] at hsteps ⊢
      obtain ⟨steps, rfl⟩ : ∃ s, steps = s + 1 := ⟨steps - 1, by simp at hsteps; omega⟩
      exact readValue_scalar rfl (by decide) (by decide) steps _ _
  | bool k b =>
      intro steps rest hsteps hrest
      cases b with
      | true =>
          rw [chars] at hsteps ⊢
          obtain ⟨steps, rfl⟩ : ∃ s, steps = s + 1 := ⟨steps - 1, by simp at hsteps; omega⟩
          exact readValue_scalar rfl (by decide) (by decide) steps _ _
      | false =>
          rw [chars] at hsteps ⊢
          obtain ⟨steps, rfl⟩ : ∃ s, steps = s + 1 := ⟨steps - 1, by simp at hsteps; omega⟩
          exact readValue_scalar rfl (by decide) (by decide) steps _ _
  | number k n hn =>
      intro steps rest hsteps hrest
      obtain ⟨c, cs, hcs, _⟩ := chars_eq_cons (.number n)
      rw [hcs, List.length_cons] at hsteps
      obtain ⟨steps, rfl⟩ : ∃ s, steps = s + 1 := ⟨steps - 1, by omega⟩
      rw [chars]
      exact readValue_number hn hrest steps k
  | string k s =>
      intro steps rest hsteps hrest
      rw [chars, stringChars] at hsteps ⊢
      rw [List.length_cons] at hsteps
      obtain ⟨steps, rfl⟩ : ∃ s, steps = s + 1 := ⟨steps - 1, by omega⟩
      rw [List.cons_append, List.append_assoc, List.singleton_append,
        readValue_scalar rfl (by decide) (by decide), readScalar, if_pos rfl, readString_escaped]
      rfl
  | array k items hitems ih =>
      intro steps rest hsteps hrest
      cases items with
      | nil =>
          rw [chars] at hsteps ⊢
          obtain ⟨steps, rfl⟩ : ∃ s, steps = s + 1 := ⟨steps - 1, by simp at hsteps; omega⟩
          rfl
      | cons x xs =>
          rw [chars] at hsteps ⊢
          rw [List.length_cons] at hsteps
          obtain ⟨steps, rfl⟩ : ∃ s, steps = s + 1 := ⟨steps - 1, by omega⟩
          rw [List.cons_append, readValue, dropGap_cons rfl]
          simp only
          rw [List.append_assoc, listStart_chars x]
          simp only
          rw [← List.append_assoc, readItems_chars ih [] steps (by omega)]
          rfl
  | object k members names hmembers ih =>
      intro steps rest hsteps hrest
      cases members with
      | nil =>
          rw [chars] at hsteps ⊢
          obtain ⟨steps, rfl⟩ : ∃ s, steps = s + 1 := ⟨steps - 1, by simp at hsteps; omega⟩
          rfl
      | cons m ms =>
          obtain ⟨name, x⟩ := m
          rw [chars, stringChars] at hsteps ⊢
          simp only [List.length_cons, List.length_append] at hsteps
          obtain ⟨steps, rfl⟩ : ∃ s, steps = s + 1 := ⟨steps - 1, by omega⟩
          rw [List.cons_append, readValue, dropGap_cons rfl]
          simp only [objectStart, List.cons_append, List.append_assoc, List.nil_append,
            dropGap_cons (c := '"') rfl]
          have hread := readMembers_chars name x ms ih [] names steps
            (by rw [List.length_append]; omega) rest
          rw [List.append_assoc] at hread
          exact hread

/-- Reading undoes writing. -/
theorem parse_render {v : Json} (h : Fits Number.Whole maxLevels v) : parse (render v) = .ok v := by
  have hread := readsBack h (stepsFor (chars v)) [] (by unfold stepsFor; omega) endsNumeral_nil
  rw [List.append_nil] at hread
  unfold parse parseWith readWhole
  rw [toList_render]
  simp only [hread]
  rfl

end Json

/-- The text of a payload is read as the payload. -/
theorem Payload.parse_text_of_whole {payload : Payload}
    (h : Json.Fits Json.Number.Whole Json.maxLevels (.object payload)) :
    parse payload.text = .ok payload := by
  rw [parse, text, Json.parse_render h]

theorem Payload.parse_text {payload : Payload}
    (h : Json.Fits Json.Number.Exact Json.maxLevels (.object payload)) :
    parse payload.text = .ok payload :=
  parse_text_of_whole (h.mono fun _ => .inl)

end BuildHooks
