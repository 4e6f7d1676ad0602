import BuildHooks.Proofs.Decimal.Shortest
import BuildHooks.Proofs.Json.RoundTrip

/-! Documents as they are stored, with whole numbers of 64 bits and binary ones. The text of each is read
where it nests no deeper than there are levels left, and it is always read as the same document. That
need not be the one which was written: a binary number may come back as a neighbour of itself. -/

namespace BuildHooks.Json

/-- A number that a document can hold: a whole one of 64 bits, with or without sign, or a binary one. -/
def Number.Stored : Number → Prop
  | .integer n => -(Text.signedEnd : Int) ≤ n ∧ n < Text.wordEnd
  | .real x => x.Proper

/-- A document all of whose numbers are stored. -/
def Stored (v : Json) : Prop :=
  ∀ n ∈ numbers v, n.Stored

theorem stored_array_iff {items : List Json} : Stored (.array items) ↔ ∀ x ∈ items, Stored x := by
  constructor
  · intro h x hx n hn
    exact h n (mem_numbersOfItems_iff.mpr ⟨x, hx, hn⟩)
  · intro h n hn
    obtain ⟨x, hx, hn⟩ := mem_numbersOfItems_iff.mp hn
    exact h x hx n hn

theorem stored_object_iff {members : Members} :
    Stored (.object members) ↔ ∀ m ∈ members, Stored m.2 := by
  constructor
  · intro h m hm n hn
    exact h n (mem_numbersOfMembers_iff.mpr ⟨m, hm, hn⟩)
  · intro h n hn
    obtain ⟨m, hm, hn⟩ := mem_numbersOfMembers_iff.mp hn
    exact h m hm n hn

section

variable {x : Binary64}

/-- The leading digit of a shortest decimal stands for a power of ten that the reader of exponents
takes. -/
theorem leading_lt (hproper : x.Proper) (hx : 0 < x.mantissa) :
    (x.shortest.exponent + (Nat.toDigits 10 x.shortest.digits).length - 1).natAbs < 2147483648 := by
  obtain ⟨hpos, hexponent, _⟩ := Binary64.shortest_spec hproper hx
  have hread := Text.digitsFrom?_toDigits x.shortest.digits
  obtain ⟨d, cs, hcs, hd, hfirst⟩ := Text.toDigits_eq_cons x.shortest.digits
  simp only [hcs, Text.digitsFrom?, Text.digitValue?_digitChar hd, Nat.zero_mul, Nat.zero_add] at hread
  have hdigits : (10 : ℚ) ^ (cs.length : ℤ) ≤ x.shortest.digits := by
    have hlow := (Text.bounds_of_digitsFrom? hread).1
    have hone : 10 ^ cs.length ≤ x.shortest.digits :=
      (Nat.le_mul_of_pos_left _ (hfirst hpos)).trans hlow
    rw [zpow_natCast]
    exact_mod_cast hone
  have hsize : (10 : ℚ) ^ (cs.length + x.shortest.exponent) ≤ 10 ^ (1024 : ℤ) := by
    calc (10 : ℚ) ^ (cs.length + x.shortest.exponent)
        = 10 ^ (cs.length : ℤ) * 10 ^ x.shortest.exponent := zpow_add₀ (by norm_num) _ _
      _ ≤ x.shortest.size := mul_le_mul_of_nonneg_right hdigits (by positivity)
      _ ≤ 2 ^ (1024 : ℤ) := Binary64.size_shortest_le hproper hx
      _ ≤ 10 ^ (1024 : ℤ) := zpow_le_zpow_left₀ (by norm_num) (by norm_num) (by norm_num)
  have hle := (zpow_le_zpow_iff_right₀ (by norm_num : (1 : ℚ) < 10)).mp hsize
  rw [hcs, List.length_cons]
  omega

/-- Zero is written as a numeral and read as a zero. -/
theorem exists_readNumeral_zero (hzero : x.isZero = true) (negative : Bool) :
    ∃ n, (spelling x).Spells n ∧ ∃ y, ∀ rest, EndsNumeral rest →
      readNumeral negative ((spelling x).chars ++ rest) = .ok (.real y, rest) := by
  have hspelling : spelling x = ⟨['0'], ['0'], none⟩ := by
    unfold spelling
    exact if_pos hzero
  have hspells : (spelling x).Spells 0 := by
    rw [hspelling]
    exact ⟨⟨0, [], rfl, by decide, fun _ => rfl⟩, by decide, rfl, .inl (by decide), by simp⟩
  obtain ⟨significand, left, _, _, hwhole, hread⟩ := Spelling.readNumeral_chars negative hspells
  obtain ⟨rfl, rfl⟩ := hwhole (by decide)
  have hplaces : -1232 ≤ (spelling x).exponent + (0 : ℕ) := by
    rw [hspelling]
    decide
  obtain ⟨y, hy⟩ := Binary64.exists_ofDecimal? negative (by decide : 0 < 2 ^ 64) hplaces
    (by norm_num [Binary64.sizeEnd])
  refine ⟨0, hspells, y, fun rest hrest => ?_⟩
  rw [hread rest hrest, realNumeral, hy]

/-- What a binary number is written as is a numeral, and it is read as some binary number. -/
theorem exists_readNumeral_spelling (hproper : x.Proper) (negative : Bool) :
    ∃ n, (spelling x).Spells n ∧ ∃ y, ∀ rest, EndsNumeral rest →
      readNumeral negative ((spelling x).chars ++ rest) = .ok (.real y, rest) := by
  by_cases hzero : x.isZero = true
  · exact exists_readNumeral_zero hzero negative
  · have hx : 0 < x.mantissa := by
      rw [Nat.pos_iff_ne_zero]
      intro h
      exact hzero (by rw [Binary64.isZero, h]; rfl)
    obtain ⟨hpos, hexponent, _⟩ := Binary64.shortest_spec hproper hx
    obtain ⟨zeros, hspells, hplaces, hfew, hnone⟩ := spells_spell hpos rfl (leading_lt hproper hx)
    have hspelling : spelling x = spell (Nat.toDigits 10 x.shortest.digits)
        (x.shortest.exponent + (Nat.toDigits 10 x.shortest.digits).length - 1) := by
      unfold spelling
      exact if_neg hzero
    rw [← hspelling] at hspells hplaces
    obtain ⟨significand, left, hword, hle, hwhole, hread⟩ := Spelling.readNumeral_chars negative hspells
    have hsize : (⟨significand, (spelling x).exponent + left⟩ : Binary64.Decimal).size ≤
        x.shortest.size := by
      have hcast : (significand : ℚ) * 10 ^ left ≤ x.shortest.digits * 10 ^ zeros := by
        exact_mod_cast hle
      have hunit : (0 : ℚ) ≤ 10 ^ (spelling x).exponent := by positivity
      have hten : (10 : ℚ) ≠ 0 := by norm_num
      calc (significand : ℚ) * 10 ^ ((spelling x).exponent + left)
          = significand * 10 ^ left * 10 ^ (spelling x).exponent := by
            rw [zpow_add₀ hten, zpow_natCast]
            ring
        _ ≤ x.shortest.digits * 10 ^ zeros * 10 ^ (spelling x).exponent :=
            mul_le_mul_of_nonneg_right hcast hunit
        _ = x.shortest.digits * 10 ^ x.shortest.exponent := by
            rw [mul_assoc, ← zpow_natCast, ← zpow_add₀ hten, hplaces]
            congr 2
            ring
    obtain ⟨y, hy⟩ := Binary64.exists_ofDecimal?_shortest hproper hx negative hword
      (by rw [hplaces]; omega) hsize (fun hlarge hdigits => by
        obtain rfl := hnone hlarge
        rw [pow_zero, Nat.mul_one] at hwhole
        obtain ⟨rfl, rfl⟩ := hwhole hdigits
        rw [hplaces]
        simp)
    refine ⟨_, hspells, y, fun rest hrest => ?_⟩
    rw [hread rest hrest, realNumeral, hy]

/-- A number is read as itself if it is whole, and as some binary number otherwise. -/
theorem exists_takes_number {n : Number} (hn : n.Stored) (k : Nat) :
    ∃ w, Takes (fun steps => readValue steps k) (.number n) w := by
  obtain ⟨c, cs, hcs, hfirst⟩ := chars_number_eq_cons n
  cases n with
  | integer n =>
      refine ⟨.number (.integer n), fun steps rest hsteps hrest => ?_⟩
      rw [chars, hcs, List.length_cons] at hsteps
      obtain ⟨steps, rfl⟩ : ∃ s, steps = s + 1 := ⟨steps - 1, by omega⟩
      have hexact : (Number.integer n).Exact := hn
      rw [chars]
      exact readValue_exact hexact hrest steps k
  | real x =>
      obtain ⟨_, _, y, hread⟩ := exists_readNumeral_spelling hn x.negative
      refine ⟨.number (.real y), fun steps rest hsteps hrest => ?_⟩
      rw [chars, hcs, List.length_cons] at hsteps
      obtain ⟨steps, rfl⟩ : ∃ s, steps = s + 1 := ⟨steps - 1, by omega⟩
      have hy := hread rest hrest
      rw [chars_real] at hcs
      rw [chars, chars_real]
      simp only
      cases hsign : x.negative with
      | true =>
          rw [hsign] at hy
          change readValue (steps + 1) k ('-' :: ((spelling x).chars ++ rest)) = _
          rw [readValue_minus, hy]
          rfl
      | false =>
          rw [hsign] at hy hcs
          change (spelling x).chars = c :: cs at hcs
          change readValue (steps + 1) k ((spelling x).chars ++ rest) = _
          rcases hfirst with rfl | ⟨d, hd, rfl⟩
          · rw [hcs] at hy
            cases hy
          · rw [hcs, List.cons_append] at hy ⊢
            rw [readValue_digit hd, hy]
            rfl

/-- What holds of all scalars, and of a list or an object if it holds of all that is in it, holds of
every document. -/
theorem induct {motive : Json → Prop} (null : motive .null) (bool : ∀ b, motive (.bool b))
    (number : ∀ n, motive (.number n)) (string : ∀ s, motive (.string s))
    (array : ∀ items, (∀ x ∈ items, motive x) → motive (.array items))
    (object : ∀ members : Members, (∀ m ∈ members, motive m.2) → motive (.object members)) :
    ∀ v, motive v
  | .null => null
  | .bool b => bool b
  | .number n => number n
  | .string s => string s
  | .array items => array items fun x _ => induct null bool number string array object x
  | .object members =>
    object members fun m hm =>
      have : sizeOf m.2 < 1 + sizeOf members := by
        have hlt := List.sizeOf_lt_of_mem hm
        cases m
        simp only [Prod.mk.sizeOf_spec] at hlt ⊢
        omega
      induct null bool number string array object m.2

end

theorem exists_readItems {k : Nat} {x : Json} {xs : List Json}
    (h : ∀ y ∈ x :: xs, ∃ w, Takes (fun steps => readValue steps k) y w) :
    ∃ ws, ∀ done steps rest, 2 * (chars x ++ itemsChars xs).length ≤ steps →
      readItems steps k done (chars x ++ itemsChars xs ++ rest) =
        .ok (.array (done.reverse ++ ws), rest) := by
  obtain ⟨w, hw⟩ := h x List.mem_cons_self
  induction xs generalizing x w with
  | nil =>
      refine ⟨[w], fun done steps rest hsteps => ?_⟩
      rw [itemsChars, List.length_append, List.length_singleton] at hsteps
      obtain ⟨steps, rfl⟩ : ∃ s, steps = s + 1 := ⟨steps - 1, by omega⟩
      rw [readItems_last hw done (by omega), List.reverse_cons]
  | cons y ys ih =>
      have hys := (List.forall_mem_cons.mp h).2
      obtain ⟨w', hw'⟩ := hys y List.mem_cons_self
      obtain ⟨ws, hws⟩ := ih hys w' hw'
      refine ⟨w :: ws, fun done steps rest hsteps => ?_⟩
      rw [List.length_append, itemsChars, List.length_cons] at hsteps
      obtain ⟨steps, rfl⟩ : ∃ s, steps = s + 1 := ⟨steps - 1, by omega⟩
      rw [readItems_next hw y ys done (by omega), hws (w :: done) steps rest (by omega),
        List.reverse_cons, List.append_assoc]
      rfl

/-- A name that comes again takes the place of the first, so what the members come to depends on those
before them. -/
theorem exists_readMembers {k : Nat} (name : String) (x : Json) (ms : Members)
    (h : ∀ m ∈ (name, x) :: ms, ∃ w, Takes (fun steps => readValue steps k) m.2 w) :
    ∃ grown : Members → Members, ∀ done steps rest,
      2 * (chars x ++ membersChars ms).length + 2 ≤ steps →
      readMembers steps k done (name.toList.flatMap escapeChar ++
          '"' :: ':' :: (chars x ++ membersChars ms ++ rest)) =
        .ok (.object (grown done), rest) := by
  obtain ⟨w, hw⟩ := h (name, x) List.mem_cons_self
  induction ms generalizing name x w with
  | nil =>
      refine ⟨fun done => done.put name w, fun done steps rest hsteps => ?_⟩
      rw [List.length_append] at hsteps
      obtain ⟨steps, rfl⟩ : ∃ s, steps = s + 1 := ⟨steps - 1, by omega⟩
      rw [readMembers_last hw name done (by simp only; omega)]
  | cons m ms ih =>
      obtain ⟨name', y⟩ := m
      have hms := (List.forall_mem_cons.mp h).2
      obtain ⟨w', hw'⟩ := hms (name', y) List.mem_cons_self
      obtain ⟨grown, hgrown⟩ := ih name' y hms w' hw'
      refine ⟨fun done => grown (done.put name w), fun done steps rest hsteps => ?_⟩
      simp only [List.length_append, membersChars, List.length_cons] at hsteps
      obtain ⟨steps, rfl⟩ : ∃ s, steps = s + 1 := ⟨steps - 1, by omega⟩
      rw [readMembers_next hw name name' y ms done (by simp only; omega),
        hgrown (done.put name w) steps rest (by rw [List.length_append]; omega)]

/-- The text of a stored document is read wherever there are levels enough for it. -/
theorem exists_takes {v : Json} (hv : Stored v) {k : Nat} (hdepth : depth v ≤ k) :
    ∃ w, Takes (fun steps => readValue steps k) v w := by
  induction v using induct generalizing k with
  | null => exact ⟨_, (readsBack (.null k)).takes⟩
  | bool b => exact ⟨_, (readsBack (.bool k b)).takes⟩
  | number n => exact exists_takes_number (hv n (List.mem_singleton_self n)) k
  | string s => exact ⟨_, (readsBack (.string k s)).takes⟩
  | array items ih =>
      rw [depth] at hdepth
      obtain ⟨k, rfl⟩ : ∃ j, k = j + 1 := ⟨k - 1, by omega⟩
      have hdepths := depthOfItems_le_iff.mp (Nat.le_of_succ_le_succ hdepth)
      have hitems : ∀ x ∈ items, ∃ w, Takes (fun steps => readValue steps k) x w :=
        fun x hx => ih x hx (stored_array_iff.mp hv x hx) (hdepths x hx)
      cases items with
      | nil => exact ⟨_, (readsBack (.array k [] (by simp))).takes⟩
      | cons x xs =>
          obtain ⟨ws, hws⟩ := exists_readItems hitems
          refine ⟨.array ws, fun steps rest hsteps _ => ?_⟩
          rw [chars, List.length_cons] at hsteps
          obtain ⟨steps, rfl⟩ : ∃ s, steps = s + 1 := ⟨steps - 1, by omega⟩
          change readValue (steps + 1) (k + 1) _ = _
          rw [chars, List.cons_append, readValue, dropGap_cons rfl]
          simp only
          rw [List.append_assoc, listStart_chars x]
          simp only
          rw [← List.append_assoc, hws [] steps rest (by omega)]
          rfl
  | object members ih =>
      rw [depth] at hdepth
      obtain ⟨k, rfl⟩ : ∃ j, k = j + 1 := ⟨k - 1, by omega⟩
      have hdepths := depthOfMembers_le_iff.mp (Nat.le_of_succ_le_succ hdepth)
      have hmembers : ∀ m ∈ members, ∃ w, Takes (fun steps => readValue steps k) m.2 w :=
        fun m hm => ih m hm (stored_object_iff.mp hv m hm) (hdepths m hm)
      cases members with
      | nil => exact ⟨_, (readsBack (.object k [] List.nodup_nil (by simp))).takes⟩
      | cons m ms =>
          obtain ⟨name, x⟩ := m
          obtain ⟨grown, hgrown⟩ := exists_readMembers name x ms hmembers
          refine ⟨.object (grown []), fun steps rest hsteps _ => ?_⟩
          rw [chars, stringChars] at hsteps ⊢
          simp only [List.length_cons, List.length_append] at hsteps
          obtain ⟨steps, rfl⟩ : ∃ s, steps = s + 1 := ⟨steps - 1, by omega⟩
          have hread := hgrown [] steps rest (by rw [List.length_append]; omega)
          rw [List.append_assoc] at hread
          change readValue (steps + 1) (k + 1) _ = _
          rw [List.cons_append, readValue, dropGap_cons rfl]
          simp only [objectStart, List.cons_append, List.append_assoc, List.nil_append,
            dropGap_cons (c := '"') rfl]
          exact hread

end BuildHooks.Json
