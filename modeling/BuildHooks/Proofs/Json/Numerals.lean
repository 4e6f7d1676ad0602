import BuildHooks.Json.Numeral
import BuildHooks.Json.Printer

/-! Whole numbers survive their decimal notation. The digits of a number read back as the number, the
first of them is no zero unless it is the only one, and the reader of numerals takes them all when they
fit into 64 bits and nothing follows that would go on with them. -/

namespace BuildHooks

namespace Text

theorem digitValue?_digitChar {d : Nat} (hd : d < 10) :
    digitValue? (Nat.digitChar d) = some d := by
  revert d
  decide

theorem digitsFrom?_append (value : Nat) (as bs : List Char) :
    digitsFrom? value (as ++ bs) = (digitsFrom? value as).bind fun v => digitsFrom? v bs := by
  induction as generalizing value with
  | nil => rfl
  | cons a as ih =>
      cases h : digitValue? a with
      | none => simp only [List.cons_append, digitsFrom?, h, Option.bind_none]
      | some d => simp only [List.cons_append, digitsFrom?, h, ih]

theorem digitsFrom?_toDigits (n : Nat) : digitsFrom? 0 (Nat.toDigits 10 n) = some n := by
  induction n using Nat.strongRecOn with
  | ind n ih =>
      rw [Nat.toDigits_eq_if (by decide)]
      split
      · next hlt =>
        simp only [digitsFrom?, digitValue?_digitChar hlt]
        rw [Nat.zero_mul, Nat.zero_add]
      · next hge =>
        rw [digitsFrom?_append, ih (n / 10) (by omega)]
        simp only [Option.bind_some, digitsFrom?, digitValue?_digitChar (Nat.mod_lt n (by decide : 0 < 10))]
        congr 1
        omega

/-- The first digit of a number is zero only for zero itself. -/
theorem toDigits_eq_cons (n : Nat) :
    ∃ d cs, Nat.toDigits 10 n = Nat.digitChar d :: cs ∧ d < 10 ∧ (0 < n → 0 < d) := by
  induction n using Nat.strongRecOn with
  | ind n ih =>
      rw [Nat.toDigits_eq_if (by decide)]
      split
      · next hlt => exact ⟨n, [], rfl, hlt, id⟩
      · next hge =>
        obtain ⟨d, cs, hcs, hd, hpos⟩ := ih (n / 10) (by omega)
        refine ⟨d, cs ++ [Nat.digitChar (n % 10)], ?_, hd, fun _ => hpos (by omega)⟩
        rw [hcs, List.cons_append]

theorem le_of_digitsFrom? {value w : Nat} {cs : List Char} (h : digitsFrom? value cs = some w) :
    value ≤ w := by
  induction cs generalizing value with
  | nil =>
      cases h
      exact Nat.le_refl _
  | cons c cs ih =>
      cases hc : digitValue? c with
      | none => simp [digitsFrom?, hc] at h
      | some d =>
          simp only [digitsFrom?, hc] at h
          have := ih h
          omega

end Text

namespace Json

/-- Nothing in front of this text goes on with a numeral before it. -/
def EndsNumeral (rest : List Char) : Prop :=
  ∀ c ∈ rest.head?, Text.digitValue? c = none ∧ c ≠ '.' ∧ c ≠ 'e' ∧ c ≠ 'E'

theorem endsNumeral_nil : EndsNumeral [] := by
  intro c hc
  cases hc

theorem EndsNumeral.startsWithDigit {rest : List Char} (h : EndsNumeral rest) :
    startsWithDigit rest = false := by
  cases rest with
  | nil => rfl
  | cons c rest =>
      rw [Json.startsWithDigit, (h c rfl).1]
      rfl

theorem notDigit_of_startsWithDigit {c : Char} {rest : List Char}
    (h : startsWithDigit (c :: rest) = false) : Text.digitValue? c = none := by
  simpa [startsWithDigit] using h

theorem gatherDigits_append {value w : Nat} {ds : List Char} (h : Text.digitsFrom? value ds = some w)
    (hw : w < Text.wordEnd) (count : Nat) {rest : List Char}
    (hrest : startsWithDigit rest = false) :
    gatherDigits value count (ds ++ rest) = (w, count + ds.length, rest) := by
  induction ds generalizing value count with
  | nil =>
      cases h
      cases rest with
      | nil => rfl
      | cons c rest =>
          rw [List.nil_append, gatherDigits, notDigit_of_startsWithDigit hrest]
          rfl
  | cons c ds ih =>
      cases hc : Text.digitValue? c with
      | none => simp [Text.digitsFrom?, hc] at h
      | some d =>
          simp only [Text.digitsFrom?, hc] at h
          have hle := Text.le_of_digitsFrom? h
          simp only [List.cons_append, gatherDigits, hc]
          rw [if_pos (by omega), ih h, List.length_cons]
          congr 2
          omega

/-- Digits are counted up to what is none. -/
theorem countDigits_append {ds rest : List Char} (hds : ∀ c ∈ ds, (Text.digitValue? c).isSome = true)
    (hrest : startsWithDigit rest = false) (count : Nat) :
    countDigits count (ds ++ rest) = (count + ds.length, rest) := by
  induction ds generalizing count with
  | nil =>
      cases rest with
      | nil => rfl
      | cons c rest =>
          rw [List.nil_append, countDigits, notDigit_of_startsWithDigit hrest]
          rfl
  | cons c ds ih =>
      rw [List.forall_mem_cons] at hds
      obtain ⟨d, hd⟩ := Option.isSome_iff_exists.mp hds.1
      rw [List.cons_append, countDigits, hd]
      simp only
      rw [ih hds.2, List.length_cons, Nat.add_right_comm, Nat.add_assoc]

theorem countDigits_self {rest : List Char} (hrest : startsWithDigit rest = false) (count : Nat) :
    countDigits count rest = (count, rest) := by
  have hnone : ∀ c ∈ ([] : List Char), (Text.digitValue? c).isSome = true := by simp
  exact countDigits_append hnone hrest count

theorem readNumeralRest_of_ends (negative : Bool) (n : Nat) {rest : List Char}
    (hrest : EndsNumeral rest) :
    readNumeralRest negative n 0 rest = .ok (wholeNumeral negative n, rest) := by
  unfold readNumeralRest
  split
  · exact absurd rfl (hrest _ rfl).2.1
  · exact absurd rfl (hrest _ rfl).2.2.1
  · exact absurd rfl (hrest _ rfl).2.2.2
  · rfl

/-- Digits that a numeral may start with: a zero among them comes first only if it is alone. -/
def Unpadded (ds : List Char) : Prop :=
  ∃ d cs, ds = Nat.digitChar d :: cs ∧ d < 10 ∧ (d = 0 → cs = [])

theorem unpadded_toDigits (n : Nat) : Unpadded (Nat.toDigits 10 n) := by
  by_cases hzero : n = 0
  · subst hzero
    exact ⟨0, [], rfl, by decide, fun _ => rfl⟩
  · obtain ⟨d, cs, hcs, hd, hpos⟩ := Text.toDigits_eq_cons n
    have := hpos (Nat.pos_of_ne_zero hzero)
    exact ⟨d, cs, hcs, hd, by omega⟩

/-- The reader takes all digits before what is none, if a word holds their number. -/
theorem readNumeral_digits (negative : Bool) {ds : List Char} {n : Nat} (hds : Unpadded ds)
    (hread : Text.digitsFrom? 0 ds = some n) (hn : n < Text.wordEnd) {rest : List Char}
    (hrest : startsWithDigit rest = false) :
    readNumeral negative (ds ++ rest) = readNumeralRest negative n 0 rest := by
  obtain ⟨d, cs, rfl, hd, hzero⟩ := hds
  simp only [Text.digitsFrom?, Text.digitValue?_digitChar hd, Nat.zero_mul, Nat.zero_add] at hread
  by_cases h : d = 0
  · subst h
    obtain rfl := hzero rfl
    cases hread
    change (if startsWithDigit rest then _ else readNumeralRest negative 0 0 rest) = _
    rw [if_neg (by simp [hrest])]
  · obtain ⟨e, rfl⟩ : ∃ e, d = e + 1 := ⟨d - 1, by omega⟩
    rw [List.cons_append, readNumeral]
    simp only [Text.digitValue?_digitChar hd, gatherDigits_append hread hn 0 hrest,
      countDigits_self hrest]

theorem readNumeral_toDigits (negative : Bool) {n : Nat} (hn : n < Text.wordEnd)
    {rest : List Char} (hrest : EndsNumeral rest) :
    readNumeral negative (Nat.toDigits 10 n ++ rest) = .ok (wholeNumeral negative n, rest) := by
  rw [readNumeral_digits negative (unpadded_toDigits n) (Text.digitsFrom?_toDigits n) hn
    hrest.startsWithDigit, readNumeralRest_of_ends negative n hrest]

/-- A whole number that the text of a document keeps: a signed or an unsigned word holds it. -/
def Number.Exact : Number → Prop
  | .integer n => -(Text.signedEnd : Int) ≤ n ∧ n < Text.wordEnd
  | .real _ => False

/-- The characters of a number. -/
def Number.chars (n : Number) : List Char :=
  n.text.toList

theorem chars_integer (n : Int) :
    (Number.integer n).chars =
      if n < 0 then '-' :: Nat.toDigits 10 n.natAbs else Nat.toDigits 10 n.natAbs := by
  change (Text.showInt n).toList = _
  unfold Text.showInt Text.showNat
  split
  · rw [String.toList_append, Nat.toList_repr]
    rfl
  · rw [Nat.toList_repr]

/-- The negative zero, which a sign and the digit of zero are read as. -/
def Number.negativeZero : Number :=
  .real (Binary64.zero true)

/-- What a numeral without point and exponent is read as, if a word holds it. -/
def Number.Whole (n : Number) : Prop :=
  n.Exact ∨ n = negativeZero

theorem chars_negativeZero : Number.negativeZero.chars = ['-', '0', '.', '0'] := rfl

theorem readScale_of_ends (negative : Bool) (significand : Nat) (start : Int) {rest : List Char}
    (hrest : EndsNumeral rest) :
    readScale negative significand start rest = realNumeral negative significand start rest := by
  unfold readScale
  split
  · exact absurd rfl (hrest _ rfl).2.2.1
  · exact absurd rfl (hrest _ rfl).2.2.2
  · rfl

/-- The negative zero is written with a fraction, and read from that too. -/
theorem readNumeral_negativeZero {rest : List Char} (hrest : EndsNumeral rest) :
    readNumeral true ('0' :: '.' :: '0' :: rest) = .ok (.negativeZero, rest) := by
  have hread : Text.digitsFrom? 0 ['0'] = some 0 := rfl
  have hgather := gatherDigits_append hread (by decide) 0 hrest.startsWithDigit
  have hzero : Binary64.ofDecimal? true 0 (-1) = some (Binary64.zero true) := by decide
  change readFraction true 0 0 ('0' :: rest) = _
  rw [List.singleton_append] at hgather
  unfold readFraction
  simp only [hgather, countDigits_self hrest.startsWithDigit]
  change readScale true 0 (-1) rest = _
  rw [readScale_of_ends true 0 (-1) hrest, realNumeral, hzero]
  rfl

end Json

end BuildHooks
