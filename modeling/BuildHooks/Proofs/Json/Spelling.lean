import Mathlib.Tactic.Ring
import BuildHooks.Proofs.Json.Fits
import BuildHooks.Proofs.Json.Numerals

/-! How binary numbers are spelled. Each is written with a fraction or an exponent and with at most
sixteen digits before the point, and the spelling stands for its shortest decimal. Of a spelling the
reader takes as many digits as a word holds; what it leaves out only makes the number smaller. -/

namespace BuildHooks

namespace Text

variable {value w : Nat} {cs : List Char}

theorem isDigit_of_digitsFrom? (h : digitsFrom? value cs = some w) :
    ∀ c ∈ cs, (digitValue? c).isSome = true := by
  induction cs generalizing value with
  | nil => simp
  | cons c cs ih =>
      cases hc : digitValue? c with
      | none => simp [digitsFrom?, hc] at h
      | some d =>
          simp only [digitsFrom?, hc] at h
          rw [List.forall_mem_cons]
          exact ⟨by rw [hc]; rfl, ih h⟩

/-- Digits after a number make it as many times ten times larger, and less than the next number. -/
theorem bounds_of_digitsFrom? (h : digitsFrom? value cs = some w) :
    value * 10 ^ cs.length ≤ w ∧ w < (value + 1) * 10 ^ cs.length := by
  induction cs generalizing value with
  | nil =>
      cases h
      simp
  | cons c cs ih =>
      cases hc : digitValue? c with
      | none => simp [digitsFrom?, hc] at h
      | some d =>
          simp only [digitsFrom?, hc] at h
          obtain ⟨hlow, hhigh⟩ := ih h
          have hd := Json.digitValue?_lt hc
          rw [List.length_cons, pow_succ']
          constructor
          · calc value * (10 * 10 ^ cs.length) ≤ (value * 10 + d) * 10 ^ cs.length := by
                  rw [← Nat.mul_assoc]
                  exact Nat.mul_le_mul_right _ (Nat.le_add_right _ _)
              _ ≤ w := hlow
          · calc w < (value * 10 + d + 1) * 10 ^ cs.length := hhigh
              _ ≤ (value + 1) * (10 * 10 ^ cs.length) := by
                  rw [← Nat.mul_assoc]
                  exact Nat.mul_le_mul_right _ (by omega)

theorem digitsFrom?_zeros (value count : Nat) :
    digitsFrom? value (List.replicate count '0') = some (value * 10 ^ count) := by
  induction count generalizing value with
  | zero => simp [digitsFrom?]
  | succ count ih =>
      change digitsFrom? (value * 10 + 0) (List.replicate count '0') = _
      rw [ih, Nat.add_zero, pow_succ', Nat.mul_assoc]

end Text

namespace Json

/-- The reader gathers the digits at the front that a word holds; those that it leaves are fewer places
than what they would have added, and there are none exactly if a word holds them all. -/
theorem gatherDigits_digits {value w : Nat} {ds : List Char} (h : Text.digitsFrom? value ds = some w)
    (hvalue : value < Text.wordEnd) :
    ∃ taken left v, ds = taken ++ left ∧ v < Text.wordEnd ∧ v * 10 ^ left.length ≤ w ∧
      (w < Text.wordEnd → left = [] ∧ v = w) ∧ (left = [] → w < Text.wordEnd) ∧
      ∀ count rest, startsWithDigit rest = false →
        gatherDigits value count (ds ++ rest) = (v, count + taken.length, left ++ rest) := by
  by_cases hw : w < Text.wordEnd
  · refine ⟨ds, [], w, by simp, hw, by simp, fun _ => ⟨rfl, rfl⟩, fun _ => hw, ?_⟩
    intro count rest hrest
    exact gatherDigits_append h hw count hrest
  · induction ds generalizing value with
    | nil =>
        cases h
        exact absurd hvalue hw
    | cons c ds ih =>
        have hbounds := Text.bounds_of_digitsFrom? h
        cases hc : Text.digitValue? c with
        | none => simp [Text.digitsFrom?, hc] at h
        | some d =>
            simp only [Text.digitsFrom?, hc] at h
            by_cases hnext : value * 10 + d < Text.wordEnd
            · obtain ⟨taken, left, v, rfl, hv, hle, _, hleft, hgather⟩ := ih h hnext
              refine ⟨c :: taken, left, v, rfl, hv, hle, fun hlt => absurd hlt hw, hleft, ?_⟩
              intro count rest hrest
              rw [List.cons_append, gatherDigits, hc]
              simp only
              rw [if_pos hnext, hgather (count + 1) rest hrest, List.length_cons,
                Nat.add_right_comm, Nat.add_assoc]
            · refine ⟨[], c :: ds, value, rfl, hvalue, hbounds.1, fun hlt => absurd hlt hw,
                fun hnil => absurd hnil (List.cons_ne_nil c ds), ?_⟩
              intro count rest _
              rw [List.cons_append, gatherDigits, hc]
              simp only
              rw [if_neg hnext]
              rfl

/-- A numeral after its sign: the digits before the point, those after it, and the exponent. -/
structure Spelling where
  whole : List Char
  fraction : List Char
  scale : Option Int

namespace Spelling

def fractionChars : List Char → List Char
  | [] => []
  | c :: cs => '.' :: c :: cs

def scaleChars : Option Int → List Char
  | none => []
  | some k => 'e' :: (if k < 0 then '-' else '+') :: Nat.toDigits 10 k.natAbs

def chars (s : Spelling) : List Char :=
  s.whole ++ (fractionChars s.fraction ++ scaleChars s.scale)

/-- The power of ten that the last digit stands for. -/
def exponent (s : Spelling) : Int :=
  s.scale.getD 0 - s.fraction.length

/-- The digits of a spelling write `n`, and it is no whole number. -/
structure Spells (s : Spelling) (n : Nat) : Prop where
  whole : Unpadded s.whole
  short : s.whole.length ≤ 16
  digits : Text.digitsFrom? 0 (s.whole ++ s.fraction) = some n
  broken : s.fraction ≠ [] ∨ s.scale ≠ none
  scale : ∀ k ∈ s.scale, k.natAbs < 2147483648

variable {s : Spelling} {n : Nat} {scale : Option Int} {rest : List Char}

theorem startsWithDigit_scaleChars (scale : Option Int) (hrest : EndsNumeral rest) :
    startsWithDigit (scaleChars scale ++ rest) = false := by
  cases scale with
  | none => exact hrest.startsWithDigit
  | some k => rfl

theorem startsWithDigit_fractionChars (fraction : List Char) (scale : Option Int)
    (hrest : EndsNumeral rest) :
    startsWithDigit (fractionChars fraction ++ scaleChars scale ++ rest) = false := by
  cases fraction with
  | nil => exact startsWithDigit_scaleChars scale hrest
  | cons c cs => rfl

theorem readExponentDigits_append (negative : Bool) (significand : Nat) (start : Int) (shrinks : Bool)
    {value w : Nat} {ds : List Char} (h : Text.digitsFrom? value ds = some w) (hw : w < 2147483648)
    (hrest : startsWithDigit rest = false) :
    readExponentDigits negative significand start shrinks value (ds ++ rest) =
      realNumeral negative significand (if shrinks then start - w else start + w) rest := by
  induction ds generalizing value with
  | nil =>
      cases h
      cases rest with
      | nil => rfl
      | cons c rest =>
          rw [List.nil_append, readExponentDigits, notDigit_of_startsWithDigit hrest]
  | cons c ds ih =>
      cases hc : Text.digitValue? c with
      | none => simp [Text.digitsFrom?, hc] at h
      | some d =>
          simp only [Text.digitsFrom?, hc] at h
          have hle := Text.le_of_digitsFrom? h
          rw [List.cons_append, readExponentDigits, hc]
          simp only
          rw [if_pos (by omega), ih h]

/-- An exponent is added to the places counted before. -/
theorem readScale_scaleChars (negative : Bool) (significand : Nat) (start : Int)
    (hscale : ∀ k ∈ scale, k.natAbs < 2147483648) (hrest : EndsNumeral rest) :
    readScale negative significand start (scaleChars scale ++ rest) =
      realNumeral negative significand (start + scale.getD 0) rest := by
  cases scale with
  | none => rw [scaleChars, List.nil_append, readScale_of_ends negative significand start hrest,
      Option.getD_none, Int.add_zero]
  | some k =>
      have hread := Text.digitsFrom?_toDigits k.natAbs
      obtain ⟨d, cs, hcs, hd, _⟩ := Text.toDigits_eq_cons k.natAbs
      simp only [hcs, Text.digitsFrom?, Text.digitValue?_digitChar hd, Nat.zero_mul, Nat.zero_add]
        at hread
      have hdigits := fun shrinks => readExponentDigits_append negative significand start shrinks hread
        (hscale k rfl) hrest.startsWithDigit
      change readExponent negative significand start
        (((if k < 0 then '-' else '+') :: Nat.toDigits 10 k.natAbs) ++ rest) = _
      rw [hcs]
      split
      · next hneg =>
        simp only [List.cons_append, readExponent, Text.digitValue?_digitChar hd]
        rw [hdigits true, if_pos rfl, Option.getD_some]
        congr 1
        omega
      · next hpos =>
        simp only [List.cons_append, readExponent, Text.digitValue?_digitChar hd]
        rw [hdigits false, if_neg (by decide), Option.getD_some]
        congr 1
        omega

/-- Of the digits after the point those are read that a word holds together with the ones before it. -/
theorem readFraction_digits (negative : Bool) {w : Nat} {c : Char} {fraction : List Char}
    (hfraction : Text.digitsFrom? w (c :: fraction) = some n) (hword : w < Text.wordEnd)
    (hscale : ∀ k ∈ scale, k.natAbs < 2147483648) :
    ∃ significand left : Nat, significand < Text.wordEnd ∧ significand * 10 ^ left ≤ n ∧
      (n < Text.wordEnd → left = 0 ∧ significand = n) ∧
      ∀ rest, EndsNumeral rest →
        readFraction negative w 0 (c :: fraction ++ scaleChars scale ++ rest) =
          realNumeral negative significand (scale.getD 0 - (c :: fraction).length + left) rest := by
  obtain ⟨taken, left, v, htaken, hv, hle, hall, _, hgather⟩ :=
    gatherDigits_digits hfraction hword
  refine ⟨v, left.length, hv, hle, fun hn => ?_, fun rest hrest => ?_⟩
  · obtain ⟨rfl, rfl⟩ := hall hn
    exact ⟨rfl, rfl⟩
  · have hends := startsWithDigit_scaleChars scale hrest
    have hdigit := Text.isDigit_of_digitsFrom? hfraction
    have hleft := countDigits_append
      (fun c hc => hdigit c (by rw [htaken]; exact List.mem_append_right _ hc)) hends 0
    -- A fraction of which nothing is gathered starts with a digit all the same.
    have hsome : ¬(0 + taken.length = 0 ∧
        (!startsWithDigit (left ++ (scaleChars scale ++ rest))) = true) := by
      rintro ⟨hnone, hstop⟩
      have hempty : taken = [] := List.length_eq_zero_iff.mp (by omega)
      rw [hempty, List.nil_append] at htaken
      rw [← htaken] at hstop
      simp [startsWithDigit, hdigit c List.mem_cons_self] at hstop
    unfold readFraction
    rw [List.append_assoc, hgather 0 _ hends]
    simp only
    rw [if_neg hsome, hleft, readScale_scaleChars negative v _ hscale hrest]
    congr 1
    rw [htaken, List.length_append]
    omega

/-- A spelling is read as the digits that a word holds of it, scaled to stand for no more than they
did. -/
theorem readNumeral_chars (negative : Bool) (h : s.Spells n) :
    ∃ significand left : Nat, significand < Text.wordEnd ∧ significand * 10 ^ left ≤ n ∧
      (n < Text.wordEnd → left = 0 ∧ significand = n) ∧
      ∀ rest, EndsNumeral rest → readNumeral negative (s.chars ++ rest) =
        realNumeral negative significand (s.exponent + left) rest := by
  obtain ⟨hwhole, hshort, hdigits, hbroken, hscale⟩ := h
  rw [Text.digitsFrom?_append, Option.bind_eq_some_iff] at hdigits
  obtain ⟨w, hw, hfraction⟩ := hdigits
  have hword : w < Text.wordEnd := by
    have hlt := (Text.bounds_of_digitsFrom? hw).2
    have hpow : 10 ^ s.whole.length ≤ 10 ^ 16 := Nat.pow_le_pow_right (by decide) hshort
    unfold Text.wordEnd
    omega
  have hstart : ∀ rest, EndsNumeral rest → readNumeral negative (s.chars ++ rest) =
      readNumeralRest negative w 0 (fractionChars s.fraction ++ scaleChars s.scale ++ rest) := by
    intro rest hrest
    rw [chars, List.append_assoc]
    exact readNumeral_digits negative hwhole hw hword
      (startsWithDigit_fractionChars s.fraction s.scale hrest)
  rw [exponent]
  cases hcases : s.fraction with
  | nil =>
      rw [hcases] at hfraction hstart hbroken
      cases hfraction
      refine ⟨n, 0, hword, by simp, fun _ => ⟨rfl, rfl⟩, fun rest hrest => ?_⟩
      obtain ⟨k, hk⟩ := Option.ne_none_iff_exists'.mp (hbroken.resolve_left (by simp))
      have hread := readScale_scaleChars negative n 0 hscale hrest
      have hplaces : (some k).getD 0 - (([] : List Char).length : Int) + (0 : Nat) =
          0 + (some k).getD 0 := by simp
      rw [hstart rest hrest, hk, hplaces]
      rw [hk] at hread
      exact hread
  | cons c fraction =>
      rw [hcases] at hfraction hstart
      obtain ⟨significand, left, hlt, hle, hall, hread⟩ :=
        readFraction_digits negative hfraction hword hscale
      refine ⟨significand, left, hlt, hle, hall, fun rest hrest => ?_⟩
      rw [hstart rest hrest]
      exact hread rest hrest

theorem dropDigits_append {ds : List Char} (hds : ∀ c ∈ ds, (Text.digitValue? c).isSome = true)
    (hrest : startsWithDigit rest = false) : dropDigits (ds ++ rest) = rest := by
  rw [dropDigits, countDigits_append hds hrest]

theorem digitChar_eq_zero_iff {d : Nat} (hd : d < 10) : Nat.digitChar d = '0' ↔ d = 0 := by
  revert d
  decide

theorem passNumeral_digits {ds : List Char} (hds : Unpadded ds)
    (hdigits : ∀ c ∈ ds, (Text.digitValue? c).isSome = true) (hrest : startsWithDigit rest = false) :
    passNumeral (ds ++ rest) = passNumeral.passFraction rest := by
  obtain ⟨d, cs, rfl, hd, hzero⟩ := hds
  have hstart : startsWithDigit (Nat.digitChar d :: cs ++ rest) = true := hdigits _ List.mem_cons_self
  unfold passNumeral
  rw [hstart, if_neg (by decide)]
  by_cases h : d = 0
  · subst h
    obtain rfl := hzero rfl
    change (if startsWithDigit rest = true then _ else passNumeral.passFraction rest) = _
    rw [if_neg (by simp [hrest])]
  · split
    · next htext => exact absurd ((digitChar_eq_zero_iff hd).mp (List.cons.inj htext).1) h
    · rw [dropDigits_append hdigits hrest]

theorem passScale_of_ends (hrest : EndsNumeral rest) : passScale rest = .ok rest := by
  unfold passScale
  split
  · exact absurd rfl (hrest _ rfl).2.2.1
  · exact absurd rfl (hrest _ rfl).2.2.2
  · rfl

theorem passFraction_of_ends (hrest : EndsNumeral rest) :
    passNumeral.passFraction rest = .ok rest := by
  unfold passNumeral.passFraction
  split
  · exact absurd rfl (hrest _ rfl).2.1
  · exact passScale_of_ends hrest

theorem passScale_scaleChars (scale : Option Int) (hrest : EndsNumeral rest) :
    passScale (scaleChars scale ++ rest) = .ok rest := by
  cases scale with
  | none => exact passScale_of_ends hrest
  | some k =>
      have hdigits := Text.isDigit_of_digitsFrom? (Text.digitsFrom?_toDigits k.natAbs)
      have hstart : startsWithDigit (Nat.toDigits 10 k.natAbs ++ rest) = true := by
        obtain ⟨d, cs, hcs, _⟩ := Text.toDigits_eq_cons k.natAbs
        rw [hcs] at hdigits ⊢
        exact hdigits _ List.mem_cons_self
      have hsign : ∀ sign, sign = '-' ∨ sign = '+' →
          passExponent (sign :: (Nat.toDigits 10 k.natAbs ++ rest)) = .ok rest := by
        rintro sign (rfl | rfl)
        · unfold passExponent
          simp only
          rw [if_pos hstart, dropDigits_append hdigits hrest.startsWithDigit]
        · unfold passExponent
          simp only
          rw [if_pos hstart, dropDigits_append hdigits hrest.startsWithDigit]
      change passExponent ((if k < 0 then '-' else '+') :: (Nat.toDigits 10 k.natAbs ++ rest)) = _
      split
      · exact hsign '-' (.inl rfl)
      · exact hsign '+' (.inr rfl)

theorem passNumeral_chars (h : s.Spells n) (hrest : EndsNumeral rest) :
    passNumeral (s.chars ++ rest) = .ok rest := by
  have hdigits := Text.isDigit_of_digitsFrom? h.digits
  rw [List.forall_mem_append] at hdigits
  rw [chars, List.append_assoc,
    passNumeral_digits h.whole hdigits.1 (startsWithDigit_fractionChars s.fraction s.scale hrest)]
  have hscale := passScale_scaleChars s.scale hrest
  cases hcases : s.fraction with
  | nil =>
      rw [fractionChars, List.nil_append]
      cases hs : s.scale with
      | none => exact passFraction_of_ends hrest
      | some k =>
          rw [hs] at hscale
          exact hscale
  | cons c cs =>
      rw [hcases] at hdigits
      change (if startsWithDigit (c :: cs ++ scaleChars s.scale ++ rest) = true
        then passScale (dropDigits (c :: cs ++ scaleChars s.scale ++ rest)) else _) = _
      have hstart : startsWithDigit (c :: cs ++ scaleChars s.scale ++ rest) = true :=
        hdigits.2 c List.mem_cons_self
      rw [if_pos hstart, List.append_assoc,
        dropDigits_append hdigits.2 (startsWithDigit_scaleChars s.scale hrest), hscale]

end Spelling

theorem passNumeral_toDigits (n : Nat) {rest : List Char} (hrest : EndsNumeral rest) :
    passNumeral (Nat.toDigits 10 n ++ rest) = .ok rest := by
  rw [Spelling.passNumeral_digits (unpadded_toDigits n)
    (Text.isDigit_of_digitsFrom? (Text.digitsFrom?_toDigits n)) hrest.startsWithDigit,
    Spelling.passFraction_of_ends hrest]

/-- Digits of which the first stands for `10 ^ leading`, as a binary number is written with them. -/
def spell (digits : List Char) (leading : Int) : Spelling :=
  let whole := leading.toNat + 1
  if -5 ≤ leading ∧ leading < 16 then
    if leading < 0 then ⟨['0'], List.replicate (leading.natAbs - 1) '0' ++ digits, none⟩
    else if digits.length ≤ whole then
      ⟨digits ++ List.replicate (whole - digits.length) '0', ['0'], none⟩
    else ⟨digits.take whole, digits.drop whole, none⟩
  else ⟨digits.take 1, digits.drop 1, some leading⟩

/-- What a binary number is written as after its sign. -/
def spelling (x : Binary64) : Spelling :=
  let digits := Nat.toDigits 10 x.shortest.digits
  if x.isZero then ⟨['0'], ['0'], none⟩
  else spell digits (x.shortest.exponent + digits.length - 1)

theorem toList_zeros (count : Nat) : (Binary64.zeros count).toList = List.replicate count '0' := by
  rw [Binary64.zeros, String.pushn_eq_repeat_push]
  induction count with
  | zero => rfl
  | succ count ih =>
      rw [Nat.repeat, String.toList_push, ih, List.replicate_succ']

theorem fractionChars_of_ne_nil {cs : List Char} (hcs : cs ≠ []) :
    Spelling.fractionChars cs = '.' :: cs := by
  cases cs with
  | nil => exact absurd rfl hcs
  | cons c cs => rfl

theorem toList_positional {digits : String} (hdigits : digits.toList ≠ []) {leading : Int}
    (hlow : -5 ≤ leading) (hhigh : leading < 16) :
    (Binary64.positional digits leading).toList = (spell digits.toList leading).chars := by
  unfold Binary64.positional spell
  simp only
  rw [if_pos (⟨hlow, hhigh⟩ : -5 ≤ leading ∧ leading < 16), String.length_toList]
  split
  · rw [Spelling.chars, fractionChars_of_ne_nil (by simp [hdigits]), String.toList_append,
      String.toList_append, toList_zeros, List.append_assoc, Spelling.scaleChars, List.append_nil]
    rfl
  · split
    · rw [Spelling.chars, String.toList_append, String.toList_append, toList_zeros]
      rfl
    · next hlong =>
      have hsome : digits.toList.drop (leading.toNat + 1) ≠ [] := by
        rw [Ne, List.drop_eq_nil_iff, String.length_toList]
        exact hlong
      rw [Spelling.chars, fractionChars_of_ne_nil hsome, Spelling.scaleChars, List.append_nil]
      simp only [String.toList_append, String.toList_ofList, List.append_assoc]
      rfl

theorem toList_scientific (digits : String) {leading : Int} (hout : ¬(-5 ≤ leading ∧ leading < 16)) :
    (Binary64.scientific digits leading).toList = (spell digits.toList leading).chars := by
  unfold Binary64.scientific spell
  simp only
  rw [if_neg hout, Spelling.chars, Spelling.scaleChars]
  simp only [String.toList_append, String.toList_ofList, List.append_assoc, Text.showNat,
    Nat.toList_repr]
  congr 1
  congr 1
  · by_cases hone : digits.length ≤ 1
    · have hnil : digits.toList.drop 1 = [] := List.drop_eq_nil_iff.mpr (by rwa [String.length_toList])
      rw [if_pos hone, hnil]
      rfl
    · have hsome : digits.toList.drop 1 ≠ [] := by
        rw [Ne, List.drop_eq_nil_iff, String.length_toList]
        exact hone
      rw [if_neg hone, fractionChars_of_ne_nil hsome]
      simp only [String.toList_append, String.toList_ofList]
      rfl
  · split <;> rfl

/-- A binary number is written as its spelling, after a minus sign if it is negative. -/
theorem chars_real (x : Binary64) :
    (Number.real x).chars = (if x.negative then ['-'] else []) ++ (spelling x).chars := by
  have hsign : (if x.negative then "-" else "" : String).toList =
      if x.negative then ['-'] else [] := by
    split <;> rfl
  change x.text.toList = _
  unfold Binary64.text spelling
  simp only
  split
  · rw [String.toList_append, hsign]
    rfl
  · have hlength : (Text.showNat x.shortest.digits).length =
        (Nat.toDigits 10 x.shortest.digits).length := by
      rw [← String.length_toList, Text.showNat, Nat.toList_repr]
    have hdigits : (Text.showNat x.shortest.digits).toList = Nat.toDigits 10 x.shortest.digits := by
      rw [Text.showNat, Nat.toList_repr]
    have hsome : (Text.showNat x.shortest.digits).toList ≠ [] := by
      obtain ⟨d, cs, hcs, _⟩ := Text.toDigits_eq_cons x.shortest.digits
      rw [hdigits, hcs]
      exact List.cons_ne_nil _ _
    rw [String.toList_append, hsign, hlength, ← hdigits]
    congr 1
    split
    · next hin => rw [toList_positional hsome hin.1 hin.2]
    · next hout => rw [toList_scientific _ hout]

theorem spells_after_zeros (n count : Nat) :
    (⟨['0'], List.replicate count '0' ++ Nat.toDigits 10 n, none⟩ : Spelling).Spells n := by
  obtain ⟨d, cs, hcs, _⟩ := Text.toDigits_eq_cons n
  refine ⟨⟨0, [], rfl, by decide, fun _ => rfl⟩, by simp, ?_, .inl ?_, by simp⟩
  · change Text.digitsFrom? 0 (List.replicate count '0' ++ Nat.toDigits 10 n) = _
    rw [Text.digitsFrom?_append, Text.digitsFrom?_zeros, Option.bind_some, Nat.zero_mul,
      Text.digitsFrom?_toDigits]
  · rw [hcs]
    simp

section

variable {n : Nat} (hn : 0 < n)

include hn

theorem spells_before_zeros {count : Nat} (hshort : (Nat.toDigits 10 n).length + count ≤ 16) :
    (⟨Nat.toDigits 10 n ++ List.replicate count '0', ['0'], none⟩ : Spelling).Spells
      (n * 10 ^ (count + 1)) := by
  obtain ⟨d, cs, hcs, hd, hfirst⟩ := Text.toDigits_eq_cons n
  refine ⟨⟨d, cs ++ _, by rw [hcs]; rfl, hd, fun h => absurd h (hfirst hn).ne'⟩, ?_, ?_,
    .inl (by simp), by simp⟩
  · rw [List.length_append, List.length_replicate]
    exact hshort
  · rw [List.append_assoc, ← List.replicate_succ', Text.digitsFrom?_append,
      Text.digitsFrom?_toDigits, Option.bind_some, Text.digitsFrom?_zeros]

/-- The point stands somewhere after the first digit. -/
theorem spells_parted {before : Nat} {scale : Option Int} (hshort : before < 16)
    (hbroken : before + 1 < (Nat.toDigits 10 n).length ∨ scale ≠ none)
    (hscale : ∀ k ∈ scale, k.natAbs < 2147483648) :
    (⟨(Nat.toDigits 10 n).take (before + 1), (Nat.toDigits 10 n).drop (before + 1), scale⟩ :
      Spelling).Spells n := by
  obtain ⟨d, cs, hcs, hd, hfirst⟩ := Text.toDigits_eq_cons n
  refine ⟨⟨d, cs.take before, by rw [hcs]; rfl, hd, fun h => absurd h (hfirst hn).ne'⟩, ?_, ?_,
    hbroken.imp_left fun hlength => ?_, hscale⟩
  · rw [List.length_take]
    omega
  · rw [List.take_append_drop, Text.digitsFrom?_toDigits]
  · rw [Ne, List.drop_eq_nil_iff]
    omega

/-- The digits of a positive number are spelled as the decimal that they are the digits of, maybe with
zeros after them; these are few, and none where the exponent is that of a large number. -/
theorem spells_spell {exponent leading : Int}
    (hleading : leading = exponent + (Nat.toDigits 10 n).length - 1)
    (hbound : leading.natAbs < 2147483648) :
    ∃ zeros : Nat, (spell (Nat.toDigits 10 n) leading).Spells (n * 10 ^ zeros) ∧
      (spell (Nat.toDigits 10 n) leading).exponent = exponent - zeros ∧ zeros ≤ 16 ∧
      (16 ≤ exponent → zeros = 0) := by
  have hlength : 0 < (Nat.toDigits 10 n).length := by
    obtain ⟨d, cs, hcs, _⟩ := Text.toDigits_eq_cons n
    rw [hcs]
    exact Nat.succ_pos _
  have hone : n = n * 10 ^ 0 := (Nat.mul_one n).symm
  unfold spell
  simp only
  split
  · next hin =>
    split
    · next hneg =>
      refine ⟨0, hone ▸ spells_after_zeros n _, ?_, by decide, fun _ => rfl⟩
      simp only [Spelling.exponent, Option.getD_none, List.length_append, List.length_replicate]
      omega
    · split
      · next hwhole =>
        refine ⟨_, spells_before_zeros hn (by omega), ?_, by omega, by omega⟩
        simp only [Spelling.exponent, Option.getD_none, List.length_singleton]
        omega
      · next hparted =>
        refine ⟨0, hone ▸ spells_parted hn (by omega) (.inl (by omega)) (by simp), ?_, by decide,
          fun _ => rfl⟩
        simp only [Spelling.exponent, Option.getD_none, List.length_drop]
        omega
  · have hscale : ∀ k ∈ some leading, k.natAbs < 2147483648 := by
      rintro k ⟨⟩
      exact hbound
    refine ⟨0, hone ▸ spells_parted hn (by decide) (.inr (by simp)) hscale, ?_, by decide,
      fun _ => rfl⟩
    simp only [Spelling.exponent, Option.getD_some, List.length_drop]
    omega

end

/-- However a number is written, it starts with a digit or with a minus sign. -/
theorem chars_number_eq_cons (n : Number) :
    ∃ c cs, n.chars = c :: cs ∧ (c = '-' ∨ ∃ d, d < 10 ∧ c = Nat.digitChar d) := by
  cases n with
  | integer n =>
      obtain ⟨d, cs, hcs, hd, _⟩ := Text.toDigits_eq_cons n.natAbs
      rw [chars_integer]
      split
      · exact ⟨'-', _, rfl, .inl rfl⟩
      · exact ⟨_, cs, hcs, .inr ⟨d, hd, rfl⟩⟩
  | real x =>
      have hwhole : ∃ d cs, (spelling x).whole = Nat.digitChar d :: cs ∧ d < 10 := by
        unfold spelling
        simp only
        split
        · exact ⟨0, [], rfl, by decide⟩
        · obtain ⟨d, cs, hcs, hd, _⟩ := Text.toDigits_eq_cons x.shortest.digits
          rw [hcs]
          unfold spell
          simp only
          split
          · split
            · exact ⟨0, [], rfl, by decide⟩
            · split
              · exact ⟨d, _, rfl, hd⟩
              · exact ⟨d, _, rfl, hd⟩
          · exact ⟨d, _, rfl, hd⟩
      obtain ⟨d, cs, hcs, hd⟩ := hwhole
      rw [chars_real, Spelling.chars, hcs]
      split
      · exact ⟨'-', _, rfl, .inl rfl⟩
      · exact ⟨_, _, rfl, .inr ⟨d, hd, rfl⟩⟩

end Json

end BuildHooks
