import BuildHooks.Payload.Document
import BuildHooks.Proofs.Json.Reading
import BuildHooks.Proofs.Json.Strings

/-! Where a replacement character may stand in a JSON text. It is a character of strings and of nothing
else, so a text in which one stands outside of strings is not read. Every reader is followed by its spot:
the text that it takes has no replacement character outside of strings, so that what is left is exposed
exactly if the whole was. -/

namespace BuildHooks

namespace Json

/-- The character that stands for damage in what was not UTF-8. -/
def replacement : Char := Char.ofNat 0xFFFD

/-- Where the next character of a text stands: outside of strings, in one, or in one after a
backslash. -/
inductive Spot where
  | outside
  | inside
  | escaped
deriving DecidableEq, Repr

/-- The spot after a character. -/
def Spot.next : Spot → Char → Spot
  | .outside, c => if c = '"' then .inside else .outside
  | .inside, c => if c = '"' then .outside else if c = '\\' then .escaped else .inside
  | .escaped, _ => .inside

/-- A replacement character stands outside of strings in a text that starts at this spot. -/
def exposed : Spot → List Char → Bool
  | _, [] => false
  | spot, c :: cs => (spot == .outside && c == replacement) || exposed (spot.next c) cs

theorem exposed_outside {c : Char} (hquote : c ≠ '"') (hreplacement : c ≠ replacement)
    (cs : List Char) : exposed .outside (c :: cs) = exposed .outside cs := by
  have hbeq : (c == replacement) = false := by simpa using hreplacement
  rw [exposed, Spot.next, if_neg hquote, hbeq, Bool.and_false, Bool.false_or]

theorem exposed_quote (cs : List Char) : exposed .outside ('"' :: cs) = exposed .inside cs := rfl

theorem exposed_inside {c : Char} (hquote : c ≠ '"') (hslash : c ≠ '\\') (cs : List Char) :
    exposed .inside (c :: cs) = exposed .inside cs := by
  rw [exposed, Spot.next, if_neg hquote, if_neg hslash]
  rfl

theorem exposed_slash (cs : List Char) : exposed .inside ('\\' :: cs) = exposed .escaped cs := rfl

theorem exposed_escaped (c : Char) (cs : List Char) :
    exposed .escaped (c :: cs) = exposed .inside cs := rfl

theorem exposed_digit {c : Char} {d : Nat} (h : Text.digitValue? c = some d) (cs : List Char) :
    exposed .outside (c :: cs) = exposed .outside cs := by
  refine exposed_outside ?_ ?_ cs
  · rintro rfl
    cases h
  · rintro rfl
    cases h

theorem exposed_dropGap (cs : List Char) : exposed .outside (dropGap cs) = exposed .outside cs := by
  induction cs with
  | nil => rfl
  | cons c cs ih =>
      unfold dropGap at ih ⊢
      cases hc : isGap c with
      | true =>
          rw [List.dropWhile_cons_of_pos hc, ih, exposed_outside]
          · rintro rfl
            cases hc
          · rintro rfl
            cases hc
      | false => rw [List.dropWhile_cons_of_neg (by rw [hc]; decide)]

/-- A character after blanks is passed like one that comes first. -/
theorem exposed_of_dropGap {c : Char} {cs rest : List Char} (h : dropGap cs = c :: rest)
    (hquote : c ≠ '"') (hreplacement : c ≠ replacement) :
    exposed .outside cs = exposed .outside rest := by
  rw [← exposed_dropGap cs, h, exposed_outside hquote hreplacement]

theorem exposed_of_dropGap_quote {cs rest : List Char} (h : dropGap cs = '"' :: rest) :
    exposed .outside cs = exposed .inside rest := by
  rw [← exposed_dropGap cs, h, exposed_quote]

theorem exposed_readWord {word : List Char} (hword : ∀ c ∈ word, c ≠ '"' ∧ c ≠ replacement)
    {cs rest : List Char} (h : readWord word cs = .ok rest) :
    exposed .outside cs = exposed .outside rest := by
  induction word generalizing cs with
  | nil =>
      cases h
      rfl
  | cons w word ih =>
      cases cs with
      | nil => cases h
      | cons c cs =>
          unfold readWord at h
          split at h
          · next hwc =>
            subst hwc
            obtain ⟨hquote, hreplacement⟩ := hword w List.mem_cons_self
            rw [exposed_outside hquote hreplacement]
            exact ih (fun d hd => hword d (List.mem_cons_of_mem _ hd)) h
          · cases h

theorem exposed_gatherDigits (value count : Nat) (cs : List Char) :
    exposed .outside (gatherDigits value count cs).2.2 = exposed .outside cs := by
  induction cs generalizing value count with
  | nil => rfl
  | cons c cs ih =>
      unfold gatherDigits
      split
      · rfl
      · next d hd =>
        split
        · rw [ih, exposed_digit hd]
        · rfl

theorem exposed_countDigits (count : Nat) (cs : List Char) :
    exposed .outside (countDigits count cs).2 = exposed .outside cs := by
  induction cs generalizing count with
  | nil => rfl
  | cons c cs ih =>
      unfold countDigits
      split
      · rfl
      · next d hd => rw [ih, exposed_digit hd]

theorem rest_of_realNumeral {negative : Bool} {significand : Nat} {exponent : Int}
    {cs rest : List Char} {n : Number}
    (h : realNumeral negative significand exponent cs = .ok (n, rest)) : rest = cs := by
  unfold realNumeral at h
  split at h
  · cases h
    rfl
  · cases h

theorem exposed_readExponentDigits {negative : Bool} {significand : Nat} {start : Int}
    {shrinks : Bool} {value : Nat} {cs rest : List Char} {n : Number}
    (h : readExponentDigits negative significand start shrinks value cs = .ok (n, rest)) :
    exposed .outside cs = exposed .outside rest := by
  induction cs generalizing value with
  | nil => rw [rest_of_realNumeral h]
  | cons c cs ih =>
      unfold readExponentDigits at h
      split at h
      · rw [rest_of_realNumeral h]
      · next d hd =>
        rw [exposed_digit hd]
        split at h
        · exact ih h
        · split at h
          · cases h
            rw [exposed_countDigits]
          · cases h

theorem exposed_readExponent {negative : Bool} {significand : Nat} {start : Int}
    {cs rest : List Char} {n : Number}
    (h : readExponent negative significand start cs = .ok (n, rest)) :
    exposed .outside cs = exposed .outside rest := by
  unfold readExponent at h
  split at h
  next shrinks digits hsign =>
  have hdigits : exposed .outside cs = exposed .outside digits := by
    split at hsign
    · cases hsign
      exact exposed_outside (by decide) (by decide) _
    · cases hsign
      exact exposed_outside (by decide) (by decide) _
    · cases hsign
      rfl
  rw [hdigits]
  split at h
  · cases h
  · split at h
    · cases h
    · next d hd => rw [exposed_digit hd, exposed_readExponentDigits h]

theorem exposed_readScale {negative : Bool} {significand : Nat} {start : Int} {cs rest : List Char}
    {n : Number} (h : readScale negative significand start cs = .ok (n, rest)) :
    exposed .outside cs = exposed .outside rest := by
  unfold readScale at h
  split at h
  · rw [exposed_outside (by decide) (by decide), exposed_readExponent h]
  · rw [exposed_outside (by decide) (by decide), exposed_readExponent h]
  · rw [rest_of_realNumeral h]

theorem exposed_readNumeralRest {negative : Bool} {significand dropped : Nat} {cs rest : List Char}
    {n : Number} (h : readNumeralRest negative significand dropped cs = .ok (n, rest)) :
    exposed .outside cs = exposed .outside rest := by
  unfold readNumeralRest at h
  split at h
  · unfold readFraction at h
    simp only at h
    split at h
    · cases h
    · rw [exposed_outside (by decide) (by decide), ← exposed_readScale h, exposed_countDigits,
        exposed_gatherDigits]
  · exact exposed_readScale h
  · exact exposed_readScale h
  · split at h
    · cases h
      rfl
    · rw [rest_of_realNumeral h]

theorem exposed_readNumeral {negative : Bool} {cs rest : List Char} {n : Number}
    (h : readNumeral negative cs = .ok (n, rest)) :
    exposed .outside cs = exposed .outside rest := by
  unfold readNumeral at h
  split at h
  · cases h
  · split at h
    · cases h
    · next hd =>
      split at h
      · cases h
      · rw [exposed_digit hd, exposed_readNumeralRest h]
    · next d _ hd =>
      rw [exposed_digit hd, ← exposed_readNumeralRest h, exposed_countDigits, exposed_gatherDigits]

theorem exposed_hexDigit {c : Char} {d : Nat} (h : hexValue? c = some d) (cs : List Char) :
    exposed .inside (c :: cs) = exposed .inside cs := by
  refine exposed_inside ?_ ?_ cs
  · rintro rfl
    cases h
  · rintro rfl
    cases h

theorem exposed_readHexUnit {cs rest : List Char} {n : Nat} (h : readHexUnit cs = .ok (n, rest)) :
    exposed .inside cs = exposed .inside rest := by
  unfold readHexUnit at h
  split at h
  · cases h
  · split at h
    · split at h
      · next hunit =>
        unfold hexUnit? at hunit
        split at hunit
        · next ha hb hc hd =>
          cases h
          rw [exposed_hexDigit ha, exposed_hexDigit hb, exposed_hexDigit hc, exposed_hexDigit hd]
        · cases hunit
      · cases h
    · cases h

theorem eq_of_readOfPair {c : Char} {cs rest : List Char} (h : readOfPair c cs = .ok rest) :
    cs = c :: rest := by
  cases cs with
  | nil => cases h
  | cons d cs =>
      simp only [readOfPair] at h
      split at h
      · next hcd =>
        cases h
        rw [hcd]
      · cases h

theorem exposed_readUnicode {cs rest : List Char} {c : Char} (h : readUnicode cs = .ok (c, rest)) :
    exposed .inside cs = exposed .inside rest := by
  unfold readUnicode at h
  obtain ⟨⟨high, rest₁⟩, hhigh, h⟩ := Except.bind_eq_ok.mp h
  rw [exposed_readHexUnit hhigh]
  simp only at h
  split at h
  · cases h
  · split at h
    · cases h
      rfl
    · obtain ⟨rest₂, hslash, h⟩ := Except.bind_eq_ok.mp h
      obtain ⟨rest₃, hu, h⟩ := Except.bind_eq_ok.mp h
      obtain ⟨⟨low, rest₄⟩, hlow, h⟩ := Except.bind_eq_ok.mp h
      rw [eq_of_readOfPair hslash, eq_of_readOfPair hu, exposed_slash, exposed_escaped,
        exposed_readHexUnit hlow]
      simp only at h
      split at h
      · cases h
      · simp only [Except.ok.injEq, Prod.mk.injEq] at h
        rw [h.2]

theorem exposed_readEscape {cs rest : List Char} {c : Char} (h : readEscape cs = .ok (c, rest)) :
    exposed .escaped cs = exposed .inside rest := by
  unfold readEscape at h
  split at h
  · cases h
  · rw [exposed_escaped]
    split at h
    · exact exposed_readUnicode h
    · split at h
      · cases h
        rfl
      · cases h

theorem exposed_readChars {done cs rest : List Char} {s : String}
    (h : readChars done cs = .ok (s, rest)) : exposed .inside cs = exposed .outside rest := by
  induction done, cs using readChars.induct with
  | case1 done =>
      rw [readChars] at h
      cases h
  | case2 done cs =>
      rw [readChars_quote] at h
      cases h
      rfl
  | case3 done cs e he hquote =>
      rw [readChars, if_neg hquote, if_pos rfl] at h
      split at h
      · cases h
      · next hread =>
        rw [he] at hread
        cases hread
  | case4 done cs d rest' hread hlength hquote ih =>
      rw [readChars_escape hread] at h
      rw [exposed_slash, exposed_readEscape hread, ih h]
  | case5 done c cs hquote hslash hcontrol =>
      rw [readChars, if_neg hquote, if_neg hslash, if_pos hcontrol] at h
      cases h
  | case6 done c cs hquote hslash hcontrol ih =>
      rw [readChars_plain hquote hslash hcontrol] at h
      rw [exposed_inside hquote hslash, ih h]

theorem exposed_readScalar {c : Char} {cs rest : List Char} {v : Json}
    (h : readScalar c cs = .ok (v, rest)) :
    exposed .outside (c :: cs) = exposed .outside rest := by
  have hwords : ∀ w ∈ words, ∀ d ∈ w.1 :: w.2.1, d ≠ '"' ∧ d ≠ replacement := by
    have hall : (words.all fun w => (w.1 :: w.2.1).all fun d => d ≠ '"' ∧ d ≠ replacement) = true := by
      decide
    intro w hw d hd
    exact of_decide_eq_true (List.all_eq_true.mp (List.all_eq_true.mp hall w hw) d hd)
  rcases readScalar_cases h with
    ⟨rfl, s, hread, _⟩ | ⟨rfl, n, hread, _⟩ | ⟨n, hread, _⟩ | ⟨word, hword, hread⟩
  · rw [exposed_quote]
    exact exposed_readChars hread
  · rw [exposed_outside (by decide) (by decide)]
    exact exposed_readNumeral hread
  · exact exposed_readNumeral hread
  · obtain ⟨⟨hquote, hreplacement⟩, hletters⟩ := List.forall_mem_cons.mp (hwords _ hword)
    rw [exposed_outside hquote hreplacement]
    exact exposed_readWord hletters hread

/-- Where the text is left by a list: outside of strings, whether it goes on or not. -/
def Onward.ExposedAs (cs : List Char) (next : Spot) : Onward → Prop
  | .finished rest => exposed .outside cs = exposed .outside rest
  | .next rest => exposed .outside cs = exposed next rest

theorem exposed_listStart {cs : List Char} {onward : Onward} (h : listStart cs = .ok onward) :
    onward.ExposedAs cs .outside := by
  unfold listStart at h
  split at h
  · cases h
  · next hgap =>
    cases h
    exact exposed_of_dropGap hgap (by decide) (by decide)
  · next hgap =>
    cases h
    change exposed .outside cs = _
    rw [← exposed_dropGap cs, hgap]

theorem exposed_listOnward {cs : List Char} {onward : Onward} (h : listOnward cs = .ok onward) :
    onward.ExposedAs cs .outside := by
  unfold listOnward at h
  split at h
  · cases h
  · next hgap =>
    cases h
    exact exposed_of_dropGap hgap (by decide) (by decide)
  · next rest hcomma =>
    have hpassed := exposed_of_dropGap hcomma (by decide) (by decide)
    split at h
    · cases h
    · cases h
    · next hgap =>
      cases h
      change exposed .outside cs = _
      rw [hpassed, ← exposed_dropGap rest, hgap]
  · cases h

theorem exposed_objectStart {cs : List Char} {onward : Onward} (h : objectStart cs = .ok onward) :
    onward.ExposedAs cs .inside := by
  unfold objectStart at h
  split at h
  · cases h
  · next hgap =>
    cases h
    exact exposed_of_dropGap hgap (by decide) (by decide)
  · next hgap =>
    cases h
    exact exposed_of_dropGap_quote hgap
  · cases h

theorem exposed_objectOnward {cs : List Char} {onward : Onward} (h : objectOnward cs = .ok onward) :
    onward.ExposedAs cs .inside := by
  unfold objectOnward at h
  split at h
  · cases h
  · next hgap =>
    cases h
    exact exposed_of_dropGap hgap (by decide) (by decide)
  · next rest hcomma =>
    have hpassed := exposed_of_dropGap hcomma (by decide) (by decide)
    split at h
    · cases h
    · cases h
    · next hgap =>
      cases h
      exact hpassed.trans (exposed_of_dropGap_quote hgap)
    · cases h
  · cases h

theorem exposed_readColon {cs rest : List Char} (h : readColon cs = .ok rest) :
    exposed .outside cs = exposed .outside rest := by
  unfold readColon at h
  split at h
  · cases h
  · next hgap =>
    cases h
    exact exposed_of_dropGap hgap (by decide) (by decide)
  · cases h

/-- A value, items and members are read over text in which no replacement character stands outside of
strings. -/
theorem exposed_of_read (steps : Nat) :
    (∀ levels cs v rest, readValue steps levels cs = .ok (v, rest) →
      exposed .outside cs = exposed .outside rest) ∧
    (∀ levels done cs v rest, readItems steps levels done cs = .ok (v, rest) →
      exposed .outside cs = exposed .outside rest) ∧
    (∀ levels done cs v rest, readMembers steps levels done cs = .ok (v, rest) →
      exposed .inside cs = exposed .outside rest) := by
  induction steps with
  | zero =>
      refine ⟨?_, ?_, ?_⟩
      · intro levels cs v rest h
        cases h
      · intro levels done cs v rest h
        cases h
      · intro levels done cs v rest h
        cases h
  | succ steps ih =>
      obtain ⟨ihvalue, ihitems, ihmembers⟩ := ih
      refine ⟨?_, ?_, ?_⟩
      · intro levels cs v rest h
        rcases readValue_cases h with
          ⟨k, rest₁, onward, _, hgap, hstart, hgoes⟩ | ⟨k, rest₁, onward, _, hgap, hstart, hgoes⟩ |
          ⟨c, rest₁, hgap, hscalar⟩
        · rw [exposed_of_dropGap hgap (by decide) (by decide)]
          have hspot := exposed_listStart hstart
          rcases hgoes with ⟨rfl, _⟩ | ⟨rest₂, rfl, hitems⟩
          · exact hspot
          · exact hspot.trans (ihitems _ _ _ _ _ hitems)
        · rw [exposed_of_dropGap hgap (by decide) (by decide)]
          have hspot := exposed_objectStart hstart
          rcases hgoes with ⟨rfl, _⟩ | ⟨rest₂, rfl, hmembers⟩
          · exact hspot
          · exact hspot.trans (ihmembers _ _ _ _ _ hmembers)
        · rw [← exposed_dropGap cs, hgap]
          exact exposed_readScalar hscalar
      · intro levels done cs v rest h
        obtain ⟨x, rest₁, onward, hx, honward, hgoes⟩ := readItems_cases h
        rw [ihvalue _ _ _ _ hx]
        have hspot := exposed_listOnward honward
        rcases hgoes with ⟨rfl, _⟩ | ⟨rest₂, rfl, hitems⟩
        · exact hspot
        · exact hspot.trans (ihitems _ _ _ _ _ hitems)
      · intro levels done cs v rest h
        obtain ⟨name, x, rest₁, rest₂, rest₃, onward, hname, hcolon, hx, honward, hgoes⟩ :=
          readMembers_cases h
        rw [exposed_readChars hname, exposed_readColon hcolon, ihvalue _ _ _ _ hx]
        have hspot := exposed_objectOnward honward
        rcases hgoes with ⟨rfl, _⟩ | ⟨rest₄, rfl, hmembers⟩
        · exact hspot
        · exact hspot.trans (ihmembers _ _ _ _ _ hmembers)

/-- No text is read in which a replacement character stands outside of strings. -/
theorem not_exposed_of_parse {text : String} {v : Json} (h : parse text = .ok v) :
    exposed .outside text.toList = false := by
  obtain ⟨rest, hread, hrest⟩ := read_of_parse h
  rw [(exposed_of_read _).1 _ _ _ _ hread, ← exposed_dropGap rest, hrest]
  rfl

end Json

theorem Payload.not_exposed_of_parse {text : String} {payload : Payload}
    (h : parse text = .ok payload) : Json.exposed .outside text.toList = false := by
  unfold parse at h
  split at h
  · next hparse => exact Json.not_exposed_of_parse hparse
  · cases h
  · cases h

end BuildHooks
