import BuildHooks.Proofs.Json.Damage
import BuildHooks.Proofs.Json.Written

/-! What is read does not hang on what follows. Of a text that a reader takes for something it would take
the same characters for the same thing in front of any other rest, if a numeral at their end does not go
on there. So the values in a document are read from texts of their own, and every text that is read as a
document is one that writes it. -/

namespace BuildHooks.Json

/-- The reader takes characters off the front of `cs` for `a` and leaves `rest`, and it does so with the
same characters in front of every rest that ends them. -/
def TakesOff {α : Type} (ends : List Char → Prop) (read : Scan α) (cs : List Char) (a : α)
    (rest : List Char) : Prop :=
  ∃ text, cs = text ++ rest ∧ ∀ rest', ends rest' → read (text ++ rest') = .ok (a, rest')

/-- Any rest will do. -/
def Anything (_ : List Char) : Prop :=
  True

variable {cs rest gap gap' : List Char} {c : Char} {s : String} {v : Json} {k : Nat}

/-! ### Strings -/

theorem takesOff_readHexUnit {n : Nat} (h : readHexUnit cs = .ok (n, rest)) :
    TakesOff Anything readHexUnit cs n rest := by
  unfold readHexUnit at h
  split at h
  · cases h
  · next hfour =>
    split at h
    · next a b c d rest₁ =>
      split at h
      · next hunit =>
        cases h
        refine ⟨[a, b, c, d], rfl, fun rest' _ => ?_⟩
        have hfour' : ¬Text.Utf8.byteCount (List.take 4 (a :: b :: c :: d :: rest')) < 4 := hfour
        show readHexUnit (a :: b :: c :: d :: rest') = _
        rw [readHexUnit, if_neg hfour']
        simp only [hunit]
      · cases h
    · cases h

theorem readOfPair_self (c : Char) (cs : List Char) : readOfPair c (c :: cs) = .ok cs := by
  rw [readOfPair, if_pos rfl]

theorem takesOff_readUnicode (h : readUnicode cs = .ok (c, rest)) :
    TakesOff Anything readUnicode cs c rest := by
  unfold readUnicode at h
  obtain ⟨⟨high, rest₁⟩, hhigh, hgo⟩ := Except.bind_eq_ok.mp h
  clear h
  obtain ⟨text, rfl, hread⟩ := takesOff_readHexUnit hhigh
  simp only at hgo
  split at hgo
  · cases hgo
  · next hlone =>
    split at hgo
    · next hplain =>
      cases hgo
      refine ⟨text, rfl, fun rest' _ => Except.bind_eq_ok.mpr ⟨_, hread rest' trivial, ?_⟩⟩
      show (if _ then _ else _) = _
      rw [if_neg hlone, if_pos hplain]
    · next hpair =>
      obtain ⟨rest₂, hslash, hgo⟩ := Except.bind_eq_ok.mp hgo
      obtain ⟨rest₃, hu, hgo⟩ := Except.bind_eq_ok.mp hgo
      obtain ⟨⟨low, rest₄⟩, hlow, hgo⟩ := Except.bind_eq_ok.mp hgo
      rw [eq_of_readOfPair hslash, eq_of_readOfPair hu]
      obtain ⟨text', htext, hread'⟩ := takesOff_readHexUnit hlow
      simp only at hgo
      split at hgo
      · cases hgo
      · next hrange =>
        simp only [Except.ok.injEq, Prod.mk.injEq] at hgo
        obtain ⟨rfl, rfl⟩ := hgo
        refine ⟨text ++ '\\' :: 'u' :: text', by simp [htext], fun rest' _ => ?_⟩
        rw [List.append_assoc]
        refine Except.bind_eq_ok.mpr ⟨_, hread _ trivial, ?_⟩
        show (if _ then _ else _) = _
        rw [if_neg hlone, if_neg hpair]
        refine Except.bind_eq_ok.mpr ⟨_, readOfPair_self _ _, ?_⟩
        refine Except.bind_eq_ok.mpr ⟨_, readOfPair_self _ _, ?_⟩
        refine Except.bind_eq_ok.mpr ⟨_, hread' rest' trivial, ?_⟩
        show (if _ then _ else _) = _
        rw [if_neg hrange]

theorem takesOff_readEscape (h : readEscape cs = .ok (c, rest)) :
    TakesOff Anything readEscape cs c rest := by
  unfold readEscape at h
  split at h
  · cases h
  · next d cs =>
    split at h
    · next hd =>
      obtain ⟨text, rfl, hread⟩ := takesOff_readUnicode h
      refine ⟨d :: text, rfl, fun rest' _ => ?_⟩
      rw [List.cons_append, readEscape, if_pos hd, hread rest' trivial]
    · next hd =>
      split at h
      · next hshort =>
        cases h
        refine ⟨[d], rfl, fun rest' _ => ?_⟩
        rw [List.cons_append, readEscape, if_neg hd]
        simp only [hshort, List.nil_append]
      · cases h

theorem takesOff_readChars {done : List Char} (h : readChars done cs = .ok (s, rest)) :
    TakesOff Anything (readChars done) cs s rest := by
  induction done, cs using readChars.induct with
  | case1 done =>
      rw [readChars] at h
      cases h
  | case2 done cs =>
      rw [readChars_quote] at h
      cases h
      exact ⟨['"'], rfl, fun rest' _ => readChars_quote done rest'⟩
  | case3 done cs e he hquote =>
      rw [readChars, if_neg hquote, if_pos rfl] at h
      split at h
      · cases h
      · next hread =>
        rw [he] at hread
        cases hread
  | case4 done cs d rest₁ hread _ _ ih =>
      rw [readChars_escape hread] at h
      obtain ⟨text, rfl, hescape⟩ := takesOff_readEscape hread
      obtain ⟨text', rfl, hchars⟩ := ih h
      refine ⟨'\\' :: (text ++ text'), by simp, fun rest' _ => ?_⟩
      rw [List.cons_append, List.append_assoc, readChars_escape (hescape _ trivial),
        hchars rest' trivial]
  | case5 done c cs hquote hslash hcontrol =>
      rw [readChars, if_neg hquote, if_neg hslash, if_pos hcontrol] at h
      cases h
  | case6 done c cs hquote hslash hvisible ih =>
      rw [readChars_plain hquote hslash hvisible] at h
      obtain ⟨text, rfl, hchars⟩ := ih h
      refine ⟨c :: text, rfl, fun rest' _ => ?_⟩
      rw [List.cons_append, readChars_plain hquote hslash hvisible, hchars rest' trivial]

theorem spellsName_of_readString (h : readString cs = .ok (s, rest)) :
    ∃ text, cs = text ++ rest ∧ SpellsName text s := by
  obtain ⟨text, rfl, hread⟩ := takesOff_readChars h
  exact ⟨text, rfl, fun rest' => hread rest' trivial⟩

/-! ### Numerals -/

section

variable {n : Number} {negative : Bool} {significand dropped : Nat} {start : Int}

theorem takesOff_nil {read : Scan Number}
    (hread : ∀ rest', EndsNumeral rest' → read rest' = .ok (n, rest')) :
    TakesOff EndsNumeral read rest n rest :=
  ⟨[], rfl, hread⟩

/-- A text in front of an end goes on as it did before. -/
theorem startsWithDigit_append {text rest' : List Char} (h : startsWithDigit (text ++ rest) = false)
    (hrest' : EndsNumeral rest') : startsWithDigit (text ++ rest') = false := by
  cases text with
  | nil => exact hrest'.startsWithDigit
  | cons c text => exact h

/-- The digits at the front of a text. -/
theorem exists_run (cs : List Char) : ∃ ds after, cs = ds ++ after ∧
    (∀ c ∈ ds, (Text.digitValue? c).isSome = true) ∧ startsWithDigit after = false := by
  induction cs with
  | nil => exact ⟨[], [], rfl, by simp, rfl⟩
  | cons c cs ih =>
      by_cases hc : (Text.digitValue? c).isSome = true
      · obtain ⟨ds, after, rfl, hds, hafter⟩ := ih
        exact ⟨c :: ds, after, rfl, List.forall_mem_cons.mpr ⟨hc, hds⟩, hafter⟩
      · exact ⟨[], c :: cs, rfl, by simp, by rw [startsWithDigit]; simpa using hc⟩

theorem exists_digitsFrom? {ds : List Char} (hds : ∀ c ∈ ds, (Text.digitValue? c).isSome = true)
    (value : Nat) : ∃ w, Text.digitsFrom? value ds = some w := by
  induction ds generalizing value with
  | nil => exact ⟨value, rfl⟩
  | cons c ds ih =>
      rw [List.forall_mem_cons] at hds
      obtain ⟨d, hd⟩ := Option.isSome_iff_exists.mp hds.1
      rw [Text.digitsFrom?, hd]
      exact ih hds.2 _

theorem realNumeral_local (h : realNumeral negative significand start cs = .ok (n, rest))
    (rest' : List Char) : realNumeral negative significand start rest' = .ok (n, rest') := by
  unfold realNumeral at h ⊢
  split at h
  · cases h
    rfl
  · cases h

theorem readExponentDigits_of_ends (shrinks : Bool) (value : Nat) (hrest : EndsNumeral rest) :
    readExponentDigits negative significand start shrinks value rest =
      realNumeral negative significand (if shrinks then start - value else start + value) rest := by
  cases rest with
  | nil => rfl
  | cons c rest => rw [readExponentDigits, (hrest c rfl).1]

theorem takesOff_readExponentDigits {shrinks : Bool} {value : Nat}
    (h : readExponentDigits negative significand start shrinks value cs = .ok (n, rest)) :
    TakesOff EndsNumeral (readExponentDigits negative significand start shrinks value) cs n rest := by
  have hreal : ∀ {value : Nat} {cs}, realNumeral negative significand
      (if shrinks then start - value else start + value) cs = .ok (n, rest) →
      TakesOff EndsNumeral (readExponentDigits negative significand start shrinks value) cs n rest := by
    intro value cs h
    rw [← rest_of_realNumeral h]
    apply takesOff_nil
    intro rest' hrest'
    rw [readExponentDigits_of_ends shrinks value hrest']
    exact realNumeral_local h rest'
  induction cs generalizing value with
  | nil => exact hreal h
  | cons c cs ih =>
      rw [readExponentDigits] at h
      split at h
      · exact hreal h
      · next d hd =>
        split at h
        · next hfits =>
          obtain ⟨text, rfl, hread⟩ := ih h
          refine ⟨c :: text, rfl, fun rest' hrest' => ?_⟩
          rw [List.cons_append, readExponentDigits, hd]
          simp only
          rw [if_pos hfits, hread rest' hrest']
        · next hlong =>
          split at h
          · next hzero =>
            obtain ⟨ds, after, rfl, hds, hafter⟩ := exists_run cs
            rw [countDigits_append hds hafter] at h
            cases h
            refine ⟨c :: ds, rfl, fun rest' hrest' => ?_⟩
            rw [List.cons_append, readExponentDigits, hd]
            simp only
            rw [if_neg hlong, if_pos hzero, countDigits_append hds hrest'.startsWithDigit]
          · cases h

theorem readExponent_of_digit {d : Nat} (hd : Text.digitValue? c = some d) (cs : List Char) :
    readExponent negative significand start (c :: cs) =
      readExponentDigits negative significand start false d cs := by
  unfold readExponent
  split
  next shrinks digits hsign =>
  split at hsign
  · next hplus =>
    cases hplus
    cases hd
  · next hminus =>
    cases hminus
    cases hd
  · cases hsign
    simp only [hd]

theorem takesOff_readExponent (h : readExponent negative significand start cs = .ok (n, rest)) :
    TakesOff EndsNumeral (readExponent negative significand start) cs n rest := by
  unfold readExponent at h
  split at h
  next shrinks digits hsign =>
  split at h
  · cases h
  · next c after =>
    split at h
    · cases h
    · next d hd =>
      obtain ⟨text, rfl, hread⟩ := takesOff_readExponentDigits h
      split at hsign
      · cases hsign
        refine ⟨'+' :: c :: text, rfl, fun rest' hrest' => ?_⟩
        simp only [List.cons_append, readExponent, hd]
        exact hread rest' hrest'
      · cases hsign
        refine ⟨'-' :: c :: text, rfl, fun rest' hrest' => ?_⟩
        simp only [List.cons_append, readExponent, hd]
        exact hread rest' hrest'
      · cases hsign
        refine ⟨c :: text, rfl, fun rest' hrest' => ?_⟩
        rw [List.cons_append, readExponent_of_digit hd]
        exact hread rest' hrest'

theorem takesOff_readScale (h : readScale negative significand start cs = .ok (n, rest)) :
    TakesOff EndsNumeral (readScale negative significand start) cs n rest := by
  unfold readScale at h
  split at h
  · obtain ⟨text, rfl, hread⟩ := takesOff_readExponent h
    exact ⟨'e' :: text, rfl, hread⟩
  · obtain ⟨text, rfl, hread⟩ := takesOff_readExponent h
    exact ⟨'E' :: text, rfl, hread⟩
  · rw [← rest_of_realNumeral h]
    apply takesOff_nil
    intro rest' hrest'
    rw [readScale_of_ends negative significand start hrest']
    exact realNumeral_local h rest'

theorem takesOff_readFraction {start : Nat} (hword : significand < Text.wordEnd)
    (h : readFraction negative significand start cs = .ok (n, rest)) :
    TakesOff EndsNumeral (readFraction negative significand start) cs n rest := by
  obtain ⟨ds, after, rfl, hds, hafter⟩ := exists_run cs
  obtain ⟨w, hw⟩ := exists_digitsFrom? hds significand
  obtain ⟨taken, left, v, rfl, _, _, _, _, hgather⟩ := gatherDigits_digits hw hword
  have hleft : ∀ c ∈ left, (Text.digitValue? c).isSome = true :=
    fun c hc => hds c (List.mem_append_right _ hc)
  by_cases hnone : taken = [] ∧ left = []
  · obtain ⟨rfl, rfl⟩ := hnone
    unfold readFraction at h
    simp only [hgather 0 after hafter] at h
    rw [if_pos ⟨rfl, by simp [hafter]⟩] at h
    cases h
  · have hsome : ∀ after, ¬(0 + taken.length = 0 ∧
        (!startsWithDigit (left ++ after)) = true) := by
      rintro after ⟨hlength, hstop⟩
      have htaken : taken = [] := List.length_eq_zero_iff.mp (by omega)
      cases left with
      | nil => exact hnone ⟨htaken, rfl⟩
      | cons c left =>
          rw [List.cons_append, startsWithDigit, hleft c List.mem_cons_self] at hstop
          cases hstop
    have hread : ∀ after, startsWithDigit after = false →
        readFraction negative significand start (taken ++ left ++ after) =
          readScale negative v ((start : Int) - (0 + taken.length : Nat)) after := by
      intro after hafter
      unfold readFraction
      simp only [hgather 0 after hafter, countDigits_append hleft hafter]
      rw [if_neg (hsome after)]
    rw [hread after hafter] at h
    obtain ⟨text, rfl, hscale⟩ := takesOff_readScale h
    refine ⟨taken ++ left ++ text, by simp, fun rest' hrest' => ?_⟩
    rw [List.append_assoc _ text, hread _ (startsWithDigit_append hafter hrest')]
    exact hscale rest' hrest'

theorem takesOff_readNumeralRest (hword : significand < Text.wordEnd)
    (h : readNumeralRest negative significand dropped cs = .ok (n, rest)) :
    TakesOff EndsNumeral (readNumeralRest negative significand dropped) cs n rest := by
  unfold readNumeralRest at h
  split at h
  · obtain ⟨text, rfl, hread⟩ := takesOff_readFraction hword h
    exact ⟨'.' :: text, rfl, hread⟩
  · next after =>
    change readExponent negative significand dropped after = .ok (n, rest) at h
    obtain ⟨text, rfl, hread⟩ := takesOff_readExponent h
    exact ⟨'e' :: text, rfl, hread⟩
  · next after =>
    change readExponent negative significand dropped after = .ok (n, rest) at h
    obtain ⟨text, rfl, hread⟩ := takesOff_readExponent h
    exact ⟨'E' :: text, rfl, hread⟩
  · by_cases hdropped : dropped = 0
    · rw [if_pos hdropped] at h
      cases h
      apply takesOff_nil
      intro rest' hrest'
      rw [hdropped, readNumeralRest_of_ends negative significand hrest']
    · rw [if_neg hdropped] at h
      rw [← rest_of_realNumeral h]
      apply takesOff_nil
      intro rest' hrest'
      rw [readNumeralRest_of_dropped negative significand hdropped hrest']
      exact realNumeral_local h rest'

/-- A numeral starts with a digit. -/
theorem takesOff_readNumeral (h : readNumeral negative cs = .ok (n, rest)) :
    ∃ c text, (Text.digitValue? c).isSome = true ∧ cs = c :: text ++ rest ∧
      ∀ rest', EndsNumeral rest' → readNumeral negative (c :: text ++ rest') = .ok (n, rest') := by
  unfold readNumeral at h
  split at h
  · cases h
  · next c cs =>
    split at h
    · cases h
    · next hzero =>
      split at h
      · cases h
      · next hstop =>
        obtain ⟨text, rfl, hread⟩ := takesOff_readNumeralRest (by decide) h
        refine ⟨c, text, by rw [hzero]; rfl, rfl, fun rest' hrest' => ?_⟩
        rw [Bool.not_eq_true] at hstop
        rw [List.cons_append, readNumeral, hzero]
        simp only
        rw [startsWithDigit_append hstop hrest', if_neg (by decide)]
        exact hread rest' hrest'
    · next d hpositive hd =>
      obtain ⟨ds, after, rfl, hds, hafter⟩ := exists_run cs
      obtain ⟨w, hw⟩ := exists_digitsFrom? hds d
      have hword : d < Text.wordEnd := by
        have := digitValue?_lt hd
        unfold Text.wordEnd
        omega
      obtain ⟨taken, left, v, rfl, hv, _, _, _, hgather⟩ := gatherDigits_digits hw hword
      have hleft : ∀ c ∈ left, (Text.digitValue? c).isSome = true :=
        fun c hc => hds c (List.mem_append_right _ hc)
      simp only [hgather 0 after hafter, countDigits_append hleft hafter] at h
      obtain ⟨text, rfl, hread⟩ := takesOff_readNumeralRest hv h
      refine ⟨c, taken ++ left ++ text, by rw [hd]; rfl, by simp, fun rest' hrest' => ?_⟩
      have hafter' := startsWithDigit_append hafter hrest'
      have hne : d ≠ 0 := hpositive
      obtain ⟨e, rfl⟩ : ∃ e, d = e + 1 := ⟨d - 1, by omega⟩
      rw [List.cons_append, List.append_assoc _ text, readNumeral, hd]
      simp only [hgather 0 _ hafter', countDigits_append hleft hafter']
      exact hread rest' hrest'

end

theorem readWord_eq_ok_iff {word : List Char} : readWord word cs = .ok rest ↔ cs = word ++ rest := by
  induction word generalizing cs with
  | nil =>
      rw [readWord, List.nil_append]
      exact ⟨Except.ok.inj, congrArg _⟩
  | cons w word ih =>
      cases cs with
      | nil => exact iff_of_false (fun h => by cases h) fun h => by cases h
      | cons c cs =>
          rw [readWord, List.cons_append, List.cons_eq_cons]
          by_cases hw : w = c
          · rw [if_pos hw, ih, and_iff_right hw.symm]
          · rw [if_neg hw]
            exact iff_of_false (fun h => by cases h) fun h => hw h.1.symm

theorem takesOff_readWordAs {word : List Char} {w : Json} (h : readWordAs word w cs = .ok (v, rest)) :
    TakesOff EndsNumeral (readWordAs word w) cs v rest := by
  obtain ⟨hread, rfl⟩ := readWordAs_eq_ok h
  refine ⟨word, readWord_eq_ok_iff.mp hread, fun rest' _ => ?_⟩
  rw [readWordAs, readWord_eq_ok_iff.mpr rfl]
  rfl

theorem takesOff_readScalar (h : readScalar c cs = .ok (v, rest)) :
    TakesOff EndsNumeral (readScalar c) cs v rest := by
  unfold readScalar at h ⊢
  by_cases hquote : c = '"'
  · simp only [if_pos hquote] at h ⊢
    obtain ⟨⟨s, after⟩, hread, hs⟩ := Except.map_eq_ok.mp h
    cases hs
    obtain ⟨text, rfl, hchars⟩ := takesOff_readChars hread
    exact ⟨text, rfl, fun rest' _ => Except.map_eq_ok.mpr ⟨_, hchars rest' trivial, rfl⟩⟩
  simp only [if_neg hquote] at h ⊢
  by_cases hminus : c = '-'
  · simp only [if_pos hminus] at h ⊢
    obtain ⟨⟨n, after⟩, hread, hn⟩ := Except.map_eq_ok.mp h
    cases hn
    obtain ⟨d, text, _, rfl, hnumeral⟩ := takesOff_readNumeral hread
    exact ⟨d :: text, rfl, fun rest' hrest' =>
      Except.map_eq_ok.mpr ⟨_, hnumeral rest' hrest', rfl⟩⟩
  simp only [if_neg hminus] at h ⊢
  by_cases hdigit : (Text.digitValue? c).isSome = true
  · simp only [if_pos hdigit] at h ⊢
    obtain ⟨⟨n, after⟩, hread, hn⟩ := Except.map_eq_ok.mp h
    cases hn
    obtain ⟨d, text, _, htext, hnumeral⟩ := takesOff_readNumeral hread
    cases htext
    exact ⟨text, rfl, fun rest' hrest' => Except.map_eq_ok.mpr ⟨_, hnumeral rest' hrest', rfl⟩⟩
  simp only [if_neg hdigit] at h ⊢
  split at h
  · next hc =>
    simp only [if_pos hc]
    exact takesOff_readWordAs h
  · next hn =>
    simp only [if_neg hn]
    split at h
    · next hc =>
      simp only [if_pos hc]
      exact takesOff_readWordAs h
    · next ht =>
      simp only [if_neg ht]
      split at h
      · next hc =>
        simp only [if_pos hc]
        exact takesOff_readWordAs h
      · cases h

/-! ### Lists and objects -/

theorem eq_of_dropGap {after : List Char} (h : dropGap cs = after) :
    ∃ gap, Blank gap ∧ cs = gap ++ after := by
  refine ⟨cs.takeWhile isGap, fun c hc => List.all_eq_true.mp List.all_takeWhile c hc, ?_⟩
  rw [← h]
  exact List.takeWhile_append_dropWhile.symm

theorem isGap_of_dropGap {after : List Char} (h : dropGap cs = c :: after) : isGap c = false := by
  have hhead := List.head?_dropWhile_not isGap cs
  rw [dropGap] at h
  rw [h] at hhead
  simpa using hhead

/-- The text starts neither with a blank nor with the end of a list. -/
def StartsItem (cs : List Char) : Prop :=
  ∃ c after, cs = c :: after ∧ isGap c = false ∧ c ≠ ']'

theorem StartsItem.append {text rest' : List Char} (h : StartsItem (text ++ rest)) (hne : text ≠ []) :
    StartsItem (text ++ rest') := by
  obtain ⟨c, after, heq, hc⟩ := h
  cases text with
  | nil => exact absurd rfl hne
  | cons d text =>
      cases heq
      exact ⟨c, text ++ rest', rfl, hc⟩

theorem listStart_next (hgap : Blank gap) (h : StartsItem cs) :
    listStart (gap ++ cs) = .ok (.next cs) := by
  obtain ⟨c, after, rfl, hc, hend⟩ := h
  rw [listStart, hgap.dropGap, dropGap_cons hc]
  split
  · next heq => cases heq
  · next heq =>
    cases heq
    exact absurd rfl hend
  · next heq =>
    cases heq
    rfl

theorem listStart_cases {onward : Onward} (h : listStart cs = .ok onward) :
    ∃ gap, Blank gap ∧ ((∃ rest, onward = .finished rest ∧ cs = gap ++ ']' :: rest) ∨
      ∃ rest, onward = .next rest ∧ cs = gap ++ rest ∧ StartsItem rest) := by
  unfold listStart at h
  split at h
  · cases h
  · next rest hdrop =>
    cases h
    obtain ⟨gap, hgap, hcs⟩ := eq_of_dropGap hdrop
    exact ⟨gap, hgap, .inl ⟨rest, rfl, hcs⟩⟩
  · next c rest hend hdrop =>
    cases h
    obtain ⟨gap, hgap, hcs⟩ := eq_of_dropGap hdrop
    exact ⟨gap, hgap, .inr ⟨_, rfl, hcs, c, rest, rfl, isGap_of_dropGap hdrop, hend⟩⟩

theorem listOnward_bracket (hgap : Blank gap) (rest : List Char) :
    listOnward (gap ++ ']' :: rest) = .ok (.finished rest) := by
  simp only [listOnward, hgap.dropGap, dropGap_cons (c := ']') rfl]

theorem listOnward_comma (hgap : Blank gap) (hgap' : Blank gap') (h : StartsItem cs) :
    listOnward (gap ++ ',' :: (gap' ++ cs)) = .ok (.next cs) := by
  obtain ⟨c, after, rfl, hc, hend⟩ := h
  rw [listOnward, hgap.dropGap, dropGap_cons rfl]
  simp only
  rw [hgap'.dropGap, dropGap_cons hc]
  split
  · next heq => cases heq
  · next heq =>
    cases heq
    exact absurd rfl hend
  · next heq =>
    cases heq
    rfl

theorem listOnward_cases {onward : Onward} (h : listOnward cs = .ok onward) :
    ∃ gap, Blank gap ∧ ((∃ rest, onward = .finished rest ∧ cs = gap ++ ']' :: rest) ∨
      ∃ gap' rest, Blank gap' ∧ onward = .next rest ∧ cs = gap ++ ',' :: (gap' ++ rest) ∧
        StartsItem rest) := by
  unfold listOnward at h
  split at h
  · cases h
  · next rest hdrop =>
    cases h
    obtain ⟨gap, hgap, hcs⟩ := eq_of_dropGap hdrop
    exact ⟨gap, hgap, .inl ⟨rest, rfl, hcs⟩⟩
  · next after hdrop =>
    obtain ⟨gap, hgap, rfl⟩ := eq_of_dropGap hdrop
    split at h
    · cases h
    · cases h
    · next c rest hend hnext =>
      cases h
      obtain ⟨gap', hgap', rfl⟩ := eq_of_dropGap hnext
      exact ⟨gap, hgap, .inr ⟨gap', _, hgap', rfl, rfl, c, rest, rfl, isGap_of_dropGap hnext, hend⟩⟩
  · cases h

theorem objectStart_cases {onward : Onward} (h : objectStart cs = .ok onward) :
    ∃ gap, Blank gap ∧ ((∃ rest, onward = .finished rest ∧ cs = gap ++ '}' :: rest) ∨
      ∃ rest, onward = .next rest ∧ cs = gap ++ '"' :: rest) := by
  unfold objectStart at h
  split at h
  · cases h
  · next rest hdrop =>
    cases h
    obtain ⟨gap, hgap, hcs⟩ := eq_of_dropGap hdrop
    exact ⟨gap, hgap, .inl ⟨rest, rfl, hcs⟩⟩
  · next rest hdrop =>
    cases h
    obtain ⟨gap, hgap, hcs⟩ := eq_of_dropGap hdrop
    exact ⟨gap, hgap, .inr ⟨rest, rfl, hcs⟩⟩
  · cases h

theorem objectOnward_cases {onward : Onward} (h : objectOnward cs = .ok onward) :
    ∃ gap, Blank gap ∧ ((∃ rest, onward = .finished rest ∧ cs = gap ++ '}' :: rest) ∨
      ∃ gap' rest, Blank gap' ∧ onward = .next rest ∧ cs = gap ++ ',' :: (gap' ++ '"' :: rest)) := by
  unfold objectOnward at h
  split at h
  · cases h
  · next rest hdrop =>
    cases h
    obtain ⟨gap, hgap, hcs⟩ := eq_of_dropGap hdrop
    exact ⟨gap, hgap, .inl ⟨rest, rfl, hcs⟩⟩
  · next after hdrop =>
    obtain ⟨gap, hgap, rfl⟩ := eq_of_dropGap hdrop
    split at h
    · cases h
    · cases h
    · next rest hnext =>
      cases h
      obtain ⟨gap', hgap', rfl⟩ := eq_of_dropGap hnext
      exact ⟨gap, hgap, .inr ⟨gap', rest, hgap', rfl, rfl⟩⟩
    · cases h
  · cases h

theorem eq_of_readColon (h : readColon cs = .ok rest) :
    ∃ gap, Blank gap ∧ cs = gap ++ ':' :: rest := by
  unfold readColon at h
  split at h
  · cases h
  · next hdrop =>
    cases h
    exact eq_of_dropGap hdrop
  · cases h

theorem ReadAs.ne_nil {text : List Char} (h : ReadAs k v text) : text ≠ [] := by
  rintro rfl
  have hread := h 0 [] (Nat.le_refl _) endsNumeral_nil
  cases hread

/-! ### Values -/

/-- The reader of items takes the text for what is left of a list, whatever follows. -/
def ReadsItems (k : Nat) (done : List Json) (v : Json) (text : List Char) : Prop :=
  ∀ steps rest, 2 * text.length ≤ steps → readItems steps k done (text ++ rest) = .ok (v, rest)

variable {steps : Nat} {done : List Json} {text : List Char}

theorem endsNumeral_bracket (rest : List Char) : EndsNumeral (']' :: rest) := by
  intro c hc
  cases hc
  decide

theorem readsItems_last (hvalue : ReadAs k v text) (hgap : Blank gap) :
    ReadsItems k done (.array (v :: done).reverse) (text ++ (gap ++ [']'])) := by
  intro steps rest hsteps
  simp only [List.length_append, List.length_singleton] at hsteps
  obtain ⟨steps, rfl⟩ : ∃ s, steps = s + 1 := ⟨steps - 1, by omega⟩
  have hread := hvalue steps (gap ++ ']' :: rest) (by omega)
    (hgap.endsNumeral (endsNumeral_bracket rest))
  simp only [List.append_assoc, List.singleton_append]
  rw [readItems]
  simp only [hread, listOnward_bracket hgap]

theorem readsItems_more {w : Json} {texts : List Char} (hvalue : ReadAs k v text) (hgap : Blank gap)
    (hgap' : Blank gap') (hstarts : ∀ rest, StartsItem (texts ++ rest))
    (hitems : ReadsItems k (v :: done) w texts) :
    ReadsItems k done w (text ++ (gap ++ ',' :: (gap' ++ texts))) := by
  intro steps rest hsteps
  simp only [List.length_append, List.length_cons] at hsteps
  obtain ⟨steps, rfl⟩ : ∃ s, steps = s + 1 := ⟨steps - 1, by omega⟩
  have hread := hvalue steps (gap ++ ',' :: (gap' ++ (texts ++ rest))) (by omega)
    (hgap.endsNumeral (endsNumeral_comma _))
  simp only [List.append_assoc, List.cons_append]
  rw [readItems]
  simp only [hread, listOnward_comma hgap hgap' (hstarts rest)]
  exact hitems steps rest (by omega)

theorem readAs_of_head (hgap : Blank gap)
    (h : ∀ steps rest, 2 * text.length ≤ steps → EndsNumeral rest →
      readValue (steps + 1) k (c :: (text ++ rest)) = .ok (v, rest)) :
    ReadAs k v (gap ++ c :: text) := by
  intro steps rest hsteps hrest
  simp only [List.length_append, List.length_cons] at hsteps
  obtain ⟨steps, rfl⟩ : ∃ s, steps = s + 1 := ⟨steps - 1, by omega⟩
  rw [List.append_assoc, readValue_gap hgap, List.cons_append]
  exact h steps rest (by omega) hrest

theorem readAs_emptyList (hgap : Blank gap) (hgap' : Blank gap') :
    ReadAs (k + 1) (.array []) (gap ++ '[' :: (gap' ++ [']'])) := by
  apply readAs_of_head hgap
  intro steps rest _ _
  rw [List.append_assoc, readValue, dropGap_cons rfl]
  simp only [List.singleton_append, listStart, hgap'.dropGap, dropGap_cons (c := ']') rfl]

theorem readAs_list (hgap : Blank gap) (hgap' : Blank gap')
    (hstarts : ∀ rest, StartsItem (text ++ rest)) (hitems : ReadsItems k [] v text) :
    ReadAs (k + 1) v (gap ++ '[' :: (gap' ++ text)) := by
  apply readAs_of_head hgap
  intro steps rest hsteps _
  rw [List.length_append] at hsteps
  rw [List.append_assoc, readValue, dropGap_cons rfl]
  simp only [listStart_next hgap' (hstarts rest)]
  exact hitems steps rest (by omega)

theorem readAs_emptyObject (hgap : Blank gap) (hgap' : Blank gap') :
    ReadAs (k + 1) (.object []) (gap ++ '{' :: (gap' ++ ['}'])) := by
  apply readAs_of_head hgap
  intro steps rest _ _
  rw [List.append_assoc, readValue, dropGap_cons rfl]
  simp only [List.singleton_append, objectStart, hgap'.dropGap, dropGap_cons (c := '}') rfl]

theorem readAs_scalar (hgap : Blank gap) (hc : isGap c = false)
    (h : TakesOff EndsNumeral (readScalar c) cs v rest) :
    ∃ text, c :: cs = text ++ rest ∧ ReadAs k v (gap ++ text) := by
  obtain ⟨text, rfl, hread⟩ := h
  have hlist : c ≠ '[' := by
    rintro rfl
    cases hread [] endsNumeral_nil
  have hobject : c ≠ '{' := by
    rintro rfl
    cases hread [] endsNumeral_nil
  refine ⟨c :: text, rfl, readAs_of_head hgap fun steps rest' _ hrest' => ?_⟩
  rw [readValue_scalar hc hlist hobject]
  exact hread rest' hrest'

/-- One step of the reader takes off a text of its own, if those under it do. -/
structure Local (steps : Nat) : Prop where
  value : ∀ {k cs v rest}, readValue steps k cs = .ok (v, rest) →
    ∃ text, cs = text ++ rest ∧ ReadAs k v text
  items : ∀ {k done cs v rest}, readItems steps k done cs = .ok (v, rest) →
    ∃ text, text ≠ [] ∧ cs = text ++ rest ∧ ReadsItems k done v text
  members : ∀ {k done cs v rest}, readMembers steps k done cs = .ok (v, rest) →
    ∃ ms text, cs = text ++ rest ∧ v = .object (done.putAll ms) ∧ WritesMembers (ReadAs k) ms text

theorem Local.value_succ (hlocal : Local steps) (h : readValue (steps + 1) k cs = .ok (v, rest)) :
    ∃ text, cs = text ++ rest ∧ ReadAs k v text := by
  rcases readValue_cases h with
    ⟨k, rest₁, onward, rfl, hbracket, hstart, hgoes⟩ |
    ⟨k, rest₁, onward, rfl, hbrace, hstart, hgoes⟩ | ⟨c, rest₁, hscalar, hread⟩
  · obtain ⟨gap, hgap, rfl⟩ := eq_of_dropGap hbracket
    obtain ⟨gap', hgap', hcases⟩ := listStart_cases hstart
    rcases hgoes with ⟨rfl, rfl⟩ | ⟨rest₂, rfl, hitems⟩
    · rcases hcases with ⟨_, heq, rfl⟩ | ⟨_, heq, _⟩
      · cases heq
        exact ⟨_, by simp, readAs_emptyList hgap hgap'⟩
      · cases heq
    · rcases hcases with ⟨_, heq, _⟩ | ⟨_, heq, rfl, hstarts⟩
      · cases heq
      · cases heq
        obtain ⟨text, hne, rfl, hread⟩ := hlocal.items hitems
        exact ⟨_, by simp, readAs_list hgap hgap' (fun _ => hstarts.append hne) hread⟩
  · obtain ⟨gap, hgap, rfl⟩ := eq_of_dropGap hbrace
    obtain ⟨gap', hgap', hcases⟩ := objectStart_cases hstart
    rcases hgoes with ⟨rfl, rfl⟩ | ⟨rest₂, rfl, hmembers⟩
    · rcases hcases with ⟨_, heq, rfl⟩ | ⟨_, heq, _⟩
      · cases heq
        exact ⟨_, by simp, readAs_emptyObject hgap hgap'⟩
      · cases heq
    · rcases hcases with ⟨_, heq, _⟩ | ⟨_, heq, rfl⟩
      · cases heq
      · cases heq
        obtain ⟨ms, text, rfl, rfl, hwrites⟩ := hlocal.members hmembers
        exact ⟨_, by simp, WritesObject.readAs (.intro ms gap gap' text hgap hgap' hwrites)⟩
  · obtain ⟨gap, hgap, rfl⟩ := eq_of_dropGap hscalar
    obtain ⟨text, heq, hreads⟩ :=
      readAs_scalar hgap (isGap_of_dropGap hscalar) (takesOff_readScalar hread)
    exact ⟨gap ++ text, by rw [heq, List.append_assoc], hreads⟩

theorem Local.items_succ (hlocal : Local steps)
    (h : readItems (steps + 1) k done cs = .ok (v, rest)) :
    ∃ text, text ≠ [] ∧ cs = text ++ rest ∧ ReadsItems k done v text := by
  obtain ⟨x, rest₁, onward, hvalue, honward, hgoes⟩ := readItems_cases h
  obtain ⟨text, rfl, hread⟩ := hlocal.value hvalue
  have hne : ∀ texts, text ++ texts ≠ [] :=
    fun texts hnil => hread.ne_nil (List.append_eq_nil_iff.mp hnil).1
  obtain ⟨gap, hgap, hcases⟩ := listOnward_cases honward
  rcases hgoes with ⟨rfl, rfl⟩ | ⟨rest₂, rfl, hitems⟩
  · rcases hcases with ⟨_, heq, rfl⟩ | ⟨_, _, _, heq, _⟩
    · cases heq
      exact ⟨_, hne _, by simp, readsItems_last hread hgap⟩
    · cases heq
  · rcases hcases with ⟨_, heq, _⟩ | ⟨gap', _, hgap', heq, rfl, hstarts⟩
    · cases heq
    · cases heq
      obtain ⟨texts, htexts, rfl, hreads⟩ := hlocal.items hitems
      exact ⟨_, hne _, by simp,
        readsItems_more hread hgap hgap' (fun _ => hstarts.append htexts) hreads⟩

theorem Local.members_succ (hlocal : Local steps) {done : Members}
    (h : readMembers (steps + 1) k done cs = .ok (v, rest)) :
    ∃ ms text, cs = text ++ rest ∧ v = .object (done.putAll ms) ∧
      WritesMembers (ReadAs k) ms text := by
  obtain ⟨name, x, rest₁, rest₂, rest₃, onward, hname, hcolon, hvalue, honward, hgoes⟩ :=
    readMembers_cases h
  obtain ⟨nameText, rfl, hspells⟩ := spellsName_of_readString hname
  obtain ⟨gap, hgap, rfl⟩ := eq_of_readColon hcolon
  obtain ⟨text, rfl, hread⟩ := hlocal.value hvalue
  obtain ⟨after, hafter, hcases⟩ := objectOnward_cases honward
  have hmember : WritesMember (ReadAs k) (name, x) (nameText ++ (gap ++ ':' :: (text ++ after))) :=
    .intro name x nameText gap text after hspells hgap hread hafter
  rcases hgoes with ⟨rfl, rfl⟩ | ⟨rest₄, rfl, hmembers⟩
  · rcases hcases with ⟨_, heq, rfl⟩ | ⟨_, _, _, heq, _⟩
    · cases heq
      exact ⟨_, _, by simp, rfl, .last _ _ hmember⟩
    · cases heq
  · rcases hcases with ⟨_, heq, _⟩ | ⟨gap', _, hgap', heq, rfl⟩
    · cases heq
    · cases heq
      obtain ⟨ms, texts, rfl, rfl, hwrites⟩ := hlocal.members hmembers
      exact ⟨_, _, by simp, rfl, .more _ ms _ gap' texts hmember hgap' hwrites⟩

theorem isLocal (steps : Nat) : Local steps := by
  induction steps with
  | zero =>
      constructor
      · intro k cs v rest h
        cases h
      · intro k done cs v rest h
        cases h
      · intro k done cs v rest h
        cases h
  | succ steps ih => exact ⟨ih.value_succ, ih.items_succ, ih.members_succ⟩

/-- The reader takes a value off a text of its own. -/
theorem exists_readAs (h : readValue steps k cs = .ok (v, rest)) :
    ∃ text, cs = text ++ rest ∧ ReadAs k v text :=
  (isLocal steps).value h

/-- Every text that is read as a document writes it. -/
theorem exists_readAs_of_parse {body : String} (h : parse body = .ok v) :
    ∃ text after, ReadAs maxLevels v text ∧ Blank after ∧ body.toList = text ++ after := by
  obtain ⟨rest, hread, hrest⟩ := read_of_parse h
  obtain ⟨text, hbody, hreads⟩ := exists_readAs hread
  obtain ⟨gap, hgap, hgaps⟩ := eq_of_dropGap hrest
  rw [List.append_nil] at hgaps
  rw [hgaps] at hbody
  exact ⟨text, gap, hreads, hgap, hbody⟩

end BuildHooks.Json
