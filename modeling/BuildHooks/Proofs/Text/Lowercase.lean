import Mathlib.Data.Bool.AllAny
import BuildHooks.Text.Blank
import BuildHooks.Text.Lowercase

/-! What lower-casing brings together and what it keeps apart. Texts that are the same up to the case of
ASCII letters have one lower-case form, also next to a sigma, whose form hangs on its neighbours. A
character past ASCII never becomes one of ASCII, but for the Kelvin sign, which becomes a k. So a text in
ASCII without a k has no other spellings than those in another case, and neither slashes nor blanks come
or go. -/

namespace BuildHooks.Text

/-- Lower-cases the rest of a text after the characters `before`, nearest first. -/
def lowerAll (before : List Char) : List Char → List Char
  | [] => []
  | c :: after => lowerAt before c after ++ lowerAll (c :: before) after

theorem lowerFrom_eq (before done cs : List Char) :
    lowerFrom before done cs = done.reverse ++ lowerAll before cs := by
  induction cs generalizing before done with
  | nil => rw [lowerFrom, lowerAll, List.append_nil]
  | cons c cs ih =>
      rw [lowerFrom, ih, lowerAll, List.reverse_append, List.reverse_reverse, List.append_assoc]

theorem toList_lowercase (s : String) : (lowercase s).toList = lowerAll [] s.toList := by
  rw [lowercase, String.toList_ofList, lowerFrom_eq]
  rfl

/-! ### The case of ASCII letters -/

/-- The capital letters of ASCII. -/
def capitals : List Char :=
  "ABCDEFGHIJKLMNOPQRSTUVWXYZ".toList

theorem toLower_cases (c : Char) : c.toLower = c ∨ c ∈ capitals := by
  have hcapitals : ∀ n < 91, 65 ≤ n → Char.ofNat n ∈ capitals := by decide
  unfold Char.toLower
  split
  · next h =>
    have hlow : 65 ≤ c.toNat := h.1
    have hhigh : c.toNat ≤ 90 := h.2
    have hmem := hcapitals c.toNat (by omega) hlow
    rw [Char.ofNat_toNat] at hmem
    exact .inr hmem
  · exact .inl rfl

/-- What does not change when a capital is made small does not change for any character. -/
theorem apply_toLower {α : Type} {f : Char → α} (hf : ∀ c ∈ capitals, f c.toLower = f c) (c : Char) :
    f c.toLower = f c := by
  rcases toLower_cases c with h | h
  · rw [h]
  · exact hf c h

-- What is checked of each capital goes by `List.all`, since `∀ c ∈ capitals` as it stands would be
-- decided over all characters.
theorem toLower_lt_iff (c : Char) : c.toLower.toNat < 0x80 ↔ c.toNat < 0x80 := by
  have hcapitals : ∀ c ∈ capitals, decide (c.toLower.toNat < 0x80) = decide (c.toNat < 0x80) :=
    List.all_iff_forall_prop.mp (by decide)
  exact decide_eq_decide.mp (apply_toLower (f := fun c => decide (c.toNat < 0x80)) hcapitals c)

theorem toLower_toLower (c : Char) : c.toLower.toLower = c.toLower :=
  apply_toLower (f := Char.toLower) (List.all_iff_forall_prop.mp (by decide)) c

theorem isCased_toLower (c : Char) : isCased c.toLower = isCased c :=
  apply_toLower (List.all_iff_forall_prop.mp (by decide)) c

/-- No letter of ASCII is skipped. -/
theorem letters_of_mem_caseIgnorableRanges : ∀ r ∈ caseIgnorableRanges,
    r.2 < 0x41 ∨ 0x5A < r.1 ∧ r.2 < 0x61 ∨ 0x7A < r.1 := by
  decide +kernel

theorem isCaseIgnorable_of_letter {c : Char}
    (h : 0x41 ≤ c.toNat ∧ c.toNat ≤ 0x5A ∨ 0x61 ≤ c.toNat ∧ c.toNat ≤ 0x7A) :
    isCaseIgnorable c = false := by
  refine List.any_eq_false.mpr fun r hr => ?_
  have hletters := letters_of_mem_caseIgnorableRanges r hr
  rw [Bool.and_eq_true, decide_eq_true_eq, decide_eq_true_eq]
  omega

theorem isCaseIgnorable_toLower (c : Char) : isCaseIgnorable c.toLower = isCaseIgnorable c := by
  have hletter : ∀ c ∈ capitals, (0x41 ≤ c.toNat ∧ c.toNat ≤ 0x5A) ∧
      0x61 ≤ c.toLower.toNat ∧ c.toLower.toNat ≤ 0x7A := List.all_iff_forall_prop.mp (by decide)
  refine apply_toLower (fun c hc => ?_) c
  obtain ⟨hcapital, hsmall⟩ := hletter c hc
  rw [isCaseIgnorable_of_letter (.inl hcapital), isCaseIgnorable_of_letter (.inr hsmall)]

theorem isBlank_toLower (c : Char) : isBlank c.toLower = isBlank c :=
  apply_toLower (List.all_iff_forall_prop.mp (by decide)) c

theorem toLower_of_nonAscii {c : Char} (hc : ¬c.toNat < 0x80) : c.toLower = c := by
  have hcapitals : ∀ c ∈ capitals, c.toNat < 0x80 := List.all_iff_forall_prop.mp (by decide)
  rcases toLower_cases c with h | h
  · exact h
  · exact absurd (hcapitals c h) hc

theorem toLower_eq_slash_iff (c : Char) : c.toLower = '/' ↔ c = '/' := by
  have hcapitals : ∀ c ∈ capitals, decide (c.toLower = '/') = decide (c = '/') :=
    List.all_iff_forall_prop.mp (by decide)
  exact decide_eq_decide.mp (apply_toLower (f := fun c => decide (c = '/')) hcapitals c)

theorem startsCased_map_toLower (cs : List Char) :
    startsCased (cs.map Char.toLower) = startsCased cs := by
  induction cs with
  | nil => rfl
  | cons c cs ih =>
      unfold startsCased at ih ⊢
      cases hc : isCaseIgnorable c with
      | true =>
          have hlower : isCaseIgnorable c.toLower = true := by rw [isCaseIgnorable_toLower, hc]
          rw [List.map_cons, List.dropWhile_cons_of_pos hlower, List.dropWhile_cons_of_pos hc, ih]
      | false =>
          have hlower : ¬isCaseIgnorable c.toLower = true := by simp [isCaseIgnorable_toLower, hc]
          rw [List.map_cons, List.dropWhile_cons_of_neg hlower,
            List.dropWhile_cons_of_neg (by simp [hc])]
          exact isCased_toLower c

/-- The case of ASCII letters decides nothing about the lower-case form of a character, be they before
it, after it or the character itself. -/
theorem lowerAt_map_toLower (before : List Char) (c : Char) (after : List Char) :
    lowerAt (before.map Char.toLower) c.toLower (after.map Char.toLower) = lowerAt before c after := by
  by_cases hc : c.toNat < 0x80
  · rw [lowerAt, if_pos ((toLower_lt_iff c).mpr hc), toLower_toLower, lowerAt, if_pos hc]
  · rw [toLower_of_nonAscii hc]
    unfold lowerAt
    rw [startsCased_map_toLower, startsCased_map_toLower]

theorem lowerAll_map_toLower (before cs : List Char) :
    lowerAll (before.map Char.toLower) (cs.map Char.toLower) = lowerAll before cs := by
  induction cs generalizing before with
  | nil => rfl
  | cons c cs ih =>
      rw [List.map_cons, lowerAll, lowerAt_map_toLower, lowerAll, ← ih]
      rfl

theorem lowercase_eq_of_same {s t : String} (h : sameIgnoringAsciiCase s.toList t.toList = true) :
    lowercase s = lowercase t := by
  have hmap : s.toList.map Char.toLower = t.toList.map Char.toLower := beq_iff_eq.mp h
  rw [← String.toList_inj, toList_lowercase, toList_lowercase, ← lowerAll_map_toLower, hmap,
    lowerAll_map_toLower]

theorem isAllBlank_eq_of_same {s t : String} (h : sameIgnoringAsciiCase s.toList t.toList = true) :
    isAllBlank s = isAllBlank t := by
  have hall : ∀ cs : List Char, (cs.map Char.toLower).all isBlank = cs.all isBlank := by
    intro cs
    rw [List.all_map]
    congr 1
    funext c
    exact isBlank_toLower c
  have hmap : s.toList.map Char.toLower = t.toList.map Char.toLower := beq_iff_eq.mp h
  rw [isAllBlank, ← hall, hmap, hall, isAllBlank]

theorem length_eq_of_same {cs ds : List Char} (h : sameIgnoringAsciiCase cs ds = true) :
    cs.length = ds.length := by
  have hmap : cs.map Char.toLower = ds.map Char.toLower := beq_iff_eq.mp h
  rw [← List.length_map Char.toLower, hmap, List.length_map]

/-- Texts that are the same up to the case of ASCII letters have as many bytes. -/
theorem utf8ByteSize_eq_of_same {s t : String} (h : sameIgnoringAsciiCase s.toList t.toList = true) :
    s.utf8ByteSize = t.utf8ByteSize := by
  have hcapitals : ∀ c ∈ capitals, c.toLower.utf8Size = c.utf8Size :=
    List.all_iff_forall_prop.mp (by decide)
  have hlower : ∀ cs : List Char,
      (String.ofList (cs.map Char.toLower)).utf8ByteSize = (String.ofList cs).utf8ByteSize := by
    intro cs
    induction cs with
    | nil => rfl
    | cons c cs ih =>
        rw [List.map_cons, String.ofList_cons, String.utf8ByteSize_append, ih,
          String.utf8ByteSize_singleton, apply_toLower hcapitals, String.ofList_cons,
          String.utf8ByteSize_append, String.utf8ByteSize_singleton]
  have hmap : s.toList.map Char.toLower = t.toList.map Char.toLower := beq_iff_eq.mp h
  rw [← String.ofList_toList (s := s), ← hlower, hmap, hlower, String.ofList_toList]

/-- What is the same as a text after a slash is such a text itself. -/
theorem same_cons_slash_iff {cs ds : List Char} :
    sameIgnoringAsciiCase cs ('/' :: ds) = true ↔
      ∃ es, cs = '/' :: es ∧ sameIgnoringAsciiCase es ds = true := by
  cases cs with
  | nil => simp [sameIgnoringAsciiCase]
  | cons c cs =>
      have hlower : '/'.toLower = '/' := by decide
      simp only [sameIgnoringAsciiCase, List.map_cons, hlower, beq_iff_eq, List.cons.injEq,
        toLower_eq_slash_iff]
      constructor
      · rintro ⟨rfl, hsame⟩
        exact ⟨cs, ⟨rfl, rfl⟩, hsame⟩
      · rintro ⟨_, ⟨hc, rfl⟩, hsame⟩
        exact ⟨hc, hsame⟩

/-! ### Characters past ASCII -/

/-- The one character past ASCII whose lower-case form is in ASCII. -/
def kelvin : Char := Char.ofNat 0x212A

/-- A run takes its capitals to characters. -/
theorem valid_of_mem_caseRuns : ∀ run ∈ caseRuns, 0 ≤ run.first + run.shift ∧
    (run.last + run.shift < 0xD800 ∨
      0xE000 ≤ run.first + run.shift ∧ run.last + run.shift < 0x110000) := by
  decide +kernel

/-- A run takes its capitals past ASCII to characters past ASCII, unless it is that of the Kelvin sign. -/
theorem past_of_mem_caseRuns : ∀ run ∈ caseRuns, run.last < 0x80 ∨ 0x80 ≤ run.first + run.shift ∨
    run.first = 0x212A ∧ run.last = 0x212A := by
  decide +kernel

/-- A character is left as it is, or is shifted by the run that it belongs to. -/
theorem lowerChar_cases (c : Char) : lowerChar c = c ∨
    ∃ run ∈ caseRuns, run.first ≤ c.toNat ∧ c.toNat ≤ run.last ∧
      ((lowerChar c).toNat : Int) = c.toNat + run.shift := by
  unfold lowerChar
  split
  · next run hrun =>
    have hmem := List.mem_of_find?_eq_some hrun
    have hcovers := List.find?_some hrun
    simp only [CaseRun.covers, Bool.and_eq_true, decide_eq_true_eq] at hcovers
    obtain ⟨⟨hfirst, hlast⟩, _⟩ := hcovers
    obtain ⟨hlow, hhigh⟩ := valid_of_mem_caseRuns run hmem
    have hvalid : (c.toNat + run.shift).toNat.isValidChar := by
      unfold Nat.isValidChar
      omega
    refine .inr ⟨run, hmem, hfirst, hlast, ?_⟩
    have hnat : (Char.ofNat (c.toNat + run.shift).toNat).toNat = (c.toNat + run.shift).toNat := by
      rw [Char.ofNat, dif_pos hvalid]
      rfl
    rw [hnat]
    omega
  · exact .inl rfl

theorem lowerChar_of_nonAscii {c : Char} (hc : ¬c.toNat < 0x80) (hkelvin : c ≠ kelvin) :
    ¬(lowerChar c).toNat < 0x80 := by
  rcases lowerChar_cases c with h | ⟨run, hmem, hfirst, hlast, h⟩
  · rwa [h]
  · rcases past_of_mem_caseRuns run hmem with hascii | hpast | ⟨hlow, hhigh⟩
    · omega
    · omega
    · have hcode : c.toNat = kelvin.toNat := by
        change c.toNat = 0x212A
        omega
      exact absurd (Char.toNat_inj.mp hcode) hkelvin

theorem lowerAt_of_ascii {c : Char} (hc : c.toNat < 0x80) (before after : List Char) :
    lowerAt before c after = [c.toLower] := by
  rw [lowerAt, if_pos hc]

/-- The lower-case form of a character past ASCII is one such character or a k, or else an i with its
dot. -/
theorem lowerAt_of_nonAscii {c : Char} (hc : ¬c.toNat < 0x80) (before after : List Char) :
    (∃ d, lowerAt before c after = [d] ∧ (¬d.toNat < 0x80 ∨ d = 'k')) ∨
      lowerAt before c after = ['i', Char.ofNat 0x307] := by
  unfold lowerAt
  rw [if_neg hc]
  split
  · split
    · exact .inl ⟨'ς', rfl, .inl (by decide)⟩
    · exact .inl ⟨'σ', rfl, .inl (by decide)⟩
  · split
    · exact .inr rfl
    · refine .inl ⟨_, rfl, ?_⟩
      by_cases hkelvin : c = kelvin
      · rw [hkelvin]
        exact .inr (by decide)
      · exact .inl (lowerChar_of_nonAscii hc hkelvin)

theorem lowerAll_of_ascii {cs : List Char} (hcs : ∀ c ∈ cs, c.toNat < 0x80) (before : List Char) :
    lowerAll before cs = cs.map Char.toLower := by
  induction cs generalizing before with
  | nil => rfl
  | cons c cs ih =>
      obtain ⟨hc, hrest⟩ := List.forall_mem_cons.mp hcs
      rw [lowerAll, lowerAt_of_ascii hc, ih hrest]
      rfl

/-- What lower-cases to a text in ASCII without a k is in ASCII itself. -/
theorem map_toLower_of_lowerAll {before cs ds : List Char} (h : lowerAll before cs = ds)
    (hds : ∀ d ∈ ds, d.toNat < 0x80 ∧ d ≠ 'k') : cs.map Char.toLower = ds := by
  induction cs generalizing before ds with
  | nil => exact h
  | cons c cs ih =>
      rw [lowerAll] at h
      by_cases hc : c.toNat < 0x80
      · rw [lowerAt_of_ascii hc] at h
        subst h
        obtain ⟨_, hrest⟩ := List.forall_mem_cons.mp hds
        rw [List.map_cons, ih rfl hrest]
        rfl
      · exfalso
        rcases lowerAt_of_nonAscii hc before cs with ⟨d, hd, hpast⟩ | hdotted
        · have hmem : d ∈ ds := by
            rw [← h, hd]
            exact List.mem_cons_self
          obtain ⟨hascii, hk⟩ := hds d hmem
          exact hpast.elim (fun hnot => hnot hascii) hk
        · have hmem : Char.ofNat 0x307 ∈ ds := by
            rw [← h, hdotted]
            exact List.mem_cons_of_mem _ List.mem_cons_self
          exact absurd (hds _ hmem).1 (by decide)

/-- A text in ASCII without a k has no other spellings than those in another case. -/
theorem lowercase_eq_iff {s t : String} (ht : ∀ c ∈ t.toList, c.toNat < 0x80 ∧ c.toLower ≠ 'k') :
    lowercase s = lowercase t ↔ sameIgnoringAsciiCase s.toList t.toList = true := by
  refine ⟨fun h => ?_, lowercase_eq_of_same⟩
  have hforms : lowerAll [] s.toList = t.toList.map Char.toLower := by
    rw [← lowerAll_of_ascii (fun c hc => (ht c hc).1), ← toList_lowercase, ← toList_lowercase, h]
  refine beq_iff_eq.mpr (map_toLower_of_lowerAll hforms fun d hd => ?_)
  obtain ⟨c, hc, rfl⟩ := List.mem_map.mp hd
  obtain ⟨hascii, hk⟩ := ht c hc
  exact ⟨(toLower_lt_iff c).mpr hascii, hk⟩

/-! ### Slashes and blanks -/

theorem slash_mem_lowerAt_iff (before : List Char) (c : Char) (after : List Char) :
    '/' ∈ lowerAt before c after ↔ c = '/' := by
  by_cases hc : c.toNat < 0x80
  · rw [lowerAt_of_ascii hc, List.mem_singleton, eq_comm, toLower_eq_slash_iff]
  · refine iff_of_false (fun hmem => ?_) fun h => hc (by rw [h]; decide)
    rcases lowerAt_of_nonAscii hc before after with ⟨d, hd, hpast⟩ | hdotted
    · rw [hd, List.mem_singleton] at hmem
      subst hmem
      revert hpast
      decide
    · rw [hdotted] at hmem
      revert hmem
      decide

theorem slash_mem_lowercase_iff (s : String) : '/' ∈ (lowercase s).toList ↔ '/' ∈ s.toList := by
  have hall : ∀ before cs, '/' ∈ lowerAll before cs ↔ '/' ∈ cs := by
    intro before cs
    induction cs generalizing before with
    | nil => rfl
    | cons c cs ih =>
        rw [lowerAll, List.mem_append, slash_mem_lowerAt_iff, ih, List.mem_cons, eq_comm]
  rw [toList_lowercase, hall]

/-- The code points of the blank characters, in ranges. -/
def blankRanges : List (Nat × Nat) :=
  [(9, 13), (0x20, 0x20), (0x85, 0x85), (0xA0, 0xA0), (0x1680, 0x1680), (0x2000, 0x200A),
   (0x2028, 0x2029), (0x202F, 0x202F), (0x205F, 0x205F), (0x3000, 0x3000)]

theorem mem_blankRanges {c : Char} (hc : isBlank c = true) :
    ∃ r ∈ blankRanges, r.1 ≤ c.toNat ∧ c.toNat ≤ r.2 := by
  have hranges : inRanges blankRanges c.toNat = isBlank c := by
    rw [Bool.eq_iff_iff]
    simp only [inRanges, blankRanges, isBlank, List.any_cons, List.any_nil, Bool.or_false,
      Bool.or_eq_true, Bool.and_eq_true, decide_eq_true_eq, beq_iff_eq]
    omega
  rw [← hranges] at hc
  obtain ⟨r, hr, hin⟩ := List.any_eq_true.mp hc
  rw [Bool.and_eq_true, decide_eq_true_eq, decide_eq_true_eq] at hin
  exact ⟨r, hr, hin⟩

/-- No run starts from blanks or leads to them. -/
theorem blank_of_mem_caseRuns : ∀ run ∈ caseRuns, ∀ r ∈ blankRanges,
    (r.2 < run.first ∨ run.last < r.1) ∧
      ((r.2 : Int) < run.first + run.shift ∨ run.last + run.shift < (r.1 : Int)) := by
  decide +kernel

theorem isBlank_lowerChar (c : Char) : isBlank (lowerChar c) = isBlank c := by
  rcases lowerChar_cases c with h | ⟨run, hmem, hfirst, hlast, h⟩
  · rw [h]
  · have hc : isBlank c = false := by
      rw [Bool.eq_false_iff]
      intro hblank
      obtain ⟨r, hr, hin⟩ := mem_blankRanges hblank
      have hapart := (blank_of_mem_caseRuns run hmem r hr).1
      omega
    have hlower : isBlank (lowerChar c) = false := by
      rw [Bool.eq_false_iff]
      intro hblank
      obtain ⟨r, hr, hin⟩ := mem_blankRanges hblank
      have hapart := (blank_of_mem_caseRuns run hmem r hr).2
      omega
    rw [hc, hlower]

theorem all_isBlank_lowerAt (before : List Char) (c : Char) (after : List Char) :
    (lowerAt before c after).all isBlank = isBlank c := by
  unfold lowerAt
  split
  · rw [List.all_cons, isBlank_toLower, List.all_nil, Bool.and_true]
  · split
    · next hsigma =>
      rw [hsigma]
      split <;> decide
    · split
      · next hdotted =>
        rw [hdotted]
        decide
      · rw [List.all_cons, isBlank_lowerChar, List.all_nil, Bool.and_true]

theorem isAllBlank_lowercase (s : String) : isAllBlank (lowercase s) = isAllBlank s := by
  have hall : ∀ before cs, (lowerAll before cs).all isBlank = cs.all isBlank := by
    intro before cs
    induction cs generalizing before with
    | nil => rfl
    | cons c cs ih => rw [lowerAll, List.all_append, all_isBlank_lowerAt, ih, List.all_cons]
  rw [isAllBlank, toList_lowercase, hall, isAllBlank]

end BuildHooks.Text
