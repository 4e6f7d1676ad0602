import BuildHooks.Proofs.Text.Utf8

/-! The two ways to write a byte in a path: as it is, or escaped by a percent sign and two hexadecimal
digits. Some bytes written in these ways are read as those bytes, whichever way was taken for which of
them. What a path stands for is settled by its first bytes and then by those after them, so no byte that
was escaped is looked at again. A percent sign without two digits after it stands for itself. -/

namespace BuildHooks.Text

namespace Percent

/-- The byte is the hexadecimal digit of that value, in either case. -/
inductive HexDigit : UInt8 → UInt8 → Prop
  | decimal {v : UInt8} (hv : v < 10) : HexDigit (0x30 + v) v
  | upper {v : UInt8} (hv : v < 6) : HexDigit (0x41 + v) (10 + v)
  | lower {v : UInt8} (hv : v < 6) : HexDigit (0x61 + v) (10 + v)

/-- These bytes start with two hexadecimal digits. -/
def StartsWithHex (bs : List UInt8) : Prop :=
  ∃ high low rest h l, bs = high :: low :: rest ∧ HexDigit high h ∧ HexDigit low l

/-- How some bytes are written in a path. Every percent sign is escaped, and so may be any other byte. -/
inductive Writes : List UInt8 → List UInt8 → Prop
  | nil : Writes [] []
  | plain {b : UInt8} {written bs : List UInt8} (hb : b ≠ 0x25) (hrest : Writes written bs) :
      Writes (b :: written) (b :: bs)
  | escaped {high low h l : UInt8} {written bs : List UInt8} (hhigh : HexDigit high h)
      (hlow : HexDigit low l) (hrest : Writes written bs) :
      Writes (0x25 :: high :: low :: written) ((h * 16 + l) :: bs)

/-- What the bytes of any path stand for. It may hold percent signs that escape nothing. -/
inductive Stands : List UInt8 → List UInt8 → Prop
  | nil : Stands [] []
  | plain {b : UInt8} {written bs : List UInt8} (hb : b ≠ 0x25) (hrest : Stands written bs) :
      Stands (b :: written) (b :: bs)
  | escaped {high low h l : UInt8} {written bs : List UInt8} (hhigh : HexDigit high h)
      (hlow : HexDigit low l) (hrest : Stands written bs) :
      Stands (0x25 :: high :: low :: written) ((h * 16 + l) :: bs)
  | stray {written bs : List UInt8} (hstray : ¬StartsWithHex written) (hrest : Stands written bs) :
      Stands (0x25 :: written) (0x25 :: bs)

/-- What a path is decoded to: the text whose bytes it stands for, and the path itself if they are the
bytes of no text. -/
def Decodes (path result : String) : Prop :=
  ∃ bs, Stands (Utf8.encode path.toList) bs ∧
    (bs = Utf8.encode result.toList ∨ (∀ cs, bs ≠ Utf8.encode cs) ∧ result = path)

/-- The path is a way to write the text. -/
def WritesText (written text : String) : Prop :=
  Writes (Utf8.encode written.toList) (Utf8.encode text.toList)

/-! ### Digits -/

theorem hexValue?_eq_some_iff {b v : UInt8} : hexValue? b = some v ↔ HexDigit b v := by
  constructor
  · intro h
    unfold hexValue? at h
    simp only [Bool.and_eq_true, decide_eq_true_eq] at h
    split_ifs at h with hdecimal hlower hupper
    · cases h
      have hb : b = 0x30 + (b - 0x30) := by grind
      have hdigit := HexDigit.decimal (v := b - 0x30) (by grind)
      rwa [← hb] at hdigit
    · cases h
      have hb : b = 0x61 + (b - 0x61) := by grind
      have hdigit := HexDigit.lower (v := b - 0x61) (by grind)
      rwa [← hb, UInt8.add_comm 10] at hdigit
    · cases h
      have hb : b = 0x41 + (b - 0x41) := by grind
      have hdigit := HexDigit.upper (v := b - 0x41) (by grind)
      rwa [← hb, UInt8.add_comm 10] at hdigit
  · intro h
    cases h with
    | decimal hv =>
        have hrange : (0x30 : UInt8) ≤ 0x30 + v ∧ 0x30 + v ≤ 0x39 := by grind
        have hvalue : 0x30 + v - 0x30 = v := by grind
        rw [hexValue?, if_pos (by simp [hrange]), hvalue]
    | @upper w hv =>
        have hdecimal : ¬0x41 + w ≤ 0x39 := by grind
        have hlower : ¬0x61 ≤ 0x41 + w := by grind
        have hrange : 0x41 ≤ 0x41 + w ∧ 0x41 + w ≤ 0x46 := by grind
        have hvalue : 0x41 + w - 0x41 + 10 = 10 + w := by grind
        rw [hexValue?, if_neg (by simp [hdecimal]), if_neg (by simp [hlower]), if_pos (by simp [hrange]),
          hvalue]
    | @lower w hv =>
        have hdecimal : ¬0x61 + w ≤ 0x39 := by grind
        have hrange : 0x61 ≤ 0x61 + w ∧ 0x61 + w ≤ 0x66 := by grind
        have hvalue : 0x61 + w - 0x61 + 10 = 10 + w := by grind
        rw [hexValue?, if_neg (by simp [hdecimal]), if_pos (by simp [hrange]), hvalue]

theorem escaped?_eq_some_iff {high low b : UInt8} :
    escaped? high low = some b ↔ ∃ h l, HexDigit high h ∧ HexDigit low l ∧ b = h * 16 + l := by
  simp only [← hexValue?_eq_some_iff]
  unfold escaped?
  cases hexValue? high with
  | none => simp
  | some h =>
      cases hexValue? low with
      | none => simp
      | some l => simp [eq_comm]

/-! ### What the bytes of a path stand for -/

theorem unescape_plain {b : UInt8} (hb : b ≠ 0x25) (rest : List UInt8) :
    unescape (b :: rest) = b :: unescape rest := by
  unfold unescape
  rw [unescapeFrom_cons _ fun _ _ _ h => absurd h hb, unescapeFrom_eq]
  rfl

theorem unescape_escaped {high low h l : UInt8} (hhigh : HexDigit high h) (hlow : HexDigit low l)
    (rest : List UInt8) : unescape (0x25 :: high :: low :: rest) = (h * 16 + l) :: unescape rest := by
  have hescaped := escaped?_eq_some_iff.mpr ⟨h, l, hhigh, hlow, rfl⟩
  unfold unescape
  rw [unescapeFrom, hescaped]
  exact unescapeFrom_eq _ _

theorem unescape_stray {rest : List UInt8} (h : ¬StartsWithHex rest) :
    unescape (0x25 :: rest) = 0x25 :: unescape rest := by
  match rest with
  | [] => rfl
  | [b] =>
      unfold unescape
      rw [unescapeFrom_cons _ fun _ _ _ _ h => absurd h (by simp), unescapeFrom_eq]
      rfl
  | high :: low :: rest =>
      cases hescaped : escaped? high low with
      | some b =>
          obtain ⟨h', l', hhigh, hlow, _⟩ := escaped?_eq_some_iff.mp hescaped
          exact absurd ⟨high, low, rest, h', l', rfl, hhigh, hlow⟩ h
      | none =>
          unfold unescape
          rw [unescapeFrom, hescaped]
          exact unescapeFrom_eq _ _

theorem Stands.unescape_eq {written bs : List UInt8} (h : Stands written bs) :
    unescape written = bs := by
  induction h with
  | nil => rfl
  | plain hb _ ih => rw [unescape_plain hb, ih]
  | escaped hhigh hlow _ ih => rw [unescape_escaped hhigh hlow, ih]
  | stray hstray _ ih => rw [unescape_stray hstray, ih]

theorem stands_unescape (written : List UInt8) : Stands written (unescape written) := by
  induction hn : written.length using Nat.strongRecOn generalizing written with
  | ind n ih =>
      cases written with
      | nil => exact .nil
      | cons b rest =>
          rw [List.length_cons] at hn
          have hrest : Stands rest (unescape rest) := ih rest.length (by omega) rest rfl
          by_cases hb : b = 0x25
          · subst hb
            by_cases hhex : StartsWithHex rest
            · obtain ⟨high, low, more, h, l, rfl, hhigh, hlow⟩ := hhex
              rw [unescape_escaped hhigh hlow]
              simp only [List.length_cons] at hn
              exact .escaped hhigh hlow (ih more.length (by omega) more rfl)
            · rw [unescape_stray hhex]
              exact .stray hhex hrest
          · rw [unescape_plain hb]
            exact .plain hb hrest

/-- The bytes of a path stand for one list of bytes, and it is the one that is read. -/
theorem unescape_eq_iff {written bs : List UInt8} : unescape written = bs ↔ Stands written bs :=
  ⟨fun h => h ▸ stands_unescape written, Stands.unescape_eq⟩

theorem Writes.stands {written bs : List UInt8} (h : Writes written bs) : Stands written bs := by
  induction h with
  | nil => exact .nil
  | plain hb _ ih => exact .plain hb ih
  | escaped hhigh hlow _ ih => exact .escaped hhigh hlow ih

theorem Writes.append {written bs more cs : List UInt8} (h : Writes written bs)
    (hmore : Writes more cs) : Writes (written ++ more) (bs ++ cs) := by
  induction h with
  | nil => exact hmore
  | plain hb _ ih => exact .plain hb ih
  | escaped hhigh hlow _ ih => exact .escaped hhigh hlow ih

/-- Bytes without a percent sign may be written as they are. -/
theorem writes_self {bs : List UInt8} (h : 0x25 ∉ bs) : Writes bs bs := by
  induction bs with
  | nil => exact .nil
  | cons b bs ih =>
      rw [List.mem_cons, not_or] at h
      exact .plain (Ne.symm h.1) (ih h.2)

/-! ### What a path is decoded to -/

theorem decodePath_eq_iff {path result : String} :
    decodePath path = result ↔ Decodes path result := by
  have hread : Decodes path result ↔
      (unescape (Utf8.encode path.toList) = Utf8.encode result.toList ∨
        (∀ cs, unescape (Utf8.encode path.toList) ≠ Utf8.encode cs) ∧ result = path) := by
    unfold Decodes
    simp only [← unescape_eq_iff, exists_eq_left']
  rw [hread]
  unfold decodePath
  cases hdecoded : Utf8.decode? (unescape (Utf8.encode path.toList)) with
  | some cs =>
      have hcs := Utf8.decode?_eq_some_iff.mp hdecoded
      simp only
      constructor
      · rintro rfl
        rw [String.toList_ofList]
        exact .inl hcs
      · rintro (hresult | ⟨hnone, _⟩)
        · have hsame := Utf8.decode?_eq_some_iff.mpr hresult
          rw [hdecoded] at hsame
          cases hsame
          exact String.ofList_toList
        · exact absurd hcs (hnone cs)
  | none =>
      have hnone : ∀ cs, unescape (Utf8.encode path.toList) ≠ Utf8.encode cs := by
        intro cs hcs
        rw [Utf8.decode?_eq_some_iff.mpr hcs] at hdecoded
        cases hdecoded
      constructor
      · intro h
        exact .inr ⟨hnone, h.symm⟩
      · rintro (hresult | ⟨_, hsame⟩)
        · exact absurd hresult (hnone _)
        · exact hsame.symm

/-- However a text is written, it is what the path is decoded to. -/
theorem WritesText.decodePath_eq {written text : String} (h : WritesText written text) :
    decodePath written = text :=
  decodePath_eq_iff.mpr ⟨_, h.stands, .inl rfl⟩

theorem WritesText.append {written text more last : String} (h : WritesText written text)
    (hmore : WritesText more last) : WritesText (written ++ more) (text ++ last) := by
  unfold WritesText
  rw [String.toList_append, String.toList_append, Utf8.encode_append, Utf8.encode_append]
  exact Writes.append h hmore

theorem eq_percent_of_mem_encode {c : Char} (h : 0x25 ∈ String.utf8EncodeChar c) : c = '%' := by
  have hvalue : c.val.toNat = 0x25 := by
    have hlt : c.val.toNat < 0x110000 := c.valid.elim (fun h => by omega) And.right
    have hbyte : (0x25 : UInt8).toNat = 0x25 := rfl
    simp only [String.utf8EncodeChar] at h
    generalize c.val.toNat = v at h hlt
    -- the bytes of a character that has several are none of ASCII
    split_ifs at h
    all_goals
      simp only [List.mem_cons, List.not_mem_nil, or_false, ← UInt8.toNat_inj, UInt8.toNat_ofNat',
        hbyte] at h
      omega
  exact Char.toNat_inj.mp hvalue

theorem percent_notMem_encode {cs : List Char} (h : '%' ∉ cs) : 0x25 ∉ Utf8.encode cs := by
  intro hmem
  obtain ⟨c, hc, hbyte⟩ := List.mem_flatMap.mp hmem
  exact h (eq_percent_of_mem_encode hbyte ▸ hc)

/-- A text without a percent sign may be written as it is. -/
theorem writesText_self {text : String} (h : '%' ∉ text.toList) : WritesText text text :=
  writes_self (percent_notMem_encode h)

end Percent

end BuildHooks.Text
