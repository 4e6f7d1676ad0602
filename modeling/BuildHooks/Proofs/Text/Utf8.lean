import BuildHooks.Proofs.Text.Percent

/-! UTF-8 both ways. The pieces of some bytes are characters exactly if the bytes are how a text is encoded,
and then they are the characters of that text: none has two spellings. -/

namespace BuildHooks.Text.Utf8

variable {b : UInt8} {bs rest : List UInt8} {c : Char} {cs : List Char} {value : Nat}

/-! ### What a first byte announces, by the number of bytes -/

theorem piece_two (hb : 0xC2 ≤ b.toNat ∧ b.toNat < 0xE0) (bs : List UInt8) :
    piece b bs = follow [continuation] (b.toNat - 0xC0) bs := by
  unfold piece lead?
  simp only
  rw [if_neg (by omega), if_neg (by omega), if_pos hb.2]

theorem piece_three (hb : 0xE0 ≤ b.toNat ∧ b.toNat < 0xF0) (bs : List UInt8) :
    piece b bs = follow [(if b.toNat = 0xE0 then 0xA0 else 0x80, if b.toNat = 0xED then 0x9F else 0xBF),
      continuation] (b.toNat - 0xE0) bs := by
  unfold piece lead?
  simp only
  rw [if_neg (by omega), if_neg (by omega), if_neg (by omega)]
  by_cases hleast : b.toNat = 0xE0
  · simp [hleast, continuation]
  · by_cases hsurrogates : b.toNat = 0xED
    · simp [hsurrogates]
    · rw [if_neg hleast, if_neg hsurrogates, if_pos hb.2, if_neg hleast, if_neg hsurrogates]
      rfl

theorem piece_four (hb : 0xF0 ≤ b.toNat ∧ b.toNat < 0xF5) (bs : List UInt8) :
    piece b bs = follow [(if b.toNat = 0xF0 then 0x90 else 0x80, if b.toNat = 0xF4 then 0x8F else 0xBF),
      continuation, continuation] (b.toNat - 0xF0) bs := by
  unfold piece lead?
  simp only
  rw [if_neg (by omega), if_neg (by omega), if_neg (by omega), if_neg (by omega), if_neg (by omega),
    if_neg (by omega)]
  by_cases hleast : b.toNat = 0xF0
  · simp [hleast, continuation]
  · by_cases hgreatest : b.toNat = 0xF4
    · simp [hgreatest]
    · rw [if_neg hleast, if_pos (by omega), if_neg hleast, if_neg hgreatest]
      rfl

theorem piece_none (hb : 0x80 ≤ b.toNat ∧ b.toNat < 0xC2 ∨ 0xF5 ≤ b.toNat) (bs : List UInt8) :
    piece b bs = (none, bs) := by
  unfold piece lead?
  simp only
  rw [if_neg (by omega)]
  rcases hb with hb | hb
  · rw [if_pos hb.2]
  · rw [if_neg (by omega), if_neg (by omega), if_neg (by omega), if_neg (by omega), if_neg (by omega),
      if_neg (by omega), if_neg (by omega), if_neg (by omega)]

/-! ### A character and its bytes -/

theorem follow_nil_eq_some_iff :
    follow [] value bs = (some c, rest) ↔ Char.ofNat value = c ∧ bs = rest := by
  rw [follow, Prod.mk.injEq, Option.some.injEq]

theorem follow_cons_eq_some_iff {r : Nat × Nat} {ranges : List (Nat × Nat)} :
    follow (r :: ranges) value bs = (some c, rest) ↔
      ∃ x more, bs = x :: more ∧ (r.1 ≤ x.toNat ∧ x.toNat ≤ r.2) ∧
        follow ranges (value * 64 + x.toNat % 64) more = (some c, rest) := by
  cases bs with
  | nil => simp [follow]
  | cons x more =>
      have hin : (r.1 ≤ x.toNat && x.toNat ≤ r.2) = true ↔ r.1 ≤ x.toNat ∧ x.toNat ≤ r.2 := by
        rw [Bool.and_eq_true, decide_eq_true_eq, decide_eq_true_eq]
      rw [follow]
      constructor
      · intro h
        split at h
        · next hrange => exact ⟨x, more, rfl, hin.mp hrange, h⟩
        · cases h
      · rintro ⟨_, _, hbs, hrange, h⟩
        cases hbs
        rw [if_pos (hin.mpr hrange), h]

theorem val_ofNat {n : Nat} (h : n.isValidChar) : (Char.ofNat n).val.toNat = n := by
  rw [Char.ofNat, dif_pos h]
  rfl

theorem ofNat_eq {n : Nat} (h : b.toNat = n) : UInt8.ofNat n = b := by
  rw [← h, UInt8.ofNat_toNat]

/-- A first piece that is a character is how the character is encoded. -/
theorem eq_append_of_piece (h : piece b bs = (some c, rest)) :
    b :: bs = String.utf8EncodeChar c ++ rest := by
  have hwidth : b.toNat < 0x80 ∨ (0xC2 ≤ b.toNat ∧ b.toNat < 0xE0) ∨ (0xE0 ≤ b.toNat ∧ b.toNat < 0xF0) ∨
      (0xF0 ≤ b.toNat ∧ b.toNat < 0xF5) ∨ (0x80 ≤ b.toNat ∧ b.toNat < 0xC2 ∨ 0xF5 ≤ b.toNat) := by
    omega
  rcases hwidth with hb | hb | hb | hb | hb
  · rw [piece_ascii hb] at h
    cases h
    simp only [String.utf8EncodeChar]
    rw [val_ofNat (.inl (by omega)), if_pos (by omega), UInt8.ofNat_toNat]
    rfl
  · rw [piece_two hb] at h
    obtain ⟨x, _, rfl, hx, h⟩ := follow_cons_eq_some_iff.mp h
    obtain ⟨rfl, rfl⟩ := follow_nil_eq_some_iff.mp h
    simp only [continuation] at hx
    simp only [String.utf8EncodeChar]
    rw [val_ofNat (.inl (by omega)), if_neg (by omega), if_pos (by omega), @ofNat_eq b _ (by omega),
      @ofNat_eq x _ (by omega)]
    rfl
  · rw [piece_three hb] at h
    obtain ⟨x, _, rfl, hx, h⟩ := follow_cons_eq_some_iff.mp h
    obtain ⟨y, _, rfl, hy, h⟩ := follow_cons_eq_some_iff.mp h
    obtain ⟨rfl, rfl⟩ := follow_nil_eq_some_iff.mp h
    -- The narrower ranges keep out what two bytes can encode, and surrogates.
    have hx' : 0x80 ≤ x.toNat ∧ x.toNat ≤ 0xBF ∧ (b.toNat = 0xE0 → 0xA0 ≤ x.toNat) ∧
        (b.toNat = 0xED → x.toNat ≤ 0x9F) := by
      split_ifs at hx <;> omega
    simp only [continuation] at hy
    simp only [String.utf8EncodeChar]
    rw [val_ofNat (by unfold Nat.isValidChar; omega), if_neg (by omega), if_neg (by omega),
      if_pos (by omega), @ofNat_eq b _ (by omega), @ofNat_eq x _ (by omega), @ofNat_eq y _ (by omega)]
    rfl
  · rw [piece_four hb] at h
    obtain ⟨x, _, rfl, hx, h⟩ := follow_cons_eq_some_iff.mp h
    obtain ⟨y, _, rfl, hy, h⟩ := follow_cons_eq_some_iff.mp h
    obtain ⟨z, _, rfl, hz, h⟩ := follow_cons_eq_some_iff.mp h
    obtain ⟨rfl, rfl⟩ := follow_nil_eq_some_iff.mp h
    -- Here they keep out what three bytes can encode, and numbers past the last code point.
    have hx' : 0x80 ≤ x.toNat ∧ x.toNat ≤ 0xBF ∧ (b.toNat = 0xF0 → 0x90 ≤ x.toNat) ∧
        (b.toNat = 0xF4 → x.toNat ≤ 0x8F) := by
      split_ifs at hx <;> omega
    simp only [continuation] at hy hz
    simp only [String.utf8EncodeChar]
    rw [val_ofNat (by unfold Nat.isValidChar; omega), if_neg (by omega), if_neg (by omega),
      if_neg (by omega), @ofNat_eq b _ (by omega), @ofNat_eq x _ (by omega), @ofNat_eq y _ (by omega),
      @ofNat_eq z _ (by omega)]
    rfl
  · rw [piece_none hb] at h
    cases h

/-- The first piece of an encoded character and whatever follows it is that character. -/
theorem exists_piece (c : Char) (rest : List UInt8) :
    ∃ b bs, String.utf8EncodeChar c = b :: bs ∧ piece b (bs ++ rest) = (some c, rest) := by
  have hvalid : c.val.toNat < 0xD800 ∨ 0xDFFF < c.val.toNat ∧ c.val.toNat < 0x110000 := c.valid
  have hc : Char.ofNat c.val.toNat = c := Char.ofNat_toNat c
  have hbyte : ∀ n < 256, (UInt8.ofNat n).toNat = n := fun n hn => UInt8.toNat_ofNat_of_lt' hn
  simp only [String.utf8EncodeChar]
  generalize c.val.toNat = v at hvalid hc
  by_cases hone : v ≤ 127
  · have hb := hbyte v (by omega)
    refine ⟨_, _, if_pos hone, ?_⟩
    rw [List.nil_append, piece_ascii (by omega), hb, hc]
  rw [if_neg hone]
  by_cases htwo : v ≤ 2047
  · have hb := hbyte (v / 64 % 32 + 192) (by omega)
    have hx := hbyte (v % 64 + 128) (by omega)
    refine ⟨_, _, if_pos htwo, ?_⟩
    rw [piece_two (by omega), hb]
    refine follow_cons_eq_some_iff.mpr ⟨_, _, rfl, by simp only [continuation]; omega, ?_⟩
    refine follow_nil_eq_some_iff.mpr ⟨?_, rfl⟩
    rw [hx, ← hc]
    congr 1
    omega
  rw [if_neg htwo]
  by_cases hthree : v ≤ 65535
  · have hb := hbyte (v / 4096 % 16 + 224) (by omega)
    have hx := hbyte (v / 64 % 64 + 128) (by omega)
    have hy := hbyte (v % 64 + 128) (by omega)
    refine ⟨_, _, if_pos hthree, ?_⟩
    rw [piece_three (by omega), hb]
    refine follow_cons_eq_some_iff.mpr ⟨_, _, rfl, by simp only; split_ifs <;> omega, ?_⟩
    refine follow_cons_eq_some_iff.mpr ⟨_, _, rfl, by simp only [continuation]; omega, ?_⟩
    refine follow_nil_eq_some_iff.mpr ⟨?_, rfl⟩
    rw [hx, hy, ← hc]
    congr 1
    omega
  rw [if_neg hthree]
  have hb := hbyte (v / 262144 % 8 + 240) (by omega)
  have hx := hbyte (v / 4096 % 64 + 128) (by omega)
  have hy := hbyte (v / 64 % 64 + 128) (by omega)
  have hz := hbyte (v % 64 + 128) (by omega)
  refine ⟨_, _, rfl, ?_⟩
  rw [piece_four (by omega), hb]
  refine follow_cons_eq_some_iff.mpr ⟨_, _, rfl, by simp only; split_ifs <;> omega, ?_⟩
  refine follow_cons_eq_some_iff.mpr ⟨_, _, rfl, by simp only [continuation]; omega, ?_⟩
  refine follow_cons_eq_some_iff.mpr ⟨_, _, rfl, by simp only [continuation]; omega, ?_⟩
  refine follow_nil_eq_some_iff.mpr ⟨?_, rfl⟩
  rw [hx, hy, hz, ← hc]
  congr 1
  omega

theorem piece_eq_some_iff :
    piece b bs = (some c, rest) ↔ b :: bs = String.utf8EncodeChar c ++ rest := by
  refine ⟨eq_append_of_piece, fun h => ?_⟩
  obtain ⟨b', bs', hencoded, hpiece⟩ := exists_piece c rest
  rw [hencoded, List.cons_append, List.cons.injEq] at h
  obtain ⟨rfl, rfl⟩ := h
  exact hpiece

/-! ### Whole texts -/

theorem decode?_cons (b : UInt8) (bs : List UInt8) :
    decode? (b :: bs) = (piece b bs).1.bind fun c => (decode? (piece b bs).2).map (c :: ·) := by
  unfold decode?
  simp only [pieces_cons, List.all_cons]
  cases (piece b bs).1 with
  | none => rfl
  | some c =>
      by_cases hrest : (pieces (piece b bs).2).all Option.isSome = true
      · simp [hrest]
      · simp [hrest]

/-- Bytes are a text exactly if they are how it is encoded. -/
theorem decode?_eq_some_iff : decode? bs = some cs ↔ bs = encode cs := by
  induction hn : bs.length using Nat.strongRecOn generalizing bs cs with
  | ind n ih =>
      cases bs with
      | nil =>
          have hnil : decode? [] = some [] := by
            rw [decode?, pieces_nil]
            rfl
          rw [hnil]
          cases cs with
          | nil => simp [encode]
          | cons c cs =>
              obtain ⟨b, bs, hencoded, _⟩ := exists_piece c []
              simp [encode, hencoded]
      | cons b bs =>
          have hlt : (piece b bs).2.length < n := by
            have := piece_length b bs
            rw [← hn, List.length_cons]
            omega
          rw [decode?_cons, Option.bind_eq_some_iff]
          constructor
          · rintro ⟨c, hc, h⟩
            obtain ⟨ds, hds, rfl⟩ := Option.map_eq_some_iff.mp h
            have hpiece : piece b bs = (some c, (piece b bs).2) := by rw [← hc]
            rw [eq_append_of_piece hpiece, (ih _ hlt rfl).mp hds]
            rfl
          · intro h
            cases cs with
            | nil => cases h
            | cons c cs =>
                have hpiece : piece b bs = (some c, encode cs) := piece_eq_some_iff.mpr h
                refine ⟨c, by rw [hpiece], Option.map_eq_some_iff.mpr ⟨cs, ?_, rfl⟩⟩
                rw [ih _ hlt rfl, hpiece]

end BuildHooks.Text.Utf8
