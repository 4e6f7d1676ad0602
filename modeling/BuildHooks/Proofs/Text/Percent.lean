import Mathlib.Tactic.SplitIfs
import BuildHooks.Text.Percent

/-! How the escapes of a path are read at a slash. A slash that is written as it is belongs neither to an
escape nor to a character of several bytes, so a path is read segment by segment: it stands for what its
segments stand for, and for nothing as soon as one of them does. -/

namespace BuildHooks.Text

namespace Utf8

theorem piecesFrom_eq (done : List (Option Char)) (bs : List UInt8) :
    piecesFrom done bs = done.reverse ++ pieces bs := by
  unfold pieces
  induction hn : bs.length using Nat.strongRecOn generalizing done bs with
  | ind n ih =>
      cases bs with
      | nil =>
          unfold piecesFrom
          rw [List.reverse_nil, List.append_nil]
      | cons b bs =>
          have hlt : (piece b bs).2.length < n := by
            have := piece_length b bs
            rw [← hn, List.length_cons]
            omega
          unfold piecesFrom
          rw [ih _ hlt _ _ rfl, ih _ hlt [(piece b bs).1] _ rfl, List.reverse_cons,
            List.append_assoc]
          rfl

@[simp] theorem pieces_nil : pieces [] = [] := by
  unfold pieces piecesFrom
  rfl

theorem pieces_cons (b : UInt8) (bs : List UInt8) :
    pieces (b :: bs) = (piece b bs).1 :: pieces (piece b bs).2 := by
  rw [pieces, piecesFrom, piecesFrom_eq]
  rfl

/-- The further bytes of a character are none of ASCII. -/
theorem le_of_mem_ranges {b : UInt8} {lead : Lead} (h : lead? b = some lead) :
    ∀ r ∈ lead.ranges, 0x80 ≤ r.1 := by
  unfold lead? at h
  simp only at h
  split_ifs at h
  all_goals first
    | contradiction
    | rw [← Option.some.inj h]
      simp [continuation]

/-- A byte of ASCII ends what a character goes on with. -/
theorem follow_append {ranges : List (Nat × Nat)} (hranges : ∀ r ∈ ranges, 0x80 ≤ r.1) (value : Nat)
    (xs ys : List UInt8) {b : UInt8} (hb : b.toNat < 0x80) :
    follow ranges value (xs ++ b :: ys) =
      ((follow ranges value xs).1, (follow ranges value xs).2 ++ b :: ys) := by
  induction ranges generalizing value xs with
  | nil => rfl
  | cons r ranges ih =>
      have hr := hranges r List.mem_cons_self
      cases xs with
      | nil =>
          have hout : ¬(r.1 ≤ b.toNat && b.toNat ≤ r.2) = true := by
            rw [Bool.and_eq_true, decide_eq_true_eq]
            omega
          rw [List.nil_append, follow.eq_3, if_neg hout]
          rfl
      | cons x xs =>
          rw [List.cons_append, follow, follow]
          split
          · exact ih (fun r' hr' => hranges r' (List.mem_cons_of_mem _ hr')) _ xs
          · rfl

theorem piece_append (x : UInt8) (xs ys : List UInt8) {b : UInt8} (hb : b.toNat < 0x80) :
    piece x (xs ++ b :: ys) = ((piece x xs).1, (piece x xs).2 ++ b :: ys) := by
  unfold piece
  cases hlead : lead? x with
  | none => rfl
  | some lead => exact follow_append (le_of_mem_ranges hlead) _ xs ys hb

theorem piece_ascii {b : UInt8} (hb : b.toNat < 0x80) (bs : List UInt8) :
    piece b bs = (some (Char.ofNat b.toNat), bs) := by
  unfold piece lead?
  simp only
  rw [if_pos hb]
  rfl

/-- Bytes are cut into pieces at every byte of ASCII. -/
theorem pieces_append (xs ys : List UInt8) {b : UInt8} (hb : b.toNat < 0x80) :
    pieces (xs ++ b :: ys) = pieces xs ++ some (Char.ofNat b.toNat) :: pieces ys := by
  induction hn : xs.length using Nat.strongRecOn generalizing xs with
  | ind n ih =>
      cases xs with
      | nil => rw [List.nil_append, pieces_cons, piece_ascii hb, pieces_nil, List.nil_append]
      | cons x xs =>
          have hlt : (piece x xs).2.length < n := by
            have := piece_length x xs
            rw [← hn, List.length_cons]
            omega
          rw [List.cons_append, pieces_cons, piece_append x xs ys hb, ih _ hlt _ rfl, pieces_cons]
          rfl

theorem decode?_append (xs ys : List UInt8) {b : UInt8} (hb : b.toNat < 0x80) :
    decode? (xs ++ b :: ys) =
      (decode? xs).bind fun cs => (decode? ys).map fun ds => cs ++ Char.ofNat b.toNat :: ds := by
  unfold decode?
  simp only [pieces_append xs ys hb, List.all_append, List.all_cons, Option.isSome_some,
    Bool.true_and, Bool.and_eq_true, List.filterMap_append]
  by_cases hxs : (pieces xs).all Option.isSome = true
  · by_cases hys : (pieces ys).all Option.isSome = true
    · rw [if_pos ⟨hxs, hys⟩, if_pos hxs, if_pos hys]
      rfl
    · rw [if_neg fun h => hys h.2, if_pos hxs, if_neg hys]
      rfl
  · rw [if_neg fun h => hxs h.1, if_neg hxs]
    rfl

theorem encode_append (cs ds : List Char) : encode (cs ++ ds) = encode cs ++ encode ds := by
  unfold encode
  rw [List.flatMap_append]

end Utf8

namespace Percent

theorem unescapeFrom_cons (done : List UInt8) {b : UInt8} {rest : List UInt8}
    (h : ∀ high low more, b = 0x25 → rest = high :: low :: more → False) :
    unescapeFrom done (b :: rest) = unescapeFrom (b :: done) rest :=
  unescapeFrom.eq_2 done b rest h

theorem unescapeFrom_eq (done bs : List UInt8) :
    unescapeFrom done bs = done.reverse ++ unescape bs := by
  have hmore : ∀ bs done more : List UInt8,
      unescapeFrom (done ++ more) bs = more.reverse ++ unescapeFrom done bs := by
    intro bs done more
    fun_induction unescapeFrom done bs with
    | case1 done high low rest b hescaped ih =>
        rw [unescapeFrom, hescaped]
        exact ih
    | case2 done high low rest hescaped ih =>
        rw [unescapeFrom, hescaped]
        exact ih
    | case3 done b rest hplain ih =>
        rw [unescapeFrom_cons _ hplain]
        exact ih
    | case4 done =>
        rw [unescapeFrom, List.reverse_append]
  exact hmore bs [] done

/-- A slash does not belong to an escape. -/
theorem escaped?_slash (b : UInt8) : escaped? 0x2F b = none ∧ escaped? b 0x2F = none := by
  have hslash : hexValue? 0x2F = none := by decide
  unfold escaped?
  rw [hslash]
  exact ⟨rfl, by cases hexValue? b <;> rfl⟩

theorem unescape_append (xs ys : List UInt8) :
    unescape (xs ++ 0x2F :: ys) = unescape xs ++ 0x2F :: unescape ys := by
  have hfrom : ∀ xs done : List UInt8,
      unescapeFrom done (xs ++ 0x2F :: ys) = unescapeFrom done xs ++ 0x2F :: unescape ys := by
    intro xs done
    fun_induction unescapeFrom done xs with
    | case1 done high low rest b hescaped ih =>
        simp only [List.cons_append]
        rw [unescapeFrom, hescaped]
        exact ih
    | case2 done high low rest hescaped ih =>
        simp only [List.cons_append] at ih ⊢
        rw [unescapeFrom, hescaped]
        exact ih
    | case3 done b rest hplain ih =>
        rw [List.cons_append, ← ih]
        by_cases hb : b = 0x25
        · subst hb
          -- a percent sign before the slash has one character between them at most
          match rest, hplain with
          | [], _ =>
              cases ys with
              | nil => rfl
              | cons y ys =>
                  rw [List.nil_append, unescapeFrom, (escaped?_slash y).1]
          | [high], _ =>
              rw [List.singleton_append, unescapeFrom, (escaped?_slash high).2]
          | high :: low :: rest, hplain => exact (hplain high low rest rfl rfl).elim
        · rw [unescapeFrom_cons _ fun _ _ _ h => absurd h hb]
    | case4 done =>
        rw [List.nil_append, unescapeFrom_cons done fun _ _ _ h => absurd h (by decide),
          unescapeFrom_eq, List.reverse_cons, List.append_assoc]
        rfl
  exact hfrom xs []

/-- What a written text stands for once its escapes are read, unless the bytes are then not UTF-8. -/
def read? (written : List Char) : Option (List Char) :=
  Utf8.decode? (unescape (Utf8.encode written))

theorem decodePath_eq (path : String) :
    decodePath path = ((read? path.toList).map String.ofList).getD path := by
  unfold decodePath read?
  cases Utf8.decode? (unescape (Utf8.encode path.toList)) <;> rfl

/-- A text is read segment by segment. -/
theorem read?_append (cs ds : List Char) :
    read? (cs ++ '/' :: ds) = (read? cs).bind fun xs => (read? ds).map fun ys => xs ++ '/' :: ys := by
  have hencode : Utf8.encode (cs ++ '/' :: ds) = Utf8.encode cs ++ 0x2F :: Utf8.encode ds := by
    rw [Utf8.encode_append]
    rfl
  unfold read?
  rw [hencode, unescape_append, Utf8.decode?_append _ _ (by decide)]
  rfl

/-- No slash is lost when a text is read. -/
theorem count_slash_le {cs xs : List Char} (h : read? cs = some xs) : cs.count '/' ≤ xs.count '/' := by
  induction hn : cs.length using Nat.strongRecOn generalizing cs xs with
  | ind n ih =>
      by_cases hslash : '/' ∈ cs
      · obtain ⟨first, rest, rfl, hfirst⟩ := List.eq_append_cons_of_mem hslash
        rw [read?_append, Option.bind_eq_some_iff] at h
        obtain ⟨ys, hys, hrest⟩ := h
        obtain ⟨zs, hzs, rfl⟩ := Option.map_eq_some_iff.mp hrest
        have hle := ih rest.length (by rw [← hn, List.length_append, List.length_cons]; omega) hzs rfl
        rw [List.count_append, List.count_append, List.count_cons_self, List.count_cons_self,
          List.count_eq_zero.mpr hfirst]
        omega
      · rw [List.count_eq_zero.mpr hslash]
        exact Nat.zero_le _

end Percent

end BuildHooks.Text
