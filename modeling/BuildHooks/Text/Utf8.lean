/-!
UTF-8 as lists of bytes. Decoding cuts the bytes into pieces, each a character or a damaged
stretch; the strict reading refuses damage, and the lenient one puts the replacement character
in its place.
-/

namespace BuildHooks.Text.Utf8

def encode (cs : List Char) : List UInt8 :=
  cs.flatMap String.utf8EncodeChar

/-- How a character of several bytes goes on after its first byte: the payload of that byte, and
for each further byte the range it must lie in. -/
structure Lead where
  payload : Nat
  ranges : List (Nat × Nat)

/-- A byte that only ever continues a character. -/
def continuation : Nat × Nat := (0x80, 0xBF)

/-- What a first byte announces. The narrower ranges of a second byte keep out spellings that are
longer than needed, surrogates, and numbers past the last code point. -/
def lead? (b : UInt8) : Option Lead :=
  let n := b.toNat
  if n < 0x80 then some ⟨n, []⟩
  else if n < 0xC2 then none
  else if n < 0xE0 then some ⟨n - 0xC0, [continuation]⟩
  else if n = 0xE0 then some ⟨0, [(0xA0, 0xBF), continuation]⟩
  else if n = 0xED then some ⟨13, [(0x80, 0x9F), continuation]⟩
  else if n < 0xF0 then some ⟨n - 0xE0, [continuation, continuation]⟩
  else if n = 0xF0 then some ⟨0, [(0x90, 0xBF), continuation, continuation]⟩
  else if n < 0xF4 then some ⟨n - 0xF0, [continuation, continuation, continuation]⟩
  else if n = 0xF4 then some ⟨4, [(0x80, 0x8F), continuation, continuation]⟩
  else none

/-- Reads the further bytes of a character onto `value`. A byte out of its range is left for the
next piece. -/
def follow : List (Nat × Nat) → Nat → List UInt8 → Option Char × List UInt8
  | [], value, bs => (some (Char.ofNat value), bs)
  | _ :: _, _, [] => (none, [])
  | r :: ranges, value, b :: bs =>
    if r.1 ≤ b.toNat && b.toNat ≤ r.2 then follow ranges (value * 64 + b.toNat % 64) bs
    else (none, b :: bs)

theorem follow_length (ranges : List (Nat × Nat)) (value : Nat) (bs : List UInt8) :
    (follow ranges value bs).2.length ≤ bs.length := by
  induction ranges generalizing value bs with
  | nil => simp [follow]
  | cons r ranges ih =>
      cases bs with
      | nil => simp [follow]
      | cons b bs =>
          simp only [follow]
          split
          · exact Nat.le_succ_of_le (ih _ _)
          · simp

/-- The first piece after byte `b`: a character, or `none` for a damaged stretch, and the bytes
after it. -/
def piece (b : UInt8) (bs : List UInt8) : Option Char × List UInt8 :=
  match lead? b with
  | none => (none, bs)
  | some lead => follow lead.ranges lead.payload bs

theorem piece_length (b : UInt8) (bs : List UInt8) : (piece b bs).2.length ≤ bs.length := by
  unfold piece
  split
  · exact Nat.le_refl _
  · exact follow_length _ _ _

/-- The pieces of some bytes, after those already in `done`, reversed. -/
def piecesFrom (done : List (Option Char)) : List UInt8 → List (Option Char)
  | [] => done.reverse
  | b :: bs =>
    have := piece_length b bs
    piecesFrom ((piece b bs).1 :: done) (piece b bs).2
termination_by bs => bs.length
decreasing_by simp only [List.length_cons]; omega

def pieces (bs : List UInt8) : List (Option Char) :=
  piecesFrom [] bs

/-- The text of some bytes, if none of them is damaged. -/
def decode? (bs : List UInt8) : Option (List Char) :=
  let ps := pieces bs
  if ps.all Option.isSome then some (ps.filterMap id) else none

/-- The text of some bytes, with the replacement character for each damaged stretch. -/
def decodeLenient (bs : List UInt8) : List Char :=
  (pieces bs).map fun p => p.getD (Char.ofNat 0xFFFD)

def byteCount (cs : List Char) : Nat :=
  cs.foldl (fun n c => n + c.utf8Size) 0

end BuildHooks.Text.Utf8
