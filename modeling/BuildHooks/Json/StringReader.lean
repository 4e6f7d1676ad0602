import BuildHooks.Json.Fault

/-!
Strings in a JSON text, from after the opening quote. An escape of a code unit outside the range of
surrogates stands for one character, and two escapes for a character beyond the first 2^16.
-/

namespace BuildHooks.Json

/-- The value of a hexadecimal digit of either case. -/
def hexValue? (c : Char) : Option Nat :=
  if '0' ≤ c && c ≤ '9' then some (c.toNat - 48)
  else if 'a' ≤ c && c ≤ 'f' then some (c.toNat - 87)
  else if 'A' ≤ c && c ≤ 'F' then some (c.toNat - 55)
  else none

/-- The number that four hexadecimal digits write. -/
def hexUnit? (a b c d : Char) : Option Nat :=
  match hexValue? a, hexValue? b, hexValue? c, hexValue? d with
  | some a, some b, some c, some d => some (((a * 16 + b) * 16 + c) * 16 + d)
  | _, _, _, _ => none

/-- What is left after `count` bytes, and how many of them belong to its first character. -/
def dropBytes : Nat → List Char → List Char × Nat
  | _, [] => ([], 0)
  | 0, cs => (cs, 0)
  | count, c :: cs =>
    if c.utf8Size ≤ count then dropBytes (count - c.utf8Size) cs else (c :: cs, count)

/-- Reads the four digits of an escape. They are four bytes of the text whatever characters those
belong to. -/
def readHexUnit (cs : List Char) : Except Fault (Nat × List Char) :=
  if Text.Utf8.byteCount (cs.take 4) < 4 then .error (faultBefore .endInString [])
  else
    let unread : Fault := ⟨.invalidEscape, (dropBytes 4 cs).1, (dropBytes 4 cs).2⟩
    match cs with
    | a :: b :: c :: d :: rest =>
      match hexUnit? a b c d with
      | some n => .ok (n, rest)
      | none => .error unread
    | _ => .error unread

/-- The next character is `c`, as the second escape of a pair asks. -/
def readOfPair (c : Char) : List Char → Except Fault (List Char)
  | [] => .error (faultBefore .endInString [])
  | d :: rest => if c = d then .ok rest else .error (faultAt .unexpectedEndOfEscape (d :: rest))

/-- Reads the character that an escape stands for, after its `u`. -/
def readUnicode (cs : List Char) : Except Fault (Char × List Char) := do
  let (high, rest) ← readHexUnit cs
  if 0xDC00 ≤ high && high ≤ 0xDFFF then .error (faultBefore .loneSurrogate rest)
  else if high < 0xD800 || 0xDBFF < high then .ok (Char.ofNat high, rest)
  else
    let rest ← readOfPair '\\' rest
    let rest ← readOfPair 'u' rest
    let (low, rest) ← readHexUnit rest
    if low < 0xDC00 || 0xDFFF < low then .error (faultBefore .loneSurrogate rest)
    else .ok (Char.ofNat (0x10000 + (high - 0xD800) * 0x400 + (low - 0xDC00)), rest)

/-- The character that a backslash and one more character stand for. -/
def shortEscape? (c : Char) : Option Char :=
  if c = '"' || c = '\\' || c = '/' then some c
  else if c = 'b' then some (Char.ofNat 8)
  else if c = 'f' then some (Char.ofNat 12)
  else if c = 'n' then some '\n'
  else if c = 'r' then some '\r'
  else if c = 't' then some '\t'
  else none

/-- Reads the character that an escape stands for, after its backslash. -/
def readEscape : Scan Char
  | [] => .error (faultBefore .endInString [])
  | c :: cs =>
    if c = 'u' then readUnicode cs
    else match shortEscape? c with
      | some d => .ok (d, cs)
      | none => .error (faultAt .invalidEscape (c :: cs))

theorem readHexUnit_length {cs rest : List Char} {n : Nat} (h : readHexUnit cs = .ok (n, rest)) :
    rest.length < cs.length := by
  unfold readHexUnit at h
  split at h
  · simp at h
  · split at h
    · split at h
      · simp only [Except.ok.injEq, Prod.mk.injEq] at h
        obtain ⟨_, rfl⟩ := h
        simp only [List.length_cons]
        omega
      · simp at h
    · simp at h

theorem readOfPair_length {c : Char} {cs rest : List Char} (h : readOfPair c cs = .ok rest) :
    rest.length < cs.length := by
  cases cs with
  | nil => simp [readOfPair] at h
  | cons d cs =>
      simp only [readOfPair] at h
      split at h
      · simp only [Except.ok.injEq] at h
        subst h
        simp
      · simp at h

theorem readUnicode_length {cs rest : List Char} {c : Char} (h : readUnicode cs = .ok (c, rest)) :
    rest.length < cs.length := by
  unfold readUnicode at h
  cases h₁ : readHexUnit cs with
  | error e => simp [h₁, bind, Except.bind] at h
  | ok p =>
      obtain ⟨high, rest₁⟩ := p
      have l₁ := readHexUnit_length h₁
      simp only [h₁, bind, Except.bind] at h
      split at h
      · simp at h
      · split at h
        · simp only [Except.ok.injEq, Prod.mk.injEq] at h
          obtain ⟨_, rfl⟩ := h
          exact l₁
        · cases h₂ : readOfPair '\\' rest₁ with
          | error e => simp [h₂] at h
          | ok rest₂ =>
              have l₂ := readOfPair_length h₂
              cases h₃ : readOfPair 'u' rest₂ with
              | error e => simp [h₂, h₃] at h
              | ok rest₃ =>
                  have l₃ := readOfPair_length h₃
                  cases h₄ : readHexUnit rest₃ with
                  | error e => simp [h₂, h₃, h₄] at h
                  | ok q =>
                      obtain ⟨low, rest₄⟩ := q
                      have l₄ := readHexUnit_length h₄
                      simp only [h₂, h₃, h₄] at h
                      split at h
                      · simp at h
                      · simp only [Except.ok.injEq, Prod.mk.injEq] at h
                        obtain ⟨_, rfl⟩ := h
                        omega

theorem readEscape_length {cs rest : List Char} {c : Char} (h : readEscape cs = .ok (c, rest)) :
    rest.length < cs.length := by
  cases cs with
  | nil => simp [readEscape] at h
  | cons d cs =>
      simp only [readEscape] at h
      split at h
      · have := readUnicode_length h
        simp only [List.length_cons]
        omega
      · split at h
        · simp only [Except.ok.injEq, Prod.mk.injEq] at h
          obtain ⟨_, rfl⟩ := h
          simp
        · simp at h

/-- Reads the characters of a string up to its closing quote, after those in `done`, reversed. -/
def readChars (done : List Char) : Scan String
  | [] => .error (faultBefore .endInString [])
  | c :: cs =>
    if c = '"' then .ok (String.ofList done.reverse, cs)
    else if c = '\\' then
      match h : readEscape cs with
      | .error e => .error e
      | .ok (d, rest) =>
        have := readEscape_length h
        readChars (d :: done) rest
    else if c.toNat < 0x20 then .error (faultAt .controlInString (c :: cs))
    else readChars (c :: done) cs
termination_by cs => cs.length
decreasing_by all_goals simp only [List.length_cons]; omega

/-- Reads a string after its opening quote. -/
def readString : Scan String :=
  readChars []

/-- Passes over an escape after its backslash. A code unit may be any, also a lone surrogate. -/
def passEscape : List Char → Except Fault (List Char)
  | [] => .error (faultBefore .endInString [])
  | c :: cs =>
    if c = 'u' then (readHexUnit cs).map Prod.snd
    else if (shortEscape? c).isSome then .ok cs
    else .error (faultAt .invalidEscape (c :: cs))

theorem passEscape_length {cs rest : List Char} (h : passEscape cs = .ok rest) :
    rest.length < cs.length := by
  cases cs with
  | nil => simp [passEscape] at h
  | cons c cs =>
      simp only [passEscape] at h
      split at h
      · cases h₁ : readHexUnit cs with
        | error e => simp [h₁, Except.map] at h
        | ok p =>
            obtain ⟨n, r⟩ := p
            have l₁ := readHexUnit_length h₁
            simp only [h₁, Except.map, Except.ok.injEq] at h
            subst h
            simp only [List.length_cons]
            omega
      · split at h
        · simp only [Except.ok.injEq] at h
          subst h
          simp
        · simp at h

/-- Passes over a string after its opening quote. A control in it is found before it is read. -/
def passString : List Char → Except Fault (List Char)
  | [] => .error (faultBefore .endInString [])
  | c :: cs =>
    if c = '"' then .ok cs
    else if c = '\\' then
      match h : passEscape cs with
      | .error e => .error e
      | .ok rest =>
        have := passEscape_length h
        passString rest
    else if c.toNat < 0x20 then .error (faultBefore .controlInString (c :: cs))
    else passString cs
termination_by cs => cs.length
decreasing_by all_goals simp only [List.length_cons]; omega

end BuildHooks.Json
