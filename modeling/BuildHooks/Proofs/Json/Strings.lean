import BuildHooks.Json.Printer
import BuildHooks.Json.StringReader

/-! A string reads back as it was written. Each character is read from what it was written as, be that
itself, a short escape or the four digits of a control, so the reader is past all of them when it comes
to the quote that closes the string. -/

namespace BuildHooks.Json

theorem readChars_quote (done rest : List Char) :
    readChars done ('"' :: rest) = .ok (String.ofList done.reverse, rest) := by
  rw [readChars, if_pos rfl]

theorem readChars_plain {c : Char} (hquote : c ≠ '"') (hslash : c ≠ '\\') (hvisible : ¬c.toNat < 0x20)
    (done rest : List Char) :
    readChars done (c :: rest) = readChars (c :: done) rest := by
  rw [readChars, if_neg hquote, if_neg hslash, if_neg hvisible]

theorem readChars_escape {cs rest : List Char} {d : Char} (h : readEscape cs = .ok (d, rest))
    (done : List Char) :
    readChars done ('\\' :: cs) = readChars (d :: done) rest := by
  rw [readChars, if_neg (by decide), if_pos rfl]
  split
  · next e he =>
    rw [h] at he
    cases he
  · next d' rest' he =>
    rw [h] at he
    cases he
    rfl

theorem hexUnit?_of_control {n : Nat} (hn : n < 0x20) :
    hexUnit? '0' '0' (Nat.digitChar (n / 16)) (Nat.digitChar (n % 16)) = some n := by
  revert n
  decide

theorem byteCount_of_control {n : Nat} (hn : n < 0x20) :
    Text.Utf8.byteCount ['0', '0', Nat.digitChar (n / 16), Nat.digitChar (n % 16)] = 4 := by
  revert n
  decide

/-- The four digits of a control are read as its number. -/
theorem readHexUnit_control {n : Nat} (hn : n < 0x20) (rest : List Char) :
    readHexUnit ('0' :: '0' :: Nat.digitChar (n / 16) :: Nat.digitChar (n % 16) :: rest) =
      .ok (n, rest) := by
  unfold readHexUnit
  rw [if_neg (by
    change ¬Text.Utf8.byteCount ['0', '0', Nat.digitChar (n / 16), Nat.digitChar (n % 16)] < 4
    rw [byteCount_of_control hn]
    decide)]
  simp only [hexUnit?_of_control hn]

theorem readEscape_control {n : Nat} (hn : n < 0x20) (rest : List Char) :
    readEscape ('u' :: '0' :: '0' :: Nat.digitChar (n / 16) :: Nat.digitChar (n % 16) :: rest) =
      .ok (Char.ofNat n, rest) := by
  change readUnicode _ = _
  unfold readUnicode
  rw [readHexUnit_control hn]
  simp only [bind, Except.bind]
  rw [if_neg (by simp; omega), if_pos (by simp; omega)]

theorem readChars_escapeChar (c : Char) (done rest : List Char) :
    readChars done (escapeChar c ++ rest) = readChars (c :: done) rest := by
  unfold escapeChar
  split
  · next hc =>
    subst hc
    exact readChars_escape rfl done
  · next hquote =>
    split
    · next hc =>
      subst hc
      exact readChars_escape rfl done
    · next hslash =>
      split
      · next hcontrol =>
        rw [← Char.ofNat_toNat c]
        generalize c.toNat = n at hcontrol
        rw [show (Char.ofNat n).toNat = n by revert n; decide]
        split
        · exact readChars_escape rfl done
        · exact readChars_escape rfl done
        · exact readChars_escape rfl done
        · exact readChars_escape rfl done
        · exact readChars_escape rfl done
        · exact readChars_escape (readEscape_control hcontrol rest) done
      · next hvisible => exact readChars_plain hquote hslash hvisible done rest

theorem readChars_escaped (s done rest : List Char) :
    readChars done (s.flatMap escapeChar ++ '"' :: rest) =
      .ok (String.ofList (done.reverse ++ s), rest) := by
  induction s generalizing done with
  | nil => rw [List.append_nil, List.flatMap_nil, List.nil_append, readChars_quote]
  | cons c s ih =>
      rw [List.flatMap_cons, List.append_assoc, readChars_escapeChar, ih, List.reverse_cons,
        List.append_assoc]
      rfl

/-- A string is read up to the quote that closes it. -/
theorem readString_escaped (s : String) (rest : List Char) :
    readString (s.toList.flatMap escapeChar ++ '"' :: rest) = .ok (s, rest) := by
  rw [readString, readChars_escaped, List.reverse_nil, List.nil_append, String.ofList_toList]

theorem toList_pushAll (cs : List Char) (done : String) :
    (cs.foldl String.push done).toList = done.toList ++ cs := by
  induction cs generalizing done with
  | nil => rw [List.foldl_nil, List.append_nil]
  | cons c cs ih => rw [List.foldl_cons, ih, String.toList_push, List.append_assoc]; rfl

theorem toList_writeChars (cs : List Char) (done : String) :
    (writeChars done cs).toList = done.toList ++ cs.flatMap escapeChar := by
  induction cs generalizing done with
  | nil => rw [writeChars, List.flatMap_nil, List.append_nil]
  | cons c cs ih =>
      rw [writeChars, ih, toList_pushAll, List.flatMap_cons, List.append_assoc]

/-- A string with its quotes. -/
def stringChars (s : String) : List Char :=
  '"' :: (s.toList.flatMap escapeChar ++ ['"'])

theorem toList_writeString (done s : String) :
    (writeString done s).toList = done.toList ++ stringChars s := by
  rw [writeString, String.toList_push, toList_writeChars, String.toList_push, stringChars,
    List.append_assoc, List.append_assoc]
  rfl

end BuildHooks.Json
