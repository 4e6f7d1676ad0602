import Mathlib.Data.List.Nodup
import BuildHooks.Proofs.Json.Reading

/-! What the reader reads is never more than a text can hold: no number is at or past the end of a
word, no name stands twice in an object, and lists and objects nest no deeper than there were levels.
Whatever is selected from such a document is such a document itself. -/

namespace BuildHooks.Json

/-- A document whose numbers are all admitted, whose objects have no name twice, and which nests at
most so deep. -/
inductive Fits (admitted : Number → Prop) : Nat → Json → Prop where
  | null (k : Nat) : Fits admitted k .null
  | bool (k : Nat) (b : Bool) : Fits admitted k (.bool b)
  | number (k : Nat) (n : Number) (h : admitted n) : Fits admitted k (.number n)
  | string (k : Nat) (s : String) : Fits admitted k (.string s)
  | array (k : Nat) (items : List Json) (h : ∀ x ∈ items, Fits admitted k x) :
      Fits admitted (k + 1) (.array items)
  | object (k : Nat) (members : Members) (names : (members.map Prod.fst).Nodup)
      (h : ∀ m ∈ members, Fits admitted k m.2) : Fits admitted (k + 1) (.object members)

/-- A number below the end of a word. -/
def Number.Below : Number → Prop
  | .integer n => n < Text.wordEnd
  | .real _ => True

theorem gatherDigits_lt {value : Nat} (hvalue : value < Text.wordEnd) (count : Nat)
    (cs : List Char) : (gatherDigits value count cs).1 < Text.wordEnd := by
  induction cs generalizing value count with
  | nil => exact hvalue
  | cons c cs ih =>
      unfold gatherDigits
      split
      · exact hvalue
      · split
        · next hlt => exact ih hlt _
        · exact hvalue

theorem wholeNumeral_below (negative : Bool) {n : Nat} (hn : n < Text.wordEnd) :
    (wholeNumeral negative n).Below := by
  unfold wholeNumeral
  split
  · change (n : Int) < Text.wordEnd
    omega
  · split
    · change -(n : Int) < Text.wordEnd
      omega
    · split
      · trivial
      · change -(n : Int) < Text.wordEnd
        omega

theorem realNumeral_below {negative : Bool} {significand : Nat} {exponent : Int} {cs rest : List Char}
    {n : Number} (h : realNumeral negative significand exponent cs = .ok (n, rest)) : n.Below := by
  unfold realNumeral at h
  split at h
  · cases h
    trivial
  · cases h

theorem readExponentDigits_below {negative : Bool} {significand : Nat} {start : Int} {shrinks : Bool}
    {value : Nat} {cs rest : List Char} {n : Number}
    (h : readExponentDigits negative significand start shrinks value cs = .ok (n, rest)) :
    n.Below := by
  induction cs generalizing value with
  | nil => exact realNumeral_below h
  | cons c cs ih =>
      unfold readExponentDigits at h
      split at h
      · exact realNumeral_below h
      · split at h
        · exact ih h
        · split at h
          · cases h
            trivial
          · cases h

theorem readScale_below {negative : Bool} {significand : Nat} {start : Int} {cs rest : List Char}
    {n : Number} (h : readScale negative significand start cs = .ok (n, rest)) : n.Below := by
  have hexponent : ∀ ds, readExponent negative significand start ds = .ok (n, rest) → n.Below := by
    intro ds hds
    unfold readExponent at hds
    split at hds
    split at hds
    · cases hds
    · split at hds
      · cases hds
      · exact readExponentDigits_below hds
  unfold readScale at h
  split at h
  · exact hexponent _ h
  · exact hexponent _ h
  · exact realNumeral_below h

theorem readNumeralRest_below {negative : Bool} {significand dropped : Nat} {cs rest : List Char}
    {n : Number} (hlt : significand < Text.wordEnd)
    (h : readNumeralRest negative significand dropped cs = .ok (n, rest)) : n.Below := by
  unfold readNumeralRest at h
  split at h
  · unfold readFraction at h
    simp only at h
    split at h
    · cases h
    · exact readScale_below h
  · exact readScale_below h
  · exact readScale_below h
  · split at h
    · cases h
      exact wholeNumeral_below negative hlt
    · exact realNumeral_below h

theorem digitValue?_lt {c : Char} {d : Nat} (h : Text.digitValue? c = some d) : d < 10 := by
  unfold Text.digitValue? at h
  split at h
  · next hc =>
    cases h
    simp only [Bool.and_eq_true, decide_eq_true_eq] at hc
    have hle : c.toNat ≤ 57 := hc.2
    omega
  · cases h

theorem readNumeral_below {negative : Bool} {cs rest : List Char} {n : Number}
    (h : readNumeral negative cs = .ok (n, rest)) : n.Below := by
  unfold readNumeral at h
  split at h
  · cases h
  · split at h
    · cases h
    · split at h
      · cases h
      · exact readNumeralRest_below (by decide) h
    · next d _ hd =>
      refine readNumeralRest_below (gatherDigits_lt ?_ 0 _) h
      have := digitValue?_lt hd
      unfold Text.wordEnd
      omega

theorem readScalar_fits {c : Char} {cs rest : List Char} {v : Json}
    (h : readScalar c cs = .ok (v, rest)) (k : Nat) : Fits Number.Below k v := by
  rcases readScalar_cases h with
    ⟨_, s, _, rfl⟩ | ⟨_, n, hread, rfl⟩ | ⟨n, hread, rfl⟩ | ⟨word, hword, _⟩
  · exact .string k s
  · exact .number k n (readNumeral_below hread)
  · exact .number k n (readNumeral_below hread)
  · simp only [words, List.mem_cons, List.not_mem_nil, or_false, Prod.mk.injEq] at hword
    rcases hword with ⟨_, _, rfl⟩ | ⟨_, _, rfl⟩ | ⟨_, _, rfl⟩
    · exact .null k
    · exact .bool k true
    · exact .bool k false

namespace Members

theorem put_of_notMem {members : Members} {name : String} (hname : name ∉ members.map Prod.fst)
    (v : Json) : members.put name v = members ++ [(name, v)] := by
  unfold put
  rw [if_neg]
  intro hany
  obtain ⟨m, hm, heq⟩ := List.any_eq_true.mp hany
  exact hname (List.mem_map.mpr ⟨m, hm, by simpa using heq⟩)

theorem put_of_mem {members : Members} {name : String} (hname : name ∈ members.map Prod.fst)
    (v : Json) :
    members.put name v = members.map fun m => if m.1 == name then (m.1, v) else m := by
  rw [put, if_pos]
  obtain ⟨m, hm, heq⟩ := List.mem_map.mp hname
  exact List.any_eq_true.mpr ⟨m, hm, by simpa using heq⟩

theorem map_fst_put_of_mem {members : Members} {name : String} (hname : name ∈ members.map Prod.fst)
    (v : Json) : (members.put name v).map Prod.fst = members.map Prod.fst := by
  rw [put_of_mem hname, List.map_map]
  refine List.map_congr_left fun m _ => ?_
  change (if m.1 == name then (m.1, v) else m).1 = m.1
  split <;> rfl

theorem nodup_put {members : Members} (names : (members.map Prod.fst).Nodup) (name : String)
    (v : Json) : ((members.put name v).map Prod.fst).Nodup := by
  by_cases hname : name ∈ members.map Prod.fst
  · rw [map_fst_put_of_mem hname]
    exact names
  · rw [put_of_notMem hname, List.map_append]
    refine names.append (List.nodup_singleton _) ?_
    intro a ha hb
    cases List.mem_singleton.mp hb
    exact hname ha

theorem snd_of_mem_put {members : Members} {name : String} {v : Json} {m : String × Json}
    (h : m ∈ members.put name v) : m ∈ members ∨ m.2 = v := by
  unfold put at h
  split at h
  · obtain ⟨m', hm', rfl⟩ := List.mem_map.mp h
    split
    · exact .inr rfl
    · exact .inl hm'
  · rcases List.mem_append.mp h with hold | hnew
    · exact .inl hold
    · cases List.mem_singleton.mp hnew
      exact .inr rfl

end Members

/-- Every value that is read fits, and so does a list or an object that is read to its end after items
or members that fit. -/
theorem fits_of_read (steps : Nat) :
    (∀ levels cs v rest, readValue steps levels cs = .ok (v, rest) → Fits Number.Below levels v) ∧
    (∀ levels done cs v rest, readItems steps levels done cs = .ok (v, rest) →
      (∀ x ∈ done, Fits Number.Below levels x) → Fits Number.Below (levels + 1) v) ∧
    (∀ levels done cs v rest, readMembers steps levels done cs = .ok (v, rest) →
      (done.map Prod.fst).Nodup → (∀ m ∈ done, Fits Number.Below levels m.2) →
      Fits Number.Below (levels + 1) v) := by
  induction steps with
  | zero =>
      refine ⟨?_, ?_, ?_⟩
      · intro levels cs v rest h
        cases h
      · intro levels done cs v rest h
        cases h
      · intro levels done cs v rest h
        cases h
  | succ steps ih =>
      obtain ⟨ihvalue, ihitems, ihmembers⟩ := ih
      refine ⟨?_, ?_, ?_⟩
      · intro levels cs v rest h
        rcases readValue_cases h with
          ⟨k, rest₁, onward, rfl, _, _, ⟨_, rfl⟩ | ⟨rest₂, _, hitems⟩⟩ |
          ⟨k, rest₁, onward, rfl, _, _, ⟨_, rfl⟩ | ⟨rest₂, _, hmembers⟩⟩ |
          ⟨c, rest₁, _, hscalar⟩
        · exact .array k [] (by simp)
        · exact ihitems _ _ _ _ _ hitems (by simp)
        · exact .object k [] List.nodup_nil (by simp)
        · exact ihmembers _ _ _ _ _ hmembers List.nodup_nil (by simp)
        · exact readScalar_fits hscalar levels
      · intro levels done cs v rest h hdone
        obtain ⟨x, rest₁, onward, hx, _, hgoes⟩ := readItems_cases h
        have hall : ∀ y ∈ x :: done, Fits Number.Below levels y := by
          intro y hy
          rcases List.mem_cons.mp hy with rfl | hy
          · exact ihvalue _ _ _ _ hx
          · exact hdone y hy
        rcases hgoes with ⟨_, rfl⟩ | ⟨rest₂, _, hitems⟩
        · exact .array _ _ fun y hy => hall y (List.mem_reverse.mp hy)
        · exact ihitems _ _ _ _ _ hitems hall
      · intro levels done cs v rest h names hdone
        obtain ⟨name, x, rest₁, rest₂, rest₃, onward, _, _, hx, _, hgoes⟩ := readMembers_cases h
        have hnames := Members.nodup_put names name x
        have hall : ∀ m ∈ done.put name x, Fits Number.Below levels m.2 := by
          intro m hm
          rcases Members.snd_of_mem_put hm with hm | hm
          · exact hdone m hm
          · rw [hm]
            exact ihvalue _ _ _ _ hx
        rcases hgoes with ⟨_, rfl⟩ | ⟨rest₄, _, hmembers⟩
        · exact .object _ _ hnames hall
        · exact ihmembers _ _ _ _ _ hmembers hnames hall

theorem fits_of_parse {text : String} {v : Json} (h : parse text = .ok v) :
    Fits Number.Below maxLevels v := by
  obtain ⟨rest, hread, _⟩ := read_of_parse h
  exact (fits_of_read _).1 _ _ _ _ hread

end BuildHooks.Json
