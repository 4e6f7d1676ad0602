import BuildHooks.Event.Registry
import BuildHooks.Proofs.Event.Path
import BuildHooks.Proofs.Text.Lowercase

/-! The events that are there from the start are found under their names in any case and under no other
names. A blank name is not one of them, because lower-casing leaves blanks as they are and brings none. -/

namespace BuildHooks

namespace Event

/-- Where no key stands twice, an entry is found exactly if it stands under the key of the name. -/
theorem Registry.lookup?_eq_some_iff {r : Registry} (keys : (r.entries.map Prod.fst).Nodup)
    {name : String} {entry : Entry} :
    r.lookup? name = some entry ↔ (Text.lowercase name, entry) ∈ r.entries := by
  unfold lookup?
  generalize Text.lowercase name = key
  generalize r.entries = entries at keys ⊢
  induction entries with
  | nil =>
      constructor
      · intro h
        cases h
      · intro h
        cases h
  | cons e entries ih =>
      obtain ⟨k, e⟩ := e
      rw [List.map_cons, List.nodup_cons] at keys
      by_cases hk : k = key
      · subst hk
        rw [List.find?_cons_of_pos (by simp), Option.map_some, Option.some_inj, List.mem_cons]
        constructor
        · rintro rfl
          exact .inl rfl
        · rintro (h | h)
          · cases h
            rfl
          · exact absurd (List.mem_map_of_mem h) keys.1
      · rw [List.find?_cons_of_neg (by simpa using hk), ih keys.2, List.mem_cons]
        constructor
        · exact .inr
        · rintro (h | h)
          · cases h
            exact absurd rfl hk
          · exact h

theorem entries_default : Registry.default.entries =
    [(Text.lowercase gitCodePushed, ⟨gitCodePushed, codePushedFactory⟩),
     (Text.lowercase gitPush, ⟨gitPush, pushFactory⟩), (Text.lowercase ping, ⟨ping, pingFactory⟩),
     (Text.lowercase pullRequestMergeCommitCreated,
      ⟨pullRequestMergeCommitCreated, mergeCommitFactory⟩)] := rfl

theorem nodup_keys_default : (Registry.default.entries.map Prod.fst).Nodup := by
  rw [entries_default]
  decide

/-- The path leads to the event with this name, in any case. -/
def Leads (root path event : String) : Prop :=
  ∃ segment, Names root path segment ∧ Text.lowercase segment = Text.lowercase event

theorem isAllBlank_lowercase_of_mem_builtins {name : String} {factory : Factory}
    (h : (name, factory) ∈ builtins) : Text.isAllBlank (Text.lowercase name) = false := by
  have hall : ∀ n ∈ builtins.map Prod.fst, Text.isAllBlank (Text.lowercase n) = false := by decide
  exact hall _ (List.mem_map_of_mem h)

theorem mem_entries_default_iff {key : String} {entry : Entry} :
    (key, entry) ∈ Registry.default.entries ↔
      (entry.name, entry.factory) ∈ builtins ∧ key = Text.lowercase entry.name := by
  obtain ⟨name, factory⟩ := entry
  rw [entries_default]
  simp only [builtins, List.mem_cons, List.not_mem_nil, or_false, Prod.mk.injEq, Entry.mk.injEq]
  constructor
  · rintro (⟨rfl, rfl, rfl⟩ | ⟨rfl, rfl, rfl⟩ | ⟨rfl, rfl, rfl⟩ | ⟨rfl, rfl, rfl⟩)
    · exact ⟨.inr (.inl ⟨rfl, rfl⟩), rfl⟩
    · exact ⟨.inr (.inr (.inl ⟨rfl, rfl⟩)), rfl⟩
    · exact ⟨.inl ⟨rfl, rfl⟩, rfl⟩
    · exact ⟨.inr (.inr (.inr ⟨rfl, rfl⟩)), rfl⟩
  · rintro ⟨⟨rfl, rfl⟩ | ⟨rfl, rfl⟩ | ⟨rfl, rfl⟩ | ⟨rfl, rfl⟩, rfl⟩
    · exact .inr (.inr (.inl ⟨rfl, rfl, rfl⟩))
    · exact .inl ⟨rfl, rfl, rfl⟩
    · exact .inr (.inl ⟨rfl, rfl, rfl⟩)
    · exact .inr (.inr (.inr ⟨rfl, rfl, rfl⟩))

/-- The events found by a name are those that have it in some case. -/
theorem lookup?_default_iff {segment : String} {entry : Entry} :
    Registry.default.lookup? segment = some entry ↔
      (entry.name, entry.factory) ∈ builtins ∧
        Text.lowercase segment = Text.lowercase entry.name := by
  rw [Registry.lookup?_eq_some_iff nodup_keys_default, mem_entries_default_iff]

end Event

end BuildHooks
