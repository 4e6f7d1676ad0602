import Mathlib.Data.List.Dedup
import Mathlib.Data.List.Induction
import BuildHooks.Proofs.Event.Builtin

/-! What registering events one after another comes to. The registrations whose names are the same in some
case form a group, and each group becomes one entry: it is spelled as it was first, and has the factory
that came last. The entries stand in the order of the lower-cased names, however they were registered, and
each registration but the first of its group is noted. -/

namespace BuildHooks.Event

/-- The registrations under a name in any case, in their order. -/
def group (events : List (String × Factory)) (name : String) : List (String × Factory) :=
  events.filter fun e => Text.lowercase e.1 = Text.lowercase name

/-- What a group of registrations comes to: its first spelling with its last factory. -/
def merged? (group : List (String × Factory)) : Option Entry :=
  group.head?.bind fun first => group.getLast?.map fun last => ⟨first.1, last.2⟩

/-- The notes on the registrations that come after others of their group. -/
def repeats (events : List (String × Factory)) : List Log.Record :=
  events.zipIdx.filterMap fun e =>
    (group (events.take e.2) e.1.1).head?.map fun first =>
      { level := .warn
        source := .registry
        message := "event registered twice ignoring case, replacing earlier factory"
        fields := [("event", .quoted e.1.1), ("existing", .plain first.1)] }

/-- The registry and the notes are those of the groups of these registrations. -/
structure Registered (events : List (String × Factory)) (r : Registry) (notes : List Log.Record) :
    Prop where
  found : ∀ name, r.lookup? name = merged? (group events name)
  missed : ∀ name, r.lookup? name = none ↔
    ∀ e ∈ events, Text.lowercase e.1 ≠ Text.lowercase name
  contains : ∀ name, r.contains name = true ↔
    ∃ e ∈ events, Text.lowercase e.1 = Text.lowercase name
  /-- There is one entry for each group. -/
  size : r.size = (events.map fun e => Text.lowercase e.1).dedup.length
  listed : ∀ entry, entry ∈ r.toList ↔ ∃ name, r.lookup? name = some entry
  /-- The entries ascend by the code points of their lower-cased names, so none comes twice. -/
  ascending : r.toList.Pairwise fun e f =>
    (Text.lowercase e.name).toList < (Text.lowercase f.name).toList
  /-- Registering in another order gives the same names in the same order. -/
  reordered : ∀ events', events'.Perm events →
    ((Registry.ofList events').1.toList.map fun e => Text.lowercase e.name) =
      r.toList.map fun e => Text.lowercase e.name
  noted : notes = repeats events

/-! ### Groups -/

variable {events : List (String × Factory)} {e : String × Factory} {name : String}

theorem group_concat (events : List (String × Factory)) (e : String × Factory) (name : String) :
    group (events ++ [e]) name =
      if Text.lowercase e.1 = Text.lowercase name then group events name ++ [e]
      else group events name := by
  unfold group
  rw [List.filter_append]
  by_cases h : Text.lowercase e.1 = Text.lowercase name <;> simp [h]

theorem group_congr {name' : String} (h : Text.lowercase name = Text.lowercase name') :
    group events name = group events name' := by
  unfold group
  rw [h]

theorem merged?_eq_none_iff {registrations : List (String × Factory)} :
    merged? registrations = none ↔ registrations = [] := by
  unfold merged?
  cases registrations with
  | nil => simp
  | cons first others => simp [List.getLast?_cons]

/-- One registration more leaves the spelling, if there is one, and brings its factory. -/
theorem merged?_concat (registrations : List (String × Factory)) (e : String × Factory) :
    merged? (registrations ++ [e]) =
      some ⟨((merged? registrations).map Entry.name).getD e.1, e.2⟩ := by
  unfold merged?
  rw [List.getLast?_concat]
  cases registrations with
  | nil => rfl
  | cons first others => simp [List.getLast?_cons]

theorem name_merged? (registrations : List (String × Factory)) :
    (merged? registrations).map Entry.name = registrations.head?.map Prod.fst := by
  unfold merged?
  cases registrations with
  | nil => rfl
  | cons first others => simp [List.getLast?_cons]

theorem repeats_concat (events : List (String × Factory)) (e : String × Factory) :
    repeats (events ++ [e]) = repeats events ++
      ((group events e.1).head?.map fun first => Registry.repeatedRecord e.1 first.1).toList := by
  have hearlier : ∀ x ∈ events.zipIdx, (events ++ [e]).take x.2 = events.take x.2 := by
    intro x hx
    exact List.take_append_of_le_length (Nat.le_of_lt (List.snd_lt_of_mem_zipIdx hx))
  unfold repeats
  rw [List.zipIdx_append, List.filterMap_append]
  congr 1
  · refine List.filterMap_congr fun x hx => ?_
    rw [hearlier x hx]
  · simp only [List.zipIdx_cons, List.zipIdx_nil, Nat.zero_add, List.filterMap_cons,
      List.filterMap_nil, List.take_left]
    cases (group events e.1).head? <;> rfl

/-! ### Putting one entry in -/

namespace Registry

section Insert

variable {key k : String} {entry : Entry} {entries : List (String × Entry)}

theorem mem_keys_insert : k ∈ (insert key entry entries).map Prod.fst ↔
    k = key ∨ k ∈ entries.map Prod.fst := by
  induction entries with
  | nil => simp [insert]
  | cons first rest ih =>
      obtain ⟨first, old⟩ := first
      rw [insert]
      split
      · next h => simp [h]
      · split
        · simp
        · rw [List.map_cons, List.mem_cons, ih, List.map_cons, List.mem_cons]
          exact or_left_comm

theorem ascending_insert (h : (entries.map Prod.fst).Pairwise (· < ·)) :
    ((insert key entry entries).map Prod.fst).Pairwise (· < ·) := by
  induction entries with
  | nil => exact List.pairwise_singleton _ _
  | cons first rest ih =>
      obtain ⟨first, old⟩ := first
      have hfirst := (List.pairwise_cons.mp h).1
      have hrest := (List.pairwise_cons.mp h).2
      rw [insert]
      split
      · exact h
      · next hne =>
        split
        · next hlt =>
          refine List.pairwise_cons.mpr ⟨fun k hk => ?_, h⟩
          rcases List.mem_cons.mp hk with rfl | hk
          · exact hlt
          · exact String.lt_trans hlt (hfirst k hk)
        · next hnot =>
          refine List.pairwise_cons.mpr ⟨fun k hk => ?_, ih hrest⟩
          rcases mem_keys_insert.mp hk with rfl | hk
          · exact Std.lt_of_le_of_ne (String.not_lt.mp hnot) (Ne.symm hne)
          · exact hfirst k hk

theorem find?_insert_of_ne (hk : k ≠ key) :
    (insert key entry entries).find? (fun e => e.1 == k) = entries.find? fun e => e.1 == k := by
  induction entries with
  | nil => simp [insert, hk.symm]
  | cons first rest ih =>
      obtain ⟨first, old⟩ := first
      rw [insert]
      split
      · next h =>
        subst h
        simp [hk.symm]
      · split
        · simp [hk.symm]
        · by_cases hfirst : first = k
          · simp [hfirst]
          · simp [hfirst, ih]

/-- What stands under the key after an entry was put in there: the spelling that was there, if any, and
the new factory. -/
theorem find?_insert_self (h : (entries.map Prod.fst).Pairwise (· < ·)) :
    ((insert key entry entries).find? fun e => e.1 == key).map Prod.snd =
      some ⟨((entries.find? fun e => e.1 == key).map fun e => e.2.name).getD entry.name,
        entry.factory⟩ := by
  induction entries with
  | nil => simp [insert]
  | cons first rest ih =>
      obtain ⟨first, old⟩ := first
      have hfirst := (List.pairwise_cons.mp h).1
      have hrest := (List.pairwise_cons.mp h).2
      rw [insert]
      split
      · next hkey => simp [hkey]
      · next hkey =>
        split
        · next hlt =>
          -- the key comes before all that are there, so it is not among them
          have hnone : rest.find? (fun e => e.1 == key) = none := by
            rw [List.find?_eq_none]
            intro e he hek
            have hgt := hfirst e.1 (List.mem_map_of_mem he)
            rw [beq_iff_eq.mp hek] at hgt
            exact String.lt_asymm hlt hgt
          simp [Ne.symm hkey, hnone]
        · have hskip : (first == key) = false := beq_false_of_ne (Ne.symm hkey)
          simp only [List.find?_cons, hskip]
          exact ih hrest

theorem keyed_insert (hentry : key = Text.lowercase entry.name)
    (h : ∀ e ∈ entries, e.1 = Text.lowercase e.2.name) :
    ∀ e ∈ insert key entry entries, e.1 = Text.lowercase e.2.name := by
  induction entries with
  | nil => simpa [insert] using hentry
  | cons first rest ih =>
      obtain ⟨hfirst, hrest⟩ := List.forall_mem_cons.mp h
      rw [insert]
      split
      · exact List.forall_mem_cons.mpr ⟨hfirst, hrest⟩
      · split
        · exact List.forall_mem_cons.mpr ⟨hentry, h⟩
        · exact List.forall_mem_cons.mpr ⟨hfirst, ih hrest⟩

end Insert

/-- The entries ascend by their keys, and each stands under its lower-cased name. -/
structure Ordered (r : Registry) : Prop where
  ascending : (r.entries.map Prod.fst).Pairwise (· < ·)
  keyed : ∀ e ∈ r.entries, e.1 = Text.lowercase e.2.name

variable {r : Registry} {name : String} {factory : Factory}

theorem Ordered.nodup (h : r.Ordered) : (r.entries.map Prod.fst).Nodup :=
  h.ascending.imp String.ne_of_lt

theorem Ordered.mem_entries_iff (h : r.Ordered) {e : String × Entry} :
    e ∈ r.entries ↔ e.1 = Text.lowercase e.2.name ∧ r.lookup? e.2.name = some e.2 := by
  obtain ⟨key, entry⟩ := e
  rw [lookup?_eq_some_iff h.nodup]
  constructor
  · intro he
    have hkey := h.keyed _ he
    dsimp only at hkey ⊢
    exact ⟨hkey, hkey ▸ he⟩
  · rintro ⟨hkey, he⟩
    dsimp only at hkey he
    rwa [hkey]

theorem lookup?_register (h : r.Ordered) (other : String) :
    (r.register name factory).1.lookup? other =
      if Text.lowercase other = Text.lowercase name then
        some ⟨((r.lookup? name).map Entry.name).getD name, factory⟩
      else r.lookup? other := by
  change ((insert _ _ r.entries).find? _).map _ = _
  split
  · next hother =>
    rw [hother, find?_insert_self h.ascending, lookup?, Option.map_map]
    rfl
  · next hother => rw [find?_insert_of_ne hother, lookup?]

theorem Ordered.register (h : r.Ordered) (name : String) (factory : Factory) :
    (r.register name factory).1.Ordered where
  ascending := ascending_insert h.ascending
  keyed := keyed_insert rfl h.keyed

theorem registerAll_append (r : Registry) (events others : List (String × Factory)) :
    r.registerAll (events ++ others) =
      (((r.registerAll events).1.registerAll others).1,
       (r.registerAll events).2 ++ ((r.registerAll events).1.registerAll others).2) := by
  induction events generalizing r with
  | nil => rfl
  | cons e events ih => simp only [List.cons_append, registerAll, ih, List.append_assoc]

theorem ofList_concat (events : List (String × Factory)) (e : String × Factory) :
    ofList (events ++ [e]) =
      (((ofList events).1.register e.1 e.2).1,
       (ofList events).2 ++ ((ofList events).1.register e.1 e.2).2.toList) := by
  unfold ofList
  rw [registerAll_append]
  simp only [registerAll, List.append_nil]

theorem ordered_ofList (events : List (String × Factory)) : (ofList events).1.Ordered := by
  induction events using List.reverseRecOn with
  | nil => exact ⟨List.Pairwise.nil, fun e he => absurd he List.not_mem_nil⟩
  | append_singleton events e ih =>
      rw [ofList_concat]
      exact ih.register e.1 e.2

theorem lookup?_ofList (events : List (String × Factory)) (name : String) :
    (ofList events).1.lookup? name = merged? (group events name) := by
  induction events using List.reverseRecOn generalizing name with
  | nil => rfl
  | append_singleton events e ih =>
      rw [ofList_concat, lookup?_register (ordered_ofList events), group_concat]
      split
      · next h => rw [if_pos h.symm, merged?_concat, ih e.1, group_congr h]
      · next h => rw [if_neg (Ne.symm h), ih name]

theorem notes_ofList (events : List (String × Factory)) : (ofList events).2 = repeats events := by
  induction events using List.reverseRecOn with
  | nil => rfl
  | append_singleton events e ih =>
      have hnote : ((ofList events).1.register e.1 e.2).2 =
          (group events e.1).head?.map fun first => repeatedRecord e.1 first.1 := by
        change ((ofList events).1.lookup? e.1).map (repeatedRecord e.1 ·.name) = _
        have hname := name_merged? (group events e.1)
        rw [lookup?_ofList, ← Function.comp_def (repeatedRecord e.1) Entry.name, ← Option.map_map,
          hname, Option.map_map]
        rfl
      rw [ofList_concat, ih, repeats_concat, hnote]

theorem mem_keys_ofList (events : List (String × Factory)) (key : String) :
    key ∈ (ofList events).1.entries.map Prod.fst ↔ ∃ e ∈ events, Text.lowercase e.1 = key := by
  induction events using List.reverseRecOn with
  | nil => simp [ofList, registerAll, empty]
  | append_singleton events e ih =>
      rw [ofList_concat]
      change key ∈ (insert _ _ _).map Prod.fst ↔ _
      rw [mem_keys_insert, ih]
      simp [or_and_right, exists_or, eq_comm, or_comm]

theorem group_eq_nil_iff {events : List (String × Factory)} {name : String} :
    group events name = [] ↔ ∀ e ∈ events, Text.lowercase e.1 ≠ Text.lowercase name := by
  unfold group
  simp [List.filter_eq_nil_iff]

/-- The keys of the entries are the lower-cased names, in the order of the entries. -/
theorem Ordered.map_lowercase_toList (h : r.Ordered) :
    (r.toList.map fun e => Text.lowercase e.name) = r.entries.map Prod.fst := by
  unfold toList
  rw [List.map_map]
  exact List.map_congr_left fun e he => (h.keyed e he).symm

theorem keys_perm_dedup (events : List (String × Factory)) :
    ((ofList events).1.entries.map Prod.fst).Perm
      (events.map fun e => Text.lowercase e.1).dedup := by
  rw [List.perm_ext_iff_of_nodup (ordered_ofList events).nodup (List.nodup_dedup _)]
  intro key
  rw [mem_keys_ofList, List.mem_dedup, List.mem_map]

/-- The registry of some events and the notes on them are those of the groups that the events form. -/
theorem ofList_groups (events : List (String × Factory)) :
    Registered events (ofList events).1 (ofList events).2 where
  found := lookup?_ofList events
  missed := by
    intro name
    rw [lookup?_ofList, merged?_eq_none_iff, group_eq_nil_iff]
  contains := by
    intro name
    unfold contains
    rw [Option.isSome_iff_ne_none, lookup?_ofList, Ne, merged?_eq_none_iff, group_eq_nil_iff]
    simp
  size := by
    rw [← (keys_perm_dedup events).length_eq, List.length_map]
    rfl
  listed := by
    intro entry
    have h := ordered_ofList events
    constructor
    · intro hentry
      obtain ⟨e, he, rfl⟩ := List.mem_map.mp hentry
      exact ⟨_, (h.mem_entries_iff.mp he).2⟩
    · rintro ⟨name, hname⟩
      exact List.mem_map_of_mem ((lookup?_eq_some_iff h.nodup).mp hname)
  ascending := by
    have h := ordered_ofList events
    have hascending := h.ascending
    rw [← h.map_lowercase_toList] at hascending
    have hpairs := List.pairwise_map.mp hascending
    exact hpairs
  reordered := by
    intro events' hperm
    have h := ordered_ofList events
    have h' := ordered_ofList events'
    rw [h.map_lowercase_toList, h'.map_lowercase_toList]
    refine List.Perm.eq_of_pairwise (fun a b _ _ hab hba => absurd hba (String.lt_asymm hab))
      h'.ascending h.ascending ?_
    exact (keys_perm_dedup events').trans
      (((hperm.map _).dedup).trans (keys_perm_dedup events).symm)
  noted := notes_ofList events

end Registry

end BuildHooks.Event
