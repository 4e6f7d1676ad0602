import BuildHooks.Proofs.Job.Outcomes
import BuildHooks.Proofs.Text.Ends

/-! Which spellings of an address are those of one repository. Around the address itself there may be
blanks, after it `.git` and slashes, and its ASCII letters may be in any case. None of these hides a push
from a job, and addresses that differ in anything else are those of different repositories. -/

namespace BuildHooks.Job

open Text

/-- An address with nothing around it that may be left out: no blanks at its ends, and at its end neither
a slash nor `.git`. -/
structure Bare (url : String) : Prop where
  first : ∀ c, url.toList.head? = some c → isBlank c = false
  last : ∀ c, url.toList.getLast? = some c → isBlank c = false ∧ c ≠ '/'
  unended : ∀ start ending, url.toList = start ++ ending → ¬SameLetters ".git".toList ending

/-- An address as it is written with `.git` after it or not, any number of slashes after that, and blanks
around it all. -/
inductive Decorates (url written : String) : Prop where
  | intro (left ending right : List Char) (slashes : Nat) (hleft : ∀ c ∈ left, isBlank c = true)
      (hending : ending = [] ∨ SameLetters ".git".toList ending)
      (hright : ∀ c ∈ right, isBlank c = true)
      (h : written.toList =
        left ++ (url.toList ++ (ending ++ List.replicate slashes '/') ++ right))

variable {url other written : String} {cs ending : List Char}

theorem dropEnding_append (ending cs : List Char) : dropEnding ending (cs ++ ending) = cs := by
  rw [dropEnding, List.reverse_append, dropLead?_eq_some_iff.mpr rfl]
  exact List.reverse_reverse cs

theorem dropEnding_of_not_isSuffix (h : ¬ending <:+ cs) : dropEnding ending cs = cs := by
  unfold dropEnding
  split
  · next rest hrest =>
    rw [dropLead?_eq_some_iff] at hrest
    exact absurd (List.reverse_prefix.mp ⟨rest, hrest.symm⟩) h
  · rfl

theorem map_toLower_of_same (h : SameLetters ".git".toList ending) :
    ending.map Char.toLower = repositoryEnding := by
  rw [← sameLetters_iff.mp h]
  decide

/-- An address ends in `.git`, in some case, exactly if its small form does. -/
theorem isSuffix_map_toLower_iff : repositoryEnding <:+ cs.map Char.toLower ↔
    ∃ start ending, cs = start ++ ending ∧ SameLetters ".git".toList ending := by
  constructor
  · rintro ⟨lower, hlower⟩
    obtain ⟨start, ending, rfl, _, hending⟩ := List.map_eq_append_iff.mp hlower.symm
    refine ⟨start, ending, rfl, sameLetters_iff.mpr ?_⟩
    rw [hending]
    decide
  · rintro ⟨start, ending, rfl, hending⟩
    rw [List.map_append, map_toLower_of_same hending]
    exact List.suffix_append _ _

theorem plain_of_same (h : SameLetters ".git".toList ending) {c : Char} (hc : c ∈ ending) :
    isBlank c = false ∧ c ≠ '/' := by
  have hlower : c.toLower ∈ repositoryEnding := by
    rw [← map_toLower_of_same h]
    exact List.mem_map_of_mem hc
  have hplain : ∀ d ∈ repositoryEnding, isBlank d = false ∧ d ≠ '/' :=
    List.all_iff_forall_prop.mp (by decide)
  obtain ⟨hblank, hslash⟩ := hplain _ hlower
  rw [isBlank_toLower] at hblank
  exact ⟨hblank, fun h => hslash ((toLower_eq_slash_iff c).mpr h)⟩

/-- The key of an address is its small form, whatever is written around it. -/
theorem Bare.repositoryKey_eq (hurl : Bare url) (h : Decorates url written) :
    repositoryKey written = url.toList.map Char.toLower := by
  obtain ⟨left, ending, right, slashes, hleft, hending, hright, h⟩ := h
  have hplain : ∀ c ∈ ending, isBlank c = false ∧ c ≠ '/' := by
    rcases hending with rfl | hending
    · exact fun c hc => absurd hc List.not_mem_nil
    · exact fun c hc => plain_of_same hending hc
  have htail : ∀ c ∈ ending ++ List.replicate slashes '/', isBlank c = false := by
    intro c hc
    rcases List.mem_append.mp hc with hc | hc
    · exact (hplain c hc).1
    · rw [List.eq_of_mem_replicate hc]
      decide
  -- The blanks are taken off first, since what is inside them neither begins nor ends with one.
  have htrimmed : dropBothWhile isBlank written.toList =
      url.toList ++ (ending ++ List.replicate slashes '/') := by
    rw [h]
    apply dropBothWhile_between hleft hright
    · intro c hc
      rw [List.head?_append, Option.or_eq_some_iff] at hc
      rcases hc with hc | ⟨_, hc⟩
      · exact hurl.first c hc
      · exact htail c (List.mem_of_head? hc)
    · intro c hc
      rw [List.getLast?_append, Option.or_eq_some_iff] at hc
      rcases hc with hc | ⟨_, hc⟩
      · exact htail c (List.mem_of_getLast? hc)
      · exact (hurl.last c hc).1
  have hbare : dropEndWhile (· = '/') (url.toList ++ (ending ++ List.replicate slashes '/')) =
      url.toList ++ ending := by
    rw [← List.append_assoc, dropEndWhile_append]
    · apply dropEndWhile_eq_self
      intro c hc
      rw [List.getLast?_append, Option.or_eq_some_iff] at hc
      rcases hc with hc | ⟨_, hc⟩
      · simpa using (hplain c (List.mem_of_getLast? hc)).2
      · simpa using (hurl.last c hc).2
    · intro c hc
      simpa using List.eq_of_mem_replicate hc
  rw [repositoryKey, htrimmed, hbare, List.map_append]
  rcases hending with rfl | hending
  · rw [List.map_nil, List.append_nil]
    apply dropEnding_of_not_isSuffix
    rw [isSuffix_map_toLower_iff]
    rintro ⟨start, ending, hsplit, hending⟩
    exact hurl.unended start ending hsplit hending
  · rw [map_toLower_of_same hending, dropEnding_append]

/-- A job watches the pushes to its repository, however the address of either is written, and no others;
and a catalog with the job triggers it by them, as far as the job watches their branches. -/
theorem watches_spellings {job : Job} {push : Push} (hurl : Bare url) (hother : Bare other)
    (hjob : Decorates url job.repositoryUrl) (hpush : Decorates other push.repoUri) :
    (job.watchesRepository push.repoUri = true ↔ SameLetters url.toList other.toList) ∧
      ∀ (c : Catalog) (call : Call), job ∈ c.jobs → call.pushed = push →
        ((∃ o ∈ c.outcomes call, o.job = job.name) ↔
          SameLetters url.toList other.toList ∧ job.WatchesBranch push.targetBranch) := by
  have hrepository : job.watchesRepository push.repoUri = true ↔
      SameLetters url.toList other.toList := by
    rw [watchesRepository, hurl.repositoryKey_eq hjob, hother.repositoryKey_eq hpush, beq_iff_eq,
      sameLetters_iff]
  refine ⟨hrepository, fun c call hmem hcall => ?_⟩
  rw [Catalog.triggered_iff hmem call, hcall, concerns, Bool.and_eq_true, hrepository,
    watchesBranch_iff]

theorem bare_of_not_isSuffix (hfirst : ∀ c, url.toList.head? = some c → isBlank c = false)
    (hlast : ∀ c, url.toList.getLast? = some c → isBlank c = false ∧ c ≠ '/')
    (hended : ¬repositoryEnding <:+ url.toList.map Char.toLower) : Bare url where
  first := hfirst
  last := hlast
  unended := fun start ending hsplit hending =>
    hended (isSuffix_map_toLower_iff.mpr ⟨start, ending, hsplit, hending⟩)

/-- All that may stand around an address stands around that of the job, and the pushed one is in another
case: the job watches it. It does not watch the repository of a longer name. -/
theorem watches_spellings_git_slashes :
    Bare "HTTPS://Host/_git/App" ∧ Bare "https://host/_git/app" ∧ Bare "https://host/_git/apps" ∧
    Decorates "HTTPS://Host/_git/App" "\t HTTPS://Host/_git/App.GiT// " ∧
    Decorates "https://host/_git/app" "https://host/_git/app/" ∧
    Decorates "https://host/_git/apps" "https://host/_git/apps" ∧
    watchesRepository ⟨"ci", "\t HTTPS://Host/_git/App.GiT// ", [], .poll⟩ "https://host/_git/app/" = true ∧
    watchesRepository ⟨"ci", "\t HTTPS://Host/_git/App.GiT// ", [], .poll⟩ "https://host/_git/apps" =
      false := by
  have hurl : Bare "HTTPS://Host/_git/App" :=
    bare_of_not_isSuffix (by simp [isBlank]) (by simp [isBlank]) (by decide)
  have happ : Bare "https://host/_git/app" :=
    bare_of_not_isSuffix (by simp [isBlank]) (by simp [isBlank]) (by decide)
  have happs : Bare "https://host/_git/apps" :=
    bare_of_not_isSuffix (by simp [isBlank]) (by simp [isBlank]) (by decide)
  have hjob : Decorates "HTTPS://Host/_git/App" "\t HTTPS://Host/_git/App.GiT// " :=
    ⟨['\t', ' '], ".GiT".toList, [' '], 2, by simp [isBlank], .inr (sameLetters_iff.mpr (by decide)),
      by simp [isBlank], by decide⟩
  have hslash : Decorates "https://host/_git/app" "https://host/_git/app/" :=
    ⟨[], [], [], 1, by simp, .inl rfl, by simp, by decide⟩
  have hplain : Decorates "https://host/_git/apps" "https://host/_git/apps" :=
    ⟨[], [], [], 0, by simp, .inl rfl, by simp, by decide⟩
  have hsame := (@watches_spellings _ _ ⟨"ci", _, [], .poll⟩
    ⟨"https://host/", _, "app", "app", "1f", "", none⟩ hurl happ hjob hslash).1
  have hother := (@watches_spellings _ _ ⟨"ci", _, [], .poll⟩
    ⟨"https://host/", _, "app", "app", "1f", "", none⟩ hurl happs hjob hplain).1
  refine ⟨hurl, happ, happs, hjob, hslash, hplain, hsame.mpr (sameLetters_iff.mpr (by decide)), ?_⟩
  rw [Bool.eq_false_iff, Ne, hother, sameLetters_iff]
  decide

end BuildHooks.Job
