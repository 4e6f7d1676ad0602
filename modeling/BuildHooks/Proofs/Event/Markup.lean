import BuildHooks.Event.Page
import BuildHooks.Proofs.Text.Split

/-! What a reader of the page sees of the rows. An escaped text holds no character that could end it, and
each ampersand in it starts an entity, so a reader who replaces the entities once gets the text back. The
rows are read by their tags alone: whatever the samples are, the tags that are met are those of the rows,
and between them stand the names, the paths and the escaped samples. -/

namespace BuildHooks.Event

/-- How the characters are written that do not stand for themselves in the text of a page. -/
def entities : List String :=
  ["&amp;", "&lt;", "&gt;", "&quot;", "&#39;"]

/-- The text that is shown for a written one, in one pass: where an entity starts its character is shown and
the entity passed over, anywhere else one character is shown as it is. -/
def readEntities : List Char → List Char
  | '&' :: 'a' :: 'm' :: 'p' :: ';' :: cs => '&' :: readEntities cs
  | '&' :: 'l' :: 't' :: ';' :: cs => '<' :: readEntities cs
  | '&' :: 'g' :: 't' :: ';' :: cs => '>' :: readEntities cs
  | '&' :: 'q' :: 'u' :: 'o' :: 't' :: ';' :: cs => '"' :: readEntities cs
  | '&' :: '#' :: '3' :: '9' :: ';' :: cs => '\'' :: readEntities cs
  | c :: cs => c :: readEntities cs
  | [] => []

/-! ### Escaped texts -/

/-- A character is written as an entity, or is none of those that entities are for. -/
theorem escapeHtmlChar_cases (c : Char) :
    (∃ e ∈ entities, escapeHtmlChar c = e.toList ∧
        ∀ rest, readEntities (escapeHtmlChar c ++ rest) = c :: readEntities rest) ∨
      escapeHtmlChar c = [c] ∧ c ≠ '&' ∧ c ≠ '<' ∧ c ≠ '>' ∧ c ≠ '"' ∧ c ≠ '\'' := by
  unfold escapeHtmlChar
  split
  · next h => exact .inl ⟨"&amp;", by simp [entities], rfl, fun rest => by rw [h]; rfl⟩
  · split
    · next h => exact .inl ⟨"&lt;", by simp [entities], rfl, fun rest => by rw [h]; rfl⟩
    · split
      · next h => exact .inl ⟨"&gt;", by simp [entities], rfl, fun rest => by rw [h]; rfl⟩
      · split
        · next h => exact .inl ⟨"&quot;", by simp [entities], rfl, fun rest => by rw [h]; rfl⟩
        · split
          · next h => exact .inl ⟨"&#39;", by simp [entities], rfl, fun rest => by rw [h]; rfl⟩
          · next hamp hlt hgt hquot happ => exact .inr ⟨rfl, hamp, hlt, hgt, hquot, happ⟩

theorem toList_escapeHtml (s : String) : (escapeHtml s).toList = s.toList.flatMap escapeHtmlChar := by
  rw [escapeHtml, String.toList_ofList]

theorem escapeHtml_append (s t : String) : escapeHtml (s ++ t) = escapeHtml s ++ escapeHtml t := by
  rw [← String.toList_inj, String.toList_append, toList_escapeHtml, toList_escapeHtml, toList_escapeHtml,
    String.toList_append, List.flatMap_append]

theorem notMem_escapeHtml {c : Char} (hc : c ∈ ['<', '>', '"', '\'']) (s : String) :
    c ∉ (escapeHtml s).toList := by
  rw [toList_escapeHtml, List.mem_flatMap]
  rintro ⟨d, _, hd⟩
  have hfree : ∀ e ∈ entities, ∀ c ∈ ['<', '>', '"', '\''], c ∉ e.toList := by
    simp only [entities, List.forall_mem_cons, List.not_mem_nil, false_implies, implies_true, and_true]
    decide
  rcases escapeHtmlChar_cases d with ⟨e, he, hescaped, _⟩ | ⟨hself, hplain⟩
  · rw [hescaped] at hd
    exact hfree e he c hc hd
  · rw [hself, List.mem_singleton] at hd
    subst hd
    simp_all

theorem readEntities_cons {c : Char} (h : c ≠ '&') (cs : List Char) :
    readEntities (c :: cs) = c :: readEntities cs := by
  rw [readEntities]
  all_goals
    intro _ hc
    exact absurd hc h

theorem readEntities_escaped (cs : List Char) : readEntities (cs.flatMap escapeHtmlChar) = cs := by
  induction cs with
  | nil => rfl
  | cons c cs ih =>
      rw [List.flatMap_cons]
      rcases escapeHtmlChar_cases c with ⟨_, _, _, hread⟩ | ⟨hself, hamp, _⟩
      · rw [hread, ih]
      · rw [hself, List.singleton_append, readEntities_cons hamp, ih]

/-- Within an entity there is no second ampersand. -/
theorem eq_of_ampersand_suffix {e : String} (he : e ∈ entities) {tail : List Char}
    (h : '&' :: tail <:+ e.toList) : '&' :: tail = e.toList := by
  have hinner : ∀ e ∈ entities, '&' ∉ e.toList.tail := by decide
  have hnone := hinner e he
  cases hchars : e.toList with
  | nil =>
      rw [hchars] at h
      exact absurd (List.suffix_nil.mp h) (List.cons_ne_nil _ _)
  | cons c inner =>
      rw [hchars] at h hnone
      rcases List.suffix_cons_iff.mp h with h | h
      · exact h
      · exact absurd (h.subset List.mem_cons_self) hnone

/-- Wherever an ampersand stands in an escaped text, an entity starts. -/
theorem exists_entity {before after cs : List Char}
    (h : cs.flatMap escapeHtmlChar = before ++ '&' :: after) :
    ∃ e ∈ entities, e.toList <+: '&' :: after := by
  induction cs generalizing before with
  | nil => exact absurd h.symm (List.append_ne_nil_of_right_ne_nil _ (List.cons_ne_nil _ _))
  | cons c cs ih =>
      rw [List.flatMap_cons] at h
      rcases List.append_eq_append_iff.mp h with ⟨between, rfl, hrest⟩ | ⟨tail, hchar, hrest⟩
      · exact ih hrest
      · -- the ampersand is in what `c` is written as, or starts what is written after it
        cases tail with
        | nil => exact @ih [] hrest.symm
        | cons d tail =>
            obtain ⟨rfl, rfl⟩ := List.cons.inj hrest
            rcases escapeHtmlChar_cases c with ⟨e, he, hescaped, _⟩ | ⟨hself, hamp, _⟩
            · refine ⟨e, he, ?_⟩
              have hwhole := eq_of_ampersand_suffix he ⟨before, by rw [← hescaped, hchar]⟩
              rw [← hwhole]
              exact List.prefix_append _ _
            · rw [hself] at hchar
              have hmem : '&' ∈ [c] := by
                rw [hchar]
                exact List.mem_append_right _ List.mem_cons_self
              exact absurd (List.mem_singleton.mp hmem).symm hamp

/-! ### Tags -/

/-- A tag, without its brackets, and the text up to the next one. -/
structure Tagged where
  tag : List Char
  text : List Char

namespace Tagged

def chars (t : Tagged) : List Char :=
  '<' :: (t.tag ++ '>' :: t.text)

/-- The brackets of the tag are the first that are met. -/
structure Clean (t : Tagged) : Prop where
  tag : '<' ∉ t.tag ∧ '>' ∉ t.tag
  text : '<' ∉ t.text

/-- The tag and the text of what follows an opening bracket. -/
def ofPart (part : List Char) : Tagged where
  tag := part.takeWhile (· ≠ '>')
  text := (part.dropWhile (· ≠ '>')).drop 1

theorem ofPart_append {t : Tagged} (h : '>' ∉ t.tag) : ofPart (t.tag ++ '>' :: t.text) = t := by
  have hpos : ∀ c ∈ t.tag, decide (c ≠ '>') = true := by
    intro c hc
    rw [decide_eq_true_eq]
    rintro rfl
    exact h hc
  unfold ofPart
  rw [List.takeWhile_append_of_pos hpos, List.dropWhile_append_of_pos hpos,
    List.takeWhile_cons_of_neg (by decide), List.dropWhile_cons_of_neg (by decide), List.append_nil]
  rfl

end Tagged

/-- The tags of a text in their order. -/
def tags (cs : List Char) : List Tagged :=
  (Text.split '<' cs).tail.map Tagged.ofPart

/-- Tags that were written one after another are read again. -/
theorem tags_flatMap_chars {ts : List Tagged} (h : ∀ t ∈ ts, t.Clean) :
    tags (ts.flatMap Tagged.chars) = ts := by
  have hparts : ts.flatMap Tagged.chars =
      ['<'].intercalate ([] :: ts.map fun t => t.tag ++ '>' :: t.text) := by
    clear h
    induction ts with
    | nil => rfl
    | cons t ts ih =>
        rw [List.flatMap_cons, ih, List.map_cons, List.intercalate_cons_cons]
        cases ts with
        | nil => simp [Tagged.chars, List.intercalate]
        | cons t' ts => simp [Tagged.chars, List.intercalate]
  have hclean : ∀ part ∈ [] :: ts.map (fun t => t.tag ++ '>' :: t.text), '<' ∉ part := by
    refine List.forall_mem_cons.mpr ⟨List.not_mem_nil, fun part hpart => ?_⟩
    obtain ⟨t, ht, rfl⟩ := List.mem_map.mp hpart
    have hbracket : '<' ≠ '>' := by decide
    simp [(h t ht).tag.1, (h t ht).text, hbracket]
  unfold tags
  rw [hparts, Text.split_intercalate hclean (List.cons_ne_nil _ _), List.tail_cons, List.map_map]
  conv => rhs; rw [← List.map_id ts]
  exact List.map_congr_left fun t ht => Tagged.ofPart_append (h t ht).tag.2

/-! ### The table -/

/-- The text of a cell: all up to where the cell ends. -/
def cellText : List Tagged → List Char
  | [] => []
  | t :: ts => if t.tag = "/td".toList then [] else t.text ++ cellText ts

/-- The tag starts a cell, with attributes or without. -/
def Tagged.startsCell (t : Tagged) : Bool :=
  t.tag.takeWhile (· ≠ ' ') == "td".toList

/-- The texts of the cells of a row, up to where the row ends. -/
def rowCells : List Tagged → List (List Char)
  | [] => []
  | t :: ts =>
    if t.tag = "/tr".toList then []
    else if t.startsCell then (t.text ++ cellText ts) :: rowCells ts
    else rowCells ts

/-- The rows of a table, each with the texts of its cells. -/
def tableRows : List Tagged → List (List (List Char))
  | [] => []
  | t :: ts => if t.tag = "tr".toList then rowCells ts :: tableRows ts else tableRows ts

/-- What a row says of an event. -/
structure Described where
  name : String
  path : String
  sample : String
deriving DecidableEq

/-- What a row with three cells says. The last cell is the only one that is escaped. -/
def Described.ofCells? : List (List Char) → Option Described
  | [name, path, sample] =>
    some ⟨String.ofList name, String.ofList path, String.ofList (readEntities sample)⟩
  | _ => none

/-- What the rows of a page say, as they are read off its tags. -/
def readRows (page : String) : List (Option Described) :=
  (tableRows (tags page.toList)).map Described.ofCells?

/-- The tags of a row, with the texts after them. -/
def rowTags (root : String) (entry : Entry) : List Tagged :=
  [⟨"tr".toList, "\n".toList⟩,
   ⟨"td valign='top'".toList, entry.name.toList⟩, ⟨"/td".toList, "\n".toList⟩,
   ⟨"td valign='top'".toList, ("/" ++ root ++ "/" ++ entry.name).toList⟩, ⟨"/td".toList, "\n".toList⟩,
   ⟨"td".toList, []⟩, ⟨"pre".toList, (escapeHtml entry.factory.sample).toList⟩, ⟨"/pre".toList, []⟩,
   ⟨"/td".toList, "\n".toList⟩,
   ⟨"/tr".toList, "\n".toList⟩]

variable {root : String} {entry : Entry}

theorem toList_row (root : String) (entry : Entry) :
    (row root entry).toList = (rowTags root entry).flatMap Tagged.chars := by
  unfold row rowTags
  simp [Tagged.chars, ToString.toString]

theorem clean_of_mem_rowTags (hroot : '<' ∉ root.toList) (hname : '<' ∉ entry.name.toList)
    {t : Tagged} (ht : t ∈ rowTags root entry) : t.Clean := by
  have htags : ∀ tag ∈ ["tr", "td valign='top'", "td", "pre", "/pre", "/td", "/tr"].map String.toList,
      '<' ∉ tag ∧ '>' ∉ tag := by
    decide
  have htexts : ∀ text ∈ ["\n".toList, entry.name.toList, ("/" ++ root ++ "/" ++ entry.name).toList,
      [], (escapeHtml entry.factory.sample).toList], '<' ∉ text := by
    have hslash : '<' ≠ '/' := by decide
    simp [hroot, hname, hslash, notMem_escapeHtml]
  simp only [rowTags, List.mem_cons, List.not_mem_nil, or_false] at ht
  rcases ht with rfl | rfl | rfl | rfl | rfl | rfl | rfl | rfl | rfl | rfl
  all_goals exact ⟨htags _ (by simp), htexts _ (by simp)⟩

theorem tableRows_append (root : String) (entry : Entry) (ts : List Tagged) :
    tableRows (rowTags root entry ++ ts) =
      [entry.name.toList, ("/" ++ root ++ "/" ++ entry.name).toList,
        (escapeHtml entry.factory.sample).toList] :: tableRows ts := by
  simp [rowTags, tableRows, rowCells, cellText, Tagged.startsCell]

/-- The rows of a registry are read back one by one. -/
theorem readRows_rows (r : Registry) (hroot : '<' ∉ root.toList)
    (hnames : ∀ e ∈ r.toList, '<' ∉ e.name.toList) :
    readRows (r.rows root) = r.toList.map fun e =>
      some ⟨e.name, "/" ++ root ++ "/" ++ e.name, e.factory.sample⟩ := by
  have hchars : (r.rows root).toList = (r.toList.flatMap (rowTags root)).flatMap Tagged.chars := by
    unfold Registry.rows
    rw [List.flatMap_assoc, String.toList_join, List.flatMap_map]
    simp only [toList_row]
  have hclean : ∀ t ∈ r.toList.flatMap (rowTags root), t.Clean := by
    intro t ht
    obtain ⟨e, he, ht⟩ := List.mem_flatMap.mp ht
    exact clean_of_mem_rowTags hroot (hnames e he) ht
  have htable : ∀ entries : List Entry, tableRows (entries.flatMap (rowTags root)) =
      entries.map fun e => [e.name.toList, ("/" ++ root ++ "/" ++ e.name).toList,
        (escapeHtml e.factory.sample).toList] := by
    intro entries
    induction entries with
    | nil => rfl
    | cons e entries ih => rw [List.flatMap_cons, tableRows_append, ih, List.map_cons]
  unfold readRows
  rw [hchars, tags_flatMap_chars hclean, htable, List.map_map]
  refine List.map_congr_left fun e _ => ?_
  simp only [Function.comp, Described.ofCells?, toList_escapeHtml, readEntities_escaped,
    String.ofList_toList]

/-- What is escaped cannot end a text and is read back by replacing entities once, so it tells its text.
Escaping goes on from one text to the next. So the rows say what the entries are, whatever the samples
hold. -/
theorem markup_read_back :
    (∀ s : String, (∀ c ∈ ['<', '>', '"', '\''], c ∉ (escapeHtml s).toList) ∧
      (∀ before after, (escapeHtml s).toList = before ++ '&' :: after →
        ∃ e ∈ ["&amp;", "&lt;", "&gt;", "&quot;", "&#39;"], e.toList <+: '&' :: after) ∧
      String.ofList (readEntities (escapeHtml s).toList) = s) ∧
    Function.Injective escapeHtml ∧
    (∀ s t, escapeHtml (s ++ t) = escapeHtml s ++ escapeHtml t) ∧
    ∀ (r : Registry) (root : String), '<' ∉ root.toList → (∀ e ∈ r.toList, '<' ∉ e.name.toList) →
      readRows (r.rows root) = r.toList.map fun e =>
        some ⟨e.name, "/" ++ root ++ "/" ++ e.name, e.factory.sample⟩ := by
  have hread : ∀ s, String.ofList (readEntities (escapeHtml s).toList) = s := by
    intro s
    rw [toList_escapeHtml, readEntities_escaped, String.ofList_toList]
  refine ⟨fun s => ⟨fun c hc => notMem_escapeHtml hc s, ?_, hread s⟩, ?_, escapeHtml_append,
    fun r root => readRows_rows r⟩
  · intro before after h
    rw [toList_escapeHtml] at h
    exact exists_entity h
  · intro s t h
    rw [← hread s, h, hread t]

/-- A sample that ends its row, starts another and holds entities already is read back all the same. -/
theorem markup_read_back_hostile :
    let sample := "</pre></td>\n</tr>\n<tr>\n<td valign='top'>&lt;&amp;#39;\"</td>"
    let r : Registry := ⟨[("demo>", ⟨"Demo>", { pingFactory with sample }⟩)]⟩
    '<' ∉ "team-events".toList ∧ (∀ e ∈ r.toList, '<' ∉ e.name.toList) ∧
      readRows (r.rows "team-events") = [some ⟨"Demo>", "/team-events/Demo>", sample⟩] := by
  intro sample r
  have hroot : '<' ∉ "team-events".toList := by decide
  have hnames : ∀ e ∈ r.toList, '<' ∉ e.name.toList := List.forall_mem_singleton.mpr (by decide)
  exact ⟨hroot, hnames, markup_read_back.2.2.2 r "team-events" hroot hnames⟩

end BuildHooks.Event
