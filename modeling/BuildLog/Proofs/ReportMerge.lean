import BuildLog.Report
import Mathlib.Data.List.Induction
import Mathlib.Data.List.Nodup

/-!
# A report is the merge of its results

A report is made by adding one result after the other, and each addition changes several lists. What
comes out can be told from the results as a whole.

* `Grouped.ofKeys`: each key once, in the order of appearance, with a value;
* `Report.gathered`: the entries of all results with the same key, merged;
* `Report.merged`: the report of some results, without a word about the order of additions.
  `Report.merge_of_results`: this is the report that the additions make.
-/

namespace BuildLog

/-! ## First appearances -/

section

variable {α : Type} [DecidableEq α] [BEq α] [LawfulBEq α]

theorem eraseDups_concat (items : List α) (item : α) :
    (items ++ [item]).eraseDups = addNew items.eraseDups item := by
  rw [List.eraseDups_append, addNew]
  by_cases hmem : item ∈ items
  · simp [List.removeAll, hmem]
  · simp [List.removeAll, List.eraseDups_cons, hmem]

/-- Adding what is new keeps the first appearances. -/
theorem foldl_addNew_eraseDups (known items : List α) :
    items.foldl addNew known.eraseDups = (known ++ items).eraseDups := by
  induction items generalizing known with
  | nil => simp
  | cons item items ih =>
    rw [List.foldl_cons, ← eraseDups_concat, ih, List.append_assoc]
    rfl

theorem nodup_eraseDups (items : List α) : items.eraseDups.Nodup := by
  induction items using List.reverseRecOn with
  | nil => exact List.nodup_nil
  | append_singleton items item ih =>
    rw [eraseDups_concat, addNew]
    split
    · exact ih
    · rename_i hnew
      have hapart : ∀ known ∈ items.eraseDups, known ≠ item := fun known hknown hsame =>
        hnew (hsame ▸ hknown)
      simpa [List.nodup_append, ih] using hapart

theorem eraseDups_of_nodup {items : List α} (h : items.Nodup) : items.eraseDups = items := by
  induction items using List.reverseRecOn with
  | nil => rfl
  | append_singleton items item ih =>
    obtain ⟨hnodup, -, hapart⟩ := List.nodup_append.1 h
    have hnew : item ∉ items := fun hmem => hapart item hmem item (List.mem_singleton_self item) rfl
    rw [eraseDups_concat, ih hnodup, addNew, if_neg hnew]

omit [BEq α] [LawfulBEq α] in
/-- The images of some elements and of one that may be new: it does not matter if the element was left
out, because its image is there then. -/
theorem eraseDups_map_addNew {β : Type} [DecidableEq β] [BEq β] [LawfulBEq β] (f : α → β)
    (items : List α) (item : α) :
    ((addNew items item).map f).eraseDups = addNew (items.map f).eraseDups (f item) := by
  rw [addNew]
  split
  · rename_i hmem
    rw [addNew, if_pos (List.mem_eraseDups.2 (List.mem_map_of_mem hmem))]
  · rw [List.map_append, List.map_singleton, eraseDups_concat]

theorem eraseDups_map_eraseDups {β : Type} [DecidableEq β] [BEq β] [LawfulBEq β] (f : α → β)
    (items : List α) : (items.eraseDups.map f).eraseDups = (items.map f).eraseDups := by
  induction items using List.reverseRecOn with
  | nil => rfl
  | append_singleton items item ih =>
    rw [eraseDups_concat, eraseDups_map_addNew, ih, List.map_append, List.map_singleton,
      eraseDups_concat]

end

/-! ## Values under keys -/

namespace Grouped

variable {α : Type} {keys : List Text} {key : Text} {value next : Text → α} {fresh : α}
  {change : α → α}

/-- Each key once, in the order of appearance, with its value. -/
def ofKeys (keys : List Text) (value : Text → α) : Grouped α :=
  keys.eraseDups.map fun key => (key, value key)

theorem alter_of_not_mem (h : key ∉ keys) :
    alter (keys.map fun key => (key, value key)) key fresh change =
      keys.map (fun key => (key, value key)) ++ [(key, change fresh)] := by
  induction keys with
  | nil => rfl
  | cons other keys ih =>
    rw [List.mem_cons, not_or] at h
    rw [List.map_cons, alter, if_neg (Ne.symm h.1), ih h.2, List.cons_append]

theorem alter_of_mem (hnodup : keys.Nodup) (h : key ∈ keys) (hkey : next key = change (value key))
    (hother : ∀ other, other ≠ key → next other = value other) :
    alter (keys.map fun key => (key, value key)) key fresh change =
      keys.map fun key => (key, next key) := by
  induction keys with
  | nil => cases h
  | cons other keys ih =>
    obtain ⟨hnew, hnodup⟩ := List.nodup_cons.1 hnodup
    rw [List.map_cons, alter]
    by_cases hsame : other = key
    · subst hsame
      have hrest : keys.map (fun key => (key, value key)) = keys.map fun key => (key, next key) :=
        List.map_congr_left fun key hmem => by rw [hother key (fun h => hnew (h ▸ hmem))]
      rw [if_pos rfl, hrest, List.map_cons, hkey]
    · have hmem : key ∈ keys := (List.mem_cons.1 h).resolve_left (Ne.symm hsame)
      rw [if_neg hsame, ih hnodup hmem, List.map_cons, hother other hsame]

/-- A value changed, where a key that is new has had the fresh value before. -/
theorem alter_ofKeys (hfresh : key ∉ keys → value key = fresh) (hkey : next key = change (value key))
    (hother : ∀ other, other ≠ key → next other = value other) :
    (ofKeys keys value).alter key fresh change = ofKeys (keys ++ [key]) next := by
  rw [ofKeys, ofKeys, eraseDups_concat, addNew]
  by_cases hmem : key ∈ keys
  · rw [if_pos (List.mem_eraseDups.2 hmem)]
    exact alter_of_mem (nodup_eraseDups keys) (List.mem_eraseDups.2 hmem) hkey hother
  · have hnew : key ∉ keys.eraseDups := fun h => hmem (List.mem_eraseDups.1 h)
    have hsame : keys.eraseDups.map (fun key => (key, value key)) =
        keys.eraseDups.map fun key => (key, next key) :=
      List.map_congr_left fun other h => by rw [hother other (fun heq => hnew (heq ▸ h))]
    rw [if_neg hnew, alter_of_not_mem hnew, List.map_append, List.map_singleton, hkey, hfresh hmem,
      hsame]

end Grouped

/-! ## Results -/

namespace RecordResult

/-- The entries of a record; there are none if its arguments were not parsed. -/
def entries (result : RecordResult) : List Entry :=
  (result.parsed?.map (·.entries)).getD []

/-- Whether a record has any entries. -/
def hasEntries (result : RecordResult) : Bool :=
  !result.entries.isEmpty

/-- The name of the detected tool. -/
def tool? (result : RecordResult) : Option Text :=
  result.outcome?.map (·.probe.signature.name)

/-- The language of the detected tool. -/
def language? (result : RecordResult) : Option Text :=
  result.outcome?.map (·.probe.signature.toolchain.language)

/-- Whether the tool of a record was detected. -/
def isDetected (result : RecordResult) : Bool :=
  result.outcome?.isSome

/-- A result without a detected tool says nothing that a report gathers. -/
theorem of_not_isDetected {result : RecordResult} (h : result.isDetected = false) :
    result.tool? = none ∧ result.query? = none ∧ result.hasEntries = false := by
  cases result with
  | rejected diagnostic => exact ⟨rfl, rfl, rfl⟩
  | unmatched file directory diagnostic => exact ⟨rfl, rfl, rfl⟩
  | matched file directory outcome parsed query => cases h

end RecordResult

namespace Report

variable {results : List RecordResult} {result : RecordResult} {key : Text}

/-- The entries of the results with the same key, merged, for each key that has any entries. -/
def gathered (key? : RecordResult → Option Text) (merge : List Entry → List Entry)
    (results : List RecordResult) : Grouped (List Entry) :=
  .ofKeys ((results.filter (·.hasEntries)).filterMap key?) fun key =>
    merge ((results.filter (key? · == some key)).flatMap (·.entries))

/-- The directories to search among some entries, each once. -/
def searchPaths (entries : List Entry) : List Entry :=
  (entries.filter (·.isIncludePath)).eraseDups

/-- The report of some results. -/
def merged (source : Option Text) (results : List RecordResult) : Report :=
  { source := source
    results := results
    files := gathered (·.file?) id results
    projectPaths := gathered (·.language?) searchPaths results
    diagnostics := results.flatMap (·.diagnostics)
    tools := .ofKeys (results.filterMap (·.tool?)) fun tool =>
      (results.filterMap (·.tool?)).count tool
    queries := (results.filterMap (·.query?)).eraseDups
    hits := 0
    scans := 0 }

/-- A result without entries does not matter for what is gathered. -/
theorem gathered_of_not_hasEntries (key? : RecordResult → Option Text)
    (merge : List Entry → List Entry) (h : result.hasEntries = false) :
    gathered key? merge (results ++ [result]) = gathered key? merge results := by
  have hnone : result.entries = [] := by simpa [RecordResult.hasEntries] using h
  have hvalue (key : Text) :
      ((results ++ [result]).filter (key? · == some key)).flatMap (·.entries) =
        (results.filter (key? · == some key)).flatMap (·.entries) := by
    rw [List.filter_append, List.flatMap_append]
    by_cases hkey : key? result == some key <;> simp [hkey, hnone]
  have hkeys : (results ++ [result]).filter (·.hasEntries) = results.filter (·.hasEntries) := by
    simp [List.filter_append, h]
  simp only [gathered, hkeys, hvalue]

/-- A result with entries changes what is gathered under its key, if its entries can be merged behind
the others. -/
theorem alter_gathered {key? : RecordResult → Option Text} {merge change : List Entry → List Entry}
    (hkey : key? result = some key) (hentries : result.hasEntries = true) (hnil : merge [] = [])
    (hmerge : ∀ known, merge (known ++ result.entries) = change (merge known)) :
    (gathered key? merge results).alter key [] change =
      gathered key? merge (results ++ [result]) := by
  have hkeys : ((results ++ [result]).filter (·.hasEntries)).filterMap key? =
      (results.filter (·.hasEntries)).filterMap key? ++ [key] := by
    simp [List.filter_append, hentries, hkey]
  rw [gathered, gathered, hkeys]
  refine Grouped.alter_ofKeys ?_ ?_ ?_
  · -- the results with a new key have no entries so far
    intro hnew
    have hempty : (results.filter (key? · == some key)).flatMap (·.entries) = [] := by
      simp only [List.flatMap_eq_nil_iff, List.mem_filter, beq_iff_eq]
      rintro other ⟨hmem, hother⟩
      by_contra hne
      refine hnew (List.mem_filterMap.2 ⟨other, List.mem_filter.2 ⟨hmem, ?_⟩, hother⟩)
      simpa [RecordResult.hasEntries] using hne
    rw [hempty, hnil]
  · rw [← hmerge]
    simp [List.filter_append, hkey]
  · intro other hother
    have hne : ¬ key? result == some other := by simpa [hkey] using hother.symm
    simp [List.filter_append, hne]

theorem searchPaths_append (known entries : List Entry) :
    searchPaths (known ++ entries) =
      (entries.filter (·.isIncludePath)).foldl addNew (searchPaths known) := by
  rw [searchPaths, searchPaths, List.filter_append, foldl_addNew_eraseDups]

/-- One more result of a known tool is one more in the numbers of that tool. -/
theorem alter_tools (tools : List Text) (tool : Text) :
    (Grouped.ofKeys tools fun tool => tools.count tool).alter tool 0 (· + 1) =
      .ofKeys (tools ++ [tool]) fun other => (tools ++ [tool]).count other := by
  refine Grouped.alter_ofKeys List.count_eq_zero.2 ?_ ?_
  · simp
  · intro other hother
    simp [List.count_append, hother.symm]

/-- A result without a detected tool is kept with its problems, and nothing else changes. -/
theorem add_of_not_isDetected (report : Report) (h : result.isDetected = false) :
    report.add result =
      { report with
        results := report.results ++ [result]
        diagnostics := report.diagnostics ++ result.diagnostics } := by
  cases result with
  | rejected diagnostic => rfl
  | unmatched file directory diagnostic => rfl
  | matched file directory outcome parsed query => cases h

/-- A result with a detected tool is counted, and its query and entries are taken. -/
theorem exists_add_of_isDetected (report : Report) (h : result.isDetected = true) :
    ∃ file language tool query, result.file? = some file ∧ result.language? = some language ∧
      result.tool? = some tool ∧ result.query? = some query ∧
      report.add result =
        ({ report with
            results := report.results ++ [result]
            diagnostics := report.diagnostics ++ result.diagnostics
            tools := report.tools.alter tool 0 (· + 1)
            queries := addNew report.queries query } : Report).addEntries file language
          result.entries := by
  cases result with
  | rejected diagnostic => cases h
  | unmatched file directory diagnostic => cases h
  | matched file directory outcome parsed query =>
    exact ⟨file, _, _, query, rfl, rfl, rfl, rfl, rfl⟩

/-- One more result, added to the report of the others. -/
theorem add_merged (source : Option Text) (results : List RecordResult) (result : RecordResult) :
    (merged source results).add result = merged source (results ++ [result]) := by
  cases hdetected : result.isDetected with
  | false =>
    obtain ⟨htool, hquery, hentries⟩ := RecordResult.of_not_isDetected hdetected
    rw [add_of_not_isDetected _ hdetected]
    simp [merged, gathered_of_not_hasEntries _ _ hentries, htool, hquery]
  | true =>
    obtain ⟨file, language, tool, query, hfile, hlanguage, htool, hquery, hadd⟩ :=
      exists_add_of_isDetected (merged source results) hdetected
    rw [hadd, addEntries]
    cases hentries : result.hasEntries with
    | false =>
      rw [if_pos (by simpa [RecordResult.hasEntries] using hentries)]
      simp [merged, gathered_of_not_hasEntries _ _ hentries, alter_tools, htool, hquery,
        eraseDups_concat]
    | true =>
      have hfiles : (gathered (·.file?) id results).alter file [] (· ++ result.entries) =
          gathered (·.file?) id (results ++ [result]) :=
        alter_gathered hfile hentries rfl fun _ => rfl
      have hpaths : (gathered (·.language?) searchPaths results).alter language []
          (fun known => (result.entries.filter (·.isIncludePath)).foldl addNew known) =
            gathered (·.language?) searchPaths (results ++ [result]) :=
        alter_gathered hlanguage hentries rfl fun known => searchPaths_append known result.entries
      rw [if_neg (by simpa [RecordResult.hasEntries] using hentries)]
      simp [merged, hfiles, hpaths, alter_tools, htool, hquery, eraseDups_concat]

/-- What else is gathered does not depend on the results and problems that are there. -/
theorem add_with (report : Report) (known : List RecordResult) (problems : List Diagnostic)
    (result : RecordResult) :
    ({ report with results := known, diagnostics := problems } : Report).add result =
      { report.add result with
        results := known ++ [result]
        diagnostics := problems ++ result.diagnostics } := by
  cases result with
  | rejected diagnostic => rfl
  | unmatched file directory diagnostic => rfl
  | matched file directory outcome parsed query =>
    simp only [add, addEntries]
    split <;> rfl

/-- Only results with a detected tool matter, but for the results and the problems. -/
theorem merged_eq_filter (source : Option Text) (results : List RecordResult) :
    merged source results =
      { merged source (results.filter (·.isDetected)) with
        results := results
        diagnostics := results.flatMap (·.diagnostics) } := by
  induction results using List.reverseRecOn with
  | nil => rfl
  | append_singleton results result ih =>
    have hproblems : (results ++ [result]).flatMap (·.diagnostics) =
        results.flatMap (·.diagnostics) ++ result.diagnostics := by simp
    rw [← add_merged, ih, add_with, hproblems]
    cases hdetected : result.isDetected with
    | false => simp [add_of_not_isDetected _ hdetected, hdetected]
    | true => simp [add_merged, hdetected]

theorem foldl_add_start (source : Option Text) (results : List RecordResult) :
    results.foldl add (start source) = merged source results := by
  induction results using List.reverseRecOn with
  | nil => rfl
  | append_singleton results result ih =>
    rw [List.foldl_append, ih]
    exact add_merged source results result

/-- **A report is the merge of its results.** Results added one after the other give: the entries of each
file that has any, in the order of the results; for each language that has entries, the directories to
search, each once; the problems; the number of results of each tool; and the queries, each once. Results
without a detected tool matter for the results and the problems only. -/
theorem merge_of_results (source : Option Text) (results : List RecordResult) :
    results.foldl add (start source) = merged source results ∧
      merged source results =
        { merged source (results.filter (·.isDetected)) with
          results := results
          diagnostics := results.flatMap (·.diagnostics) } :=
  ⟨foldl_add_start source results, merged_eq_filter source results⟩

end Report
end BuildLog
