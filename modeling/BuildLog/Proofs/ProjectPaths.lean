import BuildLog.Proofs.ReportCounts
import BuildLog.ReportDocument

/-!
# The directories of a project

A report keeps the directories to search for each language, each once. There a directory of the system is
not the same as one that is none, even if both have the same path. A document only tells the paths.

* `Report.pathNames`: the paths as a document tells them;
* `Entry.eraseDups_names` and `Entry.nodup_names_iff`: paths stand where they appear first, and one of
  them is told again exactly if it appears with both marks;
* `Report.pathNames_of_ofRecords`: so it is in the report of every build log.
-/

namespace BuildLog

/-! ## Names of directories to search -/

namespace Entry

variable {entries : List Entry}

/-- A path is searched both as a directory of the system and as one that is none. -/
def BearsBothMarks (path : Text) (entries : List Entry) : Prop :=
  includePath path true ∈ entries ∧ includePath path false ∈ entries

theorem exists_eq_includePath {entry : Entry} (h : entry.isIncludePath = true) :
    ∃ system, entry = includePath entry.name system := by
  cases entry with
  | includePath path system => exact ⟨system, rfl⟩
  | _ => cases h

/-- Each entry once: the names still appear in the same order. -/
theorem eraseDups_names (entries : List Entry) :
    (entries.eraseDups.map (·.name)).eraseDups = (entries.map (·.name)).eraseDups :=
  eraseDups_map_eraseDups _ entries

/-- Each directory to search once: a name is left twice exactly if it bears both marks. -/
theorem nodup_names_iff (h : ∀ entry ∈ entries, entry.isIncludePath = true) :
    (entries.eraseDups.map (·.name)).Nodup ↔ ∀ path, ¬ BearsBothMarks path entries := by
  rw [List.nodup_map_iff_inj_on (nodup_eraseDups entries)]
  constructor
  · rintro hinjective path ⟨hsystem, hother⟩
    have hsame := hinjective _ (List.mem_eraseDups.2 hsystem) _ (List.mem_eraseDups.2 hother) rfl
    cases hsame
  · intro hmarks first hfirst second hsecond hname
    rw [List.mem_eraseDups] at hfirst hsecond
    obtain ⟨mark, hmark⟩ := exists_eq_includePath (h first hfirst)
    obtain ⟨other, hother⟩ := exists_eq_includePath (h second hsecond)
    rw [hmark] at hfirst
    rw [hother, ← hname] at hsecond
    rw [hmark, hother, ← hname]
    cases mark <;> cases other
    · rfl
    · exact absurd ⟨hsecond, hfirst⟩ (hmarks first.name)
    · exact absurd ⟨hfirst, hsecond⟩ (hmarks first.name)
    · rfl

/-- Each directory to search once: there is at most one for each mark. -/
theorem count_names_le (h : ∀ entry ∈ entries, entry.isIncludePath = true) (name : Text) :
    (entries.eraseDups.map (·.name)).count name ≤ 2 := by
  have hmarks : entries.eraseDups.filter (·.name == name) ⊆
      [includePath name false, includePath name true] := by
    intro entry hentry
    obtain ⟨hmem, hname⟩ := List.mem_filter.1 hentry
    obtain ⟨system, hsystem⟩ := exists_eq_includePath (h entry (List.mem_eraseDups.1 hmem))
    rw [eq_of_beq hname] at hsystem
    cases system <;> simp [hsystem]
  have hlength := (((nodup_eraseDups entries).filter _).subperm hmarks).length_le
  rw [List.count, List.countP_map, List.countP_eq_length_filter]
  exact hlength

end Entry

namespace Report

/-! ## Paths in a report -/

/-- The paths of the directories to search for each language, as a document tells them. -/
def pathNames (report : Report) : Grouped (List Text) :=
  report.projectPaths.map fun entry => (entry.1, entry.2.map (·.name))

/-- The directories to search that the results of a language name, one after the other. -/
def searched (language : Text) (results : List RecordResult) : List Entry :=
  ((results.filter (·.language? == some language)).flatMap (·.entries)).filter (·.isIncludePath)

theorem isIncludePath_of_mem_searched {language : Text} {results : List RecordResult} :
    ∀ entry ∈ searched language results, entry.isIncludePath = true :=
  fun _ hentry => (List.mem_filter.1 hentry).2

/-- A document holds the paths under their languages. -/
theorem exists_member_pathNames (report : Report) :
    ∃ members, report.toJson = .object members ∧
      Json.member? "project_include_paths".toList members =
        some (.object (report.pathNames.map fun entry => (entry.1, .array (entry.2.map .string)))) := by
  refine ⟨_, rfl, ?_⟩
  simp [Json.member?, pathNames, Function.comp_def]

/-- The paths of a language are those that its results name, each directory once. -/
theorem pathNames_eq {room : Nat} {detector : Detector} {parsing : Bool} {source : Option Text}
    {values : List Json} {report : Report}
    (h : ofRecords room detector parsing source values = .ok report) :
    report.pathNames =
      .ofKeys ((report.results.filter (·.hasEntries)).filterMap (·.language?)) fun language =>
        (searched language report.results).eraseDups.map (·.name) := by
  obtain ⟨results, last, -, rfl⟩ := exists_of_ofRecords h
  simp [pathNames, merged, gathered, Grouped.ofKeys, searchPaths, searched, Function.comp_def]

/-- **The directories of a project.** In the document of every report of a build log, each language
stands once, and its paths stand in the order in which they appear first in the results. A path is told at
most twice, and each path of a language is told just once exactly if none appears both as a directory of
the system and as one that is none. -/
theorem pathNames_of_ofRecords (room : Nat) (detector : Detector) (parsing : Bool)
    (source : Option Text) (values : List Json) (report : Report)
    (h : ofRecords room detector parsing source values = .ok report) :
    (∃ members, report.toJson = .object members ∧
      Json.member? "project_include_paths".toList members =
        some (.object (report.pathNames.map fun entry => (entry.1, .array (entry.2.map .string))))) ∧
    (report.pathNames.map (·.1)).Nodup ∧
    ∀ language names, (language, names) ∈ report.pathNames →
      names.eraseDups = ((searched language report.results).map (·.name)).eraseDups ∧
      (∀ name, names.count name ≤ 2) ∧
      (names.Nodup ∧ names = ((searched language report.results).map (·.name)).eraseDups ↔
        ∀ path, ¬ Entry.BearsBothMarks path (searched language report.results)) := by
  refine ⟨exists_member_pathNames report, ?_, ?_⟩
  · simpa [pathNames_eq h, Grouped.ofKeys, Function.comp_def] using nodup_eraseDups _
  · intro language names hmem
    rw [pathNames_eq h] at hmem
    obtain ⟨key, -, heq⟩ := List.mem_map.1 hmem
    cases heq
    have hinclude : ∀ entry ∈ searched language report.results, entry.isIncludePath = true :=
      isIncludePath_of_mem_searched
    refine ⟨Entry.eraseDups_names _, Entry.count_names_le hinclude, ?_⟩
    rw [← Entry.nodup_names_iff hinclude, ← Entry.eraseDups_names]
    exact and_iff_left_of_imp fun hnodup => (eraseDups_of_nodup hnodup).symm

/-- Two records that search the same directory: it is told once, in front of another one. -/
theorem pathNames_of_ofRecords_repeated :
    let record (command : String) : Json := .object [("file".toList, .string "a.c".toList),
      ("command".toList, .string command.toList), ("directory".toList, .string "/b".toList)]
    let values : List Json := [record "gcc -I/x -isystem /y -c a.c", record "gcc -I ../x -I/x -c a.c"]
    let detector : Detector := .start .default .known none
    let room : Nat := 0
    ∃ report, ofRecords room detector true none values = .ok report ∧
      report.pathNames = [("c".toList, ["/x".toList, "/y".toList])] ∧
      (∀ path, ¬ Entry.BearsBothMarks path (searched "c".toList report.results)) := by
  intro record values detector room
  have hnames : (ofRecords room detector true none values).toOption.map (·.pathNames) =
      some [("c".toList, ["/x".toList, "/y".toList])] := by
    decide +kernel
  obtain ⟨report, hreport, hpaths⟩ := exists_of_toOption_map hnames
  obtain ⟨-, -, htold⟩ := pathNames_of_ofRecords room detector true none values report hreport
  obtain ⟨hfirst, -, honce⟩ :=
    htold "c".toList ["/x".toList, "/y".toList] (hpaths ▸ List.mem_singleton_self _)
  have hnodup : ["/x".toList, "/y".toList].Nodup := by decide
  exact ⟨report, hreport, hpaths, honce.1 ⟨hnodup, (eraseDups_of_nodup hnodup).symm.trans hfirst⟩⟩

/-- A directory that one command line searches with both marks: its path is told twice. -/
theorem pathNames_not_nodup :
    let value : Json := .object [("file".toList, .string "a.c".toList),
      ("command".toList, .string "gcc -I/x -isystem /x -c a.c".toList),
      ("directory".toList, .string "/b".toList)]
    ∃ report names, ofRecords 0 (.start .default .known none) true none [value] = .ok report ∧
      ("c".toList, names) ∈ report.pathNames ∧ ¬ names.Nodup := by
  intro value
  have hnames : (ofRecords 0 (.start .default .known none) true none [value]).toOption.map
      (·.pathNames) = some [("c".toList, ["/x".toList, "/x".toList])] := by
    decide +kernel
  obtain ⟨report, hreport, hpaths⟩ := exists_of_toOption_map hnames
  exact ⟨report, _, hreport, hpaths ▸ List.mem_singleton_self _, by decide⟩

end Report
end BuildLog
