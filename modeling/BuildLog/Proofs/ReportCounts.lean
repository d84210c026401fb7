import BuildLog.Proofs.RecordResults
import BuildLog.Proofs.ReportMerge
import Mathlib

/-!
# The numbers of a report

The numbers of a report come from four places: from the results, from the problems, from the counts of the
tools and from the detector. They agree, because each record is counted exactly once in each of them.

* `Detector.Processes`: the results of values that a detector processes one after the other;
* `Report.addAll_eq_ok_iff`: a report is made of just these results;
* `Report.Conserves`: what a report owes to the values it is made from. `Report.conserves_of_ofRecords`:
  every report does.
-/

namespace BuildLog

/-! ## Values one after the other -/

/-- A detector processes values from the given place on and gives these results; then it has become the
last detector. -/
inductive Detector.Processes (room : Nat) (parsing : Bool) :
    Nat → Detector → List Json → List RecordResult → Detector → Prop where
  | nil (index : Nat) (detector : Detector) : Processes room parsing index detector [] [] detector
  | cons {index : Nat} {detector last : Detector} {value : Json} {values : List Json}
      {result : RecordResult} {results : List RecordResult}
      (first : (detector.process room value (some index) parsing).result = .ok result)
      (rest : Processes room parsing (index + 1)
        (detector.process room value (some index) parsing).detector values results last) :
      Processes room parsing index detector (value :: values) (result :: results) last

namespace Report

/-- The values of a build log are processed one after the other, and their results are added. -/
theorem addAll_eq_ok_iff {room : Nat} {parsing : Bool} {index : Nat} {values : List Json} {report : Report}
    {detector : Detector} {after : Report × Detector} :
    addAll room parsing index values (report, detector) = .ok after ↔
      ∃ results, detector.Processes room parsing index values results after.2 ∧
        after.1 = results.foldl add report := by
  induction values generalizing index report detector with
  | nil =>
    obtain ⟨last, finished⟩ := after
    constructor
    · intro h
      cases h
      exact ⟨[], .nil index detector, rfl⟩
    · rintro ⟨results, hresults, rfl⟩
      cases hresults
      rfl
  | cons value values ih =>
    rw [addAll]
    constructor
    · intro h
      cases hresult : (detector.process room value (some index) parsing).result with
      | error error =>
        simp only [hresult] at h
        cases h
      | ok result =>
        simp only [hresult] at h
        obtain ⟨results, hrest, hafter⟩ := ih.1 h
        exact ⟨result :: results, .cons hresult hrest, hafter⟩
    · rintro ⟨results, hresults, hafter⟩
      cases hresults with
      | cons hresult hrest =>
        simp only [hresult]
        exact ih.2 ⟨_, hrest, hafter⟩

end Report

/-! ## One result -/

theorem Statistics.countKind_append (kind : DiagnosticKind) (first second : List Diagnostic) :
    countKind kind (first ++ second) = countKind kind first + countKind kind second :=
  List.countP_append

namespace RecordResult

variable {result : RecordResult} {index : Option Int}

/-- A result is a success, or it has one problem, which names its place. -/
theorem ToldAt.indices (h : result.ToldAt index) :
    result.diagnostics.map (·.index) = if result.success then [] else [index] := by
  cases result with
  | rejected diagnostic => simp [diagnostics, success, outcome?, h.2]
  | unmatched file directory diagnostic => simp [diagnostics, success, outcome?, h.2]
  | matched => rfl

/-- Each result counts once: as detected, as rejected or as one of an unknown tool. -/
theorem ToldAt.counted_once (h : result.ToldAt index) :
    [result].countP (·.outcome?.isSome) + Statistics.countKind .structural result.diagnostics +
      Statistics.countKind .noMatch result.diagnostics = 1 := by
  cases result with
  | rejected diagnostic => simp [Statistics.countKind, diagnostics, outcome?, h.1]
  | unmatched file directory diagnostic => simp [Statistics.countKind, diagnostics, outcome?, h.1]
  | matched => rfl

theorem length_diagnostics_le (result : RecordResult) : result.diagnostics.length ≤ 1 := by
  cases result <;> simp [diagnostics]

end RecordResult

/-! ## Results with their places -/

/-- The places of the results that are no success, counted from the given one on. -/
def Report.failures (index : Nat) (results : List RecordResult) : List Nat :=
  ((results.zipIdx index).filter fun entry => !entry.1.success).map (·.2)

theorem Report.failures_pairwise (index : Nat) (results : List RecordResult) :
    (failures index results).Pairwise (· < ·) := by
  have hplaces : ((results.zipIdx index).map (·.2)).Pairwise (· < ·) := by
    rw [List.zipIdx_map_snd]
    exact List.pairwise_lt_range'
  exact hplaces.sublist (List.filter_sublist.map _)

theorem Report.mem_failures_iff {results : List RecordResult} {place : Nat} {result : RecordResult}
    (h : results[place]? = some result) : place ∈ failures 0 results ↔ result.success = false := by
  simp [failures, List.mem_zipIdx_iff_getElem?, h]

namespace Detector.Processes

variable {room : Nat} {parsing : Bool} {index : Nat} {detector last : Detector} {values : List Json}
  {results : List RecordResult}

theorem length_eq (h : detector.Processes room parsing index values results last) :
    results.length = values.length := by
  induction h with
  | nil => rfl
  | cons _ _ ih => rw [List.length_cons, List.length_cons, ih]

/-- The problems name the places of the results that are no success. -/
theorem indices (h : detector.Processes room parsing index values results last) :
    (results.flatMap (·.diagnostics)).map (·.index) =
      (Report.failures index results).map fun place : Nat => some (place : Int) := by
  induction h with
  | nil => rfl
  | @cons index detector last value values result results first rest ih =>
    rw [List.flatMap_cons, List.map_append, ih, (toldAt_of_process first).indices]
    cases hsuccess : result.success <;> simp [Report.failures, List.zipIdx_cons, hsuccess]

/-- Each value is counted once: as detected, as rejected or as one of an unknown tool. -/
theorem counted_once (h : detector.Processes room parsing index values results last) :
    results.countP (·.outcome?.isSome) +
        Statistics.countKind .structural (results.flatMap (·.diagnostics)) +
        Statistics.countKind .noMatch (results.flatMap (·.diagnostics)) = results.length := by
  induction h with
  | nil => rfl
  | @cons index detector last value values result results first rest ih =>
    have honce := (toldAt_of_process first).counted_once
    rw [List.countP_cons, List.flatMap_cons, Statistics.countKind_append,
      Statistics.countKind_append, List.length_cons]
    rw [List.countP_singleton] at honce
    omega

/-- Each value that is not rejected is a line that the remembered probe accepts or a scan goes for. -/
theorem lines (h : detector.Processes room parsing index values results last) :
    last.hits + last.scans + Statistics.countKind .structural (results.flatMap (·.diagnostics)) =
      detector.hits + detector.scans + results.length := by
  induction h with
  | nil => rfl
  | cons first rest ih =>
    have hline := lines_of_process first
    rw [List.flatMap_cons, Statistics.countKind_append, List.length_cons]
    omega

/-- A problem names the place of its result. -/
theorem index_eq (h : detector.Processes room parsing index values results last) :
    ∀ entry ∈ results.zipIdx index, ∀ diagnostic ∈ entry.1.diagnostics,
      diagnostic.index = some (entry.2 : Int) := by
  induction h with
  | nil => simp
  | @cons index detector last value values result results first rest ih =>
    rw [List.zipIdx_cons, List.forall_mem_cons]
    refine ⟨?_, ih⟩
    intro diagnostic hdiagnostic
    have hindices := (toldAt_of_process first).indices
    have hmem : diagnostic.index ∈ result.diagnostics.map (·.index) := List.mem_map_of_mem hdiagnostic
    rw [hindices] at hmem
    split at hmem
    · cases hmem
    · exact List.mem_singleton.1 hmem

end Detector.Processes

/-! ## The counts of the tools -/

theorem Grouped.sum_alter (tools : Grouped Nat) (tool : Text) :
    ((tools.alter tool 0 (· + 1)).map (·.2)).sum = (tools.map (·.2)).sum + 1 := by
  induction tools with
  | nil => rfl
  | cons entry tools ih =>
    obtain ⟨other, count⟩ := entry
    rw [alter]
    split
    · simp only [List.map_cons, List.sum_cons]
      omega
    · simp only [List.map_cons, List.sum_cons, ih]
      omega

namespace Report

/-- The counts of the tools add up. -/
theorem sum_counts (tools : List Text) :
    ((Grouped.ofKeys tools fun tool => tools.count tool).map (·.2)).sum = tools.length := by
  induction tools using List.reverseRecOn with
  | nil => rfl
  | append_singleton tools tool ih =>
    rw [← alter_tools, Grouped.sum_alter, ih, List.length_append, List.length_singleton]

theorem sum_tools_merged (source : Option Text) (results : List RecordResult) :
    ((merged source results).tools.map (·.2)).sum = results.countP (·.outcome?.isSome) := by
  simp only [merged, sum_counts]
  rw [List.length_filterMap_eq_countP]
  simp [RecordResult.tool?]

/-! ## Whole reports -/

/-- What a report owes to the values that a detector has made it from. -/
structure Conserves (room : Nat) (detector : Detector) (parsing : Bool) (values : List Json)
    (report : Report) : Prop where
  /-- There is one result for each value, in the same order: that of the detector as it is then. -/
  processed : ∃ last, detector.Processes room parsing 0 values report.results last
  records : report.statistics.records = values.length
  /-- Each value is counted once by its result and its problems. -/
  kinds : report.statistics.records =
    report.statistics.detected + report.statistics.rejected + report.statistics.unknownTools
  tools : (report.statistics.tools.map (·.2)).sum = report.statistics.detected
  /-- The detector has counted all values that are not rejected. -/
  lines : report.statistics.hits + report.statistics.scans =
    report.statistics.records - report.statistics.rejected
  diagnostics : report.diagnostics = report.results.flatMap (·.diagnostics)
  atMostOne : ∀ result ∈ report.results, result.diagnostics.length ≤ 1
  /-- The problems name places in increasing order. -/
  increasing : ∃ places : List Nat, places.Pairwise (· < ·) ∧
    report.diagnostics.map (·.index) = places.map fun place : Nat => some (place : Int)
  /-- A problem names the place of its value. -/
  placed : ∀ (place : Nat) (result : RecordResult), report.results[place]? = some result →
    ∀ diagnostic ∈ result.diagnostics, diagnostic.index = some (place : Int)
  /-- A value without a problem is a success. -/
  success : ∀ (place : Nat) (result : RecordResult), report.results[place]? = some result →
    (result.success = true ↔ ∀ diagnostic ∈ report.diagnostics, diagnostic.index ≠ some (place : Int))

/-- A report holds the merge of the results and the counters of the detector. -/
theorem exists_of_ofRecords {room : Nat} {detector : Detector} {parsing : Bool} {source : Option Text}
    {values : List Json} {report : Report}
    (h : ofRecords room detector parsing source values = .ok report) :
    ∃ results last, detector.Processes room parsing 0 values results last ∧
      report = { merged source results with hits := last.hits, scans := last.scans } := by
  unfold ofRecords at h
  cases hall : addAll room parsing 0 values (start source, detector) with
  | error error =>
    rw [hall] at h
    cases h
  | ok after =>
    rw [hall] at h
    cases h
    obtain ⟨results, hprocessed, hafter⟩ := addAll_eq_ok_iff.1 hall
    rw [foldl_add_start] at hafter
    exact ⟨results, after.2, hprocessed, by rw [← hafter]⟩

/-- **No record is lost.** Every report of a new detector has one result for each value, in order, and all
its numbers agree. A value is a success exactly if no problem names its place. -/
theorem conserves_of_ofRecords (room : Nat) (settings : Settings) (registry : Registry)
    (expander : Option Expander) (parsing : Bool) (source : Option Text) (values : List Json)
    (report : Report)
    (h : ofRecords room (.start settings registry expander) parsing source values = .ok report) :
    Conserves room (.start settings registry expander) parsing values report := by
  obtain ⟨results, last, hprocessed, rfl⟩ := exists_of_ofRecords h
  have honce := hprocessed.counted_once
  have hlines := hprocessed.lines
  have hindices := hprocessed.indices
  refine
    { processed := ⟨last, hprocessed⟩
      records := hprocessed.length_eq
      kinds := ?kinds
      tools := sum_tools_merged source results
      lines := ?lines
      diagnostics := rfl
      atMostOne := fun result _ => result.length_diagnostics_le
      increasing := ⟨failures 0 results, failures_pairwise 0 results, hindices⟩
      placed := ?placed
      success := ?success }
  case kinds =>
    simp only [statistics, merged]
    omega
  case lines =>
    simp only [statistics, merged]
    simp only [Detector.start] at hlines
    omega
  case placed =>
    intro place result hplace
    exact hprocessed.index_eq (result, place) (List.mem_zipIdx_iff_getElem?.2 hplace)
  case success =>
    intro place result hplace
    replace hplace : results[place]? = some result := hplace
    have hnamed : (∃ diagnostic ∈ results.flatMap (·.diagnostics),
        diagnostic.index = some (place : Int)) ↔ result.success = false := by
      have hinjective : Function.Injective fun place : Nat => some (place : Int) :=
        fun _ _ hsame => Int.ofNat_inj.1 (Option.some.inj hsame)
      rw [← mem_failures_iff hplace, ← List.mem_map, hindices, List.mem_map_of_injective hinjective]
    rw [← Bool.not_eq_false, ← hnamed]
    simp [merged]

/-- Six values: two records of one tool, one of another, one of no known tool, a blank command and a
number. -/
theorem conserves_of_ofRecords_mixed :
    let record (file command : String) : Json := .object [("file".toList, .string file.toList),
      ("command".toList, .string command.toList), ("directory".toList, .string "/b".toList)]
    let values : List Json := [record "a.c" "gcc -Iinc -c a.c", .int 7, record "b.c" "gcc -c b.c",
      record "c.c" "make -j4", record "d.cpp" "g++ -DX=1 -c d.cpp", record "e.c" " "]
    let detector : Detector := .start .default .known none
    let room : Nat := 0
    ∃ report, ofRecords room detector true none values = .ok report ∧
      Conserves room detector true values report ∧
      report.statistics.tools = [("gcc".toList, 2), ("g++".toList, 1)] ∧
      report.statistics.hits = 1 ∧ report.statistics.scans = 3 ∧
      report.diagnostics.map (·.index) = [some 1, some 3, some 5] := by
  intro record values detector room
  have hnumbers : (ofRecords room detector true none values).toOption.map (fun report =>
      (report.statistics.tools, report.statistics.hits, report.statistics.scans,
        report.diagnostics.map (·.index))) =
      some ([("gcc".toList, 2), ("g++".toList, 1)], 1, 3, [some 1, some 3, some 5]) := by
    decide +kernel
  cases hreport : ofRecords room detector true none values with
  | error error =>
    rw [hreport] at hnumbers
    cases hnumbers
  | ok report =>
    rw [hreport] at hnumbers
    simp only [Except.toOption, Option.map_some, Option.some.injEq, Prod.mk.injEq] at hnumbers
    exact ⟨report, rfl, conserves_of_ofRecords room .default .known none true none values report hreport,
      hnumbers⟩

end Report
end BuildLog
