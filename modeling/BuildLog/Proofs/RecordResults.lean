import BuildLog.Proofs.DetectorState
import BuildLog.Report

/-!
# Results of records

A record goes to the detector only if it has its three texts, and the detector sees nothing of it but the
command line.

* `Detector.process_of_error`, `Detector.process_of_ok`: what becomes of a value that is no record, and of
  one that is;
* `Detector.exists_run_of_process`: processing leads to no other detectors than asking for lines does;
* `Detector.process_cases`: a value that has a result is rejected, or the detector has an answer to it;
* `Detector.process_eq_badPattern_iff`, `Detector.process_eq_unshown_iff`: when a value has no result;
* `RecordResult.ToldAt`: the problem of a result is of the right kind and names the place of the record.
  `Detector.toldAt_of_process` and `Detector.lines_of_process`: so it is for every value, and all values
  that are not rejected are counted as lines.
-/

namespace BuildLog

/-- What is known of the value of a computation, if it has one, is known of that value. -/
theorem exists_of_toOption_map {ε α β : Type} {result : Except ε α} {part : α → β} {known : β}
    (h : result.toOption.map part = some known) : ∃ value, result = .ok value ∧ part value = known := by
  cases result with
  | error error => cases h
  | ok value => exact ⟨value, rfl, Option.some.inj h⟩

/-- The result of a record whose command line has an answer. -/
def RecordResult.ofAnswer (record : CompileCommand) (index : Option Int) (parsing : Bool) :
    Option Outcome → RecordResult
  | none =>
    let file := Path.resolve record.directory record.file
    .unmatched file record.directory
      ⟨.noMatch, Detector.unknownToolMessage record.command, some file, index, some record.command⟩
  | some outcome =>
    let parsed :=
      if parsing then some (Detector.parseArguments outcome record.directory) else none
    .matched (Path.resolve record.directory record.file) record.directory outcome parsed
      (Query.ofOutcome outcome parsed)

/-- The problem of a result, if there is one, is of the kind that the result shows, and it names the given
place. -/
def RecordResult.ToldAt (index : Option Int) : RecordResult → Prop
  | rejected diagnostic => diagnostic.kind = .structural ∧ diagnostic.index = index
  | unmatched _ _ diagnostic => diagnostic.kind = .noMatch ∧ diagnostic.index = index
  | matched .. => True

/-- The problem with a value that is no record is told if the message and the place can be shown. -/
theorem StructuralError.diagnostic_eq_ok_iff {error : StructuralError} {room : Nat} {index : Option Int}
    {diagnostic : Diagnostic} :
    error.diagnostic room index = .ok diagnostic ↔ ∃ message place, error.message room = .ok message ∧
      placeText index = .ok place ∧ diagnostic = ⟨.structural, message, none, index, none⟩ := by
  unfold StructuralError.diagnostic
  cases error.message room with
  | error fault => exact iff_of_false nofun (by simp)
  | ok message =>
    cases placeText index with
    | error fault => exact iff_of_false nofun (by simp)
    | ok place =>
      constructor
      · rintro ⟨⟩
        exact ⟨message, place, rfl, rfl, rfl⟩
      · rintro ⟨_, _, ⟨⟩, ⟨⟩, rfl⟩
        rfl

namespace Detector

variable {detector : Detector} {room : Nat} {value : Json} {index : Option Int} {parsing : Bool}

/-- A value that is no record does not reach the detector. -/
theorem process_of_error {error : StructuralError}
    (h : CompileCommand.validate value = .error error) :
    detector.process room value index parsing =
      ⟨((error.diagnostic room index).map .rejected).mapError .unshown, detector, []⟩ := by
  rw [process, h]

/-- Of a record, the detector sees the command line. -/
theorem process_of_ok {record : CompileCommand} (h : CompileCommand.validate value = .ok record) :
    detector.process room value index parsing =
      ⟨((detector.detect record.command).result.mapError .badPattern).map
          (.ofAnswer record index parsing),
        (detector.detect record.command).detector, (detector.detect record.command).expanded⟩ := by
  rw [process, h]
  simp only [processCommand]
  congr

/-- Processing leads to no other detectors than asking for lines does. -/
theorem exists_run_of_process (detector : Detector) (room : Nat) (value : Json)
    (index : Option Int) (parsing : Bool) :
    ∃ calls, (detector.process room value index parsing).detector = detector.run calls := by
  cases h : CompileCommand.validate value with
  | error error => exact ⟨[], by rw [process_of_error h]; rfl⟩
  | ok record => exact ⟨[.detect record.command], by rw [process_of_ok h]; rfl⟩

variable {result : RecordResult}

/-- A value that has a result is rejected, or it is a record and the detector has an answer to it. -/
theorem process_cases (h : (detector.process room value index parsing).result = .ok result) :
    (∃ error message, CompileCommand.validate value = .error error ∧
      error.message room = .ok message ∧
      result = .rejected ⟨.structural, message, none, index, none⟩ ∧
      (detector.process room value index parsing).detector = detector) ∨
    ∃ record answer, CompileCommand.validate value = .ok record ∧
      (detector.detect record.command).result = .ok answer ∧
      result = .ofAnswer record index parsing answer ∧
      (detector.process room value index parsing).detector =
        (detector.detect record.command).detector := by
  cases hvalue : CompileCommand.validate value with
  | error error =>
    rw [process_of_error hvalue] at h ⊢
    cases hdiagnostic : error.diagnostic room index with
    | error fault =>
      rw [hdiagnostic] at h
      cases h
    | ok diagnostic =>
      rw [hdiagnostic] at h
      cases h
      obtain ⟨message, place, hmessage, -, rfl⟩ := StructuralError.diagnostic_eq_ok_iff.1 hdiagnostic
      exact .inl ⟨error, message, rfl, hmessage, rfl, rfl⟩
  | ok record =>
    rw [process_of_ok hvalue] at h ⊢
    cases hanswer : (detector.detect record.command).result with
    | error error =>
      rw [hanswer] at h
      cases h
    | ok answer =>
      rw [hanswer] at h
      cases h
      exact .inr ⟨record, answer, rfl, hanswer, rfl, rfl⟩

/-- Only a record can bring out a fault in a pattern, where its tool is looked for. -/
theorem process_eq_badPattern_iff {error : PatternError} :
    (detector.process room value index parsing).result = .error (.badPattern error) ↔
      ∃ record, CompileCommand.validate value = .ok record ∧
        (detector.detect record.command).result = .error error := by
  cases hvalue : CompileCommand.validate value with
  | error structural =>
    rw [process_of_error hvalue]
    cases structural.diagnostic room index <;> simp [Except.map, Except.mapError]
  | ok record =>
    rw [process_of_ok hvalue]
    cases h : (detector.detect record.command).result <;> simp [Except.map, Except.mapError, h]

/-- Only a value that is no record can be such that its problem cannot be told. -/
theorem process_eq_unshown_iff {fault : Json.ShowingFault} :
    (detector.process room value index parsing).result = .error (.unshown fault) ↔
      ∃ error, CompileCommand.validate value = .error error ∧
        error.diagnostic room index = .error fault := by
  cases hvalue : CompileCommand.validate value with
  | error structural =>
    rw [process_of_error hvalue]
    cases h : structural.diagnostic room index <;> simp [Except.map, Except.mapError, h]
  | ok record =>
    rw [process_of_ok hvalue]
    cases (detector.detect record.command).result <;> simp [Except.map, Except.mapError]

/-- A problem names the place of its record. -/
theorem toldAt_of_process (h : (detector.process room value index parsing).result = .ok result) :
    result.ToldAt index := by
  rcases process_cases h with ⟨error, message, -, -, rfl, -⟩ | ⟨record, answer, -, -, rfl, -⟩
  · exact ⟨rfl, rfl⟩
  · cases answer with
    | none => exact ⟨rfl, rfl⟩
    | some outcome => trivial

/-- A value that is not rejected is one more line that the remembered probe accepts or a scan goes
for. -/
theorem lines_of_process (h : (detector.process room value index parsing).result = .ok result) :
    (detector.process room value index parsing).detector.hits +
        (detector.process room value index parsing).detector.scans +
        Statistics.countKind .structural result.diagnostics =
      detector.hits + detector.scans + 1 := by
  rcases process_cases h with
    ⟨error, message, -, -, rfl, heq⟩ | ⟨record, answer, -, hanswer, rfl, heq⟩
  · rw [heq]
    rfl
  · have hnone : Statistics.countKind .structural
        (RecordResult.ofAnswer record index parsing answer).diagnostics = 0 := by
      cases answer <;> rfl
    have hcounted := (answered_of_detect hanswer).counted
    rw [heq, hnone]
    omega

end Detector
end BuildLog
