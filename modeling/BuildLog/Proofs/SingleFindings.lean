import BuildLog.Proofs.ReadingSteps
import BuildLog.Proofs.RuleOrder

/-!
# One finding at a time

A rule takes all that belongs to an option, or nothing: there is no finding without an argument that is
taken for it, and none is found twice.

* `Text.EndsAfter`: a number of characters that goes to the end of an argument;
* `OptionRule.endsAfter_take?`: what a rule takes ends where an argument ends, whatever its names and
  flags are;
* `AllOrNothing`: what may become of the findings when a reader is asked. `OptionRule.reader_allOrNothing`:
  the rules of the catalogue keep to that;
* `Toolchain.findings_all_or_nothing`: so there are as many findings in a line as steps that take something.
-/

namespace BuildLog

variable {directory text : Text}

/-! ## Ends of arguments -/

/-- Some characters of a text, but not none, with a blank behind them or nothing. -/
def Text.EndsAfter (text : Text) (width : Nat) : Prop :=
  0 < width ∧ width ≤ text.length ∧ startsBlank (text.drop width) = true

/-- A token that is read behind the start of a text ends there. -/
theorem Text.endsAfter_token (text : Text) (start : Nat) (hstart : start ≤ text.length)
    (hpos : 0 < start + (Token.read (text.drop start)).width) :
    text.EndsAfter (start + (Token.read (text.drop start)).width) := by
  refine ⟨hpos, ?_, ?_⟩
  · have hle := Token.width_read_le (text.drop start)
    rw [List.length_drop] at hle
    omega
  · rw [← List.drop_drop]
    exact Token.startsBlank_drop none (text.drop start)

theorem Token.width_read_pos (h : Text.startsBlank text = false) : 0 < (read text).width := by
  cases text with
  | nil => cases h
  | cons c text => exact width_pos h

namespace OptionForm

variable {form : OptionForm} {name rest : Text} {found : OptionMatch}

/-- An option with its value ends where the value does. -/
theorem endsAfter_of_valueAfter? (hblank : Text.startsBlank (name ++ rest) = false)
    (h : form.valueAfter? false name rest = .ok (some found)) :
    (name ++ rest).EndsAfter found.width := by
  have hdrop (count : Nat) : (name ++ rest).drop (name.length + count) = rest.drop count :=
    List.drop_length_add_append ..
  unfold valueAfter? at h
  split at h
  · -- behind an equals sign
    rename_i hequals
    cases h
    cases rest with
    | nil => simp at hequals
    | cons c rest =>
      have hend := Text.endsAfter_token (name ++ c :: rest) (name.length + 1)
        (by simp) (by omega)
      rwa [hdrop 1] at hend
  · split at h
    · -- joined to the name
      rename_i hrest
      split at h
      · cases h
        have hpos : 0 < (Token.read rest).width := Token.width_read_pos (by simpa using hrest)
        have hend := Text.endsAfter_token (name ++ rest) (name.length + 0)
          (by simp) (by rw [hdrop 0]; simp; omega)
        rwa [hdrop 0] at hend
      · cases h
    · split at h
      · cases h
      · split at h
        · cases h
        · -- the next token
          rename_i hall
          cases h
          have htrim : rest.drop (Text.leadingBlanks rest) = Text.trimStart rest :=
            Text.drop_leadingBlanks rest
          have hlength := Text.leadingBlanks_add_length_trimStart rest
          have hpos : 0 < (Token.read (Text.trimStart rest)).width := by
            apply Token.width_read_pos
            cases hcons : Text.trimStart rest with
            | nil =>
              have hblanks := Text.takeWhile_append_trimStart rest
              rw [hcons, List.append_nil] at hblanks
              rw [← hblanks] at hall
              exact absurd List.all_takeWhile hall
            | cons c tail => exact Text.isBlank_of_trimStart hcons
          have hend := Text.endsAfter_token (name ++ rest)
            (name.length + Text.leadingBlanks rest) (by simp; omega)
            (by rw [hdrop, htrim]; omega)
          rwa [hdrop, htrim] at hend

/-- So does an option in one of its forms, quoted or not. -/
theorem endsAfter_of_match? (hblank : Text.startsBlank text = false)
    (h : form.match? text = .ok (some found)) : text.EndsAfter found.width := by
  cases text with
  | nil => cases hblank
  | cons c text =>
    rw [match?] at h
    by_cases hquote : Token.isQuote c = true
    · rw [if_pos hquote, matchQuoted?] at h
      have hend := Text.endsAfter_token (c :: text) 0 (Nat.zero_le _)
        (by rw [Nat.zero_add]; exact Token.width_read_pos hblank)
      rw [Nat.zero_add] at hend
      cases hfirst : ({ form with separate := false } : OptionForm).firstMatch? true
        (Token.read (c :: text)).value form.names with
      | error error =>
        rw [hfirst] at h
        cases h
      | ok result =>
        rw [hfirst] at h
        cases result with
        | none => cases h
        | some value =>
          cases h
          exact hend
    · rw [if_neg hquote] at h
      obtain ⟨name, -, rest, htext, hvalue⟩ := exists_of_firstMatch?_eq_some h
      rw [← htext] at hblank ⊢
      exact endsAfter_of_valueAfter? hblank hvalue

end OptionForm

/-- What a rule takes ends where an argument ends. -/
theorem OptionRule.endsAfter_take? {rule : OptionRule} {finding : Finding} {width : Nat}
    (hblank : Text.startsBlank text = false)
    (h : rule.take? directory text = .ok (some (finding, width))) : text.EndsAfter width := by
  cases rule with
  | valued form meaning =>
    have hjoin := take?_valued form meaning directory text
    rw [h] at hjoin
    have hsome := hjoin.symm
    simp only [Except.toOption, Option.join_some, Option.bind_eq_some_iff,
      Option.ite_none_left_eq_some, Option.map_eq_some_iff, Prod.mk.injEq] at hsome
    obtain ⟨found, hfound, -, -, -, -, rfl⟩ := hsome
    exact OptionForm.endsAfter_of_match? hblank (eq_ok_some_of_join hfound)
  | flag flags =>
    simp only [take?, Except.ok.injEq, Option.ite_none_right_eq_some, Option.some.injEq,
      Prod.mk.injEq] at h
    obtain ⟨-, -, rfl⟩ := h
    have hsplit : text.takeWhile (!Text.isBlank ·) ++ text.dropWhile (!Text.isBlank ·) = text :=
      List.takeWhile_append_dropWhile
    have hdrop : text.drop (text.takeWhile (!Text.isBlank ·)).length =
        text.dropWhile (!Text.isBlank ·) :=
      calc text.drop (text.takeWhile (!Text.isBlank ·)).length
          = (text.takeWhile (!Text.isBlank ·) ++ text.dropWhile (!Text.isBlank ·)).drop
              (text.takeWhile (!Text.isBlank ·)).length := by rw [hsplit]
        _ = text.dropWhile (!Text.isBlank ·) := List.drop_left
    refine ⟨?_, (List.takeWhile_prefix _).length_le, ?_⟩
    · cases text with
      | nil => cases hblank
      | cons c text =>
        have hc : Text.isBlank c = false := hblank
        simp [hc]
    · rw [hdrop]
      exact Text.startsBlank_dropWhile text
  | machine =>
    simp only [take?, Except.ok.injEq, Option.map_eq_some_iff, Prod.mk.injEq] at h
    obtain ⟨taken, htaken, -, rfl⟩ := h
    obtain ⟨run, tail, rfl, -, -, htail, rfl⟩ := machineOptionWidth?_eq_some_iff.1 htaken
    refine ⟨by omega, by simp, ?_⟩
    simpa using htail

/-! ## Readers -/

/-- What may become of the findings when a reader is asked about a text. A reader that fails or takes
nothing leaves them as they were. One that takes something takes whole arguments, and there is one finding
more, behind the others. -/
def AllOrNothing (text : Text) (before : ParsedArguments) :
    ParsedArguments × Except ArgumentError Int → Prop
  | (after, .error _) => after = before
  | (after, .ok width) =>
    if width ≤ 0 then after = before
    else ∃ (taken : Nat) (finding : Finding), width = taken ∧ text.EndsAfter taken ∧
      after = before.add finding

/-- The rules of the catalogue find something or nothing, and no half of it. -/
theorem OptionRule.reader_allOrNothing (rule : OptionRule) (parsed : ParsedArguments)
    (directory : Text) (hblank : Text.startsBlank text = false) :
    AllOrNothing text parsed (rule.reader parsed directory text) := by
  unfold reader
  cases htake : rule.take? directory text with
  | error error => rfl
  | ok taken =>
    cases taken with
    | none => rfl
    | some taken =>
      obtain ⟨finding, width⟩ := taken
      have hends := endsAfter_take? hblank htake
      have hpos : ¬ ((width : Int) ≤ 0) := by
        have := hends.1
        omega
      show if (width : Int) ≤ 0 then _ else _
      rw [if_neg hpos]
      exact ⟨width, finding, rfl, hends, rfl⟩

/-- The number of findings. -/
def ParsedArguments.count (parsed : ParsedArguments) : Nat :=
  parsed.entries.length + parsed.builtinArguments.length

theorem ParsedArguments.count_add (parsed : ParsedArguments) (finding : Finding) :
    (parsed.add finding).count = parsed.count + 1 := by
  cases finding <;> simp [add, count] <;> omega

/-! ## Steps that take something -/

namespace Toolchain

variable {toolchain : Toolchain} {cursor : Cursor}

/-- Whether one of the readers takes something in a state. -/
def Cursor.claims (toolchain : Toolchain) (directory : Text) (cursor : Cursor) : Bool :=
  0 < (offer directory cursor.rest toolchain.readers cursor.parsed).2

/-- Some readers find something or nothing wherever an argument starts. -/
def FindWhole (directory : Text) (readers : List ArgumentReader) : Prop :=
  ∀ reader ∈ readers, ∀ text parsed, Text.startsBlank text = false →
    AllOrNothing text parsed (reader parsed directory text)

/-- Of such readers in a row, one finds something, or none does. -/
theorem offer_cases {readers : List ArgumentReader} (h : FindWhole directory readers)
    (hblank : Text.startsBlank text = false) (parsed : ParsedArguments) :
    offer directory text readers parsed = (parsed, 0) ∨
      ∃ finding width, offer directory text readers parsed = (parsed.add finding, width) ∧
        0 < width := by
  induction readers with
  | nil => exact .inl rfl
  | cons reader readers ih =>
    have hrest := ih fun other hother => h other (List.mem_cons_of_mem _ hother)
    have hone := h reader (List.mem_cons_self ..) text parsed hblank
    rw [offer]
    cases hread : reader parsed directory text with
    | mk after answer =>
      rw [hread] at hone
      cases answer with
      | error error =>
        obtain rfl : after = parsed := hone
        exact hrest
      | ok width =>
        change if width ≤ 0 then _ else _ at hone
        by_cases hwidth : width ≤ 0
        · rw [if_pos hwidth] at hone
          obtain rfl : after = parsed := hone
          simpa [Int.not_lt.2 hwidth] using hrest
        · rw [if_neg hwidth] at hone
          obtain ⟨taken, finding, rfl, -, rfl⟩ := hone
          refine .inr ⟨finding, taken, ?_, by omega⟩
          show (if 0 < (taken : Int) then _ else _) = _
          rw [if_pos (Int.not_le.1 hwidth), Int.toNat_natCast]

/-- A step that takes something adds one finding, and any other step none. -/
theorem next_parsed (h : FindWhole directory toolchain.readers)
    (hblank : Text.startsBlank cursor.rest = false) :
    if cursor.claims toolchain directory then
      ∃ finding, (cursor.next toolchain directory).parsed = cursor.parsed.add finding
    else (cursor.next toolchain directory).parsed = cursor.parsed := by
  have hstep : (cursor.next toolchain directory).parsed =
    (step toolchain.readers directory cursor.rest cursor.parsed).1 := rfl
  rw [hstep, step, Cursor.claims]
  rcases offer_cases h hblank cursor.parsed with hnone | ⟨finding, width, hsome, hpos⟩
  · simp [hnone]
  · obtain ⟨width, rfl⟩ := Nat.exists_eq_succ_of_ne_zero (Nat.ne_of_gt hpos)
    simp only [hsome, decide_true, if_true, Nat.succ_pos]
    exact ⟨finding, rfl⟩

/-- There is a finding for each step that takes something. -/
theorem count_parseFrom (h : FindWhole directory toolchain.readers) (cursor : Cursor)
    (htrimmed : cursor.IsTrimmed) :
    (parseFrom toolchain.readers directory 0 cursor.rest cursor.parsed).count =
      cursor.parsed.count +
        (toolchain.readings directory cursor).countP (·.claims toolchain directory) := by
  induction cursor, htrimmed using readingInduction toolchain directory with
  | finish cursor hnil =>
    rw [readings_of_nil hnil, hnil, parseFrom]
    rfl
  | step cursor hblank ih =>
    have hnext := next_parsed h hblank
    rw [← parseFrom_next hblank, ih, readings_of_not_blank hblank, List.countP_cons]
    by_cases hclaims : cursor.claims toolchain directory = true
    · rw [if_pos hclaims] at hnext
      obtain ⟨finding, hfinding⟩ := hnext
      rw [hfinding, ParsedArguments.count_add, if_pos hclaims]
      omega
    · rw [if_neg hclaims] at hnext
      rw [hnext, if_neg hclaims, Nat.add_zero]

/-- **There is no finding but for an argument that is taken.** When a rule is asked at the start of an
argument, whatever its names and flags are, it finds one thing and takes whole arguments for it, or it
leaves the findings as they were. So in every line there are as many findings as steps that take something,
each of these adds one finding, and no other step adds any. -/
theorem findings_all_or_nothing :
    (∀ (rule : OptionRule) (parsed : ParsedArguments) (directory text : Text),
      Text.startsBlank text = false → AllOrNothing text parsed (rule.reader parsed directory text)) ∧
    ∀ (language : String) (kind : BuiltinsKind) (rules : List OptionRule) (directory text : Text),
      let toolchain := ofRules language kind rules
      let parsed := toolchain.parse directory text
      let readings := toolchain.readings directory (.start text)
      parsed.entries.length + parsed.builtinArguments.length =
        readings.countP (·.claims toolchain directory) ∧
      ∀ state ∈ readings,
        if state.claims toolchain directory then
          ∃ finding, (state.next toolchain directory).parsed = state.parsed.add finding
        else (state.next toolchain directory).parsed = state.parsed := by
  refine ⟨fun rule parsed directory text hblank => rule.reader_allOrNothing parsed directory hblank, ?_⟩
  intro language kind rules directory text toolchain parsed readings
  have hreaders : FindWhole directory toolchain.readers := by
    intro reader hreader text parsed hblank
    obtain ⟨rule, -, rfl⟩ := List.mem_map.1 hreader
    exact rule.reader_allOrNothing parsed directory hblank
  have htrimmed : (Cursor.start text).IsTrimmed := Cursor.isTrimmed_trimStart ..
  constructor
  · have hcount := count_parseFrom hreaders _ htrimmed
    have hparse : parseFrom toolchain.readers directory 0 (Cursor.start text).rest
        (Cursor.start text).parsed = parsed :=
      parseFrom_trimStart ..
    have hnone : (Cursor.start text).parsed.count = 0 := rfl
    rwa [hparse, hnone, Nat.zero_add] at hcount
  · intro state hstate
    exact next_parsed hreaders (mem_readings _ htrimmed state hstate).2

/-- Even an option without a name takes whole arguments, or nothing. -/
theorem findings_all_or_nothing_empty_name :
    let rule : OptionRule := .valued { names := [[]], equals := true } (.define ['='])
    let text := "=A=1 B".toList
    Text.startsBlank text = false ∧
      AllOrNothing text .none (rule.reader .none "/b".toList text) ∧
      (ofRules "c" .none [rule]).parse "/b".toList text ≠ .none :=
  ⟨rfl, findings_all_or_nothing.1 _ _ _ _ rfl, by decide +kernel⟩

end Toolchain
end BuildLog
