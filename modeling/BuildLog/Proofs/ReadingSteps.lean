import BuildLog.Proofs.ArgumentRun
import Mathlib.Data.List.Forall2
import Mathlib.Data.List.Iterate

/-!
# The steps of a reading

Readers may be anything: one may take more than there is, or nothing, or fail, and may leave any
findings behind. A line is read to its end all the same.

* `Toolchain.readings`: the states in which the readers are asked, one after the other;
* `Toolchain.length_readings_le`: there are no more of them than characters that are no blanks, since
  each step goes beyond the character that it starts with;
* `Toolchain.parseFrom_congr`: what the readers would say elsewhere makes no difference;
* `Toolchain.reading_progress`: all this together, for every row of readers and every line.
-/

namespace BuildLog.Toolchain

variable {toolchain : Toolchain} {directory text : Text} {cursor : Cursor}

/-! ## One step -/

/-- The state in which the reading of a line starts. -/
def Cursor.start (text : Text) : Cursor :=
  ⟨Text.trimStart text, .none⟩

/-- What remains is at its end, or it starts with an argument. -/
def Cursor.IsTrimmed (cursor : Cursor) : Prop :=
  cursor.rest = [] ∨ Text.startsBlank cursor.rest = false

theorem Cursor.isTrimmed_trimStart (text : Text) (parsed : ParsedArguments) :
    Cursor.IsTrimmed ⟨Text.trimStart text, parsed⟩ := by
  unfold IsTrimmed
  cases htrim : Text.trimStart text with
  | nil => exact .inl rfl
  | cons c rest => exact .inr (Text.isBlank_of_trimStart htrim)

/-- A step goes beyond the character that it starts with. -/
theorem Cursor.next_isSuffix_tail (toolchain : Toolchain) (directory : Text)
    (h : Text.startsBlank cursor.rest = false) :
    (cursor.next toolchain directory).rest <:+ cursor.rest.tail := by
  have hpos : 0 < cursor.width toolchain directory := step_pos _ _ h _
  obtain ⟨width, hwidth⟩ := Nat.exists_eq_succ_of_ne_zero (Nat.ne_of_gt hpos)
  show Text.trimStart (cursor.rest.drop (cursor.width toolchain directory)) <:+ cursor.rest.tail
  rw [hwidth, ← List.drop_tail]
  exact (List.dropWhile_suffix _).trans (List.drop_suffix _ _)

/-- So there are fewer characters behind it that are no blanks. -/
theorem Cursor.count_next_lt (toolchain : Toolchain) (directory : Text)
    (h : Text.startsBlank cursor.rest = false) :
    (cursor.next toolchain directory).rest.countP (!Text.isBlank ·) <
      cursor.rest.countP (!Text.isBlank ·) := by
  have hsuffix := Cursor.next_isSuffix_tail toolchain directory h
  cases hrest : cursor.rest with
  | nil =>
    rw [hrest] at h
    cases h
  | cons c rest =>
    rw [hrest] at h hsuffix
    have hc : Text.isBlank c = false := h
    have hle := hsuffix.sublist.countP_le (p := (!Text.isBlank ·))
    have hcount : (c :: rest).countP (!Text.isBlank ·) = rest.countP (!Text.isBlank ·) + 1 := by
      simp [hc]
    rw [hcount]
    exact Nat.lt_succ_of_le hle

/-! ## All steps -/

/-- The states in which the readers are asked for an argument, from a state on. -/
def readings (toolchain : Toolchain) (directory : Text) (cursor : Cursor) : List Cursor :=
  if Text.startsBlank cursor.rest then []
  else cursor :: readings toolchain directory (cursor.next toolchain directory)
termination_by cursor.rest.countP (!Text.isBlank ·)
decreasing_by
  exact Cursor.count_next_lt toolchain directory (by simp_all)

theorem readings_of_nil (h : cursor.rest = []) : toolchain.readings directory cursor = [] := by
  rw [readings, h]
  rfl

theorem readings_of_not_blank (h : Text.startsBlank cursor.rest = false) :
    toolchain.readings directory cursor =
      cursor :: toolchain.readings directory (cursor.next toolchain directory) := by
  rw [readings, h]
  rfl

/-- What holds at the end of a line, and of a state if it holds of the next one, holds of every state. -/
theorem readingInduction (toolchain : Toolchain) (directory : Text)
    {motive : (cursor : Cursor) → cursor.IsTrimmed → Prop}
    (finish : ∀ (cursor : Cursor) (h : cursor.rest = []), motive cursor (.inl h))
    (step : ∀ (cursor : Cursor) (h : Text.startsBlank cursor.rest = false),
      motive (cursor.next toolchain directory) (Cursor.isTrimmed_trimStart ..) → motive cursor (.inr h))
    (cursor : Cursor) (h : cursor.IsTrimmed) : motive cursor h := by
  induction hcount : cursor.rest.countP (!Text.isBlank ·) using Nat.strongRecOn
    generalizing cursor with
  | _ count ih =>
    rcases h with hnil | hblank
    · exact finish cursor hnil
    · have hlt := Cursor.count_next_lt toolchain directory hblank
      apply step cursor hblank
      exact ih _ (hcount ▸ hlt) _ _ rfl

/-- There are no more steps than characters that are no blanks. -/
theorem length_readings_le (cursor : Cursor) (h : cursor.IsTrimmed) :
    (toolchain.readings directory cursor).length ≤ cursor.rest.countP (!Text.isBlank ·) := by
  induction cursor, h using readingInduction toolchain directory with
  | finish cursor hnil => simp [readings_of_nil hnil]
  | step cursor hblank ih =>
    have hlt := Cursor.count_next_lt toolchain directory hblank
    rw [readings_of_not_blank hblank, List.length_cons]
    omega

/-- Each state comes from the one before it. -/
theorem readings_eq_iterate (cursor : Cursor) (h : cursor.IsTrimmed) :
    toolchain.readings directory cursor = List.iterate (Cursor.next toolchain directory) cursor
      (toolchain.readings directory cursor).length := by
  induction cursor, h using readingInduction toolchain directory with
  | finish cursor hnil => rw [readings_of_nil hnil]; rfl
  | step cursor hblank ih =>
    rw [readings_of_not_blank hblank, List.length_cons, List.iterate, ← ih]

/-- Reading on behind a step finds the same. -/
theorem parseFrom_next (h : Text.startsBlank cursor.rest = false) :
    parseFrom toolchain.readers directory 0 (cursor.next toolchain directory).rest
        (cursor.next toolchain directory).parsed =
      parseFrom toolchain.readers directory 0 cursor.rest cursor.parsed := by
  rw [parseFrom_of_not_blank _ _ h _ (step_pos _ _ h _)]
  exact parseFrom_trimStart ..

/-- The last step ends with what is found in the line. -/
theorem iterate_readings (toolchain : Toolchain) (directory : Text) (cursor : Cursor)
    (h : cursor.IsTrimmed) :
    (Cursor.next toolchain directory)^[(toolchain.readings directory cursor).length] cursor =
      ⟨[], parseFrom toolchain.readers directory 0 cursor.rest cursor.parsed⟩ := by
  induction cursor, h using readingInduction toolchain directory with
  | finish cursor hnil =>
    obtain ⟨rest, parsed⟩ := cursor
    cases hnil
    rw [readings_of_nil rfl, parseFrom]
    rfl
  | step cursor hblank ih =>
    rw [readings_of_not_blank hblank, List.length_cons, Function.iterate_succ_apply, ih,
      parseFrom_next hblank]

/-- In each state, what remains is an end of the line that starts with an argument. -/
theorem mem_readings (cursor : Cursor) (h : cursor.IsTrimmed) :
    ∀ state ∈ toolchain.readings directory cursor,
      state.rest <:+ cursor.rest ∧ Text.startsBlank state.rest = false := by
  induction cursor, h using readingInduction toolchain directory with
  | finish cursor hnil => simp [readings_of_nil hnil]
  | step cursor hblank ih =>
    rw [readings_of_not_blank hblank]
    intro state hstate
    rcases List.mem_cons.1 hstate with rfl | hstate
    · exact ⟨List.suffix_rfl, hblank⟩
    · obtain ⟨hsuffix, hstart⟩ := ih state hstate
      have hnext := Cursor.next_isSuffix_tail toolchain directory hblank
      exact ⟨hsuffix.trans (hnext.trans (List.tail_suffix _)), hstart⟩

/-! ## Other readers -/

/-- Two readers say the same wherever an argument of a text starts. -/
def AgreeOn (directory text : Text) (reader other : ArgumentReader) : Prop :=
  ∀ parsed rest, rest <:+ text → Text.startsBlank rest = false →
    reader parsed directory rest = other parsed directory rest

variable {readers others : List ArgumentReader}

/-- Readers that say the same at an argument are as good as each other there. -/
theorem offer_congr (h : List.Forall₂ (AgreeOn directory text) readers others)
    (hblank : Text.startsBlank text = false) (parsed : ParsedArguments) :
    offer directory text readers parsed = offer directory text others parsed := by
  induction h generalizing parsed with
  | nil => rfl
  | cons hsame _ ih => simp only [offer, hsame parsed text List.suffix_rfl hblank, ih]

/-- Readers that say the same wherever an argument starts find the same in a line. -/
theorem parseFrom_congr (h : List.Forall₂ (AgreeOn directory text) readers others) (skip : Nat)
    (parsed : ParsedArguments) :
    parseFrom readers directory skip text parsed = parseFrom others directory skip text parsed := by
  induction text generalizing skip parsed with
  | nil => cases skip <;> rfl
  | cons c text ih =>
    have hrest : List.Forall₂ (AgreeOn directory text) readers others := by
      apply h.imp
      intro reader other hsame parsed rest hsuffix
      exact hsame parsed rest (hsuffix.trans (List.suffix_cons c text))
    cases skip with
    | succ skip => exact ih hrest skip parsed
    | zero =>
      by_cases hblank : Text.isBlank c = true
      · rw [parseFrom, parseFrom, if_pos hblank, if_pos hblank]
        exact ih hrest 0 parsed
      · have hoffer := offer_congr h (by simpa [Text.startsBlank] using hblank) parsed
        have hstep : step readers directory (c :: text) parsed =
            step others directory (c :: text) parsed := by
          rw [step, step, hoffer]
        rw [parseFrom, parseFrom, if_neg hblank, if_neg hblank, hstep]
        exact ih hrest _ _

/-! ## Progress -/

/-- **Every line is read to its end**, whatever the readers do. There are no more steps than characters in
the line that are no blanks, each state comes from the one before, and the last step ends with what is
found. The readers are asked at ends of the line that start with an argument, and nowhere else: what they
would say about other texts makes no difference. -/
theorem reading_progress (toolchain : Toolchain) (directory text : Text) :
    let next := Cursor.next toolchain directory
    let readings := toolchain.readings directory (.start text)
    readings.length ≤ text.countP (!Text.isBlank ·) ∧
    readings = List.iterate next (.start text) readings.length ∧
    next^[readings.length] (.start text) = ⟨[], toolchain.parse directory text⟩ ∧
    (∀ state ∈ readings, state.rest <:+ text ∧ Text.startsBlank state.rest = false) ∧
    ∀ others, List.Forall₂ (AgreeOn directory text) toolchain.readers others →
      parse { toolchain with readers := others } directory text = toolchain.parse directory text := by
  intro next readings
  have htrimmed : (Cursor.start text).IsTrimmed := Cursor.isTrimmed_trimStart ..
  have hsuffix : (Cursor.start text).rest <:+ text := List.dropWhile_suffix _
  refine ⟨?_, readings_eq_iterate _ htrimmed, ?_, ?_, ?_⟩
  · apply (length_readings_le _ htrimmed).trans
    exact hsuffix.sublist.countP_le
  · have hend := iterate_readings toolchain directory _ htrimmed
    rw [Cursor.start, parseFrom_trimStart] at hend
    exact hend
  · intro state hstate
    obtain ⟨hrest, hstart⟩ := mem_readings _ htrimmed state hstate
    exact ⟨hrest.trans hsuffix, hstart⟩
  · intro others hothers
    exact (parseFrom_congr hothers 0 .none).symm

/-- A reader that always takes more than there is finds the same as one that fails in front of blanks and
at the end of a line. -/
theorem reading_progress_beyond_end :
    let greedy : ArgumentReader := fun parsed _ text => (parsed.add (.builtin text), .ok 100)
    let failing : ArgumentReader := fun parsed _ text =>
      if Text.startsBlank text then (.none, .error (.missingValue text))
      else (parsed.add (.builtin text), .ok 100)
    let toolchain : Toolchain := ⟨"c".toList, .gcc, [greedy]⟩
    let text := " -x  y".toList
    List.Forall₂ (AgreeOn "/b".toList text) toolchain.readers [failing] ∧
    parse { toolchain with readers := [failing] } "/b".toList text =
      toolchain.parse "/b".toList text ∧
    (toolchain.readings "/b".toList (.start text)).length ≤ 3 := by
  intro greedy failing toolchain text
  have hsame : List.Forall₂ (AgreeOn "/b".toList text) toolchain.readers [failing] := by
    refine .cons ?_ .nil
    intro parsed rest _ hstart
    simp [greedy, failing, hstart]
  obtain ⟨hlength, -, -, -, hothers⟩ := reading_progress toolchain "/b".toList text
  exact ⟨hsame, hothers [failing] hsame, hlength⟩

end BuildLog.Toolchain
