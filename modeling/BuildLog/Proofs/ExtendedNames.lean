import BuildLog.Proofs.NamePatterns
import BuildLog.Proofs.ProbeOrder
import Mathlib.Data.List.TakeWhile

/-!
# Names with an extension

An extension is put behind the pattern of a name. Where the pattern has several alternatives, it comes to
stand behind the last of them only, and the others are accepted without it.

* `Signature.earlier`, `Signature.last`: the alternatives of the name;
* `Signature.accepts_ending`: what is accepted with an ending or without;
* `Signature.KeepsExtension`: a name with the extension is a name, and the extension;
* `Signature.keepsExtension_iff`: for which names that is so, and what is accepted in any case.
-/

namespace BuildLog

/-! ## Names without a directory -/

namespace Path

variable {style : PathStyle} {path text : Text}

theorem isSeparator_of_mem_name {c : Char} (h : c ∈ name style path) : style.isSeparator c = false := by
  rw [name, List.mem_reverse] at h
  simpa using List.mem_takeWhile_imp h

theorem name_eq_self (h : ∀ c ∈ text, style.isSeparator c = false) : name style text = text := by
  have htake : text.reverse.takeWhile (!style.isSeparator ·) = text.reverse := by
    rw [List.takeWhile_eq_self_iff]
    intro c hc
    simp [h c (List.mem_reverse.1 hc)]
  rw [name, htake, List.reverse_reverse]

/-- What a name starts with is a name. -/
theorem name_of_name_eq_append {front back : Text} (h : name style path = front ++ back) :
    name style front = front := by
  apply name_eq_self
  intro c hc
  have hmem : c ∈ name style path := by
    rw [h]
    exact List.mem_append_left back hc
  exact isSeparator_of_mem_name hmem

end Path

/-! ## The alternatives of a name -/

namespace Signature

variable {signature : Signature} {extension version line : Text} {invocation : Invocation}

/-- The draft of the pattern of the name. -/
def draft (signature : Signature) : Pattern.Draft :=
  match Pattern.Draft.blank.placeAll
    (Lexeme.list (nameSource signature.isPattern signature.name)) with
  | .ok draft => draft
  | .error _ => .blank

/-- The alternatives of the name in front of the last one. -/
def earlier (signature : Signature) : List Pattern :=
  signature.draft.branches.finished

/-- The last alternative of the name. -/
def last (signature : Signature) : Pattern :=
  Pattern.Branches.sequence signature.draft.branches.parts

/-- How the pattern of the name compares characters, by its flags for the whole. -/
def mode (signature : Signature) : Mode :=
  signature.draft.mode

/-- What is read of an ending behind the name: nothing, if the name ends in a comment that goes on. -/
def readEnding (signature : Signature) (ending : Text) : Text :=
  if Pattern.EndsOpen (nameSource signature.isPattern signature.name) then [] else ending

theorem placeAll_draft (signature : Signature) :
    Pattern.Draft.blank.placeAll (Lexeme.list (nameSource signature.isPattern signature.name)) =
        .ok signature.draft ∧ signature.draft.IsComplete := by
  obtain ⟨draft, hplace, hcomplete⟩ := Pattern.exists_ofText_iff.1 signature.exists_ofText_name
  have hdraft : signature.draft = draft := by
    rw [Signature.draft, hplace]
  rw [hdraft]
  exact ⟨hplace, hcomplete⟩

/-- The draft of a literal name is a row of characters. -/
theorem draft_of_literal (h : signature.isPattern = false) :
    signature.draft = Pattern.Draft.blank.addText signature.name := by
  rw [draft, nameSource, h, if_neg Bool.false_ne_true, Pattern.placeAll_escape]

/-- An alternative of the name in front of the last one accepts a text. -/
def AcceptsEarlier (signature : Signature) (text : Text) : Prop :=
  ∃ pattern ∈ signature.earlier, pattern.matchesIn signature.mode text = true

/-- The last alternative of the name accepts a text with an ending behind it, as far as that is read. -/
def AcceptsLast (signature : Signature) (ending text : Text) : Prop :=
  (Pattern.seq signature.last (.literal (signature.readEnding ending) .empty)).matchesIn
    signature.mode text = true

theorem addText_nil (draft : Pattern.Draft) : draft.addText [] = draft := rfl

/-- Without a version, a name is accepted by an alternative in front of the last one, or by the last one
with the ending behind it. -/
theorem accepts_ending (strategy : Strategy) (huses : strategy.usesVersion = false)
    (hsupports : signature.supports strategy = true) (version command : Text) :
    ∃ accepted, signature.accepts strategy .posix version command = .ok accepted ∧
      (accepted = true ↔ signature.AcceptsEarlier (Path.name .posix command) ∨
        signature.AcceptsLast (signature.ending strategy) (Path.name .posix command)) := by
  obtain ⟨hplace, hcomplete⟩ := signature.placeAll_draft
  have hextended := Pattern.Draft.placeAll_extension
    (if strategy.usesExtension then signature.extension.getD [] else []) hplace
  have hdraft : (if Pattern.EndsOpen (nameSource signature.isPattern signature.name)
      then signature.draft else signature.draft.addText (signature.ending strategy)) =
        signature.draft.addText (signature.readEnding (signature.ending strategy)) := by
    rw [readEnding, apply_ite signature.draft.addText, addText_nil]
  let draft := signature.draft.addText (signature.readEnding (signature.ending strategy))
  have hsource : Pattern.ofText (signature.source strategy version) = .ok draft.result := by
    rw [source, huses, if_neg Bool.false_ne_true]
    exact Pattern.ofText_eq_ok_iff.2 ⟨draft, hextended.trans (congrArg Except.ok hdraft),
      hcomplete.addText _, rfl⟩
  refine ⟨_, accepts_of_ofText hsupports (by simp [huses]) hsource .posix command, ?_⟩
  show draft.result.matchesAll false (Path.name .posix command) = true ↔ _
  rw [Pattern.matchesAll_result, Pattern.matchesIn_branches]
  show _ ∨ (Pattern.Branches.sequence
    (((signature.readEnding (signature.ending strategy)).map .char).reverse ++
      signature.draft.branches.parts)).matchesIn _ _ = true ↔ _
  rw [Pattern.matchesIn_parts_append]
  rfl

/-- The plain name is accepted by one of its alternatives. -/
theorem accepts_basename_iff (version command : Text) :
    signature.accepts .basename .posix version command = .ok true ↔
      signature.AcceptsEarlier (Path.name .posix command) ∨
        signature.last.matchesIn signature.mode (Path.name .posix command) = true := by
  have hsupports : signature.supports .basename = true := Bool.or_true _
  obtain ⟨accepted, haccepts, hiff⟩ := accepts_ending .basename rfl hsupports version command
  have hnothing : signature.readEnding (signature.ending .basename) = [] := ite_self _
  rw [haccepts, Except.ok.injEq, hiff, AcceptsLast, hnothing]
  rfl

/-! ## The law of extensions -/

/-- A name is one of a kind with an extension behind it. -/
def Extended (extension : Text) (kind : Text → Prop) (name : Text) : Prop :=
  ∃ front, name = front ++ '.' :: extension ∧ kind front

/-- A line is accepted with an extension exactly if its command has a name that is accepted, and the
extension behind it. -/
def KeepsExtension (signature : Signature) (extension version line : Text) (invocation : Invocation) :
    Prop :=
  signature.matchLine? .withExtension .posix version line = .ok (some invocation) ↔
    Extended extension (fun name => signature.accepts .basename .posix version name = .ok true)
      (Path.name .posix invocation.command)

/-- Nothing in the last alternative of a name reaches beyond its end: it asks nothing of places, its
quantifiers give back what they took, the case of letters counts, and no comment is left open. -/
structure EndsPlainly (signature : Signature) : Prop where
  regular : signature.last.isRegular = true
  gives : signature.last.hasPossessive = false
  respectsCase : signature.mode.ignoreCase = false
  closed : ¬ Pattern.EndsOpen (nameSource signature.isPattern signature.name)

theorem endsPlainly_of_literal (h : signature.isPattern = false) :
    signature.EndsPlainly ∧ signature.earlier = [] := by
  have hlast : signature.last = Pattern.literal signature.name .empty := by
    rw [last, draft_of_literal h]
    show Pattern.Branches.sequence ((signature.name.map .char).reverse ++ []) = _
    rw [List.append_nil, Pattern.Branches.sequence, Pattern.foldl_chars]
  refine ⟨⟨?_, ?_, ?_, ?_⟩, ?_⟩
  · rw [hlast, Pattern.isRegular_literal]
    rfl
  · rw [hlast, Pattern.hasPossessive_literal]
    rfl
  · rw [mode, draft_of_literal h]
    rfl
  · rw [nameSource, h, if_neg Bool.false_ne_true]
    exact Pattern.not_endsOpen_escape signature.name
  · rw [earlier, draft_of_literal h]
    rfl

/-- The last alternative with a text behind it, if nothing reaches beyond its end. -/
theorem acceptsLast_iff (h : signature.EndsPlainly) (suffix name : Text) :
    signature.AcceptsLast suffix name ↔
      ∃ front, name = front ++ suffix ∧ signature.last.matchesIn signature.mode front = true := by
  have hregular : (Pattern.seq signature.last (.literal suffix .empty)).isRegular = true := by
    simp [Pattern.isRegular, Pattern.isRegular_literal, h.regular]
  have hgives : (Pattern.seq signature.last (.literal suffix .empty)).hasPossessive = false := by
    simp [Pattern.hasPossessive, Pattern.hasPossessive_literal, h.gives]
  have hread : signature.readEnding suffix = suffix := if_neg h.closed
  have hliteral {back : Text} : Pattern.Spells signature.mode (.literal suffix .empty) back ↔
      back = suffix := Pattern.spells_literal_empty_iff h.respectsCase
  have hlast (front : Text) : signature.last.matchesIn signature.mode front = true ↔
      Pattern.Spells signature.mode signature.last front :=
    Pattern.matchesIn_iff_spells h.regular h.gives signature.mode front
  rw [AcceptsLast, hread, Pattern.matchesIn_iff_spells hregular hgives]
  constructor
  · rintro ⟨front, _, rfl, hfront, hsuffix⟩
    exact ⟨front, by rw [hliteral.1 hsuffix], (hlast front).2 hfront⟩
  · rintro ⟨front, rfl, hfront⟩
    exact ⟨front, suffix, rfl, (hlast front).1 hfront, hliteral.2 rfl⟩

/-- What the plain name accepts, with an extension behind it, goes by its alternatives. -/
theorem extended_accepts_iff (extension version command : Text) :
    Extended extension (fun name => signature.accepts .basename .posix version name = .ok true)
        (Path.name .posix command) ↔
      Extended extension signature.AcceptsEarlier (Path.name .posix command) ∨
        Extended extension (signature.last.matchesIn signature.mode · = true)
          (Path.name .posix command) := by
  have hfront {front : Text} (hname : Path.name .posix command = front ++ '.' :: extension) :
      signature.accepts .basename .posix version front = .ok true ↔ signature.AcceptsEarlier front ∨
        signature.last.matchesIn signature.mode front = true := by
    rw [accepts_basename_iff, Path.name_of_name_eq_append hname]
  constructor
  · rintro ⟨front, hname, haccepts⟩
    exact ((hfront hname).1 haccepts).imp (fun h => ⟨front, hname, h⟩) fun h => ⟨front, hname, h⟩
  · rintro (⟨front, hname, hearlier⟩ | ⟨front, hname, hlast⟩)
    · exact ⟨front, hname, (hfront hname).2 (.inl hearlier)⟩
    · exact ⟨front, hname, (hfront hname).2 (.inr hlast)⟩

/-- The answer to a line, with an extension. -/
theorem exists_answer_withExtension (hextension : signature.extension = some extension)
    (hne : extension ≠ []) (version : Text) (hline : Invocation.ofLine? line = some invocation) :
    ∃ accepted, signature.matchLine? .withExtension .posix version line =
        .ok (if accepted then some invocation else none) ∧
      (accepted = true ↔ signature.AcceptsEarlier (Path.name .posix invocation.command) ∨
        signature.AcceptsLast ('.' :: extension) (Path.name .posix invocation.command)) := by
  have hsupports : signature.supports .withExtension = true := by
    rw [supports, hextension]
    rfl
  obtain ⟨accepted, haccepts, hiff⟩ := accepts_ending .withExtension rfl hsupports version
    invocation.command
  rw [ending_of_usesExtension rfl hextension hne] at hiff
  exact ⟨accepted, matchLine?_of_accepts hline haccepts, hiff⟩

/-- Where nothing in the last alternative reaches beyond its end, the law holds for what this alternative
accepts, and where the others accept the same with the extension and without. -/
theorem keepsExtension_iff_of_endsPlainly (hextension : signature.extension = some extension)
    (hne : extension ≠ []) (version : Text) (hline : Invocation.ofLine? line = some invocation)
    (hends : signature.EndsPlainly) :
    signature.KeepsExtension extension version line invocation ↔
      Extended extension (signature.last.matchesIn signature.mode · = true)
          (Path.name .posix invocation.command) ∨
        (signature.AcceptsEarlier (Path.name .posix invocation.command) ↔
          Extended extension signature.AcceptsEarlier (Path.name .posix invocation.command)) := by
  obtain ⟨accepted, hanswer, hiff⟩ := exists_answer_withExtension hextension hne version hline
  have hlast : signature.AcceptsLast ('.' :: extension) (Path.name .posix invocation.command) ↔
      Extended extension (signature.last.matchesIn signature.mode · = true)
        (Path.name .posix invocation.command) :=
    acceptsLast_iff hends ('.' :: extension) _
  have hfound : signature.matchLine? .withExtension .posix version line = .ok (some invocation) ↔
      accepted = true := by
    rw [hanswer]
    cases accepted <;> simp
  -- the last alternative is a case of both sides
  have hsides {first second common : Prop} :
      (first ∨ common ↔ second ∨ common) ↔ common ∨ (first ↔ second) := by
    by_cases hcommon : common <;> simp [hcommon]
  unfold KeepsExtension
  rw [extended_accepts_iff, hfound, hiff, hlast]
  exact hsides

theorem keepsExtension_of_earlier_eq_nil (hextension : signature.extension = some extension)
    (hne : extension ≠ []) (version : Text) (hline : Invocation.ofLine? line = some invocation)
    (hends : signature.EndsPlainly) (hearlier : signature.earlier = []) :
    signature.KeepsExtension extension version line invocation := by
  have hnone (text : Text) : ¬ signature.AcceptsEarlier text := by
    rintro ⟨pattern, hmem, -⟩
    rw [hearlier] at hmem
    cases hmem
  apply (keepsExtension_iff_of_endsPlainly hextension hne version hline hends).2
  refine .inr ⟨fun h => absurd h (hnone _), ?_⟩
  rintro ⟨front, -, hfront⟩
  exact absurd hfront (hnone front)

/-- A comment that is left open at the end of a name goes on with the extension, so that names are accepted
as they are. -/
theorem acceptsLast_of_endsOpen
    (h : Pattern.EndsOpen (nameSource signature.isPattern signature.name)) (ending version command : Text) :
    signature.AcceptsEarlier (Path.name .posix command) ∨
        signature.AcceptsLast ending (Path.name .posix command) ↔
      signature.accepts .basename .posix version command = .ok true := by
  have hnothing : signature.readEnding ending = [] := if_pos h
  rw [accepts_basename_iff, AcceptsLast, hnothing]
  rfl

/-- **When an extension is just put behind a name.** A probe for names with an extension always has an
answer, and it accepts what an alternative of the name in front of the last one accepts as it is, and what
the last one accepts with the extension behind it. Where nothing in the last alternative reaches beyond
its end, the law of extensions holds for a line exactly if the last alternative accepts the name of its
command with the extension, or if the extension makes no difference to the earlier ones: so it holds
wherever there are none, and for every literal name. Where the name ends in an open comment, the extension
is not read, and the names without it are accepted. -/
theorem keepsExtension_iff (hextension : signature.extension = some extension) (hne : extension ≠ [])
    (version : Text) (hline : Invocation.ofLine? line = some invocation) :
    let name := Path.name .posix invocation.command
    let answer := signature.matchLine? .withExtension .posix version line
    (answer = .ok (some invocation) ∨ answer = .ok none) ∧
    (answer = .ok (some invocation) ↔
      signature.AcceptsEarlier name ∨ signature.AcceptsLast ('.' :: extension) name) ∧
    (signature.EndsPlainly →
      (signature.KeepsExtension extension version line invocation ↔
        Extended extension (signature.last.matchesIn signature.mode · = true) name ∨
          (signature.AcceptsEarlier name ↔ Extended extension signature.AcceptsEarlier name))) ∧
    (signature.EndsPlainly → signature.earlier = [] →
      signature.KeepsExtension extension version line invocation) ∧
    (signature.isPattern = false → signature.KeepsExtension extension version line invocation) ∧
    (Pattern.EndsOpen (nameSource signature.isPattern signature.name) →
      (answer = .ok (some invocation) ↔
        signature.accepts .basename .posix version invocation.command = .ok true)) := by
  intro name answer
  obtain ⟨accepted, hanswer, hiff⟩ := exists_answer_withExtension hextension hne version hline
  have hfound : answer = .ok (some invocation) ↔ accepted = true := by
    show signature.matchLine? .withExtension .posix version line = _ ↔ _
    rw [hanswer]
    cases accepted <;> simp
  refine ⟨?_, hfound.trans hiff, keepsExtension_iff_of_endsPlainly hextension hne version hline,
    keepsExtension_of_earlier_eq_nil hextension hne version hline, ?_, ?_⟩
  · show signature.matchLine? .withExtension .posix version line = _ ∨
      signature.matchLine? .withExtension .posix version line = _
    rw [hanswer]
    cases accepted
    · exact .inr rfl
    · exact .inl rfl
  · intro hliteral
    obtain ⟨hends, hearlier⟩ := endsPlainly_of_literal hliteral
    exact keepsExtension_of_earlier_eq_nil hextension hne version hline hends hearlier
  · intro hopen
    exact (hfound.trans hiff).trans (acceptsLast_of_endsOpen hopen ('.' :: extension) version _)

/-- A comment at the end of a name swallows the extension. -/
example :
    (Registry.portableFamily "(?x)tcc #c" .gnuC).matchLine? .withExtension .posix [] "tcc -c a.c".toList =
      .ok (some ⟨"tcc".toList, " -c a.c".toList⟩) := rfl

/-- Compilers for other machines are found with an extension as they are without. -/
theorem keepsExtension_iff_family :
    let signature := Registry.portableFamily ".+-tcc" .gnuC
    let line := "/opt/arm-none-eabi-tcc.exe -c a.c".toList
    let invocation : Invocation := ⟨"/opt/arm-none-eabi-tcc.exe".toList, " -c a.c".toList⟩
    (signature.extension = some Registry.executable ∧ Registry.executable ≠ [] ∧
      Invocation.ofLine? line = some invocation ∧ signature.EndsPlainly ∧ signature.earlier = []) ∧
    signature.KeepsExtension Registry.executable [] line invocation := by
  intro signature line invocation
  have hextension : signature.extension = some Registry.executable := rfl
  have hne : Registry.executable ≠ [] := by decide
  have hline : Invocation.ofLine? line = some invocation := rfl
  have hends : signature.EndsPlainly := ⟨rfl, rfl, rfl, by decide +kernel⟩
  obtain ⟨-, -, -, hlaw, -⟩ := keepsExtension_iff hextension hne [] hline
  exact ⟨⟨hextension, hne, hline, hends, rfl⟩, hlaw hends rfl⟩

/-- Of two alternatives, the first is accepted with an extension although it has none. -/
theorem not_keepsExtension_alternatives :
    let signature := Registry.portableFamily "gcc|cc" .gnuC
    let invocation : Invocation := ⟨"gcc".toList, " -c a.c".toList⟩
    signature.extension = some Registry.executable ∧
    Invocation.ofLine? "gcc -c a.c".toList = some invocation ∧
    ¬ signature.KeepsExtension Registry.executable [] "gcc -c a.c".toList invocation := by
  intro signature invocation
  refine ⟨rfl, rfl, ?_⟩
  intro hlaw
  obtain ⟨front, hname, -⟩ := hlaw.1 rfl
  have hlength : 3 = front.length + 4 := by
    have hboth := congrArg List.length hname
    rwa [List.length_append] at hboth
  omega

end Signature
end BuildLog
