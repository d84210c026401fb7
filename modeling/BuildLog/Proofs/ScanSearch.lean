import BuildLog.Proofs.ProbeOrder

/-!
# Searching and scanning

* `Detection.first?_eq_some_iff` and its companions: a search through a row of probes ends at the first
  one that does not refuse the command;
* `Detection.Reachable`: a probe with no fault on the way to it. A search that stopped there once will
  stop there or before whenever the probe accepts a command (`exists_first?_of_accepts`);
* `Detection.scan_result`: a scan is a search through `order`, and after that through the probes for
  Windows with the long form of the command;
* `Detection.recognized_of_scan`: what a scan finds is recognized by its probe.
-/

namespace BuildLog.Detection

variable {registry : Registry} {version line : Text} {withBackslash : Bool}
  {expander : Option Expander} {invocation : Invocation} {probe : Probe} {probes : List Probe}

/-! ## Searching a row of probes -/

/-- The answer of a search that goes on elsewhere if it finds nothing. -/
def orElse (answer further : Except PatternError (Option Outcome)) :
    Except PatternError (Option Outcome) :=
  match answer with
  | .ok none => further
  | found => found

@[simp] theorem orElse_error (error : PatternError) (further : Except PatternError (Option Outcome)) :
    orElse (.error error) further = .error error := rfl

@[simp] theorem orElse_some (outcome : Outcome) (further : Except PatternError (Option Outcome)) :
    orElse (.ok (some outcome)) further = .ok (some outcome) := rfl

@[simp] theorem orElse_none (further : Except PatternError (Option Outcome)) :
    orElse (.ok none) further = further := rfl

theorem orElse_of_ne_none {answer : Except PatternError (Option Outcome)} (h : answer ≠ .ok none)
    (further : Except PatternError (Option Outcome)) : orElse answer further = answer := by
  cases answer with
  | error error => exact orElse_error error further
  | ok found =>
    cases found with
    | none => exact absurd rfl h
    | some outcome => exact orElse_some outcome further

/-- Past a probe that refuses a command, a search goes on. -/
theorem first?_cons_of_refuses (h : probe.accepts version invocation.command = .ok false) :
    first? version invocation (probe :: probes) = first? version invocation probes := by
  rw [first?, h]

theorem first?_cons_of_accepts (h : probe.accepts version invocation.command = .ok true) :
    first? version invocation (probe :: probes) = .ok (some ⟨probe, invocation⟩) := by
  rw [first?, h]

theorem first?_cons_of_fault {error : PatternError}
    (h : probe.accepts version invocation.command = .error error) :
    first? version invocation (probe :: probes) = .error error := by
  rw [first?, h]

/-- A row of probes is searched part by part. -/
theorem first?_append (earlier later : List Probe) :
    first? version invocation (earlier ++ later) =
      orElse (first? version invocation earlier) (first? version invocation later) := by
  induction earlier with
  | nil => exact (orElse_none _).symm
  | cons probe earlier ih =>
    rw [List.cons_append]
    match haccepts : probe.accepts version invocation.command with
    | .error fault => rw [first?_cons_of_fault haccepts, first?_cons_of_fault haccepts, orElse_error]
    | .ok true =>
      rw [first?_cons_of_accepts haccepts, first?_cons_of_accepts haccepts, orElse_some]
    | .ok false =>
      rw [first?_cons_of_refuses haccepts, first?_cons_of_refuses haccepts, ih]

/-- Past probes that all refuse a command, a search goes on. -/
theorem first?_append_of_refuse {earlier : List Probe} (later : List Probe)
    (h : ∀ probe ∈ earlier, probe.accepts version invocation.command = .ok false) :
    first? version invocation (earlier ++ later) = first? version invocation later := by
  induction earlier with
  | nil => rfl
  | cons probe earlier ih =>
    rw [List.cons_append, first?_cons_of_refuses (h probe (List.mem_cons_self ..))]
    exact ih fun other hother => h other (List.mem_cons_of_mem _ hother)

/-- A search finds nothing if all probes refuse the command. -/
theorem first?_eq_none_iff :
    first? version invocation probes = .ok none ↔
      ∀ probe ∈ probes, probe.accepts version invocation.command = .ok false := by
  constructor
  · intro h
    induction probes with
    | nil => simp
    | cons probe probes ih =>
      match haccepts : probe.accepts version invocation.command with
      | .error fault =>
        rw [first?_cons_of_fault haccepts] at h
        cases h
      | .ok true =>
        rw [first?_cons_of_accepts haccepts] at h
        cases h
      | .ok false =>
        rw [first?_cons_of_refuses haccepts] at h
        exact List.forall_mem_cons.2 ⟨haccepts, ih h⟩
  · intro h
    have hsearch := first?_append_of_refuse [] h
    rwa [List.append_nil] at hsearch

/-- Where a search that does not find nothing ends: behind probes that refuse the command. -/
theorem exists_of_first?_ne_none (h : first? version invocation probes ≠ .ok none) :
    ∃ earlier probe later, probes = earlier ++ probe :: later ∧
      (∀ other ∈ earlier, other.accepts version invocation.command = .ok false) ∧
      probe.accepts version invocation.command ≠ .ok false := by
  induction probes with
  | nil => exact absurd rfl h
  | cons probe probes ih =>
    by_cases haccepts : probe.accepts version invocation.command = .ok false
    · rw [first?_cons_of_refuses haccepts] at h
      obtain ⟨earlier, last, later, rfl, hearlier, hlast⟩ := ih h
      exact ⟨probe :: earlier, last, later, rfl, List.forall_mem_cons.2 ⟨haccepts, hearlier⟩, hlast⟩
    · exact ⟨[], probe, probes, rfl, by simp, haccepts⟩

/-- A search finds the first probe that accepts the command. -/
theorem first?_eq_some_iff {outcome : Outcome} :
    first? version invocation probes = .ok (some outcome) ↔
      outcome.invocation = invocation ∧ outcome.probe.accepts version invocation.command = .ok true ∧
        ∃ earlier later, probes = earlier ++ outcome.probe :: later ∧
          ∀ other ∈ earlier, other.accepts version invocation.command = .ok false := by
  constructor
  · intro h
    have hfound : first? version invocation probes ≠ .ok none := by rw [h]; nofun
    obtain ⟨earlier, probe, later, rfl, hearlier, hprobe⟩ := exists_of_first?_ne_none hfound
    rw [first?_append_of_refuse _ hearlier] at h
    match haccepts : probe.accepts version invocation.command with
    | .error fault =>
      rw [first?_cons_of_fault haccepts] at h
      cases h
    | .ok false => exact absurd haccepts hprobe
    | .ok true =>
      rw [first?_cons_of_accepts haccepts] at h
      cases h
      exact ⟨rfl, haccepts, earlier, later, rfl, hearlier⟩
  · rintro ⟨rfl, haccepts, earlier, later, rfl, hearlier⟩
    rw [first?_append_of_refuse _ hearlier, first?_cons_of_accepts haccepts]

/-- A search ends with a fault if the first probe that does not refuse the command has one. -/
theorem first?_eq_error_iff {error : PatternError} :
    first? version invocation probes = .error error ↔
      ∃ earlier probe later, probes = earlier ++ probe :: later ∧
        (∀ other ∈ earlier, other.accepts version invocation.command = .ok false) ∧
        probe.accepts version invocation.command = .error error := by
  constructor
  · intro h
    have hfound : first? version invocation probes ≠ .ok none := by rw [h]; nofun
    obtain ⟨earlier, probe, later, rfl, hearlier, hprobe⟩ := exists_of_first?_ne_none hfound
    rw [first?_append_of_refuse _ hearlier] at h
    refine ⟨earlier, probe, later, rfl, hearlier, ?_⟩
    match haccepts : probe.accepts version invocation.command with
    | .error fault =>
      rw [first?_cons_of_fault haccepts] at h
      cases h
      rfl
    | .ok false => exact absurd haccepts hprobe
    | .ok true =>
      rw [first?_cons_of_accepts haccepts] at h
      cases h
  · rintro ⟨earlier, probe, later, rfl, hearlier, haccepts⟩
    rw [first?_append_of_refuse _ hearlier, first?_cons_of_fault haccepts]

/-- Among probes without faults a search has an answer. -/
theorem exists_first?_eq_ok (invocation : Invocation)
    (h : ∀ probe ∈ probes, probe.Faultless version) :
    ∃ answer, first? version invocation probes = .ok answer := by
  cases hsearch : first? version invocation probes with
  | ok answer => exact ⟨answer, rfl⟩
  | error fault =>
    obtain ⟨earlier, faulty, later, rfl, -, hfaulty⟩ := first?_eq_error_iff.1 hsearch
    exact absurd hfaulty (Probe.accepts_ne_error (h faulty (by simp)) invocation.command fault)

/-- In a sorted row, the probes that precede one of them are those in front of it. -/
theorem precedes_iff_mem {earlier later : List Probe}
    (hsorted : (earlier ++ probe :: later).Pairwise Probe.Precedes) {other : Probe} :
    other ∈ earlier ↔ other ∈ earlier ++ probe :: later ∧ other.Precedes probe := by
  obtain ⟨-, hrest, hacross⟩ := List.pairwise_append.1 hsorted
  constructor
  · intro h
    exact ⟨List.mem_append_left _ h, hacross other h probe (by simp)⟩
  · rintro ⟨h, hprecedes⟩
    rcases List.mem_append.1 h with h | h
    · exact h
    · rcases List.mem_cons.1 h with rfl | h
      · exact absurd hprecedes (Probe.Precedes.irrefl other)
      · exact absurd hprecedes ((List.pairwise_cons.1 hrest).1 other h).asymm

/-- A search in a sorted row ends with a fault if a faulty probe comes before all that accept. -/
theorem exists_first?_eq_error_iff (hsorted : probes.Pairwise Probe.Precedes) :
    (∃ error, first? version invocation probes = .error error) ↔
      ∃ probe ∈ probes, ¬ probe.Faultless version ∧ ∀ other ∈ probes, other.Precedes probe →
        other.accepts version invocation.command = .ok false := by
  constructor
  · rintro ⟨error, h⟩
    obtain ⟨earlier, probe, later, rfl, hearlier, hfault⟩ := first?_eq_error_iff.1 h
    refine ⟨probe, by simp, ?_, fun other hother hprecedes => ?_⟩
    · intro hfaultless
      exact Probe.accepts_ne_error hfaultless invocation.command error hfault
    · exact hearlier other ((precedes_iff_mem hsorted).2 ⟨hother, hprecedes⟩)
  · rintro ⟨probe, hprobe, hfaulty, hearlier⟩
    obtain ⟨before, after, rfl⟩ := List.append_of_mem hprobe
    obtain ⟨error, hfault⟩ := Probe.exists_error_of_not_faultless hfaulty invocation.command
    refine ⟨error, first?_eq_error_iff.2 ⟨before, probe, after, rfl, ?_, hfault⟩⟩
    intro other hother
    obtain ⟨hmem, hprecedes⟩ := (precedes_iff_mem hsorted).1 hother
    exact hearlier other hmem hprecedes

/-- A probe where a search can stop: none of the probes up to it has a fault. -/
def Reachable (version : Text) (probes : List Probe) (probe : Probe) : Prop :=
  ∃ earlier later, probes = earlier ++ probe :: later ∧
    (∀ other ∈ earlier, other.Faultless version) ∧ probe.Faultless version

theorem Reachable.mem (h : Reachable version probes probe) : probe ∈ probes := by
  obtain ⟨earlier, later, rfl, -⟩ := h
  simp

theorem Reachable.append {earlier : List Probe} (h : Reachable version probes probe)
    (hearlier : ∀ other ∈ earlier, other.Faultless version) :
    Reachable version (earlier ++ probes) probe := by
  obtain ⟨before, later, rfl, hbefore, hprobe⟩ := h
  refine ⟨earlier ++ before, later, (List.append_assoc ..).symm, ?_, hprobe⟩
  intro other hother
  rcases List.mem_append.1 hother with hother | hother
  · exact hearlier other hother
  · exact hbefore other hother

/-- What a search found can be reached. -/
theorem reachable_of_first? {outcome : Outcome}
    (h : first? version invocation probes = .ok (some outcome)) :
    Reachable version probes outcome.probe := by
  obtain ⟨-, haccepts, earlier, later, hprobes, hearlier⟩ := first?_eq_some_iff.1 h
  exact ⟨earlier, later, hprobes,
    fun other hother => Probe.faultless_of_accepts (hearlier other hother),
    Probe.faultless_of_accepts haccepts⟩

/-- A search that meets no fault on the way to a probe that accepts the command ends there or before. -/
theorem exists_first?_of_accepts (hreachable : Reachable version probes probe)
    (hsorted : probes.Pairwise Probe.Precedes)
    (haccepts : probe.accepts version invocation.command = .ok true) :
    ∃ found, first? version invocation probes = .ok (some found) ∧
      found.invocation = invocation ∧ ¬ probe.Precedes found.probe := by
  obtain ⟨earlier, later, rfl, hearlier, -⟩ := hreachable
  obtain ⟨answer, hsearch⟩ := exists_first?_eq_ok invocation hearlier
  cases answer with
  | none =>
    refine ⟨⟨probe, invocation⟩, ?_, rfl, Probe.Precedes.irrefl probe⟩
    rw [first?_append_of_refuse _ (first?_eq_none_iff.1 hsearch), first?_cons_of_accepts haccepts]
  | some found =>
    refine ⟨found, by rw [first?_append, hsearch, orElse_some], (first?_eq_some_iff.1 hsearch).1, ?_⟩
    have hfound := (reachable_of_first? hsearch).mem
    have hprecedes := (List.pairwise_append.1 hsorted).2.2 _ hfound probe (by simp)
    exact hprecedes.asymm

/-! ## Scans -/

/-- An invocation with the long form of its command, if the command has short names and the expander
knows another form. -/
def longForm? (expander : Option Expander) (invocation : Invocation) : Option Invocation :=
  expander.bind fun expand =>
    if Path.hasShortName invocation.command = true ∧ expand invocation.command ≠ invocation.command
    then some ⟨expand invocation.command, invocation.arguments⟩
    else none

/-- A long form is what the expander makes of a command with short names, and never the command itself. -/
theorem longForm?_eq_some_iff {long : Invocation} :
    longForm? expander invocation = some long ↔
      ∃ expand, expander = some expand ∧ Path.hasShortName invocation.command = true ∧
        expand invocation.command ≠ invocation.command ∧
        long = ⟨expand invocation.command, invocation.arguments⟩ := by
  cases expander with
  | none => simp [longForm?]
  | some expand =>
    simp only [longForm?, Option.bind_some, Option.ite_none_right_eq_some, Option.some.injEq,
      exists_eq_left', and_assoc, @eq_comm _ long]

/-- The answer of a search for the long form of a command; without such a form, nothing is found. -/
def firstLong? (version : Text) (expander : Option Expander) (invocation : Invocation)
    (probes : List Probe) : Except PatternError (Option Outcome) :=
  match longForm? expander invocation with
  | none => .ok none
  | some long => first? version long probes

theorem firstLong?_eq_some_iff {outcome : Outcome} :
    firstLong? version expander invocation probes = .ok (some outcome) ↔
      longForm? expander invocation = some outcome.invocation ∧
        first? version outcome.invocation probes = .ok (some outcome) := by
  unfold firstLong?
  cases hlong : longForm? expander invocation with
  | none => simp
  | some long =>
    constructor
    · intro h
      obtain ⟨rfl, -⟩ := first?_eq_some_iff.1 h
      exact ⟨rfl, h⟩
    · rintro ⟨hsame, h⟩
      cases hsame
      exact h

/-- Among probes without faults a search for the long form has an answer. -/
theorem exists_firstLong?_eq_ok (expander : Option Expander) (invocation : Invocation)
    (h : ∀ probe ∈ probes, probe.Faultless version) :
    ∃ answer, firstLong? version expander invocation probes = .ok answer := by
  unfold firstLong?
  cases longForm? expander invocation with
  | none => exact ⟨none, rfl⟩
  | some long => exact exists_first?_eq_ok long h

/-- The last pass is a search for the long form. -/
theorem scanExpanded_result :
    (scanExpanded probes version expander invocation).result =
      firstLong? version expander invocation probes := by
  cases expander with
  | none => rfl
  | some expand =>
    by_cases hshort : Path.hasShortName invocation.command = true <;>
      by_cases hsame : expand invocation.command = invocation.command <;>
        simp [scanExpanded, firstLong?, longForm?, hshort, hsame]

/-- The passes with backslashes are a search for the command as it is written, and after that a search
for its long form. -/
theorem scanWindows_result :
    (scanWindows registry version expander invocation).result =
      orElse (first? version invocation (round (onWindows (placed registry)) .windows version))
        (firstLong? version expander invocation
          (round (onWindows (placed registry)) .windows version)) := by
  unfold scanWindows
  dsimp only
  split
  · -- without probes for Windows, both searches find nothing
    rename_i hempty
    rw [List.isEmpty_iff.1 hempty, firstLong?]
    cases longForm? expander invocation <;> rfl
  · cases first? version invocation (round (onWindows (placed registry)) .windows version) with
    | error error => rfl
    | ok found =>
      cases found with
      | none => exact scanExpanded_result
      | some outcome => rfl

/-- A line without a command has no tool. -/
theorem scan_of_no_command (h : Invocation.ofLine? line = none) :
    (scan registry version withBackslash expander line).result = .ok none := by
  simp [scan, h]

/-- A scan is a search through the probes for the command as it is written, and after that, where
backslashes separate components, a search for its long form. -/
theorem scan_result (h : Invocation.ofLine? line = some invocation) :
    (scan registry version withBackslash expander line).result =
      orElse (first? version invocation (order registry version withBackslash))
        (if withBackslash then
          firstLong? version expander invocation
            (round (onWindows (placed registry)) .windows version)
        else .ok none) := by
  unfold scan
  rw [h, order, first?_append]
  dsimp only
  cases first? version invocation (round (placed registry) .posix version) with
  | error error => rfl
  | ok found =>
    cases found with
    | none =>
      cases withBackslash with
      | false => rfl
      | true => exact scanWindows_result
    | some outcome => rfl

/-- There is no search for a long form after one that did find something. -/
theorem scan_eq_first? (h : Invocation.ofLine? line = some invocation)
    (hsearch : first? version invocation (order registry version withBackslash) ≠ .ok none) :
    (scan registry version withBackslash expander line).result =
      first? version invocation (order registry version withBackslash) := by
  rw [scan_result h, orElse_of_ne_none hsearch]

/-- Where there is no long form to look for, a scan is a search for the command as it is written. -/
theorem scan_of_no_longForm (h : Invocation.ofLine? line = some invocation)
    (hlong : withBackslash = true → longForm? expander invocation = none) :
    (scan registry version withBackslash expander line).result =
      first? version invocation (order registry version withBackslash) := by
  by_cases hsearch : first? version invocation (order registry version withBackslash) = .ok none
  · rw [scan_result h, hsearch, orElse_none]
    split
    · rename_i hback
      rw [firstLong?, hlong hback]
    · rfl
  · exact scan_eq_first? h hsearch

theorem scan_without_backslash (h : Invocation.ofLine? line = some invocation) :
    (scan registry version false expander line).result =
      first? version invocation (order registry version false) :=
  scan_of_no_longForm h nofun

theorem scan_without_expander (h : Invocation.ofLine? line = some invocation) :
    (scan registry version withBackslash none line).result =
      first? version invocation (order registry version withBackslash) :=
  scan_of_no_longForm h fun _ => rfl

/-- A scan that finds nothing has searched for the command as it is written in vain. -/
theorem first?_of_scan_eq_none (h : Invocation.ofLine? line = some invocation)
    (hscan : (scan registry version withBackslash expander line).result = .ok none) :
    first? version invocation (order registry version withBackslash) = .ok none := by
  by_contra hsearch
  rw [scan_eq_first? h hsearch] at hscan
  exact hsearch hscan

/-- All faults come out in the search for the command as it is written: after a search without any,
there is none in the search for its long form. -/
theorem exists_scan_eq_error_iff (h : Invocation.ofLine? line = some invocation) :
    (∃ error, (scan registry version withBackslash expander line).result = .error error) ↔
      ∃ error, first? version invocation (order registry version withBackslash) = .error error := by
  by_cases hsearch : first? version invocation (order registry version withBackslash) = .ok none
  · rw [scan_result h, hsearch, orElse_none]
    cases withBackslash with
    | false => simp
    | true =>
      have hfaultless : ∀ probe ∈ round (onWindows (placed registry)) .windows version,
          probe.Faultless version := fun probe hprobe =>
        Probe.faultless_of_accepts
          (first?_eq_none_iff.1 hsearch probe (List.mem_append_right _ hprobe))
      obtain ⟨answer, hanswer⟩ := exists_firstLong?_eq_ok expander invocation hfaultless
      simp [hanswer]
  · rw [scan_eq_first? h hsearch]

/-- Where a probe that can be reached accepts a line as it is written, a scan finds that probe or an
earlier one, with the same command and arguments. -/
theorem exists_scan_of_reachable (expander : Option Expander) {outcome : Outcome}
    (hreachable : Reachable version (order registry version withBackslash) outcome.probe)
    (h : outcome.probe.outcome? version line = .ok (some outcome)) :
    ∃ full, (scan registry version withBackslash expander line).result = .ok (some full) ∧
      full.invocation = outcome.invocation ∧ ¬ outcome.probe.Precedes full.probe := by
  obtain ⟨-, hline, haccepts⟩ := Probe.outcome?_eq_some_iff.1 h
  obtain ⟨full, hsearch, hfull, hprecedes⟩ :=
    exists_first?_of_accepts hreachable order_pairwise haccepts
  refine ⟨full, ?_, hfull, hprecedes⟩
  rw [scan_eq_first? hline (by rw [hsearch]; nofun), hsearch]

/-- An outcome that the scan of a line may have: its probe accepts the command as it is written, or,
if no probe does, it looks for Windows names and accepts the long form. -/
def Recognized (registry : Registry) (version : Text) (withBackslash : Bool)
    (expander : Option Expander) (line : Text) (outcome : Outcome) : Prop :=
  outcome.probe.outcome? version line = .ok (some outcome) ∨
    ∃ invocation, Invocation.ofLine? line = some invocation ∧
      (∀ probe ∈ order registry version withBackslash,
        probe.accepts version invocation.command = .ok false) ∧
      withBackslash = true ∧ outcome.probe.style = .windows ∧
      longForm? expander invocation = some outcome.invocation ∧
      outcome.probe.accepts version outcome.invocation.command = .ok true

/-- What a scan finds is recognized by its probe, and no probe up to that one has a fault. -/
theorem recognized_of_scan {outcome : Outcome}
    (h : (scan registry version withBackslash expander line).result = .ok (some outcome)) :
    Recognized registry version withBackslash expander line outcome ∧
      Reachable version (order registry version withBackslash) outcome.probe := by
  cases hline : Invocation.ofLine? line with
  | none =>
    rw [scan_of_no_command hline] at h
    cases h
  | some invocation =>
    rw [scan_result hline] at h
    match hsearch : first? version invocation (order registry version withBackslash) with
    | .error fault =>
      rw [hsearch] at h
      cases h
    | .ok (some found) =>
      rw [hsearch] at h
      cases h
      obtain ⟨hinvocation, haccepts, -⟩ := first?_eq_some_iff.1 hsearch
      refine ⟨.inl (Probe.outcome?_eq_some_iff.2 ⟨rfl, ?_, ?_⟩), reachable_of_first? hsearch⟩
      · rw [hinvocation, hline]
      · rw [hinvocation, haccepts]
    | .ok none =>
      rw [hsearch, orElse_none] at h
      cases withBackslash with
      | false => cases h
      | true =>
        have hrefuse := first?_eq_none_iff.1 hsearch
        obtain ⟨hlong, hfound⟩ := firstLong?_eq_some_iff.1 h
        obtain ⟨-, haccepts, -⟩ := first?_eq_some_iff.1 hfound
        have hreachable := reachable_of_first? hfound
        have hstyle := (mem_round_iff.1 hreachable.mem).2.2
        refine ⟨.inr ⟨invocation, hline, hrefuse, rfl, hstyle, hlong, haccepts⟩, ?_⟩
        apply hreachable.append
        intro other hother
        exact Probe.faultless_of_accepts (hrefuse other (List.mem_append_left _ hother))

end BuildLog.Detection
