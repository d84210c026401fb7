import BuildLog.LogFile
import BuildLog.Proofs.FilePaths
import Mathlib.Data.List.Forall2
import Mathlib.Data.List.Perm.Basic
import Mathlib.Logic.Relation

/-!
# Build logs worked on at the same time

Several build logs are handed to a pool of workers, who finish them in an order of their own. Their reports
are gathered under the names of the build logs, as they come, and put in order in the end.

* `LogFile.NoBuildLog`: what is wrong with a file that is no build log, and `LogFile.process_noBuildLog`:
  the report of such a file;
* `Pool`, `Pool.Step`: a pool and what may happen in it next;
* `Pool.Sound`: what holds in a pool at any time, `Pool.Step.sound` for one step and `Pool.sound_of_run`
  for all of them; `Pool.exists_step` and `Pool.Step.work`: the work goes on, and it comes to an end;
* `Pool.reports_of_run`: in the end, each build log has the report that it has alone.
-/

namespace BuildLog

/-! ## One build log -/

namespace LogFile

variable {room : Json.Room} {files : Files} {settings : Settings} {parsing : Bool} {path : FilePath}

/-- What is wrong with a file that is no build log. -/
inductive NoBuildLog (room : Json.Room) (files : Files) (path : FilePath) : Prop where
  /-- It cannot be read, or it is not there at all. -/
  | unreadable (error : ReadError) (h : files path = .error error)
  /-- Its bytes are no text. -/
  | noText (bytes : Bytes) (error : DecodingError) (h : files path = .ok bytes)
      (hdecode : Bytes.decode bytes = .error error)
  /-- Its text is no document. -/
  | noDocument (bytes : Bytes) (document : Text) (h : files path = .ok bytes)
      (hdecode : Bytes.decode bytes = .ok document)
      (hread : Json.read room.reading document = .error .noDocument)
  /-- Its document is no list. -/
  | noList (bytes : Bytes) (document : Text) (value : Json Codes) (h : files path = .ok bytes)
      (hdecode : Bytes.decode bytes = .ok document)
      (hread : Json.read room.reading document = .ok value)
      (hvalue : ∀ values, value ≠ .array values)

theorem document_of_unreadable {error : ReadError} (h : files path = .error error) :
    document files path = .error (readMessage path error) := by
  rw [document, h]
  rfl

theorem document_of_ok {bytes : Bytes} (h : files path = .ok bytes) :
    document files path = (Bytes.decode bytes).mapError (decodingMessage path) := by
  rw [document, h]
  rfl

/-- The report of a file that is no build log has no results and one problem. -/
theorem process_noBuildLog (settings : Settings) (parsing : Bool) (h : NoBuildLog room files path) :
    ∃ message, process room files settings parsing path = .ok (.failed path.text message) := by
  cases h with
  | unreadable error h => exact ⟨_, by rw [process, document_of_unreadable h]⟩
  | noText bytes error h hdecode =>
    exact ⟨decodingMessage path error, by simp [process, document_of_ok h, hdecode, Except.mapError]⟩
  | noDocument bytes document h hdecode hread =>
    exact ⟨formatMessage, by simp [process, document_of_ok h, hdecode, Except.mapError, hread]⟩
  | noList bytes document value h hdecode hread hvalue =>
    refine ⟨formatMessage, ?_⟩
    rw [process, document_of_ok h, hdecode]
    dsimp only [Except.mapError]
    rw [hread]
    cases value with
    | array values => exact absurd rfl (hvalue values)
    | _ => rfl

/-- For the report of a build log, no other files matter. -/
theorem process_congr {others : Files} (h : others path = files path) :
    process room others settings parsing path = process room files settings parsing path := by
  rw [process, process, document, document, h]

/-- A report is the one that a build log has alone. Other files do not matter for it. If the file is no
build log, there are no results and just one problem, which is structural. -/
structure HasReport (room : Json.Room) (files : Files) (settings : Settings) (parsing : Bool)
    (path : FilePath) (report : Report) : Prop where
  alone : process room files settings parsing path = .ok report
  unaffected : ∀ others : Files, others path = files path →
    process room others settings parsing path = .ok report
  failed : NoBuildLog room files path → report.results = [] ∧
    ∃ problem, report.diagnostics = [problem] ∧ problem.kind = .structural

theorem hasReport_of_process {report : Report}
    (h : process room files settings parsing path = .ok report) :
    HasReport room files settings parsing path report where
  alone := h
  unaffected := fun _ hothers => (process_congr hothers).trans h
  failed := by
    intro hnone
    obtain ⟨message, hfailed⟩ := process_noBuildLog settings parsing hnone
    cases h.symm.trans hfailed
    exact ⟨rfl, _, rfl, rfl⟩

end LogFile

/-! ## Names of build logs -/

/-- How a build log is named: by a text, or by a path that was made from a text. -/
inductive LogName where
  | text (name : Text)
  | path (name : Text)
  deriving DecidableEq

namespace LogName

/-- The file that is meant. -/
def file : LogName → FilePath
  | text name => .ofText name
  | path name => .ofText name

/-- The name as a text, under which the report is gathered. -/
def key : LogName → Text
  | text name => name
  | path name => (FilePath.ofText name).text

/-- A file may be named in several ways, but under one key there is only one file. -/
theorem file_eq_of_key_eq {name other : LogName} (h : name.key = other.key) :
    name.file = other.file := by
  have hfile (name : LogName) : FilePath.ofText name.key = name.file := by
    cases name with
    | text name => rfl
    | path name => exact FilePath.ofText_text_ofText name
  rw [← hfile, h, hfile]

end LogName

/-! ## Pools -/

/-- The state of the work on several build logs. -/
structure Pool where
  /-- The build logs that are still to be handed in, in order. -/
  unsubmitted : List LogName
  /-- Those that wait for a worker, in order. -/
  waiting : List LogName
  /-- Those that a worker is busy with. -/
  running : List LogName
  /-- Those that are finished, with what has come out. -/
  finished : List (LogName × Except LogFault Report)
  /-- The reports that are gathered, the latest one first. -/
  reports : List (Text × Report)
  /-- The fault that gathering has met, if it has met one. -/
  fault : Option LogFault

namespace Pool

/-- Before anything has happened. -/
def start (names : List LogName) : Pool :=
  ⟨names, [], [], [], [], none⟩

/-- What may happen next in a pool with the given number of workers, where `work` says what comes out for
a file. -/
inductive Step (work : FilePath → Except LogFault Report) (workers : Nat) : Pool → Pool → Prop where
  /-- The next build log is handed in. -/
  | submit (name : LogName) (rest waiting running : List LogName)
      (finished : List (LogName × Except LogFault Report)) (reports : List (Text × Report))
      (fault : Option LogFault) :
      Step work workers ⟨name :: rest, waiting, running, finished, reports, fault⟩
        ⟨rest, waiting ++ [name], running, finished, reports, fault⟩
  /-- A worker who is free takes the build log that has waited longest. -/
  | start (name : LogName) (unsubmitted rest running : List LogName)
      (finished : List (LogName × Except LogFault Report)) (reports : List (Text × Report))
      (fault : Option LogFault) (free : running.length < workers) :
      Step work workers ⟨unsubmitted, name :: rest, running, finished, reports, fault⟩
        ⟨unsubmitted, rest, name :: running, finished, reports, fault⟩
  /-- Any of the workers is ready. -/
  | finish (name : LogName) (unsubmitted waiting before behind : List LogName)
      (finished : List (LogName × Except LogFault Report)) (reports : List (Text × Report))
      (fault : Option LogFault) :
      Step work workers ⟨unsubmitted, waiting, before ++ name :: behind, finished, reports, fault⟩
        ⟨unsubmitted, waiting, before ++ behind, (name, work name.file) :: finished, reports, fault⟩
  /-- All build logs are handed in, and any report that is ready is gathered. -/
  | gather (name : LogName) (report : Report) (waiting running : List LogName)
      (before behind : List (LogName × Except LogFault Report)) (reports : List (Text × Report)) :
      Step work workers ⟨[], waiting, running, before ++ (name, .ok report) :: behind, reports, none⟩
        ⟨[], waiting, running, before ++ behind, (name.key, report) :: reports, none⟩
  /-- A fault ends gathering. -/
  | fail (name : LogName) (error : LogFault) (waiting running : List LogName)
      (before behind : List (LogName × Except LogFault Report)) (reports : List (Text × Report)) :
      Step work workers ⟨[], waiting, running, before ++ (name, .error error) :: behind, reports, none⟩
        ⟨[], waiting, running, before ++ behind, reports, some error⟩

/-- All is handed in, no worker is busy, and gathering is at its end. -/
structure IsDone (pool : Pool) : Prop where
  unsubmitted : pool.unsubmitted = []
  waiting : pool.waiting = []
  running : pool.running = []
  finished : pool.fault = none → pool.finished = []

/-- The gathered reports in the order of the names, if there is one for each. -/
def reports? (names : List LogName) (pool : Pool) : Option (List Report) :=
  names.mapM fun name => pool.reports.lookup name.key

variable {work : FilePath → Except LogFault Report} {workers : Nat} {names : List LogName}
  {pool next : Pool} {name : LogName}

/-! ## The work goes on and comes to an end -/

/-- How many steps are still to be done. -/
def remaining (pool : Pool) : Nat :=
  4 * pool.unsubmitted.length + 3 * pool.waiting.length + 2 * pool.running.length +
    pool.finished.length

theorem Step.remaining (h : Step work workers pool next) : next.remaining + 1 = pool.remaining := by
  cases h <;> simp [Pool.remaining] <;> omega

/-- With at least one worker, the work goes on until it is done. -/
theorem exists_step (hworkers : 1 ≤ workers) (h : ¬ pool.IsDone) :
    ∃ next, Step work workers pool next := by
  obtain ⟨unsubmitted, waiting, running, finished, reports, fault⟩ := pool
  cases running with
  | cons name behind =>
    exact ⟨_, .finish name unsubmitted waiting [] behind finished reports fault⟩
  | nil =>
    cases waiting with
    | cons name rest => exact ⟨_, .start name unsubmitted rest [] finished reports fault hworkers⟩
    | nil =>
      cases unsubmitted with
      | cons name rest => exact ⟨_, .submit name rest [] [] finished reports fault⟩
      | nil =>
        cases fault with
        | some error => exact absurd ⟨rfl, rfl, rfl, nofun⟩ h
        | none =>
          match finished with
          | [] => exact absurd ⟨rfl, rfl, rfl, fun _ => rfl⟩ h
          | (name, .ok report) :: behind => exact ⟨_, .gather name report [] [] [] behind reports⟩
          | (name, .error error) :: behind => exact ⟨_, .fail name error [] [] [] behind reports⟩

/-- From everywhere, the work can be done to its end. -/
theorem exists_done (hworkers : 1 ≤ workers) (pool : Pool) :
    ∃ last, Relation.ReflTransGen (Step work workers) pool last ∧ last.IsDone := by
  induction hremaining : pool.remaining generalizing pool with
  | zero =>
    refine ⟨pool, .refl, ?_⟩
    by_contra hdone
    obtain ⟨next, hstep⟩ : ∃ next, Step work workers pool next := exists_step hworkers hdone
    have hless := hstep.remaining
    omega
  | succ steps ih =>
    by_cases hdone : pool.IsDone
    · exact ⟨pool, .refl, hdone⟩
    · obtain ⟨next, hstep⟩ : ∃ next, Step work workers pool next := exists_step hworkers hdone
      have hless := hstep.remaining
      obtain ⟨last, hrun, hlast⟩ := ih next (by omega)
      exact ⟨last, .head hstep hrun, hlast⟩

/-! ## What holds at any time -/

/-- The build logs whose reports are not gathered yet. -/
def pending (pool : Pool) : List LogName :=
  pool.unsubmitted ++ pool.waiting ++ pool.running ++ pool.finished.map (·.1)

/-- A step leaves what is pending and gathered as it is, and what it finishes comes from the work. Or it
gathers a report that was finished, or meets a fault that was. -/
theorem Step.inversion (h : Step work workers pool next) :
    (next.pending.Perm pool.pending ∧ next.reports = pool.reports ∧ next.fault = pool.fault ∧
      ∀ entry ∈ next.finished, entry ∈ pool.finished ∨ entry.2 = work entry.1.file) ∨
    (∃ name report, (name, .ok report) ∈ pool.finished ∧
      pool.pending.Perm (name :: next.pending) ∧ next.reports = (name.key, report) :: pool.reports ∧
      pool.fault = none ∧ next.fault = none ∧ next.finished ⊆ pool.finished) ∨
    ∃ name error, (name, .error error) ∈ pool.finished ∧ pool.pending.Perm (name :: next.pending) ∧
      next.reports = pool.reports ∧ next.fault = some error ∧ next.finished ⊆ pool.finished := by
  cases h with
  | submit name rest waiting running finished reports fault =>
    refine .inl ⟨?_, rfl, rfl, fun _ => .inl⟩
    simp only [pending, List.cons_append, List.append_assoc, List.nil_append]
    rw [← List.append_assoc rest]
    exact List.perm_middle.trans (by rw [List.append_assoc])
  | start name unsubmitted rest running finished reports fault free =>
    refine .inl ⟨?_, rfl, rfl, fun _ => .inl⟩
    simp only [pending, List.append_assoc, List.cons_append]
    exact List.Perm.append_left unsubmitted List.perm_middle
  | finish name unsubmitted waiting before behind finished reports fault =>
    refine .inl ⟨?_, rfl, rfl, ?_⟩
    · simp only [pending, List.append_assoc, List.cons_append, List.map_cons]
      refine List.Perm.append_left unsubmitted (List.Perm.append_left waiting ?_)
      refine List.Perm.append_left before ?_
      exact List.perm_middle
    · intro entry hentry
      rcases List.mem_cons.1 hentry with rfl | hmem
      · exact .inr rfl
      · exact .inl hmem
  | gather name report waiting running before behind reports =>
    refine .inr (.inl ⟨name, report, by simp, ?_, rfl, rfl, rfl, ?_⟩)
    · simp only [pending, List.map_append, List.map_cons, ← List.append_assoc]
      exact List.perm_middle
    · exact ((List.sublist_cons_self _ behind).append_left before).subset
  | fail name error waiting running before behind reports =>
    refine .inr (.inr ⟨name, error, by simp, ?_, rfl, rfl, ?_⟩)
    · simp only [pending, List.map_append, List.map_cons, ← List.append_assoc]
      exact List.perm_middle
    · exact ((List.sublist_cons_self _ behind).append_left before).subset

/-- What holds in a pool for some build logs at any time. -/
structure Sound (work : FilePath → Except LogFault Report) (names : List LogName) (pool : Pool) :
    Prop where
  /-- Only build logs that were asked for are worked on. -/
  known : ∀ name ∈ pool.pending, name ∈ names
  /-- What is finished has come out for its file. -/
  finished : ∀ entry ∈ pool.finished, entry.2 = work entry.1.file
  /-- What is gathered is the report of a build log with that key. -/
  reports : ∀ entry ∈ pool.reports, ∃ name ∈ names, entry.1 = name.key ∧ work name.file = .ok entry.2
  /-- A fault is that of a build log. -/
  fault : ∀ error, pool.fault = some error → ∃ name ∈ names, work name.file = .error error
  /-- Without a fault, no build log is lost. -/
  complete : pool.fault = none → ∀ name ∈ names,
    name ∈ pool.pending ∨ ∃ report, (name.key, report) ∈ pool.reports

theorem sound_start (work : FilePath → Except LogFault Report) (names : List LogName) :
    (start names).Sound work names where
  known := by simp [pending, start]
  finished := by simp [start]
  reports := by simp [start]
  fault := by simp [start]
  complete := by simp [pending, start]

/-- A build log that is finished was asked for. -/
theorem Sound.mem_of_finished {result : Except LogFault Report} (h : pool.Sound work names)
    (hmem : (name, result) ∈ pool.finished) : name ∈ names ∧ work name.file = result := by
  refine ⟨h.known name ?_, (h.finished _ hmem).symm⟩
  exact List.mem_append_right _ (List.mem_map.2 ⟨_, hmem, rfl⟩)

/-- One step keeps all this. -/
theorem Step.sound (h : Step work workers pool next) (hsound : pool.Sound work names) :
    next.Sound work names := by
  rcases h.inversion with ⟨hpending, hreports, hfault, hfinished⟩ |
    ⟨gathered, report, hready, hpending, hreports, hbefore, hfault, hfinished⟩ |
    ⟨failed, error, hready, hpending, hreports, hfault, hfinished⟩
  · exact
      { known := fun name hname => hsound.known name (hpending.mem_iff.1 hname)
        finished := fun entry hentry => (hfinished entry hentry).elim (hsound.finished entry) id
        reports := by rw [hreports]; exact hsound.reports
        fault := by rw [hfault]; exact hsound.fault
        complete := by
          rw [hfault, hreports]
          intro hnone name hname
          rw [hpending.mem_iff]
          exact hsound.complete hnone name hname }
  · obtain ⟨hname, hwork⟩ := hsound.mem_of_finished hready
    refine
      { known := fun name hname => hsound.known name (hpending.mem_iff.2 (.tail _ hname))
        finished := fun entry hentry => hsound.finished entry (hfinished hentry)
        reports := ?reports
        fault := by simp [hfault]
        complete := ?complete }
    case reports =>
      rw [hreports]
      exact List.forall_mem_cons.2 ⟨⟨gathered, hname, rfl, hwork⟩, hsound.reports⟩
    case complete =>
      intro _ name hname
      rw [hreports]
      rcases hsound.complete hbefore name hname with hmem | ⟨known, hknown⟩
      · rcases List.mem_cons.1 (hpending.mem_iff.1 hmem) with rfl | hmem
        · exact .inr ⟨report, List.mem_cons_self⟩
        · exact .inl hmem
      · exact .inr ⟨known, List.mem_cons_of_mem _ hknown⟩
  · obtain ⟨hname, hwork⟩ := hsound.mem_of_finished hready
    exact
      { known := fun name hname => hsound.known name (hpending.mem_iff.2 (.tail _ hname))
        finished := fun entry hentry => hsound.finished entry (hfinished hentry)
        reports := by rw [hreports]; exact hsound.reports
        fault := by
          rw [hfault]
          rintro _ ⟨⟩
          exact ⟨failed, hname, hwork⟩
        complete := by simp [hfault] }

theorem sound_of_run (h : Relation.ReflTransGen (Step work workers) (start names) pool) :
    pool.Sound work names := by
  induction h with
  | refl => exact sound_start work names
  | tail _ hstep ih => exact hstep.sound ih

/-! ## The end -/

/-- Under the key of a build log stands its report, or that of another one of the same file. -/
theorem Sound.lookup_key (h : pool.Sound work names)
    (hgathered : ∃ report, (name.key, report) ∈ pool.reports) :
    ∃ report, pool.reports.lookup name.key = some report ∧ work name.file = .ok report := by
  obtain ⟨gathered, hmem⟩ := hgathered
  cases hlookup : pool.reports.lookup name.key with
  | none => simpa using List.lookup_eq_none_iff.1 hlookup _ hmem
  | some report =>
    obtain ⟨before, behind, heq, -⟩ := List.lookup_eq_some_iff.1 hlookup
    obtain ⟨other, -, hkey, hwork⟩ := h.reports (name.key, report) (by simp [heq])
    exact ⟨report, rfl, by rw [LogName.file_eq_of_key_eq hkey]; exact hwork⟩

theorem exists_mapM_eq_some {α β : Type} {f : α → Option β} {relation : α → β → Prop} {items : List α}
    (h : ∀ item ∈ items, ∃ image, f item = some image ∧ relation item image) :
    ∃ images, items.mapM f = some images ∧ List.Forall₂ relation items images := by
  induction items with
  | nil => exact ⟨[], rfl, .nil⟩
  | cons item items ih =>
    obtain ⟨⟨image, himage, hrelation⟩, hitems⟩ := List.forall_mem_cons.1 h
    obtain ⟨images, himages, hrelations⟩ := ih hitems
    exact ⟨image :: images, by simp [himage, himages], .cons hrelation hrelations⟩

/-- When all is done without a fault, each build log has the report that comes out for its file. -/
theorem Sound.reports_of_done (h : pool.Sound work names) (hdone : pool.IsDone)
    (hfault : pool.fault = none) :
    ∃ reports, pool.reports? names = some reports ∧
      List.Forall₂ (fun name report => work name.file = .ok report) names reports := by
  have hpending : pool.pending = [] := by
    simp [pending, hdone.unsubmitted, hdone.waiting, hdone.running, hdone.finished hfault]
  refine exists_mapM_eq_some fun name hname => h.lookup_key ?_
  refine (h.complete hfault name hname).resolve_left ?_
  rw [hpending]
  exact List.not_mem_nil

end Pool

namespace LogFile

variable {room : Json.Room} {files : Files} {settings : Settings} {parsing : Bool}
  {order paths : List FilePath}

/-- Build logs that all have a report are all finished. -/
theorem exists_finish
    (h : ∀ path ∈ order, ∃ report, process room files settings parsing path = .ok report) :
    ∃ finished, finish room files settings parsing order = .ok finished ∧
      finished.map (·.path) = order ∧
      ∀ entry ∈ finished, process room files settings parsing entry.path = .ok entry.report := by
  induction order with
  | nil => exact ⟨[], rfl, rfl, by simp⟩
  | cons path order ih =>
    obtain ⟨⟨report, hreport⟩, horder⟩ := List.forall_mem_cons.1 h
    obtain ⟨finished, hfinished, hpaths, hentries⟩ := ih horder
    refine ⟨⟨path, report⟩ :: finished, ?_, by rw [List.map_cons, hpaths], ?_⟩
    · rw [finish] at hfinished ⊢
      rw [List.mapM_cons, hreport, hfinished]
      rfl
    · exact List.forall_mem_cons.2 ⟨hreport, hentries⟩

/-- Whatever the order in which build logs are finished, each path gets the report of its file. -/
theorem exists_collect (hpaths : ∀ path ∈ paths, path ∈ order)
    (h : ∀ path ∈ order, ∃ report, process room files settings parsing path = .ok report) :
    ∃ reports, collect room files settings parsing order paths = .ok reports ∧
      List.Forall₂ (fun path report => process room files settings parsing path = .ok report) paths
        reports := by
  obtain ⟨finished, hfinished, horder, hentries⟩ := exists_finish h
  have hreport : ∀ path ∈ paths, ∃ report, reportOf? finished path = some report ∧
      process room files settings parsing path = .ok report := by
    intro path hpath
    have hmem : path ∈ finished.map (·.path) := by
      rw [horder]
      exact hpaths path hpath
    obtain ⟨known, hknown, rfl⟩ := List.mem_map.1 hmem
    have hsome : (finished.reverse.find? (·.path == known.path)).isSome := by
      rw [List.find?_isSome]
      exact ⟨known, List.mem_reverse.2 hknown, beq_self_eq_true _⟩
    obtain ⟨entry, hentry⟩ := Option.isSome_iff_exists.1 hsome
    have hsame : entry.path = known.path := by simpa using List.find?_some hentry
    refine ⟨entry.report, by rw [reportOf?, hentry]; rfl, ?_⟩
    rw [← hsame]
    exact hentries entry (List.mem_reverse.1 (List.mem_of_find?_eq_some hentry))
  refine ⟨paths.filterMap (reportOf? finished), by rw [collect, hfinished]; rfl, ?_⟩
  clear hpaths
  induction paths with
  | nil => exact .nil
  | cons path paths ih =>
    obtain ⟨⟨report, hknown, hprocess⟩, hrest⟩ := List.forall_mem_cons.1 hreport
    rw [List.filterMap_cons, hknown]
    exact .cons hprocess (ih hrest)

/-- With at least one worker, build logs that all have a report are all processed. -/
theorem processAll_eq {workers : Nat} {reports : List Report} (hworkers : 1 ≤ workers)
    (hreport : ∀ path ∈ paths, ∃ report, process room files settings parsing path = .ok report)
    (h : List.Forall₂ (fun path report => process room files settings parsing path = .ok report) paths
      reports) :
    processAll room files settings parsing workers paths = .ok reports := by
  obtain ⟨collected, hcollected, halone⟩ := exists_collect (fun _ => id) hreport
  have hunique : Relator.RightUnique fun path report =>
      process room files settings parsing path = .ok report :=
    fun _ _ _ hfirst hsecond => Except.ok.inj (hfirst.symm.trans hsecond)
  have hpositive : ¬ (workers : Int) ≤ 0 := by omega
  rw [processAll, if_neg hpositive, hcollected, List.right_unique_forall₂' hunique halone h]
  rfl

/-- **Build logs worked on at the same time.** Let no fault come out for any of some build logs. With at
least one worker, the work on all of them never gets stuck, comes to its end after a number of steps, and
meets no fault. However it went, in the end there is one report for each name, in the order of the names,
and it is the report that this build log has alone. -/
theorem reports_of_run (room : Json.Room) (files : Files) (settings : Settings) (parsing : Bool)
    (workers : Nat) (names : List LogName) (pool : Pool) (hworkers : 1 ≤ workers)
    (hreports : ∀ name ∈ names, ∃ report, process room files settings parsing name.file = .ok report)
    (hrun : Relation.ReflTransGen (Pool.Step (process room files settings parsing) workers)
      (Pool.start names) pool) :
    (pool.IsDone ∨ ∃ next, Pool.Step (process room files settings parsing) workers pool next) ∧
    (∀ next, Pool.Step (process room files settings parsing) workers pool next →
      next.remaining < pool.remaining) ∧
    pool.fault = none ∧
    (pool.IsDone → ∃ reports, pool.reports? names = some reports ∧
      processAll room files settings parsing workers (names.map (·.file)) = .ok reports ∧
      reports.length = names.length ∧
      ∀ (position : Nat) (name : LogName), names[position]? = some name →
        ∃ report, reports[position]? = some report ∧
          HasReport room files settings parsing name.file report) := by
  have hsound : pool.Sound (process room files settings parsing) names := Pool.sound_of_run hrun
  have hfault : pool.fault = none := by
    cases hfault : pool.fault with
    | none => rfl
    | some error =>
      obtain ⟨name, hname, herror⟩ := hsound.fault error hfault
      obtain ⟨report, hreport⟩ := hreports name hname
      cases herror.symm.trans hreport
  refine ⟨or_iff_not_imp_left.2 (Pool.exists_step hworkers), ?_, hfault, ?_⟩
  · intro next hstep
    have hless := hstep.remaining
    omega
  · intro hdone
    obtain ⟨reports, hgathered, halone⟩ := hsound.reports_of_done hdone hfault
    have hlength : names.length = reports.length := halone.length_eq
    refine ⟨reports, hgathered, ?_, hlength.symm, ?_⟩
    · exact processAll_eq hworkers (List.forall_mem_map.2 hreports)
        (List.forall₂_map_left_iff.2 halone)
    · intro position name hname
      obtain ⟨hposition, rfl⟩ := List.getElem?_eq_some_iff.1 hname
      have hreport := halone.get hposition (hlength ▸ hposition)
      exact ⟨_, List.getElem?_eq_getElem _, hasReport_of_process hreport⟩

/-- Two workers and three names: a build log in two spellings, and a file that is not there. -/
theorem reports_of_run_spellings :
    let document := "[\x7b\"file\": \"a.c\", \"command\": \"gcc -c a.c\", \"directory\": \"/b\"\x7d]"
    let log : FilePath := .ofText "a.json".toList
    let files : Files := fun path =>
      if path = log then .ok (document.toList.map fun c => UInt8.ofNat c.toNat) else .error .notFound
    let room : Json.Room := ⟨1, 0⟩
    let names : List LogName := [.text "./a.json".toList, .path "a.json".toList, .text "b.json".toList]
    ∃ pool reports, Relation.ReflTransGen (Pool.Step (process room files .default true) 2)
        (Pool.start names) pool ∧
      pool.IsDone ∧ pool.reports? names = some reports ∧
      reports.map (fun report => (report.results.length, report.diagnostics.length)) =
        [(1, 0), (1, 0), (0, 1)] := by
  intro document log files room names
  have hsome : ∀ name ∈ names, (process room files .default true name.file).toOption.isSome = true := by
    decide +kernel
  have hreports : ∀ name ∈ names, ∃ report, process room files .default true name.file = .ok report := by
    intro name hname
    have hreport := hsome name hname
    cases hprocess : process room files .default true name.file with
    | error error => simp [hprocess, Except.toOption] at hreport
    | ok report => exact ⟨report, rfl⟩
  have hnumbers : (processAll room files .default true 2 (names.map (·.file))).toOption.map
      (fun reports => reports.map fun report => (report.results.length, report.diagnostics.length)) =
        some [(1, 0), (1, 0), (0, 1)] := by
    decide +kernel
  obtain ⟨pool, hrun, hdone⟩ : ∃ last, Relation.ReflTransGen
      (Pool.Step (process room files .default true) 2) (Pool.start names) last ∧ last.IsDone :=
    Pool.exists_done (by decide) (Pool.start names)
  obtain ⟨-, -, -, hend⟩ :=
    reports_of_run room files .default true 2 names pool (by decide) hreports hrun
  obtain ⟨reports, hgathered, hprocessed, -⟩ := hend hdone
  refine ⟨pool, reports, hrun, hdone, hgathered, ?_⟩
  rw [show processAll room files .default true 2 (names.map (·.file)) = .ok reports from hprocessed]
    at hnumbers
  exact Option.some.inj hnumbers

end LogFile
end BuildLog
