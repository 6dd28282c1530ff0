import ConfigModules.Proofs.Check
import ConfigModules.Proofs.Files.Tree
import Mathlib.Logic.Relation

/-! The check of a directory. Its report accounts for every item of the walk once, in whatever order the
directories are listed and the checks of the files finish. -/
namespace ConfigModules

namespace CheckOutcome

def isPassed : CheckOutcome → Bool
  | .passed => true
  | _ => false

def isSkipped : CheckOutcome → Bool
  | .skipped => true
  | _ => false

def failure? : CheckOutcome → Option CheckFailure
  | .failed failure => some failure
  | _ => none

end CheckOutcome

/-! ## What is said of a file and of a fault of the walk -/

/-- How the check of a file ends, with the text of a failure. -/
inductive FileEnd where
  | passed
  | skipped
  | failed (text : String)
deriving DecidableEq

def CheckOutcome.ending : CheckOutcome → FileEnd
  | .passed => .passed
  | .skipped => .skipped
  | .failed failure => .failed failure.message

namespace LoaderChain

variable (chain : LoaderChain Id) (files : FileAccess Id) (options : DecodeOptions)

/-- The check of a file, case by case. The loader may fail, its module may have no value, the file may be
gone or broken once it is read again, and the two values may differ. -/
inductive Checks (path : String) : FileEnd → Prop
  | unread {id fault} : chain.load files path = Except.error (.unreadable id fault) →
      Checks path (.failed ("Failed to read " ++ id ++ ": " ++ fault.message))
  | undecoded {id fault} : chain.load files path = Except.error (.undecodable id fault) →
      Checks path (.failed ("Failed to decode " ++ id ++ ": " ++ fault.message))
  | declined : chain.load files path = Except.ok none → Checks path .skipped
  | meaningless {claimed fault} : chain.load files path = Except.ok (some claimed) →
      Script.evaluate claimed.result.code = .error fault →
      Checks path (.failed ("emitted module does not evaluate: " ++ fault.message))
  | gone {claimed v fault} : chain.load files path = Except.ok (some claimed) →
      Script.evaluate claimed.result.code = .ok v → files.readText path = Except.error fault →
      Checks path (.failed fault.message)
  | broken {claimed v source fault} : chain.load files path = Except.ok (some claimed) →
      Script.evaluate claimed.result.code = .ok v → files.readText path = Except.ok source →
      decode options source = .error fault → Checks path (.failed fault.message)
  | differing {claimed v source w} : chain.load files path = Except.ok (some claimed) →
      Script.evaluate claimed.result.code = .ok v → files.readText path = Except.ok source →
      decode options source = .ok w → v.same w = false →
      Checks path (.failed "evaluated module differs from the decoded file")
  | alike {claimed v source w} : chain.load files path = Except.ok (some claimed) →
      Script.evaluate claimed.result.code = .ok v → files.readText path = Except.ok source →
      decode options source = .ok w → v.same w = true → Checks path .passed

/-- What is reported of files in their order: the path and the text of each that fails. -/
inductive FileLines : List String → List (String × String) → Prop
  | nil : FileLines [] []
  | passed {path paths lines} : chain.Checks files options path .passed → FileLines paths lines →
      FileLines (path :: paths) lines
  | skipped {path paths lines} : chain.Checks files options path .skipped → FileLines paths lines →
      FileLines (path :: paths) lines
  | failed {path paths lines text} : chain.Checks files options path (.failed text) →
      FileLines paths lines → FileLines (path :: paths) ((path, text) :: lines)

end LoaderChain

/-- What is reported of the faults of the walk of a directory in their order: the path, which is the
directory if the fault tells none, and the text. -/
inductive WalkLines (directory : String) : List WalkItem → List (String × String) → Prop
  | nil : WalkLines directory [] []
  | file {path items lines} : WalkLines directory items lines →
      WalkLines directory (.file path :: items) lines
  | unusable {path fault items lines} : WalkLines directory items lines →
      WalkLines directory (.fault (.unusable (some path) fault) :: items)
        ((path, "could not be walked: " ++ ("IO error for operation on " ++ path ++ ": " ++ fault.message)) ::
          lines)
  | untold {fault items lines} : WalkLines directory items lines →
      WalkLines directory (.fault (.unusable none fault) :: items)
        ((directory, "could not be walked: " ++ fault.message) :: lines)
  | loop {ancestor path items lines} : WalkLines directory items lines →
      WalkLines directory (.fault (.loop ancestor path) :: items)
        ((path, "could not be walked: " ++
          ("File system loop found: " ++ path ++ " points to an ancestor " ++ ancestor)) :: lines)

/-- The files that fail, in their order, each with its own failure. -/
def failingFiles (outcome : String → CheckOutcome) (paths : List String) : List (String × CheckFailure) :=
  paths.filterMap fun path => (outcome path).failure?.map (path, ·)

namespace CheckReport

/-- The report of a directory says of each item of its walk what became of it. -/
structure Accounts (r : CheckReport) (outcome : String → CheckOutcome) (directory : String)
    (items : List WalkItem) : Prop where
  passed : r.passed = (walkFiles items).countP fun path => (outcome path).isPassed
  skipped : r.skipped = (walkFiles items).countP fun path => (outcome path).isSkipped
  failures : r.failures = walkFailures directory items ++ failingFiles outcome (walkFiles items)
  total : r.passed + r.skipped + r.failures.length = items.length

/-- What a report says of its failures. -/
def failureLines (r : CheckReport) : List (String × String) :=
  r.failures.map fun f => (f.1, f.2.message)

/-- Two reports that differ at most in the order of the log. -/
structure SameButLog (r r' : CheckReport) : Prop where
  passed : r.passed = r'.passed
  skipped : r.skipped = r'.skipped
  failures : r.failures = r'.failures
  notes : r.notes.Perm r'.notes

def addAll (check : String → FileCheck) (r : CheckReport) (paths : List String) : CheckReport :=
  paths.foldl (fun r path => r.add path (check path)) r

theorem add_eq (r : CheckReport) (path : String) (c : FileCheck) :
    r.add path c =
      { passed := r.passed + if c.outcome.isPassed then 1 else 0
        skipped := r.skipped + if c.outcome.isSkipped then 1 else 0
        failures := r.failures ++ (c.outcome.failure?.map (path, ·)).toList
        notes := r.notes ++ c.notes } := by
  unfold add
  cases c.outcome with
  | passed => simp [CheckOutcome.isPassed, CheckOutcome.isSkipped, CheckOutcome.failure?]
  | skipped => simp [CheckOutcome.isPassed, CheckOutcome.isSkipped, CheckOutcome.failure?]
  | failed failure => simp [CheckOutcome.isPassed, CheckOutcome.isSkipped, CheckOutcome.failure?]

theorem failingFiles_cons (outcome : String → CheckOutcome) (path : String) (paths : List String) :
    failingFiles outcome (path :: paths) =
      ((outcome path).failure?.map (path, ·)).toList ++ failingFiles outcome paths := by
  unfold failingFiles
  rw [List.filterMap_cons]
  cases (outcome path).failure? <;> rfl

theorem addAll_eq (check : String → FileCheck) (r : CheckReport) (paths : List String) :
    r.addAll check paths =
      { passed := r.passed + paths.countP fun path => (check path).outcome.isPassed
        skipped := r.skipped + paths.countP fun path => (check path).outcome.isSkipped
        failures := r.failures ++ failingFiles (fun path => (check path).outcome) paths
        notes := r.notes ++ paths.flatMap fun path => (check path).notes } := by
  induction paths generalizing r with
  | nil => simp [addAll, failingFiles]
  | cons path paths ih =>
    have hstep : r.addAll check (path :: paths) = (r.add path (check path)).addAll check paths := rfl
    rw [hstep, ih, add_eq, failingFiles_cons, List.countP_cons, List.countP_cons, List.flatMap_cons]
    simp only [List.append_assoc, CheckReport.mk.injEq, and_true]
    omega

/-- A file is passed, skipped or failing, and no two of these. -/
theorem count_outcomes (outcome : String → CheckOutcome) (paths : List String) :
    (paths.countP fun path => (outcome path).isPassed) +
      (paths.countP fun path => (outcome path).isSkipped) + (failingFiles outcome paths).length =
        paths.length := by
  induction paths with
  | nil => rfl
  | cons path paths ih =>
    have hone : (if (outcome path).isPassed then 1 else 0) + (if (outcome path).isSkipped then 1 else 0) +
        ((outcome path).failure?.map (path, ·)).toList.length = 1 := by
      cases outcome path <;> rfl
    rw [failingFiles_cons, List.countP_cons, List.countP_cons, List.length_append, List.length_cons]
    omega

theorem addAll_congr {check check' : String → FileCheck} {paths : List String}
    (h : ∀ path ∈ paths, check' path = check path) (r : CheckReport) :
    r.addAll check' paths = r.addAll check paths := by
  unfold addAll
  induction paths generalizing r with
  | nil => rfl
  | cons path paths ih =>
    obtain ⟨hpath, hpaths⟩ := List.forall_mem_cons.mp h
    rw [List.foldl_cons, List.foldl_cons, hpath]
    exact ih hpaths _

/-- An item is a file or a fault. -/
theorem length_items (directory : String) (items : List WalkItem) :
    (walkFiles items).length + (walkFailures directory items).length = items.length := by
  induction items with
  | nil => rfl
  | cons item items ih =>
    cases item with
    | file path =>
      have hfiles : walkFiles (.file path :: items) = path :: walkFiles items := rfl
      have hfaults : walkFailures directory (.file path :: items) = walkFailures directory items := rfl
      rw [hfiles, hfaults, List.length_cons, List.length_cons]
      omega
    | fault f =>
      have hfiles : walkFiles (.fault f :: items) = walkFiles items := rfl
      have hfaults : walkFailures directory (.fault f :: items) =
          (f.path?.getD directory, .walk f) :: walkFailures directory items := rfl
      rw [hfiles, hfaults, List.length_cons, List.length_cons]
      omega

theorem accounts_addAll (check : String → FileCheck) (directory : String) (items : List WalkItem) :
    (addAll check { failures := walkFailures directory items } (walkFiles items)).Accounts
      (fun path => (check path).outcome) directory items := by
  rw [addAll_eq]
  refine ⟨Nat.zero_add _, Nat.zero_add _, rfl, ?_⟩
  have hfiles := count_outcomes (fun path => (check path).outcome) (walkFiles items)
  have hitems := length_items directory items
  simp only [List.length_append, Nat.zero_add]
  omega

theorem verdict_ok_iff (r : CheckReport) : r.verdict = .ok () ↔ r.failures = [] := by
  unfold verdict
  cases r.failures <;> simp

theorem verdict_error_iff (r : CheckReport) (e : CheckError) :
    r.verdict = .error e ↔ r.failures ≠ [] ∧ e = .modulesFailed r.failures.length := by
  unfold verdict
  cases r.failures <;> simp [eq_comm]

end CheckReport

/-! ## Checks that finish in any order -/

/-- The files of a directory while they are checked, in the order of the walk, each with its outcome
once it is known, and the log so far. -/
structure CheckProgress where
  tasks : List (String × Option CheckOutcome)
  log : List LogLine

namespace CheckProgress

def start (paths : List String) : CheckProgress := ⟨paths.map (·, none), []⟩

/-- One of the files that are not checked yet is the next one to be checked. -/
inductive Finishes (check : String → FileCheck) : CheckProgress → CheckProgress → Prop
  | task {before path after log} :
      Finishes check ⟨before ++ (path, none) :: after, log⟩
        ⟨before ++ (path, some (check path).outcome) :: after, log ++ (check path).notes⟩

/-- Runs on until no file is left. -/
def Ends (check : String → FileCheck) (s s' : CheckProgress) : Prop :=
  Relation.ReflTransGen (Finishes check) s s' ∧ ∀ next, ¬Finishes check s' next

/-- What is reported of the outcomes that are known, after what a report already says. -/
def report (s : CheckProgress) (r : CheckReport) : CheckReport :=
  let known := s.tasks.foldl (fun r (path, outcome?) =>
    outcome?.elim r fun outcome => r.add path ⟨outcome, []⟩) r
  { known with notes := r.notes ++ s.log }

/-- What stays true while files are checked. -/
structure Faithful (check : String → FileCheck) (paths : List String) (s : CheckProgress) : Prop where
  paths : s.tasks.map Prod.fst = paths
  outcomes : ∀ task ∈ s.tasks, ∀ outcome ∈ task.2, outcome = (check task.1).outcome
  log : s.log.Perm (s.tasks.flatMap fun task => if task.2.isSome then (check task.1).notes else [])

variable {check : String → FileCheck} {paths : List String} {s s' : CheckProgress}

theorem faithful_start (check : String → FileCheck) (paths : List String) :
    Faithful check paths (start paths) := by
  refine ⟨?_, ?_, ?_⟩
  · simp [start, Function.comp_def]
  · simp [start]
  · simp [start]

theorem Faithful.step (h : Faithful check paths s) (hstep : Finishes check s s') :
    Faithful check paths s' := by
  obtain ⟨hpaths, houtcomes, hlog⟩ := h
  cases hstep with
  | @task before path after log =>
    refine ⟨?_, ?_, ?_⟩
    · rw [← hpaths]
      simp
    · intro task htask outcome houtcome
      rcases List.mem_append.mp htask with htask | htask
      · exact houtcomes task (List.mem_append_left _ htask) outcome houtcome
      · rcases List.mem_cons.mp htask with rfl | htask
        · exact (Option.mem_some.mp houtcome).symm
        · exact houtcomes task (List.mem_append_right _ (List.mem_cons_of_mem _ htask)) outcome houtcome
    · -- The notes come last in the log, but in the list they stand where the file does.
      simp only [List.flatMap_append, List.flatMap_cons, Option.isSome_none, Option.isSome_some, if_true,
        Bool.false_eq_true, if_false, List.nil_append] at hlog ⊢
      refine (hlog.append_right _).trans ?_
      rw [List.append_assoc]
      exact List.perm_append_comm.append_left _

theorem Faithful.run (h : Faithful check paths s)
    (hrun : Relation.ReflTransGen (Finishes check) s s') : Faithful check paths s' := by
  induction hrun with
  | refl => exact h
  | tail _ hstep ih => exact ih.step hstep

/-- At the end every outcome is known. -/
theorem Faithful.tasks_eq (h : Faithful check paths s) (hend : ∀ next, ¬Finishes check s next) :
    s.tasks = paths.map fun path => (path, some (check path).outcome) := by
  have hknown : ∀ task ∈ s.tasks, task = (task.1, some (check task.1).outcome) := by
    intro task htask
    obtain ⟨path, outcome?⟩ := task
    cases outcome? with
    | none =>
      obtain ⟨tasks, log⟩ := s
      obtain ⟨before, after, rfl⟩ := List.append_of_mem htask
      exact absurd .task (hend _)
    | some outcome => rw [h.outcomes _ htask outcome rfl]
  rw [← h.paths, List.map_map]
  exact (List.map_id' s.tasks).symm.trans (List.map_congr_left hknown)

theorem report_of_ends (check : String → FileCheck) (paths : List String) (r : CheckReport)
    (hend : Ends check (start paths) s) : (s.report r).SameButLog (r.addAll check paths) := by
  have h := (faithful_start check paths).run hend.1
  have htasks := h.tasks_eq hend.2
  have hquiet : s.report r = { r.addAll (fun path => ⟨(check path).outcome, []⟩) paths with
      notes := r.notes ++ s.log } := by
    rw [report, htasks, List.foldl_map]
    rfl
  have hlog := h.log
  rw [htasks, List.flatMap_map] at hlog
  rw [hquiet, CheckReport.addAll_eq, CheckReport.addAll_eq]
  exact ⟨rfl, rfl, rfl, hlog.append_left _⟩

def left (s : CheckProgress) : Nat := s.tasks.countP fun task => task.2.isNone

theorem Finishes.left (hstep : Finishes check s s') : s.left = s'.left + 1 := by
  cases hstep with
  | task =>
    simp only [CheckProgress.left, List.countP_append, List.countP_cons, Option.isNone_none,
      Option.isNone_some, Bool.false_eq_true, if_true, if_false]
    omega

theorem exists_ends (check : String → FileCheck) (s : CheckProgress) : ∃ s', Ends check s s' := by
  -- Each file that finishes leaves one less.
  induction hleft : s.left generalizing s with
  | zero =>
    refine ⟨s, .refl, ?_⟩
    intro next hstep
    have := hstep.left
    omega
  | succ n ih =>
    by_cases hstep : ∃ next, Finishes check s next
    · obtain ⟨next, hnext⟩ := hstep
      obtain ⟨s', hrun, hend⟩ := ih next (Nat.succ_inj.mp (hnext.left.symm.trans hleft))
      exact ⟨s', .head hnext hrun, hend⟩
    · exact ⟨s, .refl, not_exists.mp hstep⟩

end CheckProgress

namespace LoaderChain

variable (chain : LoaderChain Id) {files files' : FileAccess Id} (options : DecodeOptions)

theorem checkFiles_eq (r : CheckReport) (paths : List String) :
    chain.checkFiles files options r paths = r.addAll (chain.checkFile files options) paths := by
  induction paths generalizing r with
  | nil => rfl
  | cons path paths ih => exact ih _

theorem checkDirectory_eq {path : String} {items : List WalkItem} (hpath : files.found path = true)
    (hwalk : files.walk path = items) :
    chain.checkDirectory files options path = Except.ok
      (CheckReport.addAll (chain.checkFile files options) { failures := walkFailures path items }
        (walkFiles items)) := by
  rw [checkDirectory, hpath, hwalk]
  dsimp only [bind, pure]
  rw [if_pos rfl, checkFiles_eq]

theorem checkDirectory_of_missing {path : String} (hpath : files.found path = false) :
    chain.checkDirectory files options path = Except.error ⟨path⟩ := by
  rw [checkDirectory, hpath]
  rfl

theorem runCheck_eq {path : String} {r : CheckReport}
    (h : chain.checkDirectory files options path = Except.ok r) :
    chain.runCheck files options path = (r.notes ++ r.lines, r.verdict) := by
  rw [runCheck, h]
  rfl

/-- The loaders of settings do not list directories. -/
theorem checkFile_relisted {settings : Settings} {chain : LoaderChain Id}
    (hchain : settings.chain = .ok chain) (h : files.Relisted files') (path : String) :
    chain.checkFile files' options path = chain.checkFile files options path := by
  have hread : files'.readText path = files.readText path := by
    rw [FileAccess.readText, FileAccess.readText, h.read]
  have hload : chain.load files' path = chain.load files path := by
    rw [load_chain hchain, load_chain hchain, answer, answer, hread]
  rw [checkFile, checkFile, hload, hread]

theorem found_relisted (h : files.Relisted files') (path : String) :
    files'.found path = files.found path := by
  rw [FileAccess.found, FileAccess.found, h.kind]

/-- So no order of listing shows in the report. -/
theorem checkDirectory_relisted {settings : Settings} {chain : LoaderChain Id}
    (hchain : settings.chain = .ok chain) (hfiles : files.Orderly) (h : files.Relisted files')
    (path : String) :
    chain.checkDirectory files' options path = chain.checkDirectory files options path := by
  cases hpath : (files.found path : Bool) with
  | false =>
    have hpath' := (found_relisted h path).trans hpath
    rw [chain.checkDirectory_of_missing options hpath, chain.checkDirectory_of_missing options hpath']
  | true =>
    have hpath' := (found_relisted h path).trans hpath
    rw [chain.checkDirectory_eq options hpath rfl,
      chain.checkDirectory_eq options hpath' (FileAccess.walk_relisted hfiles h path),
      funext (checkFile_relisted options hchain h)]

end LoaderChain

/-! ## Lines -/

theorem walkLines (directory : String) (items : List WalkItem) :
    WalkLines directory items
      ((walkFailures directory items).map fun f => (f.1, f.2.message)) := by
  induction items with
  | nil => exact .nil
  | cons item items ih =>
    match item with
    | .file path => exact .file ih
    | .fault (.unusable (some path) fault) => exact .unusable ih
    | .fault (.unusable none fault) => exact .untold ih
    | .fault (.loop ancestor path) => exact .loop ih

namespace LoaderChain

variable (chain : LoaderChain Id) (files : FileAccess Id) (options : DecodeOptions)

theorem checks_checkFile (path : String) :
    chain.Checks files options path (chain.checkFile files options path).outcome.ending := by
  rw [checkFile]
  cases hload : (chain.load files path : Except LoadError (Option ClaimedModule)) with
  | error fault =>
    cases fault with
    | unreadable id fault => exact .unread hload
    | undecodable id fault => exact .undecoded hload
  | ok claimed? =>
    cases claimed? with
    | none => exact .declined hload
    | some claimed =>
      dsimp only [bind, pure]
      cases hvalue : Script.evaluate claimed.result.code with
      | error fault => exact .meaningless hload hvalue
      | ok v =>
        dsimp only
        cases hread : (files.readText path : Except FileFault String) with
        | error fault => exact .gone hload hvalue hread
        | ok source =>
          rw [compareWithFile]
          cases hdecode : decode options source with
          | error fault => exact .broken hload hvalue hread hdecode
          | ok w =>
            dsimp only
            cases hsame : v.same w with
            | false => exact .differing hload hvalue hread hdecode hsame
            | true => exact .alike hload hvalue hread hdecode hsame

theorem fileLines (paths : List String) :
    chain.FileLines files options paths
      ((failingFiles (fun path => (chain.checkFile files options path).outcome) paths).map fun f =>
        (f.1, f.2.message)) := by
  induction paths with
  | nil => exact .nil
  | cons path paths ih =>
    have hchecks := chain.checks_checkFile files options path
    rw [CheckReport.failingFiles_cons]
    cases houtcome : (chain.checkFile files options path : FileCheck).outcome with
    | passed =>
      rw [houtcome] at hchecks
      exact .passed hchecks ih
    | skipped =>
      rw [houtcome] at hchecks
      exact .skipped hchecks ih
    | failed failure =>
      rw [houtcome] at hchecks
      exact .failed hchecks ih

end LoaderChain

/-- What a walk of a directory that exists reports and the checks of its files make of it: each item is
counted once, and the failures are listed with their own texts, those of the walk first. A loader may list
directories itself, hence the condition on the files that are listed otherwise. -/
theorem directory_accounted (chain : LoaderChain Id) (options : DecodeOptions) {files : FileAccess Id}
    (hfiles : files.Orderly) {path : String} (hpath : files.found path = true) :
    ∃ items r, (∀ items', files.Walks path items' ↔ items' = items) ∧
      (toldPaths items).Nodup ∧
      chain.checkDirectory files options path = Except.ok r ∧
      r.Accounts (fun p => (chain.checkFile files options p).outcome) path items ∧
      (∃ ofWalk ofFiles, r.failureLines = ofWalk ++ ofFiles ∧ WalkLines path items ofWalk ∧
        chain.FileLines files options (walkFiles items) ofFiles) ∧
      (∀ files', files.Relisted files' →
        (∀ items', files'.Walks path items' ↔ items' = items) ∧
        ((∀ p ∈ walkFiles items, chain.checkFile files' options p = chain.checkFile files options p) →
          chain.checkDirectory files' options path = Except.ok r)) ∧
      (∀ s, Relation.ReflTransGen (CheckProgress.Finishes (chain.checkFile files options))
          (.start (walkFiles items)) s →
        (∃ s', CheckProgress.Ends (chain.checkFile files options) s s') ∧
        ∀ s', CheckProgress.Ends (chain.checkFile files options) s s' →
          (s'.report { failures := walkFailures path items }).SameButLog r) ∧
      chain.runCheck files options path = (r.notes ++ r.lines, r.verdict) ∧
      (r.verdict = .ok () ↔ r.failures = []) ∧
      (∀ e, r.verdict = .error e ↔ r.failures ≠ [] ∧ e = .modulesFailed r.failures.length) ∧
      ∀ e, r.verdict = .error e →
        e.message = toString r.failures.length ++ " module(s) failed the round-trip check" := by
  have hwalks (items' : List WalkItem) : files.Walks path items' ↔ items' = files.walk path :=
    (FileAccess.walks_iff hfiles).trans eq_comm
  have hreport := chain.checkDirectory_eq options hpath rfl
  have haccounts := CheckReport.accounts_addAll (chain.checkFile files options) path (files.walk path)
  refine ⟨files.walk path, _, hwalks, ?spread, hreport, haccounts, ?lines, ?relisted, ?anyOrder,
    chain.runCheck_eq options hreport, CheckReport.verdict_ok_iff _, CheckReport.verdict_error_iff _, ?text⟩
  case spread => exact (FileAccess.Walks.spread hfiles ((hwalks _).mpr rfl)).2
  case lines =>
    refine ⟨_, _, ?_, walkLines path (files.walk path), chain.fileLines files options _⟩
    rw [CheckReport.failureLines, haccounts.failures, List.map_append]
  case relisted =>
    intro files' hrelisted
    have hwalk := FileAccess.walk_relisted hfiles hrelisted path
    refine ⟨?_, ?_⟩
    · intro items'
      rw [← hwalk, FileAccess.walks_iff (hrelisted.orderly hfiles), eq_comm]
    · intro hsame
      have hpath' := (LoaderChain.found_relisted hrelisted path).trans hpath
      rw [chain.checkDirectory_eq options hpath' hwalk, CheckReport.addAll_congr hsame]
  case anyOrder =>
    intro s hrun
    refine ⟨CheckProgress.exists_ends _ s, ?_⟩
    intro s' hend
    exact CheckProgress.report_of_ends _ _ _ ⟨hrun.trans hend.1, hend.2⟩
  case text =>
    intro e he
    obtain ⟨_, rfl⟩ := (CheckReport.verdict_error_iff _ e).mp he
    rfl

/-- Files that the loader claims, a good one and two that fail, one that it does not claim, a link back and a
link to nothing. -/
def linkedDocs : FileTree where
  entries := [("docs", .directory [("nav.yaml", .file "a: 1\n".toUTF8),
    ("keys.yaml", .file "? [a]\n: 1\n".toUTF8), ("bin.yaml", .file ⟨#[255]⟩), ("gone", .link "nowhere"),
    ("again", .link "."), ("README", .file ⟨#[]⟩)])]

/-- The same files where directories have other places, or cannot be opened. -/
def linkedDocsAt (place : String → Except FileFault String) : FileAccess Id :=
  { linkedDocs.access with place }

namespace LinkedDocs

theorem wellNamed : linkedDocs.WellNamed := by
  refine .directory (by decide) (by decide) (List.forall_mem_singleton.mpr ?_)
  refine .directory (by decide) (by decide) ?_
  simp only [List.forall_mem_cons]
  exact ⟨.file, .file, .file, .link, .link, .file, List.forall_mem_nil _⟩

variable (place : String → Except FileFault String)

theorem orderly : (linkedDocsAt place).Orderly :=
  have h := linkedDocs.orderly_access wellNamed
  ⟨h.distinct, h.named, h.bounded, h.empty⟩

theorem docs : linkedDocs.entry "docs" = .ok (some .directory) ∧
    linkedDocs.kind "docs" = .ok .directory ∧
    linkedDocs.list "docs" = .ok ⟨[⟨"nav.yaml", some .file⟩, ⟨"keys.yaml", some .file⟩,
      ⟨"bin.yaml", some .file⟩, ⟨"gone", none⟩, ⟨"again", none⟩, ⟨"README", some .file⟩], none⟩ ∧
    linkedDocs.place "docs" = .ok "//docs" := by
  have hdocs := linkedDocs.locate_of_relative "docs" (by simp) (by decide) (by simp) (by simp)
  rw [FileTree.entry, FileTree.kind, FileTree.list, FileTree.place, FileTree.resolve, hdocs, hdocs]
  decide +kernel

theorem links : linkedDocs.kind "docs/again" = .ok .directory ∧
    linkedDocs.place "docs/again" = .ok "//docs" ∧ linkedDocs.kind "docs/gone" = .error .missing := by
  have hagain := linkedDocs.locate_of_relative "docs/again" (by simp) (by decide) (by simp) (by simp)
  have hgone := linkedDocs.locate_of_relative "docs/gone" (by simp) (by decide) (by simp) (by simp)
  rw [FileTree.kind, FileTree.place, FileTree.resolve, hagain, FileTree.kind, FileTree.resolve, hgone]
  decide +kernel

theorem reads : linkedDocs.read "docs/nav.yaml" = .ok "a: 1\n".toUTF8 ∧
    linkedDocs.read "docs/keys.yaml" = .ok "? [a]\n: 1\n".toUTF8 ∧
    linkedDocs.read "docs/bin.yaml" = .ok ⟨#[255]⟩ := by
  have hnav := linkedDocs.locate_of_relative "docs/nav.yaml" (by simp) (by decide) (by simp) (by simp)
  have hkeys := linkedDocs.locate_of_relative "docs/keys.yaml" (by simp) (by decide) (by simp) (by simp)
  have hbin := linkedDocs.locate_of_relative "docs/bin.yaml" (by simp) (by decide) (by simp) (by simp)
  rw [FileTree.read, FileTree.resolve, hnav, FileTree.read, FileTree.resolve, hkeys, FileTree.read,
    FileTree.resolve, hbin]
  decide +kernel

/-- The items of the walk, given that of the link back. -/
theorem walks {item : WalkItem} (hback : (linkedDocsAt place).WalksEntry ["docs"] "docs/again" none [item]) :
    (linkedDocsAt place).Walks "docs" [.file "docs/README", item, .file "docs/bin.yaml",
      .fault (.unusable (some "docs/gone") .missing), .file "docs/keys.yaml", .file "docs/nav.yaml"] := by
  obtain ⟨hentry, _, hlist, _⟩ := docs
  have hentries : (linkedDocsAt place).WalksEntries ["docs"] "docs" [⟨"README", some .file⟩, ⟨"again", none⟩,
      ⟨"bin.yaml", some .file⟩, ⟨"gone", none⟩, ⟨"keys.yaml", some .file⟩, ⟨"nav.yaml", some .file⟩] _ :=
    .at (show childPath "docs" "README" = "docs/README" by decide +kernel) .file <|
    .at (show childPath "docs" "again" = "docs/again" by decide +kernel) hback <|
    .at (show childPath "docs" "bin.yaml" = "docs/bin.yaml" by decide +kernel) .file <|
    .at (show childPath "docs" "gone" = "docs/gone" by decide +kernel) (.dangling links.2.2) <|
    .at (show childPath "docs" "keys.yaml" = "docs/keys.yaml" by decide +kernel) .file <|
    .at (show childPath "docs" "nav.yaml" = "docs/nav.yaml" by decide +kernel) .file .nil
  exact .entry hentry (.directory (.listed hlist (by decide) (by decide) hentries))

theorem readTexts : (linkedDocsAt place).readText "docs/nav.yaml" = Except.ok "a: 1\n" ∧
    (linkedDocsAt place).readText "docs/keys.yaml" = Except.ok "? [a]\n: 1\n" ∧
    (linkedDocsAt place).readText "docs/bin.yaml" = Except.error .notText := by
  obtain ⟨hnav, hkeys, hbin⟩ := reads
  have hread (path : String) (content : ByteArray) (h : linkedDocs.read path = .ok content) :
      (linkedDocsAt place).readText path = textOfBytes content := by
    have hread : (linkedDocsAt place).read path = Except.ok content := h
    rw [FileAccess.readText, hread]
    rfl
  rw [hread _ _ hnav, hread _ _ hkeys, hread _ _ hbin]
  exact ⟨rfl, rfl, rfl⟩

theorem outcomes :
    ((LoaderChain.mk [YamlLoader.loader {}]).checkFile (linkedDocsAt place) {} "docs/README").outcome = .skipped ∧
    ((LoaderChain.mk [YamlLoader.loader {}]).checkFile (linkedDocsAt place) {} "docs/nav.yaml").outcome = .passed ∧
    ((LoaderChain.mk [YamlLoader.loader {}]).checkFile (linkedDocsAt place) {} "docs/keys.yaml").outcome =
      .failed (.load (.undecodable "docs/keys.yaml" (.badKey [] ⟨[], .unsupported .sequence⟩))) ∧
    ((LoaderChain.mk [YamlLoader.loader {}]).checkFile (linkedDocsAt place) {} "docs/bin.yaml").outcome =
      .failed (.load (.unreadable "docs/bin.yaml" .notText)) := by
  obtain ⟨hnav, hkeys, hbin⟩ := readTexts place
  have hchain : Settings.chain (m := Id) {} = .ok ⟨[YamlLoader.loader {}]⟩ := rfl
  have hclaims (path : String) (h : ".yaml".toList <:+ path.toList) : Settings.Claims {} path :=
    ⟨".yaml", List.mem_cons_self, h⟩
  refine ⟨?readme, ?nav, ?keys, ?bin⟩
  case readme =>
    apply LoaderChain.outcome_of_declined
    apply load_of_not_claims hchain
    rintro ⟨suffix, hsuffix, hclaims⟩
    obtain rfl : suffix = ".yaml" := List.mem_singleton.mp hsuffix
    exact absurd hclaims (by decide)
  case nav =>
    obtain ⟨claimed, w, hload, hw, hcompare⟩ := load_of_usable hchain (hclaims "docs/nav.yaml" (by decide))
      ⟨"a: 1\n", _, hnav, rfl⟩
    exact LoaderChain.outcome_of_claimed _ hload hw hcompare
  case keys =>
    apply LoaderChain.outcome_of_fault
    rw [load_of_claims hchain (hclaims "docs/keys.yaml" (by decide)), LoaderChain.answer, hkeys]
    rfl
  case bin =>
    apply LoaderChain.outcome_of_fault
    rw [load_of_claims hchain (hclaims "docs/bin.yaml" (by decide)), LoaderChain.answer, hbin]
    rfl

theorem found : (linkedDocsAt place).found "docs" = true := by
  have hkind : (linkedDocsAt place).kind "docs" = Except.ok .directory := docs.2.1
  rw [FileAccess.found, hkind]
  rfl

/-- The items of the walk. -/
def items : List WalkItem := [.file "docs/README", .fault (.loop "docs" "docs/again"), .file "docs/bin.yaml",
  .fault (.unusable (some "docs/gone") .missing), .file "docs/keys.yaml", .file "docs/nav.yaml"]

theorem walks_items : (linkedDocsAt linkedDocs.place).Walks "docs" items :=
  walks _ (.linkBack links.1 links.2.1 (List.forall_mem_nil _) docs.2.2.2)

theorem accounted {r : CheckReport} (h : r.Accounts (fun path => ((LoaderChain.mk
      [YamlLoader.loader {}]).checkFile (linkedDocsAt linkedDocs.place) {} path).outcome) "docs" items) :
    r.passed = 1 ∧ r.skipped = 1 ∧ r.failures = [("docs/again", .walk (.loop "docs" "docs/again")),
      ("docs/gone", .walk (.unusable (some "docs/gone") .missing)),
      ("docs/bin.yaml", .load (.unreadable "docs/bin.yaml" .notText)),
      ("docs/keys.yaml", .load (.undecodable "docs/keys.yaml" (.badKey [] ⟨[], .unsupported .sequence⟩)))] := by
  obtain ⟨hreadme, hnav, hkeys, hbin⟩ := outcomes linkedDocs.place
  have hfiles : walkFiles items = ["docs/README", "docs/bin.yaml", "docs/keys.yaml", "docs/nav.yaml"] := rfl
  have hfaults : walkFailures "docs" items = [("docs/again", .walk (.loop "docs" "docs/again")),
      ("docs/gone", .walk (.unusable (some "docs/gone") .missing))] := rfl
  obtain ⟨hpassed, hskipped, hfailures, _⟩ := h
  rw [hfiles] at hpassed hskipped hfailures
  rw [hfaults] at hfailures
  refine ⟨?_, ?_, ?_⟩
  · simpa [hreadme, hnav, hkeys, hbin, CheckOutcome.isPassed] using hpassed
  · simpa [hreadme, hnav, hkeys, hbin, CheckOutcome.isSkipped] using hskipped
  · simpa [failingFiles, hreadme, hnav, hkeys, hbin, CheckOutcome.failure?] using hfailures

end LinkedDocs

/-- The check of the files, and of the same files with directories that cannot be opened, which the walk
notices at the link back. -/
theorem linked_docs_accounted :
    (linkedDocs.access.Orderly ∧ linkedDocs.access.found "docs" = true ∧
      ∃ r, (LoaderChain.mk [YamlLoader.loader {}]).checkDirectory linkedDocs.access {} "docs" = Except.ok r ∧
        r.passed = 1 ∧ r.skipped = 1 ∧ r.failureLines =
          [("docs/again", "could not be walked: File system loop found: docs/again points to an ancestor docs"),
            ("docs/gone", "could not be walked: IO error for operation on docs/gone: " ++
              "No such file or directory (os error 2)"),
            ("docs/bin.yaml", "Failed to read docs/bin.yaml: stream did not contain valid UTF-8"),
            ("docs/keys.yaml", "Failed to decode docs/keys.yaml: sequence used as a mapping key at $")] ∧
        r.verdict = .error (.modulesFailed 4)) ∧
    ∃ r, (LoaderChain.mk [YamlLoader.loader {}]).checkDirectory
        (linkedDocsAt fun _ => .error (.system "Permission denied" 13)) {} "docs" = Except.ok r ∧
      r.failureLines.head? = some ("docs", "could not be walked: Permission denied (os error 13)") := by
  refine ⟨⟨LinkedDocs.orderly _, LinkedDocs.found _, ?opened⟩, ?closed⟩
  case opened =>
    obtain ⟨items, r, hwalks, _, hr, haccounts, _, _, _, _, _, hverdict, _⟩ :=
      directory_accounted ⟨[YamlLoader.loader {}]⟩ {} (LinkedDocs.orderly linkedDocs.place)
        (LinkedDocs.found linkedDocs.place)
    obtain rfl := (hwalks _).mp LinkedDocs.walks_items
    obtain ⟨hpassed, hskipped, hfailures⟩ := LinkedDocs.accounted haccounts
    refine ⟨r, hr, hpassed, hskipped, ?_, (hverdict _).mpr ⟨by simp [hfailures], by simp [hfailures]⟩⟩
    rw [CheckReport.failureLines, hfailures]
    decide +kernel
  case closed =>
    obtain ⟨items, r, hwalks, _, hr, haccounts, _⟩ :=
      directory_accounted ⟨[YamlLoader.loader {}]⟩ {} (LinkedDocs.orderly _)
        (LinkedDocs.found fun _ => .error (.system "Permission denied" 13))
    obtain rfl := (hwalks _).mp (LinkedDocs.walks _ (.linkToClosed LinkedDocs.links.1 rfl))
    refine ⟨r, hr, ?_⟩
    rw [CheckReport.failureLines, haccounts.failures]
    rfl

end ConfigModules
