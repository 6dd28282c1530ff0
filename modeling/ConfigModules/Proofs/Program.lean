import ConfigModules.Proofs.Arguments
import ConfigModules.Proofs.CheckDirectory
import ConfigModules.Proofs.Suffixes

/-! The answer of the program as a whole. Its exit status, its output and its log say the same of a run,
through every early end of it. -/
namespace ConfigModules

/-! ## Questions to the files -/

/-- A question to the files. -/
inductive FileQuestion where
  | kind (path : String)
  | entry (path : String)
  | read (path : String)
  | list (path : String)
  | place (path : String)
deriving DecidableEq, Repr

/-- Files that answer as before and keep the questions. -/
def FileAccess.recorded (files : FileAccess Id) : FileAccess (StateM (List FileQuestion)) where
  kind path := fun asked => (files.kind path, asked ++ [.kind path])
  entry path := fun asked => (files.entry path, asked ++ [.entry path])
  read path := fun asked => (files.read path, asked ++ [.read path])
  list path := fun asked => (files.list path, asked ++ [.list path])
  place path := fun asked => (files.place path, asked ++ [.place path])

namespace FileAccess

theorem found_recorded (files : FileAccess Id) (path : String) (asked : List FileQuestion) :
    files.recorded.found path asked = (files.found path, asked ++ [.kind path]) := by
  simp only [found, recorded, bind, StateT.bind]
  cases (files.kind path : Except FileFault FileKind) <;> rfl

theorem readText_recorded (files : FileAccess Id) (path : String) (asked : List FileQuestion) :
    files.recorded.readText path asked = (files.readText path, asked ++ [.read path]) := rfl

end FileAccess

/-- The settings at a path load, and a chain is made of their endings. -/
structure Prepared (files : FileAccess Id) (path : String) (settings : Settings) (note : LogLine)
    (chain : LoaderChain Id) : Prop where
  loaded : Settings.load files path = Except.ok ⟨settings, note⟩
  suffixes : settings.HasGoodSuffixes
  chain : settings.chain = .ok chain

variable {files : FileAccess Id} {path : String} {settings : Settings} {note : LogLine}
  {chain : LoaderChain Id}

namespace Settings

theorem note_of_load (h : load files path = Except.ok ⟨settings, note⟩) :
    note.level = .debug ∨ note = ⟨.info, "Loaded config from " ++ path⟩ := by
  rw [load] at h
  dsimp only [bind, pure] at h
  split_ifs at h
  · cases hfile : ofFile path (files.readText path) with
    | error fault =>
      rw [hfile] at h
      cases h
    | ok settings =>
      rw [hfile] at h
      cases h
      exact .inr rfl
  · cases h
    exact .inl rfl

/-- Loading settings asks for the file of settings, and for nothing else. -/
theorem load_recorded (files : FileAccess Id) (path : String) (asked : List FileQuestion) :
    ∃ questions, load files.recorded path asked = (load files path, asked ++ questions) ∧
      ∀ q ∈ questions, q = .kind path ∨ q = .read path := by
  have hrecorded := files.found_recorded path asked
  cases hfound : (files.found path : Bool) with
  | true =>
    refine ⟨[.kind path, .read path], ?_, by simp⟩
    rw [hfound] at hrecorded
    simp only [load, bind, StateT.bind, hrecorded, hfound, if_true, FileAccess.readText_recorded,
      List.append_assoc]
    rfl
  | false =>
    refine ⟨[.kind path], ?_, by simp⟩
    rw [hfound] at hrecorded
    simp only [load, bind, StateT.bind, hrecorded, hfound]
    rfl

/-- Whether a chain is made of settings does not depend on how files are asked. -/
theorem chain_fault {m m' : Type → Type} [Monad m] [Monad m'] {settings : Settings}
    {fault : SettingsError} (h : (settings.chain : Except SettingsError (LoaderChain m)) = .error fault) :
    (settings.chain : Except SettingsError (LoaderChain m')) = .error fault := by
  simp only [chain] at h ⊢
  split_ifs at h ⊢ with hnone hempty
  · simpa using h
  · simpa using h

/-- What stops the program before it has a chain. -/
def Stops (files : FileAccess Id) (path : String) (fault : SettingsError) : Prop :=
  load files path = Except.error fault ∨
    ∃ settings note, load files path = Except.ok ⟨settings, note⟩ ∧
      (settings.chain : Except SettingsError (LoaderChain Id)) = .error fault

theorem prepared_or_stops (files : FileAccess Id) (path : String) :
    (∃ settings note chain, Prepared files path settings note chain) ∨ ∃ fault, Stops files path fault := by
  cases hload : (load files path : Except SettingsError Loaded) with
  | error fault => exact .inr ⟨fault, .inl hload⟩
  | ok loaded =>
    obtain ⟨settings, note⟩ := loaded
    cases hchain : (settings.chain : Except SettingsError (LoaderChain Id)) with
    | error fault => exact .inr ⟨fault, .inr ⟨settings, note, hload, hchain⟩⟩
    | ok chain =>
      exact .inl ⟨settings, note, chain, hload, settings.exists_chain_iff.mp ⟨chain, hchain⟩, hchain⟩

end Settings

/-! ## The reports of actions -/

namespace LoaderChain

theorem exists_renderingOf_iff {id : String} {json : Bool}
    {answer : Except LoadError (Option ClaimedModule)} :
    (∃ rendering, renderingOf id json answer = .ok rendering) ↔ ∃ claimed, answer = .ok (some claimed) := by
  match answer with
  | .error fault => simp [renderingOf]
  | .ok none => simp [renderingOf]
  | .ok (some claimed) => simp [renderingOf]

theorem exists_rendering_iff {id : String} (json : Bool) :
    (∃ rendering, chain.render files id json = Except.ok rendering) ↔
      ∃ claimed, chain.load files id = Except.ok (some claimed) :=
  exists_renderingOf_iff

/-- A loader of settings says nothing but what helps to find faults. -/
theorem notes_of_load {claimed : ClaimedModule} (hchain : settings.chain = .ok chain) {id : String}
    (h : chain.load files id = Except.ok (some claimed)) :
    ∀ line ∈ claimed.result.notes, line.level = .debug := by
  by_cases hid : settings.Claims id
  · rw [answers_of_claims hchain hid] at h
    have hmap : answerTo settings.loader.decoding id (files.readText id) = .ok (some claimed) := h
    rw [answerTo] at hmap
    cases hmodule : YamlLoader.moduleOfText { decoding := settings.loader.decoding } id
        (files.readText id) with
    | error fault => simp [hmodule, Except.map] at hmap
    | ok result =>
      obtain ⟨_, v, _, _, rfl⟩ := YamlLoader.moduleOfText_ok_iff.mp hmodule
      rw [hmodule] at hmap
      cases hmap
      simp [YamlLoader.moduleOf]
  · rw [declines_of_not_claims hchain hid] at h
    cases h

theorem notes_of_checkFile (hchain : settings.chain = .ok chain) (options : DecodeOptions) (path : String) :
    ∀ line ∈ (chain.checkFile files options path : FileCheck).notes, line.level = .debug := by
  rw [checkFile]
  cases hload : (chain.load files path : Except LoadError (Option ClaimedModule)) with
  | error fault => exact List.forall_mem_nil _
  | ok claimed? =>
    cases claimed? with
    | none => exact List.forall_mem_nil _
    | some claimed =>
      have hnotes := notes_of_load hchain hload
      dsimp only [bind, pure]
      cases Script.evaluate claimed.result.code with
      | error fault => exact hnotes
      | ok v =>
        dsimp only
        cases compareWithFile options v (files.readText path) with
        | error failure => exact hnotes
        | ok _ =>
          intro line hline
          rcases List.mem_append.mp hline with hline | hline
          · exact hnotes line hline
          · rw [List.mem_singleton.mp hline]

theorem notes_of_checkDirectory (hchain : settings.chain = .ok chain) {options : DecodeOptions}
    {path : String} {r : CheckReport} (h : chain.checkDirectory files options path = Except.ok r) :
    ∀ line ∈ r.notes, line.level = .debug := by
  cases hfound : (files.found path : Bool) with
  | false =>
    rw [chain.checkDirectory_of_missing options hfound] at h
    cases h
  | true =>
    rw [chain.checkDirectory_eq options hfound rfl, CheckReport.addAll_eq] at h
    cases h
    intro line hline
    simp only [List.nil_append, List.mem_flatMap] at hline
    obtain ⟨file, _, hline⟩ := hline
    exact notes_of_checkFile hchain options file line hline

end LoaderChain

namespace Action

/-- What an action is to do is done: a loader claims the identifier and makes a module of it, or the
directory exists and nothing in it fails. -/
def Succeeds (files : FileAccess Id) (settings : Settings) (chain : LoaderChain Id) : Action → Prop
  | load id _ => ∃ claimed, chain.load files id = Except.ok (some claimed)
  | check directory =>
    files.found (directory.getD settings.check.directory) = true ∧
      ∃ r, chain.checkDirectory files settings.loader.decoding (directory.getD settings.check.directory) =
        Except.ok r ∧ r.failures = []

theorem perform_of_rendered {id : String} {json : Bool} {rendering : Rendering}
    (h : chain.render files id json = Except.ok rendering) :
    (load id json).perform files settings chain =
      ({ output := rendering.text ++ "\n", log := rendering.notes } : Report) := by
  rw [perform, h]
  rfl

theorem perform_of_not_rendered {id : String} {json : Bool} {fault : RenderError}
    (h : chain.render files id json = Except.error fault) :
    (load id json).perform files settings chain = ({ error := some (.render fault) } : Report) := by
  rw [perform, h]
  rfl

theorem perform_of_checked {directory : Option String} {r : CheckReport}
    (h : chain.checkDirectory files settings.loader.decoding (directory.getD settings.check.directory) =
      Except.ok r) :
    (check directory).perform files settings chain =
      ({ log := r.notes ++ r.lines
         error := if r.failures = [] then none else some (.check (.modulesFailed r.failures.length)) } :
        Report) := by
  rw [perform, chain.runCheck_eq _ h]
  dsimp only [bind, pure]
  rw [CheckReport.verdict]
  cases r.failures <;> rfl

theorem perform_of_missing {directory : Option String}
    (h : files.found (directory.getD settings.check.directory) = false) :
    (check directory).perform files settings chain =
      ({ error := some (.check (.directoryMissing ⟨directory.getD settings.check.directory⟩)) } : Report) := by
  rw [perform, LoaderChain.runCheck, chain.checkDirectory_of_missing _ h]
  rfl

theorem perform_check_output (directory : Option String) :
    ((check directory).perform files settings chain : Report).output = "" := by
  cases hfound : (files.found (directory.getD settings.check.directory) : Bool) with
  | false => rw [perform_of_missing hfound]
  | true => rw [perform_of_checked (chain.checkDirectory_eq _ hfound rfl)]

/-- An action ends without an error exactly if it succeeds. -/
theorem perform_error_iff (action : Action) :
    (action.perform files settings chain : Report).error = none ↔ action.Succeeds files settings chain := by
  cases action with
  | load id json =>
    rw [Succeeds, ← LoaderChain.exists_rendering_iff json]
    cases hrender : (chain.render files id json : Except RenderError Rendering) with
    | error fault => simp [perform_of_not_rendered hrender]
    | ok rendering => simp [perform_of_rendered hrender]
  | check directory =>
    rw [Succeeds]
    cases hfound : (files.found (directory.getD settings.check.directory) : Bool) with
    | false => simp [perform_of_missing hfound]
    | true =>
      have hcheck := chain.checkDirectory_eq settings.loader.decoding hfound rfl
      rw [perform_of_checked hcheck]
      constructor
      · intro hnone
        exact ⟨rfl, _, hcheck, by simpa using hnone⟩
      · rintro ⟨_, r, hr, hfailures⟩
        cases hcheck.symm.trans hr
        simp [hfailures]

variable (action : Action)

theorem run_of_prepared (h : Prepared files path settings note chain) :
    action.run files path =
      { action.perform files settings chain with
        log := note :: (action.perform files settings chain).log } := by
  rw [run, h.loaded]
  dsimp only [bind, pure]
  rw [h.chain]

/-- Before there is a chain, nothing is printed, and nothing is asked of the files but the settings. -/
theorem run_of_stops {fault : SettingsError} (h : Settings.Stops files path fault) :
    (∃ log, action.run files path = ({ log, error := some (.settings fault) } : Report)) ∧
      ∃ questions, action.run files.recorded path [] = (action.run files path, questions) ∧
        ∀ q ∈ questions, q = .kind path ∨ q = .read path := by
  obtain ⟨questions, hasks, hquestions⟩ := Settings.load_recorded files path []
  rcases h with hload | ⟨settings, note, hload, hchain⟩
  · rw [hload, List.nil_append] at hasks
    have hrun : action.run files path = ({ error := some (.settings fault) } : Report) := by
      rw [run, hload]
      rfl
    refine ⟨⟨[], hrun⟩, questions, ?_, hquestions⟩
    simp only [run, bind, StateT.bind, hasks, hload]
    rfl
  · rw [hload, List.nil_append] at hasks
    have hrun : action.run files path = ({ log := [note], error := some (.settings fault) } : Report) := by
      rw [run, hload]
      dsimp only [bind, pure]
      rw [hchain]
    refine ⟨⟨[note], hrun⟩, questions, ?_, hquestions⟩
    rw [hrun]
    simp only [run, bind, StateT.bind, hasks]
    rw [Settings.chain_fault hchain]
    rfl

theorem run_error_iff :
    (action.run files path : Report).error = none ↔
      ∃ settings note chain, Prepared files path settings note chain ∧
        action.Succeeds files settings chain := by
  constructor
  · intro hnone
    rcases Settings.prepared_or_stops files path with ⟨settings, note, chain, hprepared⟩ | ⟨fault, hstops⟩
    · rw [run_of_prepared action hprepared] at hnone
      exact ⟨settings, note, chain, hprepared, (action.perform_error_iff).mp hnone⟩
    · obtain ⟨log, hrun⟩ := (run_of_stops action hstops).1
      rw [hrun] at hnone
      cases hnone
  · rintro ⟨settings, note, chain, hprepared, hsucceeds⟩
    rw [run_of_prepared action hprepared]
    exact (action.perform_error_iff).mpr hsucceeds

/-- Only a module that is loaded is printed. -/
theorem run_output_of_error {fault : ActionError} (h : (action.run files path : Report).error = some fault) :
    (action.run files path : Report).output = "" := by
  rcases Settings.prepared_or_stops files path with ⟨settings, note, chain, hprepared⟩ | ⟨_, hstops⟩
  · rw [run_of_prepared action hprepared] at h ⊢
    cases action with
    | load id json =>
      cases hrender : (chain.render files id json : Except RenderError Rendering) with
      | error fault => rw [perform_of_not_rendered hrender]
      | ok rendering =>
        rw [perform_of_rendered hrender] at h
        cases h
    | check directory => exact perform_check_output directory
  · obtain ⟨log, hrun⟩ := (run_of_stops action hstops).1
    rw [hrun]

theorem run_check_output (directory : Option String) :
    ((check directory).run files path : Report).output = "" := by
  rcases Settings.prepared_or_stops files path with ⟨settings, note, chain, hprepared⟩ | ⟨_, hstops⟩
  · rw [run_of_prepared _ hprepared]
    exact perform_check_output directory
  · obtain ⟨log, hrun⟩ := (run_of_stops (check directory) hstops).1
    rw [hrun]

theorem run_load_output {id : String} {json : Bool} {rendering : Rendering}
    (h : Prepared files path settings note chain)
    (hrender : chain.render files id json = Except.ok rendering) :
    ((load id json).run files path : Report).output = rendering.text ++ "\n" := by
  rw [run_of_prepared _ h, perform_of_rendered hrender]

end Action

/-- The log of a check that has walked a directory: where the settings are from and what helps to find
faults, then a warning for each failure in the order of the report, then a summary. -/
def CheckReport.IsLogged (r : CheckReport) (settingsPath : String) (log : List LogLine) : Prop :=
  ∃ before,
    log = before ++ (r.failures.map fun f => ⟨.warn, f.1 ++ ": " ++ f.2.message⟩) ++
      [⟨.info, "Checked " ++ toString (r.passed + r.failures.length) ++ " modules (" ++
        toString r.skipped ++ " skipped)"⟩] ∧
    ∀ line ∈ before, line.level = .debug ∨ line = ⟨.info, "Loaded config from " ++ settingsPath⟩

theorem CheckReport.isLogged_shownLines {r : CheckReport} {log : List LogLine} (verbose : Bool)
    (h : r.IsLogged path log) : r.IsLogged path (shownLines verbose log) := by
  obtain ⟨before, rfl, hbefore⟩ := h
  refine ⟨shownLines verbose before, ?_, fun line hline => hbefore line (List.mem_of_mem_filter hline)⟩
  simp only [shownLines, List.filter_append, List.filter_map]
  simp [Function.comp_def]

theorem Action.run_of_checked {directory : Option String} (h : Prepared files path settings note chain)
    (hfound : files.found (directory.getD settings.check.directory) = true) :
    ∃ r, chain.checkDirectory files settings.loader.decoding (directory.getD settings.check.directory) =
        Except.ok r ∧
      r.IsLogged path ((check directory).run files path : Report).log ∧
      ((check directory).run files path : Report).error =
        if r.failures = [] then none else some (.check (.modulesFailed r.failures.length)) := by
  obtain ⟨r, hcheck⟩ : ∃ r, chain.checkDirectory files settings.loader.decoding
      (directory.getD settings.check.directory) = Except.ok r :=
    ⟨_, chain.checkDirectory_eq settings.loader.decoding hfound rfl⟩
  refine ⟨r, hcheck, ?_⟩
  rw [run_of_prepared _ h, perform_of_checked hcheck]
  refine ⟨⟨note :: r.notes, ?_, ?_⟩, rfl⟩
  · simp [CheckReport.lines, CheckReport.modules]
  · intro line hline
    rcases List.mem_cons.mp hline with rfl | hline
    · exact Settings.note_of_load h.loaded
    · exact .inl (LoaderChain.notes_of_checkDirectory h.chain hcheck line hline)

/-! ## The reply -/

theorem runProgram_of_act {args : List String} {options : GlobalOptions} {action : Action}
    (h : Request.ofArguments? args = some (.act options action)) (files : FileAccess Id) :
    runProgram files args = Reply.ofReport options.verbose (action.run files options.settingsPath) := by
  rw [runProgram, h]
  rfl

/-- A quiet log is the loud one without the lines that help to find faults. -/
theorem shownLines_quiet (lines : List LogLine) :
    shownLines false lines = (shownLines true lines).filter fun line => line.level ≠ .debug := by
  simp [shownLines]

theorem Reply.status_eq_zero_iff (verbose : Bool) (report : Report) :
    (ofReport verbose report).status = 0 ↔ report.error = none := by
  cases h : report.error <;> simp [ofReport, h]

/-- The exit status, the output and the log of the program agree, whatever it is asked to do. It fails with
one error or succeeds with none; it succeeds exactly if there is a chain and the action succeeds with it; it
prints a module that is loaded and nothing else; a check that walks logs each failure once; a fault of the
settings or their endings comes before any question to other files; and the verbose option only adds lines
to the log that help to find faults. -/
theorem program_agrees (files : FileAccess Id) {args : List String} {options : GlobalOptions}
    {action : Action} (h : Request.ofArguments? args = some (.act options action)) :
    ∃ reply : Reply, runProgram files args = reply ∧
      (reply.status = 0 ∧ reply.error = none ∨ reply.status = 1 ∧ ∃ text, reply.error = some text) ∧
      (reply.status = 0 ↔ ∃ settings note chain,
        Prepared files options.settingsPath settings note chain ∧ action.Succeeds files settings chain) ∧
      (reply.output ≠ "" → ∃ id json, action = .load id json ∧ reply.status = 0) ∧
      (∀ id json settings note chain rendering, action = .load id json →
        Prepared files options.settingsPath settings note chain →
        chain.render files id json = Except.ok rendering → reply.output = rendering.text ++ "\n") ∧
      (∀ directory settings note chain, action = .check directory →
        Prepared files options.settingsPath settings note chain →
        files.found (directory.getD settings.check.directory) = true →
        ∃ r, chain.checkDirectory files settings.loader.decoding
            (directory.getD settings.check.directory) = Except.ok r ∧
          r.IsLogged options.settingsPath reply.log ∧
          reply.error = if r.failures = [] then none
            else some (toString r.failures.length ++ " module(s) failed the round-trip check")) ∧
      (∀ fault, Settings.Stops files options.settingsPath fault →
        reply.error = some fault.message ∧
        ∃ questions, runProgram files.recorded args [] = (reply, questions) ∧
          ∀ q ∈ questions, q = .kind options.settingsPath ∨ q = .read options.settingsPath) ∧
      (options.verbose = false →
        Request.ofArguments? ("--verbose" :: args) = some (.act options.loud action) ∧
        ∀ args', Request.ofArguments? args' = some (.act options.loud action) →
          ∃ loud : Reply, runProgram files args' = loud ∧ loud.status = reply.status ∧
            loud.output = reply.output ∧ loud.error = reply.error ∧
            reply.log = loud.log.filter fun line => line.level ≠ .debug) := by
  refine ⟨_, runProgram_of_act h files, ?_, ?_, ?_, ?_, ?_, ?_, ?_⟩
  · cases herror : (action.run files options.settingsPath : Report).error with
    | none => exact .inl (by simp [Reply.ofReport, herror])
    | some fault => exact .inr (by simp [Reply.ofReport, herror])
  · rw [Reply.status_eq_zero_iff, Action.run_error_iff]
  · intro hprints
    rw [Reply.status_eq_zero_iff]
    cases action with
    | load id json =>
      refine ⟨id, json, rfl, ?_⟩
      by_contra hfails
      obtain ⟨fault, hfault⟩ := Option.ne_none_iff_exists'.mp hfails
      exact hprints (Action.run_output_of_error _ hfault)
    | check directory => exact absurd (Action.run_check_output directory) hprints
  · rintro id json settings note chain rendering rfl hprepared hrender
    exact Action.run_load_output hprepared hrender
  · rintro directory settings note chain rfl hprepared hfound
    obtain ⟨r, hr, hlogged, herror⟩ := Action.run_of_checked hprepared hfound
    refine ⟨r, hr, CheckReport.isLogged_shownLines options.verbose hlogged, ?_⟩
    rw [Reply.ofReport, herror]
    split_ifs <;> rfl
  · intro fault hstops
    obtain ⟨⟨log, hrun⟩, questions, hasks, hquestions⟩ := Action.run_of_stops action hstops
    refine ⟨?_, questions, ?_, hquestions⟩
    · rw [hrun]
      rfl
    · simp only [runProgram, h, bind, StateT.bind, hasks]
      rfl
  · intro hquiet
    refine ⟨Request.ofArguments?_verbose h hquiet, ?_⟩
    intro args' hargs'
    refine ⟨_, runProgram_of_act hargs' files, rfl, rfl, rfl, ?_⟩
    rw [Reply.ofReport, Reply.ofReport, hquiet]
    exact shownLines_quiet _

namespace LinkedDocs

theorem load_settings : Settings.load linkedDocs.access "quire.toml" =
    Except.ok ⟨{}, ⟨.debug, "No config at quire.toml, using defaults"⟩⟩ := by
  have hlocate := linkedDocs.locate_of_relative "quire.toml" (by simp) (by decide) (by simp) (by simp)
  have hkind : linkedDocs.kind "quire.toml" = .error .missing := by
    rw [FileTree.kind, FileTree.resolve, hlocate]
    decide +kernel
  have hfound : linkedDocs.access.found "quire.toml" = false := by
    have hkind : linkedDocs.access.kind "quire.toml" = Except.error .missing := hkind
    rw [FileAccess.found, hkind]
    rfl
  rw [Settings.load, hfound]
  rfl

theorem prepared : Prepared linkedDocs.access "quire.toml" {}
    ⟨.debug, "No config at quire.toml, using defaults"⟩ ⟨[YamlLoader.loader {}]⟩ :=
  ⟨load_settings, ⟨by decide, by decide⟩, rfl⟩

theorem stops : Settings.Stops linkedDocs.access "docs/nav.yaml" (.malformed "docs/nav.yaml") := by
  have hlocate := linkedDocs.locate_of_relative "docs/nav.yaml" (by simp) (by decide) (by simp) (by simp)
  have hkind : linkedDocs.kind "docs/nav.yaml" = .ok .file := by
    rw [FileTree.kind, FileTree.resolve, hlocate]
    decide +kernel
  have hfound : linkedDocs.access.found "docs/nav.yaml" = true := by
    have hkind : linkedDocs.access.kind "docs/nav.yaml" = Except.ok .file := hkind
    rw [FileAccess.found, hkind]
    rfl
  have hread : linkedDocs.access.readText "docs/nav.yaml" = Except.ok "a: 1\n" :=
    (readTexts linkedDocs.place).1
  have hnone : Settings.ofText? "a: 1\n" = none := by decide +kernel
  refine .inl ?_
  rw [Settings.load, hfound, hread]
  dsimp only [bind, pure]
  rw [if_pos rfl, Settings.ofFile, hnone]
  rfl

theorem render_nav : ∃ notes, (LoaderChain.mk [YamlLoader.loader {}]).render linkedDocs.access
    "docs/nav.yaml" false = Except.ok ⟨"export default \x7b a: 1 \x7d;", notes⟩ := by
  have hread : linkedDocs.access.readText "docs/nav.yaml" = Except.ok "a: 1\n" :=
    (readTexts linkedDocs.place).1
  have hclaims : Settings.Claims {} "docs/nav.yaml" := ⟨".yaml", List.mem_cons_self, by decide⟩
  have hdecode : decode {} "a: 1\n" = .ok (.mapping [("a", .number (.unsigned 1))]) := rfl
  have hmodule : YamlLoader.moduleOfText { decoding := {} } "docs/nav.yaml"
      (linkedDocs.access.readText "docs/nav.yaml") = .ok (YamlLoader.moduleOf "docs/nav.yaml" _) :=
    YamlLoader.moduleOfText_ok_iff.mpr ⟨_, _, hread, hdecode, rfl⟩
  have hcode : Script.moduleText (.mapping [("a", .number (.unsigned 1))]) =
      "export default \x7b a: 1 \x7d;" := by decide +kernel
  rw [LoaderChain.render, load_of_claims prepared.chain hclaims, LoaderChain.answer, LoaderChain.answerTo,
    hmodule, ← hcode]
  exact ⟨_, rfl⟩

theorem report : ∃ r, (LoaderChain.mk [YamlLoader.loader {}]).checkDirectory (linkedDocsAt linkedDocs.place) {}
    "docs" = Except.ok r ∧ r.passed = 1 ∧ r.skipped = 1 ∧ r.failures.length = 4 ∧
    ("docs/bin.yaml", .load (.unreadable "docs/bin.yaml" .notText)) ∈ r.failures := by
  have hwalk := (FileAccess.walks_iff (orderly linkedDocs.place)).mp walks_items
  obtain ⟨hpassed, hskipped, hfailures⟩ := accounted (CheckReport.accounts_addAll
    ((LoaderChain.mk [YamlLoader.loader {}]).checkFile (linkedDocsAt linkedDocs.place) {}) "docs" items)
  refine ⟨_, LoaderChain.checkDirectory_eq _ {} (found linkedDocs.place) hwalk, hpassed, hskipped, ?_, ?_⟩
  · rw [hfailures]
    rfl
  · rw [hfailures]
    simp

end LinkedDocs

/-- A module is printed, a check warns of what fails, and a file of settings that is none stops the program. -/
theorem linked_docs_loaded_and_checked :
    (∃ reply : Reply, runProgram linkedDocs.access ["load", "docs/nav.yaml"] = reply ∧
      reply.status = 0 ∧ reply.output = "export default \x7b a: 1 \x7d;\n") ∧
    (∃ reply : Reply, runProgram linkedDocs.access ["-v", "check"] = reply ∧ reply.status = 1 ∧
      reply.error = some "4 module(s) failed the round-trip check" ∧
      ⟨.warn, "docs/bin.yaml: Failed to read docs/bin.yaml: stream did not contain valid UTF-8"⟩ ∈ reply.log ∧
      ⟨.info, "Checked 5 modules (1 skipped)"⟩ ∈ reply.log) ∧
    ∃ reply : Reply, runProgram linkedDocs.access ["-c", "docs/nav.yaml", "check"] = reply ∧
      reply.status = 1 ∧ reply.error = some "Failed to parse docs/nav.yaml" := by
  have hload : Request.ofArguments? ["load", "docs/nav.yaml"] =
      some (.act {} (.load "docs/nav.yaml" false)) := by decide
  have hcheck : Request.ofArguments? ["-v", "check"] =
      some (.act { verbose := true } (.check none)) := by decide
  have hstop : Request.ofArguments? ["-c", "docs/nav.yaml", "check"] =
      some (.act { settings := some "docs/nav.yaml" } (.check none)) := by decide
  refine ⟨?loaded, ?checked, ?stopped⟩
  case loaded =>
    obtain ⟨notes, hrender⟩ := LinkedDocs.render_nav
    obtain ⟨reply, hreply, _, hstatus, _, hprints, _⟩ := program_agrees linkedDocs.access hload
    refine ⟨reply, hreply, ?_, hprints _ _ _ _ _ _ rfl LinkedDocs.prepared hrender⟩
    exact hstatus.mpr ⟨_, _, _, LinkedDocs.prepared, (LoaderChain.exists_rendering_iff false).mp ⟨_, hrender⟩⟩
  case checked =>
    obtain ⟨reply, hreply, hends, _, _, _, hwalks, _⟩ := program_agrees linkedDocs.access hcheck
    obtain ⟨r, hr, hpassed, hskipped, hcount, hbin⟩ := LinkedDocs.report
    obtain ⟨r', hr', ⟨before, hlog, _⟩, herror⟩ := hwalks _ _ _ _ rfl LinkedDocs.prepared
      (LinkedDocs.found linkedDocs.place)
    cases hr.symm.trans hr'
    have hfailed : r.failures ≠ [] := List.ne_nil_of_mem hbin
    rw [if_neg hfailed, hcount] at herror
    refine ⟨reply, hreply, ?_, herror, ?_, ?_⟩
    · rcases hends with ⟨_, hnone⟩ | ⟨hone, _⟩
      · rw [hnone] at herror
        cases herror
      · exact hone
    · rw [hlog]
      refine List.mem_append_left _ (List.mem_append_right _ (List.mem_map.mpr ⟨_, hbin, ?_⟩))
      decide +kernel
    · rw [hlog, hpassed, hskipped, hcount]
      exact List.mem_append_right _ List.mem_cons_self
  case stopped =>
    obtain ⟨reply, hreply, hends, _, _, _, _, hstops, _⟩ := program_agrees linkedDocs.access hstop
    obtain ⟨herror, _⟩ := hstops (.malformed "docs/nav.yaml") LinkedDocs.stops
    refine ⟨reply, hreply, ?_, herror⟩
    rcases hends with ⟨_, hnone⟩ | ⟨hone, _⟩
    · rw [hnone] at herror
      cases herror
    · exact hone

end ConfigModules
