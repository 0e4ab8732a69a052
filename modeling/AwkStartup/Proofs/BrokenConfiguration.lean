import AwkStartup.Execution
import AwkStartup.Proofs.EnvironmentViews
import AwkStartup.Proofs.Files.Absence
import AwkStartup.Proofs.Number.LeadingInteger
import AwkStartup.Proofs.Seeding
import AwkStartup.StandardLibraries

/-!
# Configuration files that cannot be used

An execution that finds a configuration file it cannot use says so and goes on with the settings of
the environment, which are those that it has without the file. What follows is the same, as long as
no program file is reached across the configuration file.
-/

namespace AwkStartup

namespace Config

variable {features : Features} {files : Files} {process env : Environment}

theorem longOptions_applyEnvironment {setting : String}
    (h : Environment.FirstEntry env.entries "MAWK_LONG_OPTIONS" setting) (config : Config) :
    (applyEnvironment features env config).longOptions = .ofSetting (some setting) := by
  have hvar : env.var? "MAWK_LONG_OPTIONS" = some setting := h.valueIn?_eq (by decide)
  rw [applyEnvironment, hvar]

theorem binmode_applyEnvironment {setting : String} (hfeatures : features.binmode = true)
    (h : Environment.FirstEntry env.entries "MAWKBINMODE" setting) (config : Config) :
    (applyEnvironment features env config).binmode =
      some (wrap32 (Leading.integer setting.toList)) := by
  have hvar : env.var? "MAWKBINMODE" = some setting := h.valueIn?_eq (by decide)
  rw [applyEnvironment, hvar, if_pos hfeatures]
  dsimp only
  rw [Leading.integer?_eq_some]
  rfl

variable [Libraries]

/-- A configuration file that is there and cannot be used: it cannot be read as a text, or its text
is no document. -/
inductive Unusable (files : Files) (path : String) : ConfigFault → Prop
  | unreadable {cause} : files.contains path = true → files.readText path = .error cause →
      Unusable files path (.unreadable cause)
  | malformed {text description} : files.contains path = true →
      files.readText path = .ok text → Libraries.readDocument text = .error description →
      Unusable files path (.malformed description)

theorem load_of_unusable {fault : ConfigFault} (h : Unusable files (path process env) fault) :
    load features files process env = .error (.config fault) := by
  have hfile : ofFile features files (directoryOf process env) = .error (.config fault) := by
    change Unusable files (default (directoryOf process env)).file fault at h
    unfold ofFile
    cases h with
    | unreadable hcontains hread =>
      dsimp only
      rw [if_pos hcontains, hread]
    | malformed hcontains hread hmalformed =>
      dsimp only
      rw [if_pos hcontains, hread]
      dsimp only
      rw [hmalformed]
  rw [load, hfile]
  rfl

theorem load_of_missing (h : files.contains (path process env) = false) :
    load features files process env =
      .ok (applyEnvironment features env (default (directoryOf process env))) := by
  have hfile : ofFile features files (directoryOf process env) =
      .ok (default (directoryOf process env)) := by
    change files.contains (default (directoryOf process env)).file = false at h
    unfold ofFile
    dsimp only
    rw [if_neg (Bool.eq_false_iff.mp h)]
  rw [load, hfile]
  rfl

end Config

namespace Interpreter

theorem readFiles_congr {files other : Files} {names : List String}
    (h : ∀ name ∈ names, isStandardInput name = false → other.readText name = files.readText name)
    (input : List UInt8) : readFiles other input names = readFiles files input names := by
  induction names generalizing input with
  | nil => rfl
  | cons name names ih =>
    obtain ⟨hname, hnames⟩ := List.forall_mem_cons.mp h
    have hfile : readFile other input name = readFile files input name := by
      unfold readFile
      split
      · rfl
      · rename_i hinput
        rw [hname (Bool.eq_false_iff.mpr hinput)]
    simp only [readFiles, hfile, ih hnames]

end Interpreter

namespace Startup

variable [Libraries] {features : Features} {args : List String} {env : Environment}
  {config other : Config}

/-- A start looks at the policy and the mode of its configuration, and at nothing else of it. -/
theorem run_config_congr {σ : Type} {c : Collaborator σ} {state : σ}
    (hpolicy : config.longOptions = other.longOptions) (hmode : config.binmode = other.binmode) :
    run features c args env config state = run features c args env other state := by
  have heffects : configEffects features config = configEffects features other := by
    rw [configEffects, configEffects, hmode]
  unfold run
  rw [hpolicy, heffects]

/-- A start reads no files but those of the program that it hands over. -/
theorem run_files_congr {files others : Files} (env : Environment) (host : Host)
    (h : ∀ invocation, (dispatched features args config).outcome = .ok (.run invocation) →
      ∀ host, Host.scan others invocation.program host = Host.scan files invocation.program host) :
    run features (Host.collaborator others) args env config host =
      run features (Host.collaborator files) args env config host := by
  rcases launched_or_not features args config with ⟨invocation, hlaunched⟩ | hnot
  · have hscan (host : Host) : (Host.collaborator others).scan invocation.program host =
        (Host.collaborator files).scan invocation.program host := h invocation hlaunched host
    have hcalls (calls : List Call) : (Host.collaborator others).performAll calls host =
        (Host.collaborator files).performAll calls host := rfl
    rw [run_of_launched hlaunched, run_of_launched hlaunched, hcalls]
    dsimp only
    rw [hscan]
  · obtain ⟨outcome, -, hrun⟩ := @run_of_not_launched _ _ _ env _ hnot
    rw [hrun, hrun]
    rfl

end Startup

namespace Surroundings

theorem entries_environment (s : Surroundings) : s.environment.entries = s.entries := by
  unfold environment
  split <;> rfl

theorem environment_files (s : Surroundings) (other : Files) :
    { s with files := other }.environment = s.environment := rfl

variable [Libraries]

def configPath (s : Surroundings) : String :=
  Config.path (Environment.ofEntries s.entries) s.environment

def configLocation (s : Surroundings) : List String :=
  Files.locate s.files.working s.configPath

/-- The configuration file cannot be used, and a tree is the same without it. -/
structure Broken (s : Surroundings) (fault : ConfigFault) (other : Files) : Prop where
  unusable : Config.Unusable s.files s.configPath fault
  without : s.files.IsWithout s.configLocation other

variable {features : Features} {s : Surroundings} {fault : ConfigFault} {other : Files}

theorem exists_config_eq (features : Features) (s : Surroundings) :
    ∃ config, (s.config features).1 = Config.applyEnvironment features s.environment config := by
  rw [config, Config.load]
  cases Config.ofFile features s.files
      (Config.directoryOf (Environment.ofEntries s.entries) s.environment) with
  | ok config => exact ⟨config, rfl⟩
  | error fault => exact ⟨_, rfl⟩

theorem config_of_unusable (h : Config.Unusable s.files s.configPath fault) :
    s.config features =
      (Config.ofEnvironment features (Environment.ofEntries s.entries) s.environment,
        some (.config fault)) := by
  rw [config, Config.load_of_unusable h]

theorem Broken.config_without (h : s.Broken fault other) :
    { s with files := other }.config features =
      (Config.applyEnvironment features s.environment
        (Config.default (Config.directoryOf (Environment.ofEntries s.entries) s.environment)),
        none) := by
  have hmissing : other.contains s.configPath = false :=
    h.without.contains_eq_false List.prefix_rfl
  rw [config, environment_files, Config.load_of_missing hmissing]

/-- The program files are read as without the configuration file when no path to them crosses it. -/
theorem Broken.scan_eq (h : s.Broken fault other)
    (hnames : ∀ name ∈ Execution.programFiles features s, Interpreter.isStandardInput name = false →
      ¬Files.Crosses s.files.working name s.configLocation)
    (invocation : Invocation)
    (hlaunched : (Startup.dispatched features s.args (s.config features).1).outcome =
      .ok (.run invocation)) (host : Host) :
    Host.scan other invocation.program host = Host.scan s.files invocation.program host := by
  have hread : Interpreter.readSource other host.input invocation.program =
      Interpreter.readSource s.files host.input invocation.program := by
    obtain ⟨program, index, flags⟩ := invocation
    cases program with
    | inline text => rfl
    | files source =>
      apply Interpreter.readFiles_congr
      intro name hname hinput
      apply h.without.readText_eq
      apply hnames name _ hinput
      rw [Startup.dispatched] at hlaunched
      rw [Execution.programFiles, hlaunched]
      exact hname
  rw [Host.scan, Host.scan, hread]

theorem Broken.report_eq (h : s.Broken fault other)
    (hnames : ∀ name ∈ Execution.programFiles features s, Interpreter.isStandardInput name = false →
      ¬Files.Crosses s.files.working name s.configLocation) :
    { s with files := other }.report features = s.report features := by
  have hfiles := Startup.run_files_congr s.environment
    (Host.initial s.environment.programName s.input) (h.scan_eq hnames)
  have hconfig : (s.config features).1.longOptions =
        ({ s with files := other }.config features).1.longOptions ∧
      (s.config features).1.binmode = ({ s with files := other }.config features).1.binmode := by
    rw [config_of_unusable h.unusable, h.config_without]
    exact ⟨rfl, rfl⟩
  rw [report, report]
  dsimp only
  rw [environment_files, ← hfiles]
  exact (Startup.run_config_congr hconfig.1 hconfig.2).symm

end Surroundings

namespace Execution

variable {features : Features} {s : Surroundings} {fault : ConfigFault} {other : Files}

/-- The line of standard error that a broken configuration file adds. -/
def configWarning (name : String) (fault : ConfigFault) : String :=
  name ++ ": warning: Config error: " ++ fault.message ++ "\n"

theorem remarks_config (name : String) (fault : ConfigFault) (notices : List Notice) :
    remarks name (some (.config fault)) notices =
      configWarning name fault :: remarks name none notices := by
  have hline : Diagnostics.line name ("warning: " ++ (StartupError.config fault).message) =
      configWarning name fault := by
    have htext : ": warning: Config error: " = ": " ++ ("warning: " ++ "Config error: ") := by
      decide
    have hmessage : (StartupError.config fault).message = "Config error: " ++ fault.message := rfl
    rw [Diagnostics.line, configWarning, hmessage, htext]
    simp only [String.append_assoc]
  rw [remarks, remarks, ← hline]
  rfl

section Runs

variable [Libraries]

theorem run_of_taken (h : s.fullError = false) :
    run features s =
      { exitCode := (closing features s.fullOutput s.environment.programName
          (s.report features)).status.code
        output := taken s.fullOutput ((s.report features).state.interpreter.output ++
          (closing features s.fullOutput s.environment.programName (s.report features)).listing)
        error := String.join
            (remarks s.environment.programName (s.config features).2 (s.report features).notices ++
              (closing features s.fullOutput s.environment.programName (s.report features)).fault) ++
          (closing features s.fullOutput s.environment.programName (s.report features)).usage } := by
  rw [run, if_neg (by simp [h]), h]
  rfl

theorem run_of_broken (h : s.Broken fault other)
    (hnames : ∀ name ∈ programFiles features s, Interpreter.isStandardInput name = false →
      ¬Files.Crosses s.files.working name s.configLocation)
    (htaken : s.fullError = false) :
    run features s =
      { run features { s with files := other } with
        error := configWarning s.environment.programName fault ++
          (run features { s with files := other }).error } := by
  rw [run_of_taken htaken, @run_of_taken _ { s with files := other } _ htaken,
    h.report_eq hnames, Surroundings.config_of_unusable h.unusable, h.config_without]
  dsimp only
  rw [remarks_config, List.cons_append, String.join_cons, String.append_assoc]
  rfl

/-- When standard error takes nothing, the remark on the configuration file breaks an execution
off before anything is written. -/
theorem run_of_broken_of_full (h : s.Broken fault other) (hfull : s.fullError = true) :
    run features s = ⟨brokenOffCode, "", ""⟩ := by
  rw [run, Surroundings.config_of_unusable h.unusable]
  dsimp only
  rw [remarks_config, if_pos ⟨hfull, by simp⟩]
  simp [outputBeforeMessages, taken]

/-- A configuration file that cannot be used is as good as none. Where the settings of the environment
are given, they alone count, whatever the file says. -/
theorem broken_configuration_is_as_good_as_none (features : Features) (s : Surroundings) :
    (∀ (fault : ConfigFault) (other : Files), s.Broken fault other →
        (∀ name ∈ programFiles features s, Interpreter.isStandardInput name = false →
          ¬Files.Crosses s.files.working name s.configLocation) →
        (s.fullError = false →
          run features s =
            { run features { s with files := other } with
              error := configWarning s.environment.programName fault ++
                (run features { s with files := other }).error }) ∧
          (s.fullError = true → run features s = ⟨brokenOffCode, "", ""⟩)) ∧
      (∀ setting, Environment.FirstEntry s.entries "MAWK_LONG_OPTIONS" setting →
        (s.config features).1.longOptions = .ofSetting (some setting) ∧
          Startup.dispatched features s.args (s.config features).1 =
            CommandLine.dispatch features (.ofSetting (some setting)) Globals.initial s.args) ∧
      ∀ setting, features.binmode = true → Environment.FirstEntry s.entries "MAWKBINMODE" setting →
        (s.config features).1.binmode = some (wrap32 (Leading.integer setting.toList)) := by
  obtain ⟨config, hconfig⟩ := s.exists_config_eq features
  refine ⟨?_, ?_, ?_⟩
  · intro fault other hbroken hnames
    exact ⟨run_of_broken hbroken hnames, run_of_broken_of_full hbroken⟩
  · intro setting hsetting
    rw [← s.entries_environment] at hsetting
    have hpolicy : (s.config features).1.longOptions = .ofSetting (some setting) := by
      rw [hconfig]
      exact Config.longOptions_applyEnvironment hsetting config
    refine ⟨hpolicy, ?_⟩
    rw [Startup.dispatched, hpolicy]
  · intro setting hfeatures hsetting
    rw [← s.entries_environment] at hsetting
    rw [hconfig]
    exact Config.binmode_applyEnvironment hfeatures hsetting config

end Runs

def malformedSurroundings : Surroundings :=
  { args := ["rawk", "--posix", "-f", "cfg/prog", "x"]
    entries := ["RAWK_CONFIG_DIR=cfg", "MAWK_LONG_OPTIONS=warn", "MAWKBINMODE=4294967295",
      "MAWK_LONG_OPTIONS=allow"]
    files := Files.ofPaths ["w"] [("cfg/config.toml", .file [61]), ("cfg/prog", .file [])]
    input := []
    fullOutput := false
    fullError := false }

theorem broken_malformedSurroundings :
    malformedSurroundings.Broken (.malformed "TOML parse error")
      (malformedSurroundings.files.without ["w", "cfg", "config.toml"]) := by
  have hlocation : malformedSurroundings.configLocation = ["w", "cfg"] ++ ["config.toml"] := by
    decide
  constructor
  · have hread : malformedSurroundings.files.readText malformedSurroundings.configPath = .ok "=" := by
      decide +kernel
    exact .malformed (by decide) hread (Libraries.readDocument_of_none (by decide +kernel))
  · rw [hlocation]
    exact Files.isWithout_without (by decide) (by decide)

/-- The program runs all the same, and of two policies the first counts. -/
theorem broken_configuration_is_as_good_as_none_malformed :
    (∃ description, Libraries.readDocument "=" = .error description ∧
      run .full malformedSurroundings =
        { run .full { malformedSurroundings with
            files := malformedSurroundings.files.without ["w", "cfg", "config.toml"] } with
          error := "rawk: warning: Config error: Invalid config TOML: " ++ description ++ "\n" ++
            (run .full { malformedSurroundings with
              files := malformedSurroundings.files.without ["w", "cfg", "config.toml"] }).error }) ∧
      Startup.dispatched .full malformedSurroundings.args (malformedSurroundings.config .full).1 =
        CommandLine.dispatch .full .warn Globals.initial malformedSurroundings.args ∧
      (malformedSurroundings.config .full).1.binmode = some (-1) := by
  obtain ⟨hruns, hpolicy, hmode⟩ :=
    broken_configuration_is_as_good_as_none .full malformedSurroundings
  have hrun := (hruns _ _ broken_malformedSurroundings (by decide +kernel)).1 rfl
  have hwarning : configWarning malformedSurroundings.environment.programName
      (.malformed "TOML parse error") =
      "rawk: warning: Config error: Invalid config TOML: " ++ "TOML parse error" ++ "\n" := by
    decide
  rw [hwarning] at hrun
  refine ⟨⟨_, Libraries.readDocument_of_none (by decide +kernel), hrun⟩, ?_, ?_⟩
  · exact (hpolicy "warn" ⟨["RAWK_CONFIG_DIR=cfg"], _, rfl, by decide⟩).2
  · rw [hmode "4294967295" rfl
      ⟨["RAWK_CONFIG_DIR=cfg", "MAWK_LONG_OPTIONS=warn"], _, rfl, by decide⟩]
    decide +kernel

/-- Surroundings in which a directory stands in the place of the configuration file, and the program
file is reached across it. -/
def crossedSurroundings : Surroundings :=
  { args := ["rawk", "-f", "cfg/config.toml/../prog"]
    entries := ["RAWK_CONFIG_DIR=cfg"]
    files := Files.ofPaths ["w"] [("cfg/config.toml", .directory), ("cfg/prog", .file [])]
    input := []
    fullOutput := false
    fullError := false }

theorem broken_crossedSurroundings :
    crossedSurroundings.Broken (.unreadable .isADirectory)
      (crossedSurroundings.files.without ["w", "cfg", "config.toml"]) := by
  have hlocation : crossedSurroundings.configLocation = ["w", "cfg"] ++ ["config.toml"] := by
    decide
  constructor
  · exact .unreadable (by decide) (by decide +kernel)
  · rw [hlocation]
    exact Files.isWithout_without (by decide) (by decide)

/-- It is not enough that no program file stands at the place of the configuration file or below,
nor is any standard error good enough. -/
theorem broken_configuration_is_not_as_good_as_none :
    (¬∀ (s : Surroundings) (fault : ConfigFault) (other : Files), s.Broken fault other →
        (∀ name ∈ programFiles .plain s, Interpreter.isStandardInput name = false →
          ¬s.configLocation <+: Files.locate s.files.working name) →
        s.fullError = false →
          run .plain s =
            { run .plain { s with files := other } with
              error := configWarning s.environment.programName fault ++
                (run .plain { s with files := other }).error }) ∧
      ¬∀ (s : Surroundings) (fault : ConfigFault) (other : Files), s.Broken fault other →
        (∀ name ∈ programFiles .plain s, Interpreter.isStandardInput name = false →
          ¬Files.Crosses s.files.working name s.configLocation) →
          run .plain s =
            { run .plain { s with files := other } with
              error := configWarning s.environment.programName fault ++
                (run .plain { s with files := other }).error } := by
  constructor
  · intro h
    have hrun := h _ _ _ broken_crossedSurroundings (by decide +kernel) rfl
    have hcode := congrArg Trace.exitCode hrun
    revert hcode
    decide +kernel
  · intro h
    have hfull : { crossedSurroundings with args := ["rawk"], fullError := true }.Broken
        (.unreadable .isADirectory)
        (crossedSurroundings.files.without ["w", "cfg", "config.toml"]) :=
      ⟨broken_crossedSurroundings.unusable, broken_crossedSurroundings.without⟩
    have hrun := h _ _ _ hfull (by decide +kernel)
    have hcode := congrArg Trace.exitCode hrun
    revert hcode
    decide +kernel

end Execution

end AwkStartup
