import AwkStartup.Proofs.CommandLine.OptionalKeyword
import AwkStartup.Proofs.Seeding
import AwkStartup.StandardLibraries

/-!
# Starts of different builds

The optional parts of a build are a keyword and a registry of arrays. A command line that leaves the
keyword alone is processed the same in every build, and a start then differs in nothing but the
registrations.
-/

namespace AwkStartup

namespace Workspace

/-- A workspace with its registrations left out. -/
def unregistered (w : Workspace) : Workspace :=
  { w with registered := [] }

theorem unregistered_seedArray (features : Features) (w : Workspace) (name : String) (t : Table) :
    (w.seedArray features name t).unregistered = w.unregistered.seedArray .plain name t := by
  unfold seedArray
  dsimp only
  split <;> rfl

theorem unregistered_setScalar (w : Workspace) (name : String) (cell : Cell) :
    (w.setScalar name cell).unregistered = w.unregistered.setScalar name cell := rfl

end Workspace

namespace Startup

def Outcome.unregistered : Outcome → Outcome
  | ready session => ready { session with workspace := session.workspace.unregistered }
  | noProgram => noProgram
  | usage => usage

def Report.unregistered {σ : Type} (report : Report σ) : Report σ :=
  { report with outcome := report.outcome.map Outcome.unregistered }

theorem unregistered_seed (features : Features) (env : Environment) (args : List String)
    (globals : Globals) (invocation : Invocation) :
    (seed features env args globals invocation).unregistered =
      (seed .plain env args globals invocation).unregistered := by
  simp only [seed, Workspace.loadEnviron, Workspace.setArgv, Workspace.unregistered_seedArray,
    Workspace.unregistered_setScalar]

variable {σ : Type} {features : Features} {args : List String} {config : Config}

theorem configEffects_of_none (features : Features) (h : config.binmode = none) :
    configEffects features config = [] := by
  rw [configEffects, h]

/-- A start that leaves the optional keyword alone differs between builds in the registrations
alone. -/
theorem unregistered_run [Libraries] (c : Collaborator σ) (env : Environment) (state : σ)
    (hbinmode : config.binmode = none)
    (h : CommandLine.LeavesBinmode features config.longOptions
      (CommandLine.Progress.start Globals.initial) args.tail) (others : Features) :
    (run features c args env config state).unregistered =
      (run others c args env config state).unregistered := by
  unfold run
  rw [h.dispatch_eq others, configEffects_of_none features hbinmode,
    configEffects_of_none others hbinmode]
  dsimp only
  split
  · rfl
  · rfl
  · rfl
  · rename_i invocation _
    split
    · rfl
    · simp only [Report.unregistered, Except.map, Outcome.unregistered]
      rw [unregistered_seed features, unregistered_seed others]

/-- The optional parts of a build change nothing for command lines that leave the optional keyword
alone. -/
theorem optional_parts_are_conservative [Libraries] (features others : Features) :
    (∀ (policy : LongOptionPolicy) (globals : Globals) (args : List String),
        CommandLine.LeavesBinmode features policy (CommandLine.Progress.start globals) args.tail →
          CommandLine.dispatch features policy globals args =
            CommandLine.dispatch others policy globals args) ∧
      ∀ {σ : Type} (c : Collaborator σ) (args : List String) (env : Environment) (config : Config)
        (state : σ), config.binmode = none →
          CommandLine.LeavesBinmode features config.longOptions
            (CommandLine.Progress.start Globals.initial) args.tail →
            (run features c args env config state).unregistered =
              (run others c args env config state).unregistered := by
  constructor
  · intro policy globals args h
    exact h.dispatch_eq others
  · intro σ c args env config state hbinmode h
    exact unregistered_run c env state hbinmode h others

/-- Abbreviations, an empty piece and a value that nothing takes mean the same in both builds. -/
theorem optional_parts_are_conservative_abbreviated :
    CommandLine.dispatch .full .warn Globals.initial
        ["awk", "-Wvers,,R=42,x", "--posix", "-v", "x=1", "-W", "dump=y", "BEGIN{}", "a"] =
      CommandLine.dispatch .plain .warn Globals.initial
        ["awk", "-Wvers,,R=42,x", "--posix", "-v", "x=1", "-W", "dump=y", "BEGIN{}", "a"] ∧
    (run .full (Event.recorder none)
        ["awk", "-Wvers,,R=42,x", "--posix", "-v", "x=1", "-W", "dump=y", "BEGIN{}", "a"]
        ⟨"awk", ["A=1"]⟩ ⟨"", .warn, none⟩ []).unregistered =
      (run .plain (Event.recorder none)
        ["awk", "-Wvers,,R=42,x", "--posix", "-v", "x=1", "-W", "dump=y", "BEGIN{}", "a"]
        ⟨"awk", ["A=1"]⟩ ⟨"", .warn, none⟩ []).unregistered := by
  have hleaves : CommandLine.LeavesBinmode .full .warn (CommandLine.Progress.start Globals.initial)
      ["-Wvers,,R=42,x", "--posix", "-v", "x=1", "-W", "dump=y", "BEGIN{}", "a"] :=
    CommandLine.leavesBinmode_of_read (by decide)
  obtain ⟨hdispatch, hrun⟩ := optional_parts_are_conservative .full .plain
  exact ⟨hdispatch _ _ _ hleaves, hrun _ _ _ _ _ rfl hleaves⟩

end Startup
end AwkStartup
