import AwkStartup.Collaborator
import AwkStartup.CommandLine.Dispatch
import AwkStartup.Config
import AwkStartup.Workspace

/-!
# A start

A start processes the command line, binds ARGV, ARGC and ENVIRON, and then hands over the
program.
-/

namespace AwkStartup

/-- The global names after a start, and what is to be run. -/
structure Session where
  workspace : Workspace
  invocation : Invocation

namespace Startup

/-- How a start without faults ended. -/
inductive Outcome where
  | ready (session : Session)
  | noProgram
  | usage

/-- How a start ended, its effects before the program was handed over, and the state of the
collaborator. -/
structure Report (σ : Type) where
  outcome : Except StartupError Outcome
  effects : List Effect
  state : σ

def Report.notices {σ : Type} (report : Report σ) : List Notice :=
  report.effects.filterMap Effect.notice?

def configEffects (features : Features) (config : Config) : List Effect :=
  match config.binmode with
  | some mode => if features.binmode then [.call (.binmode mode)] else []
  | none => []

/-- The global names that a program starts with: those the command line left, and the names
seeded from its tokens and from the environment. -/
def seed (features : Features) (env : Environment) (args : List String) (globals : Globals)
    (invocation : Invocation) : Workspace :=
  let w := { Workspace.initial with globals := globals }
  let w := w.setArgv features env.programName (invocation.arguments args)
  w.loadEnviron features env.entries

/-- Starts with a command line, an environment and a configuration. -/
def run [Libraries] {σ : Type} (features : Features) (collaborator : Collaborator σ)
    (args : List String) (env : Environment) (config : Config) (state : σ) : Report σ :=
  let dispatched := CommandLine.dispatch features config.longOptions Globals.initial args
  let effects := configEffects features config ++ dispatched.progress.effects
  let state := collaborator.performAll (effects.filterMap Effect.call?) state
  match dispatched.outcome with
  | .error fault => ⟨.error fault, effects, state⟩
  | .ok .noProgram => ⟨.ok .noProgram, effects, state⟩
  | .ok .usage => ⟨.ok .usage, effects, state⟩
  | .ok (.run invocation) =>
    match collaborator.scan invocation.program state with
    | (state, some fault) => ⟨.error fault, effects, state⟩
    | (state, none) =>
      let workspace := seed features env args dispatched.progress.globals invocation
      ⟨.ok (.ready ⟨workspace, invocation⟩), effects, state⟩

end Startup
end AwkStartup
