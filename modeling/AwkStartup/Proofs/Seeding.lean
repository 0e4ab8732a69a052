import AwkStartup.Proofs.CommandLine.Finishing
import AwkStartup.Proofs.Number.ExactIntegers
import AwkStartup.Proofs.Value.SeededTables
import AwkStartup.StandardLibraries
import AwkStartup.Startup

/-!
# What a program starts with

A start that is ready has bound ARGV, ARGC and ENVIRON to what its tokens and its environment say,
whatever they were bound to before, and has left every other name alone. The program is handed
over once, after every call, if the command line launches one.
-/

namespace AwkStartup

namespace Workspace

/-- The seeded names hold the arguments and the entries, and the others are bound as before. -/
structure Seeded (env : Environment) (arguments : List String) (before : Globals)
    (w : Workspace) : Prop where
  argv : ∃ id, w.globals.find? "ARGV" = some (.array id) ∧
    HoldsArguments env.programName arguments (w.contents id) ∧
    (w.contents id).size = arguments.length + 1
  argc : ∃ x, w.globals.find? "ARGC" = some (.var (.double x)) ∧
    x.integer? = some ((arguments.length + 1 : Nat) : Int)
  environ : ∃ id, w.globals.find? "ENVIRON" = some (.array id) ∧
    HoldsEntries env.entries (w.contents id)
  others : ∀ name, name ∉ ["ARGV", "ARGC", "ENVIRON"] → w.globals.find? name = before.find? name

end Workspace

namespace Collaborator

variable {σ : Type}

/-- A collaborator that also keeps a record of what it is asked for. -/
def recorded (c : Collaborator σ) : Collaborator (σ × List Event) :=
  { perform := fun call s => (c.perform call s.1, s.2 ++ [.call call])
    scan := fun source s =>
      (((c.scan source s.1).1, s.2 ++ [.scan source]), (c.scan source s.1).2) }

theorem performAll_recorded (c : Collaborator σ) (calls : List Call) (state : σ)
    (events : List Event) :
    c.recorded.performAll calls (state, events) =
      (c.performAll calls state, events ++ calls.map .call) := by
  induction calls generalizing state events with
  | nil => simp
  | cons call calls ih =>
    have hstep : c.recorded.performAll (call :: calls) (state, events) =
        c.recorded.performAll calls (c.perform call state, events ++ [.call call]) := rfl
    rw [hstep, ih, List.append_assoc]
    rfl

end Collaborator

namespace CommandLine

/-- The program that a command line hands over, if it launches one. -/
def Dispatched.handsOver (d : Dispatched) : List ProgramSource :=
  match d.outcome with
  | .ok (.run invocation) => [invocation.program]
  | _ => []

end CommandLine

namespace Startup

theorem globals_seed (features : Features) (env : Environment) (args : List String)
    (globals : Globals) (invocation : Invocation) :
    (seed features env args globals invocation).globals =
      ((globals.setArray "ARGV" 0).setScalar "ARGC"
        (.double (.ofInt ((invocation.arguments args).length + 1)))).setArray "ENVIRON" 1 := by
  simp only [seed, Workspace.loadEnviron, Workspace.setArgv, Workspace.setScalar,
    Workspace.globals_seedArray, Workspace.fresh_seedArray, Workspace.initial]

/-- ARGV and ENVIRON are different arrays. -/
theorem contents_seed (features : Features) (env : Environment) (args : List String)
    (globals : Globals) (invocation : Invocation) :
    (seed features env args globals invocation).contents 0 =
        Workspace.argumentTable 1 (invocation.arguments args)
          (Table.empty.insert (.ofIndex 0) (.string env.programName)) ∧
      (seed features env args globals invocation).contents 1 =
        Workspace.environmentTable env.entries := by
  constructor
  · simp [seed, Workspace.loadEnviron, Workspace.setArgv, Workspace.setScalar,
      Workspace.contents_seedArray, Workspace.initial]
  · simp [seed, Workspace.loadEnviron, Workspace.setArgv, Workspace.setScalar,
      Workspace.contents_seedArray, Workspace.initial]

theorem seeded_seed {features : Features} {env : Environment} {args : List String}
    {globals : Globals} {invocation : Invocation}
    (h : (invocation.arguments args).length < 2 ^ 53) :
    (seed features env args globals invocation).Seeded env (invocation.arguments args) globals := by
  have hglobals := globals_seed features env args globals invocation
  obtain ⟨hargv, henviron⟩ := contents_seed features env args globals invocation
  constructor
  · refine ⟨0, ?_, ?_⟩
    · rw [hglobals]
      rfl
    · have hholds := @Workspace.holdsArguments_argumentTable env.programName
        (invocation.arguments args) (by omega)
      rw [← hargv] at hholds
      exact ⟨hholds, hholds.size_eq⟩
  · refine ⟨.ofInt ((invocation.arguments args).length + 1), ?_, ?_⟩
    · rw [hglobals]
      rfl
    · exact Binary64.integer?_ofInt (by omega)
  · refine ⟨1, ?_, ?_⟩
    · rw [hglobals]
      rfl
    · rw [henviron]
      exact Workspace.holdsEntries_environmentTable env.entries
  · intro name hname
    simp only [List.mem_cons, List.not_mem_nil, or_false, not_or] at hname
    obtain ⟨hargv, hargc, henviron⟩ := hname
    rw [hglobals]
    simp [Globals.setArray, Globals.setScalar, hargv, hargc, henviron]

section Runs

variable [Libraries] {features : Features} {args : List String} {env : Environment} {config : Config}

def dispatched (features : Features) (args : List String) (config : Config) :
    CommandLine.Dispatched :=
  CommandLine.dispatch features config.longOptions Globals.initial args

def effects (features : Features) (args : List String) (config : Config) : List Effect :=
  configEffects features config ++ (dispatched features args config).progress.effects

def calls (features : Features) (args : List String) (config : Config) : List Call :=
  (configEffects features config).filterMap Effect.call? ++
    (dispatched features args config).progress.calls

theorem filterMap_effects (features : Features) (args : List String) (config : Config) :
    (effects features args config).filterMap Effect.call? = calls features args config :=
  List.filterMap_append

def readyWorkspace (features : Features) (args : List String) (env : Environment) (config : Config)
    (invocation : Invocation) : Workspace :=
  seed features env args (dispatched features args config).progress.globals invocation

theorem run_of_not_launched
    (h : ∀ invocation, (dispatched features args config).outcome ≠ .ok (.run invocation)) :
    ∃ outcome : Except StartupError Outcome, (∀ session, outcome ≠ .ok (.ready session)) ∧
      ∀ {σ : Type} (c : Collaborator σ) (state : σ),
        run features c args env config state =
          ⟨outcome, effects features args config,
            c.performAll (calls features args config) state⟩ := by
  rw [← filterMap_effects]
  unfold run
  dsimp only
  split
  · rename_i fault _
    exact ⟨.error fault, by simp, fun _ _ => rfl⟩
  · exact ⟨.ok .noProgram, by simp, fun _ _ => rfl⟩
  · exact ⟨.ok .usage, by simp, fun _ _ => rfl⟩
  · rename_i invocation hdispatch
    exact absurd hdispatch (h invocation)

theorem run_of_launched {invocation : Invocation}
    (h : (dispatched features args config).outcome = .ok (.run invocation)) {σ : Type}
    (c : Collaborator σ) (state : σ) :
    run features c args env config state =
      let scanned := c.scan invocation.program
        (c.performAll (calls features args config) state)
      { outcome :=
          match scanned.2 with
          | some fault => .error fault
          | none => .ok (.ready ⟨readyWorkspace features args env config invocation, invocation⟩)
        effects := effects features args config
        state := scanned.1 } := by
  rw [dispatched] at h
  rw [← filterMap_effects]
  unfold run
  dsimp only
  rw [h]
  dsimp only
  split
  · rename_i hscan
    rw [effects, dispatched, hscan]
  · rename_i hscan
    rw [effects, dispatched, hscan]
    rfl

theorem launched_or_not (features : Features) (args : List String) (config : Config) :
    (∃ invocation, (dispatched features args config).outcome = .ok (.run invocation)) ∨
      ∀ invocation, (dispatched features args config).outcome ≠ .ok (.run invocation) := by
  by_cases h : ∃ invocation, (dispatched features args config).outcome = .ok (.run invocation)
  · exact Or.inl h
  · exact Or.inr (not_exists.mp h)

variable {σ : Type}

/-- A start that is ready has seeded the names for the program that the command line launched, and
the program was taken. -/
theorem run_eq_ready {c : Collaborator σ} {state : σ} {session : Session}
    (h : (run features c args env config state).outcome = .ok (.ready session)) :
    (dispatched features args config).outcome = .ok (.run session.invocation) ∧
      (c.scan session.invocation.program
        (c.performAll (calls features args config) state)).2 = none ∧
      session.workspace = readyWorkspace features args env config session.invocation := by
  rcases launched_or_not features args config with ⟨invocation, hlaunched⟩ | hnot
  · rw [run_of_launched hlaunched] at h
    dsimp only at h
    split at h
    · cases h
    · rename_i hscan
      cases h
      exact ⟨hlaunched, hscan, rfl⟩
  · obtain ⟨outcome, hready, hrun⟩ := @run_of_not_launched _ _ _ env _ hnot
    rw [hrun] at h
    exact absurd h (hready session)

theorem exists_ready_iff (c : Collaborator σ) (state : σ) :
    (∃ session, (run features c args env config state).outcome = .ok (.ready session)) ↔
      ∃ invocation, (dispatched features args config).outcome = .ok (.run invocation) ∧
        (c.scan invocation.program (c.performAll (calls features args config) state)).2 =
          none := by
  constructor
  · rintro ⟨session, h⟩
    obtain ⟨hlaunched, hscan, -⟩ := run_eq_ready h
    exact ⟨session.invocation, hlaunched, hscan⟩
  · rintro ⟨invocation, hlaunched, hscan⟩
    refine ⟨⟨readyWorkspace features args env config invocation, invocation⟩, ?_⟩
    rw [run_of_launched hlaunched]
    dsimp only
    rw [hscan]

/-- Keeping a record changes nothing, and the record is the calls and then the program. -/
theorem run_recorded (c : Collaborator σ) (state : σ) (events : List Event) :
    run features c.recorded args env config (state, events) =
      { outcome := (run features c args env config state).outcome
        effects := effects features args config
        state := ((run features c args env config state).state,
          events ++ ((calls features args config).map .call ++
            (dispatched features args config).handsOver.map .scan)) } := by
  rcases launched_or_not features args config with ⟨invocation, hlaunched⟩ | hnot
  · have hover : (dispatched features args config).handsOver = [invocation.program] := by
      rw [CommandLine.Dispatched.handsOver, hlaunched]
    rw [run_of_launched hlaunched, run_of_launched hlaunched, Collaborator.performAll_recorded,
      hover, ← List.append_assoc]
    rfl
  · have hover : (dispatched features args config).handsOver = [] := by
      unfold CommandLine.Dispatched.handsOver
      split
      · rename_i invocation hlaunched
        exact absurd hlaunched (hnot invocation)
      · rfl
    obtain ⟨outcome, -, hrun⟩ := @run_of_not_launched _ _ _ env _ hnot
    rw [hrun, hrun, Collaborator.performAll_recorded, hover]
    simp

/-- A start seeds exactly what its tokens and its environment say. -/
theorem start_seeds_exactly (features : Features) (c : Collaborator σ) (args : List String)
    (env : Environment) (config : Config) (state : σ) :
    (∀ session, (run features c args env config state).outcome = .ok (.ready session) →
      (dispatched features args config).outcome = .ok (.run session.invocation) ∧
        session.invocation.argsStart ≤ args.length ∧
        (args.length - session.invocation.argsStart < 2 ^ 53 →
          session.workspace.Seeded env (args.drop session.invocation.argsStart)
            (dispatched features args config).progress.globals)) ∧
      ((∃ session, (run features c args env config state).outcome = .ok (.ready session)) ↔
        ∃ invocation, (dispatched features args config).outcome = .ok (.run invocation) ∧
          (c.scan invocation.program (c.performAll (calls features args config) state)).2 =
            none) ∧
      (run features c.recorded args env config (state, [])).outcome =
        (run features c args env config state).outcome ∧
      (run features c.recorded args env config (state, [])).state =
        ((run features c args env config state).state,
          (calls features args config).map .call ++
            (dispatched features args config).handsOver.map .scan) := by
  refine ⟨?_, exists_ready_iff c state, ?_, ?_⟩
  · intro session hready
    obtain ⟨hlaunched, -, hworkspace⟩ := run_eq_ready hready
    have hle : session.invocation.argsStart ≤ args.length :=
      CommandLine.argsStart_le_length hlaunched
    refine ⟨hlaunched, hle, ?_⟩
    intro hlength
    have harguments : session.invocation.arguments args =
        args.drop session.invocation.argsStart := by
      rw [Invocation.arguments, Nat.min_eq_left hle]
    rw [hworkspace, ← harguments]
    apply seeded_seed
    rwa [harguments, List.length_drop]
  · rw [run_recorded]
  · rw [run_recorded, List.nil_append]

end Runs

/-- The names were assigned before, and one name of the environment is a number. -/
theorem start_seeds_exactly_assigned :
    ∃ session,
      (run .plain (Event.recorder none)
          ["awk", "-vARGV=x", "-vARGC=y", "-vENVIRON=z", "BEGIN{}", "a", "12"]
          ⟨"awk", ["A=1", "BROKEN", "12=3", "A=2"]⟩ (Config.default "") []).outcome =
        .ok (.ready session) ∧
      session.invocation.argsStart = 5 ∧
      session.workspace.Seeded ⟨"awk", ["A=1", "BROKEN", "12=3", "A=2"]⟩ ["a", "12"]
        (dispatched .plain ["awk", "-vARGV=x", "-vARGC=y", "-vENVIRON=z", "BEGIN{}", "a", "12"]
          (Config.default "")).progress.globals ∧
      ∃ id, session.workspace.globals.find? "ENVIRON" = some (.array id) ∧
        (session.workspace.contents id).get? (.int 12) = some (.maybeNumeric "3") := by
  obtain ⟨hseeds, hready, -⟩ := start_seeds_exactly .plain (Event.recorder none)
    ["awk", "-vARGV=x", "-vARGC=y", "-vENVIRON=z", "BEGIN{}", "a", "12"]
    ⟨"awk", ["A=1", "BROKEN", "12=3", "A=2"]⟩ (Config.default "") []
  have hlaunched : (dispatched .plain
      ["awk", "-vARGV=x", "-vARGC=y", "-vENVIRON=z", "BEGIN{}", "a", "12"]
      (Config.default "")).outcome = .ok (.run ⟨.inline "BEGIN{}", 5, Flags.none⟩) := rfl
  obtain ⟨session, hsession⟩ := hready.mpr ⟨_, hlaunched, rfl⟩
  obtain ⟨hsame, -, hseeded⟩ := hseeds session hsession
  have hinvocation : session.invocation = ⟨.inline "BEGIN{}", 5, Flags.none⟩ := by
    rw [hlaunched] at hsame
    exact (Launch.run.inj (Except.ok.inj hsame)).symm
  rw [hinvocation] at hseeded
  have hnames := hseeded (by decide)
  obtain ⟨id, hid, hentries⟩ := hnames.environ
  have hvalue := hentries.last ["A=1", "BROKEN"] ["A=2"] "12" "3" rfl (by decide) (by decide)
  exact ⟨session, hsession, by rw [hinvocation], hnames, id, hid, hvalue⟩

end Startup
end AwkStartup
