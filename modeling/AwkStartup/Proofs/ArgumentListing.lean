import AwkStartup.Listing
import AwkStartup.Proofs.Seeding
import AwkStartup.Proofs.Value.CheckedCells
import AwkStartup.Proofs.Value.IndexedElements
import AwkStartup.StandardLibraries

/-!
# What a listing shows of the arguments

After the lines of the program, the listing of a start that is ready shows the count of ARGV and
its elements in ascending order. The arguments that are numerals with blanks around them are
marked, and the name of the program never is.
-/

namespace AwkStartup

namespace Cell

theorem display_ofInt {n : Int} (h : n.natAbs ≤ 2 ^ 53) :
    (double (.ofInt n)).display = toString n := by
  rw [display, displayDouble, Binary64.integer?_ofInt h]
  exact if_pos (by omega)

end Cell

namespace Listing

/-- Lines for the name of a program and its arguments, in order. The name is not marked, and an
argument is marked exactly when it looks like a number. -/
structure ShowsArguments (programName : String) (args : List String) (lines : List String) :
    Prop where
  length : lines.length = args.length + 1
  name : lines[0]? = some ("# ARGV[0] = " ++ programName ++ "\n")
  numeral : ∀ (k : Nat) (arg : String), args[k]? = some arg → Numeral.LooksNumeric arg →
    lines[k + 1]? = some ("# ARGV[" ++ toString (k + 1) ++ "] = " ++ arg ++ " (strnum)\n")
  text : ∀ (k : Nat) (arg : String), args[k]? = some arg → ¬Numeral.LooksNumeric arg →
    lines[k + 1]? = some ("# ARGV[" ++ toString (k + 1) ++ "] = " ++ arg ++ "\n")

theorem argumentLine_string (index : Int) (s : String) :
    argumentLine index (.string s) = "# ARGV[" ++ toString index ++ "] = " ++ s ++ "\n" := by
  simp [argumentLine, Cell.check, Cell.display]

theorem argumentLine_numeral (index : Int) {arg : String} (h : Numeral.LooksNumeric arg) :
    argumentLine index (.maybeNumeric arg) =
      "# ARGV[" ++ toString index ++ "] = " ++ arg ++ " (strnum)\n" := by
  obtain ⟨x, -, hcheck⟩ := Cell.check_of_looksNumeric h
  simp [argumentLine, hcheck, Cell.display, String.append_assoc]

theorem argumentLine_text (index : Int) {arg : String} (h : ¬Numeral.LooksNumeric arg) :
    argumentLine index (.maybeNumeric arg) =
      "# ARGV[" ++ toString index ++ "] = " ++ arg ++ "\n" := by
  simp [argumentLine, Cell.check_of_not_looksNumeric h, Cell.display]

theorem showsArguments_listedArguments (programName : String) (args : List String) :
    ShowsArguments programName args
      ((Workspace.listedArguments programName args).map fun (index, cell) =>
        argumentLine index cell) := by
  have hline : ∀ (k : Nat) (arg : String), args[k]? = some arg →
      ((Workspace.listedArguments programName args).map fun (index, cell) =>
        argumentLine index cell)[k + 1]? =
          some (argumentLine (k + 1 : Nat) (.maybeNumeric arg)) := by
    intro k arg harg
    simp [Workspace.listedArguments, harg, Nat.add_comm 1 k]
  constructor
  · simp [Workspace.listedArguments]
  · exact congrArg some (argumentLine_string 0 programName)
  · intro k arg harg hnumeric
    rw [hline k arg harg, argumentLine_numeral _ hnumeric]
    rfl
  · intro k arg harg htext
    rw [hline k arg harg, argumentLine_text _ htext]
    rfl

theorem write_eq {w : Workspace} {argc : Cell} {id : ArrayId}
    (hargc : w.globals.scalar? "ARGC" = some argc) (hargv : w.globals.array? "ARGV" = some id)
    (program : List ProgramText) :
    write program w =
      String.join (program.flatMap programLines) ++ ("# ARGC = " ++ argc.display ++ "\n") ++
        String.join ((w.contents id).indexed.map fun (index, cell) => argumentLine index cell) := by
  simp only [write, argumentLines, hargc, hargv]
  rw [String.join_append, List.singleton_append, String.join_cons, ← String.append_assoc]

end Listing

namespace Startup

variable {σ : Type} {features : Features} {args : List String} {env : Environment}
  {config : Config} {c : Collaborator σ} {state : σ} {session : Session}

/-- The listing of a start that is ready shows its arguments completely and in order. -/
theorem listing_shows_arguments [Libraries]
    (hready : (run features c args env config state).outcome = .ok (.ready session))
    (hcount : (args.drop session.invocation.argsStart).length + 1 < 10 ^ 15) :
    ∃ lines,
      Listing.ShowsArguments env.programName (args.drop session.invocation.argsStart) lines ∧
        ∀ program : List ProgramText,
          Listing.write program session.workspace =
            String.join (program.flatMap Listing.programLines) ++
              ("# ARGC = " ++ toString ((args.drop session.invocation.argsStart).length + 1) ++
                "\n") ++
              String.join lines := by
  obtain ⟨hlaunched, -, hworkspace⟩ := run_eq_ready hready
  have harguments : session.invocation.arguments args =
      args.drop session.invocation.argsStart := by
    rw [Invocation.arguments, Nat.min_eq_left (CommandLine.argsStart_le_length hlaunched)]
  refine ⟨_, Listing.showsArguments_listedArguments env.programName
    (args.drop session.invocation.argsStart), ?_⟩
  intro program
  have hglobals := globals_seed features env args
    (dispatched features args config).progress.globals session.invocation
  have hcontents := (contents_seed features env args
    (dispatched features args config).progress.globals session.invocation).1
  rw [harguments] at hglobals hcontents
  have hholds := @Workspace.holdsArguments_argumentTable env.programName
    (args.drop session.invocation.argsStart) (by omega)
  have hindexed := hholds.indexed_eq
  rw [← hcontents] at hindexed
  rw [hworkspace, readyWorkspace, Listing.write_eq (by rw [hglobals]; rfl) (by rw [hglobals]; rfl),
    Cell.display_ofInt (by omega), hindexed]
  rfl

/-- The program is named like a number, and one of two arguments is a numeral between blanks. -/
theorem listing_shows_arguments_marked :
    ∃ session,
      (run .plain (Event.recorder none) ["7", "-Wdump", "BEGIN{}", " -1.5e3 ", "x1"] ⟨"7", []⟩
          (Config.default "") []).outcome = .ok (.ready session) ∧
      Listing.write [⟨none, "BEGIN{}"⟩] session.workspace =
        "# program: command line\n     1\tBEGIN{}\n# ARGC = 3\n# ARGV[0] = 7\n" ++
          "# ARGV[1] =  -1.5e3  (strnum)\n# ARGV[2] = x1\n" := by
  have hready : ∃ session,
      (run .plain (Event.recorder none) ["7", "-Wdump", "BEGIN{}", " -1.5e3 ", "x1"] ⟨"7", []⟩
        (Config.default "") []).outcome = .ok (.ready session) :=
    (exists_ready_iff (Event.recorder none) []).mpr ⟨_, rfl, rfl⟩
  obtain ⟨session, hsession⟩ := hready
  have hlaunched : (dispatched .plain ["7", "-Wdump", "BEGIN{}", " -1.5e3 ", "x1"]
      (Config.default "")).outcome = .ok (.run session.invocation) := (run_eq_ready hsession).1
  have hinvocation : session.invocation.argsStart = 3 :=
    (congrArg Invocation.argsStart (Launch.run.inj (Except.ok.inj hlaunched))).symm
  obtain ⟨lines, hlines, hwrite⟩ := listing_shows_arguments hsession (by
    rw [hinvocation]
    decide)
  rw [hinvocation] at hlines hwrite
  have hnumeric : Numeral.LooksNumeric " -1.5e3 " := (Numeral.isSome_value? _).mp (by decide)
  have htext : ¬Numeral.LooksNumeric "x1" := by
    rw [← Numeral.isSome_value?]
    decide
  have hfirst := hlines.numeral 0 _ rfl hnumeric
  have hsecond := hlines.text 1 _ rfl htext
  have hname := hlines.name
  obtain ⟨a, b, c, rfl⟩ := List.length_eq_three.mp hlines.length
  obtain rfl := Option.some.inj hname
  obtain rfl := Option.some.inj hfirst
  obtain rfl := Option.some.inj hsecond
  refine ⟨session, hsession, ?_⟩
  rw [hwrite]
  decide

end Startup
end AwkStartup
