import AwkStartup.Proofs.CommandLine.Finishing
import AwkStartup.StandardLibraries

/-!
# Arguments are not interpreted

After a program text, after the terminator and after the program file of `exec` the options have
ended, and any tokens that follow are arguments. A program file glued to `exec` needs a token after
it, which may again be any.
-/

namespace AwkStartup
namespace CommandLine

/-- Whether the options have ended before some arguments, by how reading ended and by the program
that is launched. -/
inductive EndsBefore (arguments : List String) : Ending → ProgramSource → Prop
  | inline {ending text} : EndsBefore arguments ending (.inline text)
  | terminated {index rest program} : EndsBefore arguments (.terminated index rest) program
  | execFile {index rest program} : EndsBefore arguments (.exec none index rest) program
  | execGlued {file index rest program} : arguments ≠ [] →
      EndsBefore arguments (.exec (some file) index rest) program

variable {features : Features} {keywords : Keywords} {policy : LongOptionPolicy}
  {globals : Globals} {p : Progress} {index : Nat} {ending : Ending} {last : List Item}
  {taken arguments tail args : List String} {program : ProgramSource} {inv : Invocation}

theorem Finishes.taken_ne_nil
    (h : Finishes keywords policy p index ending last taken arguments program)
    (hends : EndsBefore tail ending program) : taken ≠ [] := by
  cases h with
  | operands => cases hends
  | dash => cases hends
  | program => simp
  | terminated => simp
  | terminatedProgram => simp
  | glued => exact Item.tokens_ne_nil _
  | file => simp

section Launched

variable [Libraries]

/-- With other arguments reading stops at the same place, and the run ends the same. -/
theorem Finishes.exists_stops
    (h : Finishes keywords policy p index ending last taken arguments program)
    (hends : EndsBefore tail ending program) :
    ∃ ending', Stops keywords policy index (taken ++ tail) last ending' ∧
      (⟨last, ending'⟩ : Reading).runFrom keywords p =
        (⟨last, ending⟩ : Reading).runFrom keywords p := by
  cases h with
  | operands => cases hends
  | dash => cases hends
  | program hfiles hoperand => exact ⟨_, .operand hoperand, rfl⟩
  | terminated hfiles =>
    refine ⟨_, .terminator, ?_⟩
    simp only [Reading.runFrom, Reading.directives, List.flatMap_nil, applyAll, conclude, hfiles]
    rfl
  | terminatedProgram hfiles => exact ⟨_, .terminator, rfl⟩
  | @glued item file argument arguments hfiles hfits hexec =>
    have htail : tail ≠ [] := by
      cases hends with
      | execGlued hne => exact hne
    obtain ⟨first, others, rfl⟩ := List.exists_cons_of_ne_nil htail
    exact ⟨_, .exec hfits hexec, rfl⟩
  | @file item file arguments hfiles hfits hexec =>
    refine ⟨.exec none (index + item.tokens.length) (file :: tail), ?_, rfl⟩
    rw [List.append_assoc]
    exact .exec hfits hexec

/-- What follows the end of options is never interpreted. With other arguments after it a run does
the same, and they are its arguments. -/
theorem arguments_never_interpreted
    (h : (dispatch features policy globals args).outcome = .ok (.run inv))
    (hends : EndsBefore tail (read (ImplementationOption.table features) policy args.tail).ending
      inv.program) :
    dispatch features policy globals (args.take inv.argsStart ++ tail) =
        dispatch features policy globals args ∧
      inv.arguments (args.take inv.argsStart ++ tail) = tail := by
  obtain ⟨name, items, p, ending, last, taken, arguments, hlaunch⟩ := exists_launchesAfter h
  rw [hlaunch.read_eq] at hends
  have hne := hlaunch.finishes.taken_ne_nil hends
  obtain ⟨ending', hstops, hsame⟩ := hlaunch.finishes.exists_stops hends
  constructor
  · have hrest : taken ++ tail ≠ [] := List.append_ne_nil_of_left_ne_nil hne _
    have hargs : taken ++ arguments ≠ [] := List.append_ne_nil_of_left_ne_nil hne _
    rw [hlaunch.dispatch_eq hargs, ← hsame, hlaunch.take_eq, List.cons_append, List.append_assoc,
      dispatch_spelled hlaunch.through hlaunch.applied hrest, Nat.add_comm, hstops.readFrom_eq]
  · have hlength : (args.take inv.argsStart).length = inv.argsStart := by
      rw [hlaunch.take_eq, hlaunch.argsStart_eq, List.length_cons, List.length_append]
      omega
    rw [Invocation.arguments, List.length_append, hlength,
      Nat.min_eq_left (Nat.le_add_right _ _)]
    exact List.drop_left' hlength

end Launched

/-- The tokens after the file of `exec` are arguments, also a switch that would show the usage. -/
theorem arguments_never_interpreted_exec :
    (dispatch .plain .reject Globals.initial ["awk", "-W", "exec", "prog", "a"]).outcome =
        .ok (.run ⟨.files ⟨["prog"]⟩, 4, Flags.none⟩) ∧
      (read (ImplementationOption.table .plain) .reject ["-W", "exec", "prog", "a"]).ending =
        .exec none 3 ["prog", "a"] ∧
      dispatch .plain .reject Globals.initial ["awk", "-W", "exec", "prog", "-W", "help"] =
        dispatch .plain .reject Globals.initial ["awk", "-W", "exec", "prog", "a"] ∧
      (⟨.files ⟨["prog"]⟩, 4, Flags.none⟩ : Invocation).arguments
        ["awk", "-W", "exec", "prog", "-W", "help"] = ["-W", "help"] := by
  have hrun : (dispatch .plain .reject Globals.initial ["awk", "-W", "exec", "prog", "a"]).outcome =
      .ok (.run ⟨.files ⟨["prog"]⟩, 4, Flags.none⟩) := rfl
  have hending : (read (ImplementationOption.table .plain) .reject
      ["-W", "exec", "prog", "a"]).ending = .exec none 3 ["prog", "a"] := rfl
  have hends : EndsBefore ["-W", "help"] (read (ImplementationOption.table .plain) .reject
      ["-W", "exec", "prog", "a"]).ending (.files ⟨["prog"]⟩) := by
    rw [hending]
    exact .execFile
  exact ⟨hrun, hending, arguments_never_interpreted hrun hends⟩

end CommandLine
end AwkStartup
