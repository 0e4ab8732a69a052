import AwkStartup.Proofs.CommandLine.ItemRuns

/-!
# Where a program is taken

A run that launches a program takes it where reading stops: from the program files, from the next
token, or from `exec`. What it takes stands before the arguments, and the arguments can be any
others.
-/

namespace AwkStartup
namespace CommandLine

/-- How a program is taken where reading stops: the last item, the tokens that are taken and the
arguments after them. -/
inductive Finishes (keywords : Keywords) (policy : LongOptionPolicy) (p : Progress) (index : Nat) :
    Ending → List Item → List String → List String → ProgramSource → Prop
  | operands {arguments} : p.files.isEmpty = false →
      Finishes keywords policy p index (.operands index arguments) [] [] arguments (.files p.files)
  | dash {arguments} : p.files.isEmpty = false →
      Finishes keywords policy p index (.dash index arguments) [] [] arguments (.files p.files)
  | program {text arguments} : p.files.isEmpty = true → Token.of policy text = .operand →
      Finishes keywords policy p index (.operands index (text :: arguments)) [] [text] arguments
        (.inline text)
  | terminated {arguments} : p.files.isEmpty = false →
      Finishes keywords policy p index (.terminated (index + 1) arguments) [] ["--"] arguments
        (.files p.files)
  | terminatedProgram {text arguments} : p.files.isEmpty = true →
      Finishes keywords policy p index (.terminated (index + 1) (text :: arguments)) []
        ["--", text] arguments (.inline text)
  | glued {item : Item} {name argument arguments} : p.files.isEmpty = true → item.Fits policy →
      item.ending keywords = .exec (some name) →
      Finishes keywords policy p index
        (.exec (some name) (index + item.tokens.length) (argument :: arguments)) [item] item.tokens
        (argument :: arguments) (.files ⟨[name]⟩)
  | file {item : Item} {name arguments} : p.files.isEmpty = true → item.Fits policy →
      item.ending keywords = .exec none →
      Finishes keywords policy p index
        (.exec none (index + item.tokens.length) (name :: arguments)) [item]
        (item.tokens ++ [name]) arguments (.files ⟨[name]⟩)

variable {features : Features} {keywords : Keywords} {policy : LongOptionPolicy}
  {globals : Globals} {p : Progress} {index : Nat} {ending : Ending} {last : List Item}

theorem names_of_isEmpty {files : ProgramFiles} (h : files.isEmpty = true) : files.names = [] :=
  List.isEmpty_iff.mp h

theorem names_push_of_isEmpty {files : ProgramFiles} (h : files.isEmpty = true) (name : String) :
    files.push name = ⟨[name]⟩ := by
  rw [ProgramFiles.push, names_of_isEmpty h]
  rfl

theorem runExec_eq_run {glued : Option String} {rest : List String} {inv : Invocation}
    (h : runExec p glued index rest = .ok (.run inv)) :
    p.files.isEmpty = true ∧
      ((∃ name argument arguments, glued = some name ∧ rest = argument :: arguments ∧
          inv = ⟨.files ⟨[name]⟩, index, p.flags⟩) ∨
        ∃ name arguments, glued = none ∧ rest = name :: arguments ∧
          inv = ⟨.files ⟨[name]⟩, index + 1, p.flags⟩) := by
  cases hempty : p.files.isEmpty with
  | false =>
    rw [runExec_of_files hempty] at h
    cases h
  | true =>
    refine ⟨rfl, ?_⟩
    unfold runExec at h
    rw [hempty] at h
    cases rest with
    | nil => cases h
    | cons first rest =>
      cases glued with
      | some name =>
        cases h
        refine Or.inl ⟨name, first, rest, rfl, rfl, ?_⟩
        rw [names_push_of_isEmpty hempty]
      | none =>
        cases h
        refine Or.inr ⟨first, rest, rfl, rfl, ?_⟩
        rw [names_push_of_isEmpty hempty]

theorem launch_eq_run {rest : List String} {inv : Invocation}
    (h : (if p.files.isEmpty then runNext p index rest else runFiles p index) = .run inv) :
    (p.files.isEmpty = false ∧ inv = ⟨.files p.files, index, p.flags⟩) ∨
      (p.files.isEmpty = true ∧ ∃ text arguments, rest = text :: arguments ∧
        inv = ⟨.inline text, index + 1, p.flags⟩) := by
  cases hempty : p.files.isEmpty with
  | false =>
    rw [hempty] at h
    cases h
    exact Or.inl ⟨rfl, rfl⟩
  | true =>
    rw [hempty] at h
    cases rest with
    | nil => cases h
    | cons text arguments =>
      cases h
      exact Or.inr ⟨rfl, text, arguments, rfl, rfl⟩

variable [Libraries]

/-- A run that launches a program takes it where reading stops. -/
theorem Stops.finishes {rest : List String} {inv : Invocation}
    (h : Stops keywords policy index rest last ending)
    (hrun : ((⟨last, ending⟩ : Reading).runFrom keywords p).outcome = .ok (.run inv)) :
    ∃ taken arguments, rest = taken ++ arguments ∧ inv.argsStart = index + taken.length ∧
      Finishes keywords policy p index ending last taken arguments inv.program := by
  cases h with
  | exhausted =>
    rcases launch_eq_run (Except.ok.inj hrun) with ⟨hfiles, rfl⟩ | ⟨-, text, arguments, hrest, -⟩
    · exact ⟨[], [], rfl, rfl, .operands hfiles⟩
    · cases hrest
  | @operand token rest hoperand =>
    rcases launch_eq_run (Except.ok.inj hrun) with ⟨hfiles, rfl⟩ | ⟨hfiles, text, _, hrest, rfl⟩
    · exact ⟨[], token :: rest, rfl, rfl, .operands hfiles⟩
    · obtain ⟨rfl, rfl⟩ := List.cons.inj hrest
      exact ⟨[token], rest, rfl, rfl, .program hfiles hoperand⟩
  | @hyphen rest =>
    cases hfiles : p.files.isEmpty with
    | true =>
      simp only [Reading.runFrom, Reading.directives, List.flatMap_nil, applyAll, conclude,
        hfiles] at hrun
      cases hrun
    | false =>
      simp only [Reading.runFrom, Reading.directives, List.flatMap_nil, applyAll, conclude,
        hfiles] at hrun
      cases hrun
      exact ⟨[], "-" :: rest, rfl, rfl, .dash hfiles⟩
  | @terminator rest =>
    rcases launch_eq_run (Except.ok.inj hrun) with ⟨hfiles, rfl⟩ | ⟨hfiles, text, _, rfl, rfl⟩
    · exact ⟨["--"], rest, rfl, rfl, .terminated hfiles⟩
    · exact ⟨["--", text], _, rfl, rfl, .terminatedProgram hfiles⟩
  | refused htoken => cases hrun
  | lacking => cases hrun
  | @exec item glued rest hfits hexec =>
    obtain ⟨q, -, hnames, hlast⟩ := Item.exists_runFrom_last (by simp) hexec p
    rw [hlast, conclude] at hrun
    obtain ⟨hq, hcases⟩ := runExec_eq_run hrun
    have hempty : p.files.isEmpty = true := by
      rw [ProgramFiles.isEmpty, ← hnames]
      exact hq
    rcases hcases with ⟨name, argument, arguments, rfl, rfl, rfl⟩ | ⟨name, arguments, rfl, rfl, rfl⟩
    · exact ⟨item.tokens, argument :: arguments, rfl, rfl, .glued hempty hfits hexec⟩
    · refine ⟨item.tokens ++ [name], arguments, by simp, ?_, .file hempty hfits hexec⟩
      rw [List.length_append, List.length_singleton, Nat.add_assoc]
  | usage hfits husage =>
    obtain ⟨q, -, -, hlast⟩ := Item.exists_runFrom_last (by simp) husage p
    rw [hlast] at hrun
    cases hrun
  | @faulty item fault rest hfits hfaulty =>
    obtain ⟨q, -, -, hlast⟩ := Item.exists_runFrom_last (by simp) hfaulty p
    rw [hlast] at hrun
    cases hrun

/-- A run that launches a program: it applies some items and takes the program where reading stops
after them. -/
structure LaunchesAfter (features : Features) (policy : LongOptionPolicy) (globals : Globals)
    (args : List String) (inv : Invocation) (name : String) (items : List Item) (p : Progress)
    (ending : Ending) (last : List Item) (taken arguments : List String) : Prop where
  args_eq : args = name :: (spelled items ++ (taken ++ arguments))
  through : ∀ item ∈ items, item.Through (ImplementationOption.table features) policy
  applied : applyAll (Progress.start globals)
    (items.flatMap (Item.directives (ImplementationOption.table features))) = (p, none)
  stops : Stops (ImplementationOption.table features) policy (1 + (spelled items).length)
    (taken ++ arguments) last ending
  argsStart_eq : inv.argsStart = 1 + (spelled items).length + taken.length
  finishes : Finishes (ImplementationOption.table features) policy p (1 + (spelled items).length)
    ending last taken arguments inv.program

theorem exists_launchesAfter {args : List String} {inv : Invocation}
    (h : (dispatch features policy globals args).outcome = .ok (.run inv)) :
    ∃ name items p ending last taken arguments,
      LaunchesAfter features policy globals args inv name items p ending last taken arguments := by
  match args with
  | [] => cases h
  | [name] => cases h
  | name :: token :: tokens =>
    obtain ⟨items, rest, last, ending, hstops, hrun⟩ :=
      exists_dispatch_eq features policy globals name token tokens
    rcases hrun with ⟨p, cause, -, hrun⟩ | ⟨p, happly, hrun⟩
    · rw [hrun] at h
      cases h
    · rw [hrun] at h
      obtain ⟨taken, arguments, rfl, hstart, hfinishes⟩ := hstops.stops.finishes h
      refine ⟨name, items, p, ending, last, taken, arguments, ?_⟩
      exact
        { args_eq := by rw [hstops.tokens_eq]
          through := hstops.through
          applied := happly
          stops := hstops.stops
          argsStart_eq := hstart
          finishes := hfinishes }

section Launches

variable {args : List String} {inv : Invocation} {name : String} {items : List Item}
  {taken arguments : List String}

theorem argsStart_le_length (h : (dispatch features policy globals args).outcome = .ok (.run inv)) :
    inv.argsStart ≤ args.length := by
  obtain ⟨name, items, p, ending, last, taken, arguments, hlaunch⟩ := exists_launchesAfter h
  rw [hlaunch.argsStart_eq, hlaunch.args_eq]
  simp only [List.length_cons, List.length_append]
  omega

theorem LaunchesAfter.take_eq
    (h : LaunchesAfter features policy globals args inv name items p ending last taken arguments) :
    args.take inv.argsStart = name :: (spelled items ++ taken) := by
  have hlength : inv.argsStart = (name :: (spelled items ++ taken)).length := by
    rw [h.argsStart_eq, List.length_cons, List.length_append]
    omega
  have hargs : args = (name :: (spelled items ++ taken)) ++ arguments := by
    rw [h.args_eq, List.cons_append, List.append_assoc]
  rw [hlength, hargs, List.take_left]

theorem LaunchesAfter.read_eq
    (h : LaunchesAfter features policy globals args inv name items p ending last taken arguments) :
    read (ImplementationOption.table features) policy args.tail = ⟨items ++ last, ending⟩ := by
  rw [h.args_eq, List.tail_cons, read, readFrom_spelled h.through, h.stops.readFrom_eq]

theorem LaunchesAfter.dispatch_eq
    (h : LaunchesAfter features policy globals args inv name items p ending last taken arguments)
    (hne : taken ++ arguments ≠ []) :
    dispatch features policy globals args =
      (⟨last, ending⟩ : Reading).runFrom (ImplementationOption.table features) p := by
  rw [h.args_eq, dispatch_spelled h.through h.applied hne, Nat.add_comm, h.stops.readFrom_eq]

end Launches

end CommandLine
end AwkStartup
