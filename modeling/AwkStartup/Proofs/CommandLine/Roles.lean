import AwkStartup.Proofs.CommandLine.Finishing
import AwkStartup.StandardLibraries

/-!
# What each token is for

Every token between the name of the program and the arguments plays one role. The roles are told
from the tokens in only one way, and they account for the program that is launched.
-/

namespace AwkStartup
namespace CommandLine

/-- What a token before the arguments is for. An option token comes with the value of its switch,
from the same token or from the next one. -/
inductive Role where
  | option (switch : Switch) (value : String)
  | value
  | skipped
  | terminator
  | program
  | execFile
  deriving DecidableEq, Repr

def Role.programFile? : Role → Option String
  | option .programFile name => some name
  | _ => none

def Item.roles : Item → List Role
  | skipped _ _ => [.skipped]
  | glued switch value => [.option switch value]
  | separate switch value => [.option switch value, .value]

/-- The roles of tokens before the arguments, in order. Only an operand or a token after the
terminator can be a program text, and only a token after `exec` its file. -/
inductive Plays (keywords : Keywords) (policy : LongOptionPolicy) :
    List String → List Role → Prop
  | nil : Plays keywords policy [] []
  | item {item : Item} {rest roles} : item.Through keywords policy →
      Plays keywords policy rest roles →
      Plays keywords policy (item.tokens ++ rest) (item.roles ++ roles)
  | program {text} : Token.of policy text = .operand → Plays keywords policy [text] [.program]
  | terminator : Plays keywords policy ["--"] [.terminator]
  | terminatorProgram {text} : Plays keywords policy ["--", text] [.terminator, .program]
  | exec {item : Item} {file} : item.Fits policy → item.ending keywords = .exec (some file) →
      Plays keywords policy item.tokens item.roles
  | execFile {item : Item} {file} : item.Fits policy → item.ending keywords = .exec none →
      Plays keywords policy (item.tokens ++ [file]) (item.roles ++ [.execFile])

/-- Where a launched program comes from, by the last token before the arguments and by the roles of
all tokens before them. -/
inductive ComesFrom (keywords : Keywords) (token : Option String) (roles : List Role) :
    ProgramSource → Prop
  /-- The last token, without program files. -/
  | inline {text} : token = some text → roles.getLast? = some .program →
      roles.filterMap Role.programFile? = [] → ComesFrom keywords token roles (.inline text)
  /-- All files that options name, in order. -/
  | options {files : ProgramFiles} : files.names = roles.filterMap Role.programFile? →
      files.names ≠ [] → files.primary? = (roles.filterMap Role.programFile?).head? →
      .program ∉ roles → .execFile ∉ roles → ComesFrom keywords token roles (.files files)
  /-- The file glued to `exec`. -/
  | glued {group name} : .option .implementation group ∈ roles →
      (Group.read keywords group).ending = .exec (some name) →
      roles.filterMap Role.programFile? = [] → .program ∉ roles → .execFile ∉ roles →
      ComesFrom keywords token roles (.files ⟨[name]⟩)
  /-- The last token, after `exec`. -/
  | file {group name} : .option .implementation group ∈ roles →
      (Group.read keywords group).ending = .exec none → token = some name →
      roles.getLast? = some .execFile → roles.filterMap Role.programFile? = [] →
      .program ∉ roles → ComesFrom keywords token roles (.files ⟨[name]⟩)

def Ending.roles : Ending → List Role
  | operands _ (_ :: _) => [.program]
  | terminated _ [] => [.terminator]
  | terminated _ (_ :: _) => [.terminator, .program]
  | exec none _ (_ :: _) => [.execFile]
  | _ => []

def Reading.roles (reading : Reading) : List Role :=
  reading.items.flatMap Item.roles ++ reading.ending.roles

variable {features : Features} {keywords : Keywords} {policy : LongOptionPolicy}
  {globals : Globals} {p : Progress} {index : Nat} {ending : Ending} {last items : List Item}
  {taken arguments tokens args : List String} {source : ProgramSource} {inv : Invocation}
  {roles others : List Role} {name : String}

theorem Item.length_roles (item : Item) : item.roles.length = item.tokens.length := by
  cases item <;> rfl

theorem length_roles_items (items : List Item) :
    (items.flatMap Item.roles).length = (spelled items).length := by
  induction items with
  | nil => rfl
  | cons item items ih =>
    rw [List.flatMap_cons, List.length_append, spelled_cons, List.length_append, ih,
      item.length_roles]

theorem Plays.length_eq (h : Plays keywords policy tokens roles) :
    roles.length = tokens.length := by
  induction h with
  | nil => rfl
  | @item item rest roles hitem hrest ih =>
    rw [List.length_append, List.length_append, ih, item.length_roles]
  | program => rfl
  | terminator => rfl
  | terminatorProgram => rfl
  | exec => exact Item.length_roles _
  | @execFile item file hfits hexec =>
    rw [List.length_append, List.length_append, item.length_roles]
    rfl

theorem Plays.roles_readFrom (h : Plays keywords policy tokens roles) (index : Nat) :
    (readFrom keywords policy index tokens).roles = roles := by
  induction h generalizing index with
  | nil => rfl
  | @item item rest roles hitem hrest ih =>
    have hrest := ih (index + item.tokens.length)
    rw [readFrom_item hitem.fits, hitem.ending]
    simp only [Reading.roles, Reading.after, List.flatMap_cons, List.append_assoc] at hrest ⊢
    rw [hrest]
  | program hoperand =>
    rw [(Stops.operand hoperand).readFrom_eq]
    rfl
  | terminator =>
    rw [Stops.terminator.readFrom_eq]
    rfl
  | terminatorProgram =>
    rw [Stops.terminator.readFrom_eq]
    rfl
  | @exec item file hfits hexec =>
    have hread := (@Stops.exec keywords policy index item (some file) [] hfits hexec).readFrom_eq
    rw [List.append_nil] at hread
    rw [hread]
    simp [Reading.roles, Ending.roles]
  | @execFile item file hfits hexec =>
    rw [(Stops.exec hfits hexec).readFrom_eq]
    simp [Reading.roles, Ending.roles]

theorem Plays.unique (h : Plays keywords policy tokens roles)
    (hothers : Plays keywords policy tokens others) : others = roles := by
  rw [← h.roles_readFrom 1, ← hothers.roles_readFrom 1]

theorem Plays.append (h : Plays keywords policy tokens roles)
    (hitems : ∀ item ∈ items, item.Through keywords policy) :
    Plays keywords policy (spelled items ++ tokens) (items.flatMap Item.roles ++ roles) := by
  induction items with
  | nil => exact h
  | cons item items ih =>
    obtain ⟨hitem, hrest⟩ := List.forall_mem_cons.mp hitems
    rw [spelled_cons, List.flatMap_cons, List.append_assoc, List.append_assoc]
    exact .item hitem (ih hrest)

theorem notMem_roles (item : Item) : .program ∉ item.roles ∧ .execFile ∉ item.roles := by
  cases item <;> simp [Item.roles]

theorem notMem_roles_items (items : List Item) :
    .program ∉ items.flatMap Item.roles ∧ .execFile ∉ items.flatMap Item.roles := by
  constructor
  · intro h
    obtain ⟨item, -, hitem⟩ := List.mem_flatMap.mp h
    exact (notMem_roles item).1 hitem
  · intro h
    obtain ⟨item, -, hitem⟩ := List.mem_flatMap.mp h
    exact (notMem_roles item).2 hitem

theorem Item.option_mem_roles {item : Item} {group : String} (h : item.group? = some group) :
    .option .implementation group ∈ item.roles := by
  rcases Item.eq_of_group? h with rfl | rfl
  · exact List.mem_cons_self
  · exact List.mem_cons_self

theorem Item.programFile?_roles {item : Item} {group : String} (h : item.group? = some group) :
    item.roles.filterMap Role.programFile? = [] := by
  rcases Item.eq_of_group? h with rfl | rfl
  · rfl
  · rfl

theorem programFile?_directives (keywords : Keywords) (items : List Item) :
    (items.flatMap (Item.directives keywords)).filterMap Directive.programFile? =
      (items.flatMap Item.roles).filterMap Role.programFile? := by
  have hitem (item : Item) : (item.directives keywords).filterMap Directive.programFile? =
      item.roles.filterMap Role.programFile? := by
    cases item with
    | skipped token reported => cases reported <;> rfl
    | glued switch value | separate switch value =>
      cases switch with
      | implementation =>
        rw [Item.directives, switchDirectives, List.filterMap_eq_nil_iff.mpr]
        · rfl
        · intro d hd
          exact Directive.programFile?_of_isOfGroup (Group.isOfGroup_of_mem_read hd)
      | separator | assign | programFile => rfl
  induction items with
  | nil => rfl
  | cons item items ih =>
    rw [List.flatMap_cons, List.filterMap_append, List.flatMap_cons, List.filterMap_append, ih,
      hitem]

/-- What is taken where reading stops plays its roles, and the program comes from there. -/
theorem Finishes.comesFrom
    (h : Finishes keywords policy p index ending last taken arguments source)
    {before : List Role} {token : Option String}
    (hbefore : .program ∉ before ∧ .execFile ∉ before)
    (hnames : p.files.names = before.filterMap Role.programFile?)
    (htoken : ∀ first text, taken = first ++ [text] → token = some text) :
    ∃ roles, Plays keywords policy taken roles ∧ last.flatMap Item.roles <+: roles ∧
      ComesFrom keywords token (before ++ roles) source := by
  have hfiles (hempty : p.files.isEmpty = false) : p.files.names ≠ [] :=
    List.isEmpty_eq_false_iff.mp hempty
  have hnone (hempty : p.files.isEmpty = true) : before.filterMap Role.programFile? = [] := by
    rw [← hnames, names_of_isEmpty hempty]
  have hprimary : p.files.primary? = (before.filterMap Role.programFile?).head? := by
    rw [ProgramFiles.primary?, hnames]
  obtain ⟨hprogram, hexecFile⟩ := hbefore
  cases h with
  | operands hempty =>
    refine ⟨[], .nil, List.prefix_rfl, ?_⟩
    rw [List.append_nil]
    exact .options hnames (hfiles hempty) hprimary hprogram hexecFile
  | dash hempty =>
    refine ⟨[], .nil, List.prefix_rfl, ?_⟩
    rw [List.append_nil]
    exact .options hnames (hfiles hempty) hprimary hprogram hexecFile
  | @program text arguments hempty hoperand =>
    refine ⟨[.program], .program hoperand, List.nil_prefix, ?_⟩
    refine .inline (htoken [] text rfl) List.getLast?_concat ?_
    rw [List.filterMap_append, hnone hempty]
    rfl
  | terminated hempty =>
    have hterminator : (before ++ [Role.terminator]).filterMap Role.programFile? =
        before.filterMap Role.programFile? := by
      rw [List.filterMap_append]
      exact List.append_nil _
    refine ⟨[.terminator], .terminator, List.nil_prefix, .options ?_ (hfiles hempty) ?_ ?_ ?_⟩
    · rw [hterminator, hnames]
    · rw [hterminator, hprimary]
    · simpa using hprogram
    · simpa using hexecFile
  | @terminatedProgram text arguments hempty =>
    refine ⟨[.terminator, .program], .terminatorProgram, List.nil_prefix, ?_⟩
    refine .inline (htoken ["--"] text rfl) ?_ ?_
    · simp
    · rw [List.filterMap_append, hnone hempty]
      rfl
  | @glued item name argument arguments hempty hfits hexec =>
    obtain ⟨group, hgroup, -⟩ := Item.exists_round (by simp) hexec
    rw [Item.ending_of_group? hgroup] at hexec
    obtain ⟨hitemProgram, hitemFile⟩ := notMem_roles item
    refine ⟨item.roles, .exec hfits ((Item.ending_of_group? hgroup).trans hexec), by simp, ?_⟩
    refine .glued (List.mem_append_right _ (Item.option_mem_roles hgroup)) hexec ?_ ?_ ?_
    · rw [List.filterMap_append, hnone hempty, Item.programFile?_roles hgroup]
      rfl
    · simp [hprogram, hitemProgram]
    · simp [hexecFile, hitemFile]
  | @file item name arguments hempty hfits hexec =>
    obtain ⟨group, hgroup, -⟩ := Item.exists_round (by simp) hexec
    rw [Item.ending_of_group? hgroup] at hexec
    obtain ⟨hitemProgram, hitemFile⟩ := notMem_roles item
    refine ⟨item.roles ++ [.execFile],
      .execFile hfits ((Item.ending_of_group? hgroup).trans hexec), by simp, ?_⟩
    refine .file ?_ hexec (htoken item.tokens name rfl) ?_ ?_ ?_
    · exact List.mem_append_right _ (List.mem_append_left _ (Item.option_mem_roles hgroup))
    · rw [← List.append_assoc, List.getLast?_concat]
    · rw [List.filterMap_append, List.filterMap_append, hnone hempty,
        Item.programFile?_roles hgroup]
      rfl
    · simp [hprogram, hitemProgram]

/-- Nothing is taken only after options with program files. -/
theorem Finishes.isEmpty_of_taken_eq_nil
    (h : Finishes keywords policy p index ending last taken arguments source) (htaken : taken = []) :
    p.files.isEmpty = false := by
  cases h with
  | operands hfiles => exact hfiles
  | dash hfiles => exact hfiles
  | program => cases htaken
  | terminated => cases htaken
  | terminatedProgram => cases htaken
  | glued => exact absurd htaken (Item.tokens_ne_nil _)
  | file => simp at htaken

section Launches

variable [Libraries]

theorem LaunchesAfter.getElem?_last
    (h : LaunchesAfter features policy globals args inv name items p ending last taken arguments)
    {first : List String} {text : String} (htaken : taken = first ++ [text]) :
    args[inv.argsStart - 1]? = some text := by
  have hargs : args = (name :: (spelled items ++ first)) ++ text :: arguments := by
    rw [h.args_eq, htaken]
    simp
  have hindex : inv.argsStart - 1 = (name :: (spelled items ++ first)).length := by
    rw [h.argsStart_eq, htaken]
    simp only [List.length_append, List.length_cons, List.length_nil]
    omega
  rw [hindex, hargs, List.getElem?_append_right le_rfl, Nat.sub_self, List.getElem?_cons_zero]

theorem LaunchesAfter.names_eq
    (h : LaunchesAfter features policy globals args inv name items p ending last taken arguments) :
    p.files.names = (items.flatMap Item.roles).filterMap Role.programFile? := by
  rw [names_of_applyAll_ok h.applied, programFile?_directives]
  rfl

theorem LaunchesAfter.tokens_ne_nil
    (h : LaunchesAfter features policy globals args inv name items p ending last taken arguments) :
    spelled items ++ taken ≠ [] := by
  intro hnil
  obtain ⟨hitems, htaken⟩ := List.append_eq_nil_iff.mp hnil
  have hroles : items.flatMap Item.roles = [] := by
    rw [← List.length_eq_zero_iff, length_roles_items, hitems]
    rfl
  have hnames := h.names_eq
  rw [hroles] at hnames
  have hempty : p.files.isEmpty = true := List.isEmpty_iff.mpr hnames
  rw [h.finishes.isEmpty_of_taken_eq_nil htaken] at hempty
  cases hempty

/-- No token is lost, duplicated or read twice. The tokens between the name of the program and the
arguments play one role each, and the program that is launched comes from them. -/
theorem every_token_has_one_role
    (h : (dispatch features policy globals args).outcome = .ok (.run inv)) :
    2 ≤ inv.argsStart ∧ inv.argsStart ≤ args.length ∧
      inv.arguments args = args.drop inv.argsStart ∧
      ∃ roles,
        Plays (ImplementationOption.table features) policy (args.take inv.argsStart).tail roles ∧
        (∀ others,
          Plays (ImplementationOption.table features) policy (args.take inv.argsStart).tail others →
            others = roles) ∧
        roles.length + 1 = inv.argsStart ∧
        (read (ImplementationOption.table features) policy args.tail).items.flatMap Item.roles <+:
          roles ∧
        ComesFrom (ImplementationOption.table features) args[inv.argsStart - 1]? roles
          inv.program := by
  obtain ⟨name, items, p, ending, last, taken, arguments, hlaunch⟩ := exists_launchesAfter h
  have hle : inv.argsStart ≤ args.length := by
    rw [hlaunch.argsStart_eq, hlaunch.args_eq]
    simp only [List.length_cons, List.length_append]
    omega
  have htokens : (args.take inv.argsStart).tail = spelled items ++ taken := by
    rw [hlaunch.take_eq, List.tail_cons]
  obtain ⟨roles, hplays, hlast, hcomes⟩ := hlaunch.finishes.comesFrom (notMem_roles_items items)
    hlaunch.names_eq fun _ _ htaken => hlaunch.getElem?_last htaken
  have hall : Plays (ImplementationOption.table features) policy (args.take inv.argsStart).tail
      (items.flatMap Item.roles ++ roles) := by
    rw [htokens]
    exact hplays.append hlaunch.through
  refine ⟨?_, hle, ?_, items.flatMap Item.roles ++ roles, hall, ?_, ?_, ?_, hcomes⟩
  · have hpos := List.length_pos_iff.mpr hlaunch.tokens_ne_nil
    rw [List.length_append] at hpos
    rw [hlaunch.argsStart_eq]
    omega
  · rw [Invocation.arguments, Nat.min_eq_left hle]
  · intro others hothers
    exact hall.unique hothers
  · rw [hall.length_eq, htokens, hlaunch.argsStart_eq, List.length_append]
    omega
  · rw [hlaunch.read_eq, List.flatMap_append]
    exact (List.prefix_append_right_inj _).mpr hlast

end Launches

/-- The roles of a program file, an assignment in one token and the terminator. -/
theorem every_token_has_one_role_options :
    (dispatch .plain .reject Globals.initial ["awk", "-f", "lib", "-vx=1", "--", "a"]).outcome =
        .ok (.run ⟨.files ⟨["lib"]⟩, 5, Flags.none⟩) ∧
      Plays (ImplementationOption.table .plain) .reject ["-f", "lib", "-vx=1", "--"]
        [.option .programFile "lib", .value, .option .assign "x=1", .terminator] ∧
      ComesFrom (ImplementationOption.table .plain) (some "--")
        [.option .programFile "lib", .value, .option .assign "x=1", .terminator]
        (.files ⟨["lib"]⟩) := by
  have hrun : (dispatch .plain .reject Globals.initial
      ["awk", "-f", "lib", "-vx=1", "--", "a"]).outcome =
        .ok (.run ⟨.files ⟨["lib"]⟩, 5, Flags.none⟩) := rfl
  obtain ⟨-, -, -, roles, hplays, -, -, -, hcomes⟩ := every_token_has_one_role hrun
  have hroles : roles =
      [.option .programFile "lib", .value, .option .assign "x=1", .terminator] :=
    (hplays.roles_readFrom 1).symm
  rw [hroles] at hplays hcomes
  exact ⟨hrun, hplays, hcomes⟩

end CommandLine
end AwkStartup
