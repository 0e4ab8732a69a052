import AwkStartup.Proofs.CommandLine.Policies
import AwkStartup.StandardLibraries

/-!
# Command lines without a skipped long option

A long option that is skipped asks for nothing but a report. Without it a command line does the
same, and its arguments start one token earlier. Only when nothing but the name of the program is
left does the run end differently, because then it shows its usage.
-/

namespace AwkStartup

namespace Notice

def isIgnoredOption : Notice → Bool
  | ignoredOption _ => true
  | _ => false

end Notice

namespace CommandLine

/-- Two runs that are the same apart from reports of ignored long options. -/
structure SameApartFromReports (d e : Dispatched) : Prop where
  outcome : d.outcome = e.outcome
  globals : d.progress.globals = e.progress.globals
  calls : d.progress.calls = e.progress.calls
  notices : d.progress.notices.filter (fun n => !n.isIgnoredOption) =
    e.progress.notices.filter fun n => !n.isIgnoredOption

theorem SameApartFromReports.refl (d : Dispatched) : SameApartFromReports d d :=
  ⟨rfl, rfl, rfl, rfl⟩

theorem SameApartFromReports.symm {d e : Dispatched} (h : SameApartFromReports d e) :
    SameApartFromReports e d :=
  ⟨h.outcome.symm, h.globals.symm, h.calls.symm, h.notices.symm⟩

theorem SameApartFromReports.trans {c d e : Dispatched} (h : SameApartFromReports c d)
    (hlater : SameApartFromReports d e) : SameApartFromReports c e :=
  ⟨h.outcome.trans hlater.outcome, h.globals.trans hlater.globals, h.calls.trans hlater.calls,
    h.notices.trans hlater.notices⟩

theorem SameApartFromReports.shift {d e : Dispatched} (h : SameApartFromReports d e) (k : Nat) :
    SameApartFromReports (d.shift k) (e.shift k) :=
  ⟨by rw [Dispatched.shift, Dispatched.shift, h.outcome], h.globals, h.calls, h.notices⟩

variable {features : Features} {policy : LongOptionPolicy} {globals : Globals}
  {args : List String} {items : List Item} {k : Nat} {token : String}

section Runs

variable [Libraries]

theorem sameApartFromReports_warn (features : Features) (globals : Globals) (args : List String) :
    SameApartFromReports (dispatch features .warn globals args)
      (dispatch features .ignore globals args) := by
  match args with
  | [] => exact .refl _
  | [name] => exact .refl _
  | name :: first :: others =>
    rcases firstLong_cases features globals name (List.cons_ne_nil first others) with
      ⟨-, hsame⟩ | ⟨items, token, rest, p, hfirst⟩
    · rw [hsame .warn .ignore]
      exact .refl _
    · obtain ⟨outcome, q, hignore, hwarn⟩ := hfirst.dispatch_skipped name
      rw [hignore, hwarn]
      refine ⟨rfl, rfl, ?_, ?_⟩
      · simp [calls_preceded, Effect.call?]
      · simp [notices_preceded, Effect.notice?, Notice.isIgnoredOption]

theorem dispatch_ignore_long
    (hthrough : ∀ item ∈ items, item.Through (ImplementationOption.table features) .ignore)
    (hlong : isLongOption token = true) {rest : List String} (hrest : spelled items ++ rest ≠ [])
    (name : String) :
    dispatch features .ignore globals (name :: (spelled items ++ token :: rest)) =
      (dispatch features .ignore globals (name :: (spelled items ++ rest))).shift 1 := by
  have hfits : (Item.skipped token false).Fits .ignore := Token.of_long hlong .ignore
  have hread (index : Nat) : readFrom (ImplementationOption.table features) .ignore index
      (token :: rest) = (readFrom (ImplementationOption.table features) .ignore (index + 1)
        rest).after (.skipped token false) :=
    readFrom_item hfits index rest
  apply dispatch_spelled_shift hthrough hrest
  · exact List.append_ne_nil_of_right_ne_nil _ (List.cons_ne_nil token rest)
  · intro index
    rw [hread, Reading.directives, Reading.directives, ← (readFrom_add 1 index rest).1]
    rfl
  · intro index
    rw [hread, ← (readFrom_add 1 index rest).2]
    rfl

/-- Where a long option is reached, the tokens before it are options that are gone through, also when
they are ignored. -/
theorem exists_ignored
    (h : ReachesLong features .ignore globals args k token ∨
      ReachesLong features .warn globals args k token) :
    ∃ name items rest, args = name :: (spelled items ++ token :: rest) ∧
      k = (spelled items).length + 1 ∧ isLongOption token = true ∧
      ∀ item ∈ items, item.Through (ImplementationOption.table features) .ignore := by
  rcases h with ⟨items, hlong, hk⟩ | ⟨items, hlong, hk⟩
  · obtain ⟨name, rest, hargs⟩ := hlong.args_eq
    exact ⟨name, items, rest, hargs, hk, hlong.long, hlong.through⟩
  · obtain ⟨name, rest, hargs⟩ := hlong.args_eq
    refine ⟨name, items.map Item.silenced, rest, ?_, ?_, hlong.long, ?_⟩
    · rw [spelled_silenced, hargs]
    · rw [spelled_silenced, hk]
    · intro item hitem
      obtain ⟨original, horiginal, rfl⟩ := List.mem_map.mp hitem
      exact (hlong.through original horiginal).silenced

/-- Skipped long options can be deleted. Without a long option that is reached where long options are
skipped, a command line of more than the name of the program ends the same, with arguments that start
one token earlier, and does the same; only reports of ignored options may differ. -/
theorem skipped_option_deletable
    (h : ReachesLong features .ignore globals args k token ∨
      ReachesLong features .warn globals args k token)
    (hmore : 1 < (args.eraseIdx k).length) :
    args[k]? = some token ∧
      dispatch features .ignore globals args =
        (dispatch features .ignore globals (args.eraseIdx k)).shift 1 ∧
      SameApartFromReports (dispatch features .warn globals args)
        ((dispatch features .warn globals (args.eraseIdx k)).shift 1) := by
  obtain ⟨name, items, rest, rfl, rfl, hlong, hthrough⟩ := exists_ignored h
  have herase : (name :: (spelled items ++ token :: rest)).eraseIdx ((spelled items).length + 1) =
      name :: (spelled items ++ rest) := by
    rw [List.eraseIdx_cons_succ, List.eraseIdx_append_of_length_le le_rfl, Nat.sub_self,
      List.eraseIdx_cons_zero]
  rw [herase] at hmore ⊢
  have hrest : spelled items ++ rest ≠ [] := by
    rintro hnil
    rw [hnil] at hmore
    simp at hmore
  have hignore : dispatch features .ignore globals (name :: (spelled items ++ token :: rest)) =
      (dispatch features .ignore globals (name :: (spelled items ++ rest))).shift 1 :=
    dispatch_ignore_long hthrough hlong hrest name
  refine ⟨by simp, hignore, ?_⟩
  have hwarn := sameApartFromReports_warn features globals
    (name :: (spelled items ++ token :: rest))
  rw [hignore] at hwarn
  exact hwarn.trans ((sameApartFromReports_warn features globals _).symm.shift 1)

end Runs

/-- A long option between a program file and an argument; the one before it is a value. -/
theorem skipped_option_deletable_posix :
    ReachesLong .plain .warn Globals.initial ["awk", "-f", "--lint", "--posix", "a"] 3 "--posix" ∧
      1 < (["awk", "-f", "--lint", "--posix", "a"].eraseIdx 3).length ∧
      dispatch .plain .ignore Globals.initial ["awk", "-f", "--lint", "--posix", "a"] =
        (dispatch .plain .ignore Globals.initial ["awk", "-f", "--lint", "a"]).shift 1 ∧
      SameApartFromReports
        (dispatch .plain .warn Globals.initial ["awk", "-f", "--lint", "--posix", "a"])
        ((dispatch .plain .warn Globals.initial ["awk", "-f", "--lint", "a"]).shift 1) := by
  have hfile : (Item.separate .programFile "--lint").Through (ImplementationOption.table .plain)
      .warn := ⟨trivial, rfl⟩
  have hreach : ReachesLong .plain .warn Globals.initial
      ["awk", "-f", "--lint", "--posix", "a"] 3 "--posix" := by
    refine ⟨[.separate .programFile "--lint"], ⟨⟨"awk", ["a"], rfl⟩, ?_, ⟨_, rfl⟩, rfl⟩, rfl⟩
    simpa using hfile
  have hmore : 1 < (["awk", "-f", "--lint", "--posix", "a"].eraseIdx 3).length := by decide
  obtain ⟨-, hignore, hwarn⟩ := skipped_option_deletable (Or.inr hreach) hmore
  exact ⟨hreach, hmore, hignore, hwarn⟩

/-- Alone, a skipped option leaves no program; without it the usage is shown. -/
example : (dispatch .plain .ignore Globals.initial ["awk", "--posix"]).outcome = .ok .noProgram ∧
    (dispatch .plain .ignore Globals.initial ["awk"]).outcome = .ok .usage :=
  ⟨rfl, rfl⟩

end CommandLine
end AwkStartup
