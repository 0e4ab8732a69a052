import AwkStartup.Proofs.CommandLine.ItemRuns
import AwkStartup.StandardLibraries

/-!
# Runs that fail

A run fails at one option, after all options before it have been applied. A run that is cut off
there does not fail and does the same.
-/

namespace AwkStartup
namespace CommandLine

/-- Where a run fails: at an option, or at the candidate at an offset of its group. -/
inductive Site where
  | option
  | candidate (group : String) (start : Nat)
  deriving DecidableEq, Repr

section Failing

variable [Libraries]

/-- How the option fails that stands in front of some tokens. -/
inductive OptionFails (keywords : Keywords) (policy : LongOptionPolicy) (p : Progress) :
    List String → StartupError → Site → Prop
  | refused {token fault rest} : Token.of policy token = .refused fault →
      OptionFails keywords policy p (token :: rest) fault .option
  | lacking {switch : Switch} :
      OptionFails keywords policy p [switch.token] (.missingArgument switch.token) .option
  | value {item : Item} {fault rest} : item.Fits policy →
      (applyAll p (item.directives keywords)).2 = some fault →
      OptionFails keywords policy p (item.tokens ++ rest) fault .option
  | candidate {item : Item} {group round fault rest} : item.Fits policy →
      item.group? = some group → round ∈ Group.rounds keywords group →
      round.reading.ending = .refused fault →
      OptionFails keywords policy p (item.tokens ++ rest) fault (.candidate group round.start)
  | exec {item : Item} {group round glued rest} : item.Fits policy →
      item.group? = some group → round ∈ Group.rounds keywords group →
      round.reading.ending = .exec glued → p.files.isEmpty = false →
      OptionFails keywords policy p (item.tokens ++ rest) .execWithProgramFile
        (.candidate group round.start)

/-- A run applies some options and fails at the next one, which starts at an index. -/
inductive FailsAt (features : Features) (policy : LongOptionPolicy) (globals : Globals) :
    List String → StartupError → Nat → Site → Prop
  | intro {program : String} {items : List Item} {rest p fault site} :
      (∀ item ∈ items, item.Through (ImplementationOption.table features) policy) →
      applyAll (Progress.start globals)
        (items.flatMap (Item.directives (ImplementationOption.table features))) = (p, none) →
      OptionFails (ImplementationOption.table features) policy p rest fault site →
      FailsAt features policy globals (program :: (spelled items ++ rest)) fault
        ((spelled items).length + 1) site

variable {features : Features} {keywords : Keywords} {policy : LongOptionPolicy}
  {globals : Globals}

theorem OptionFails.ne_nil {p : Progress} {rest : List String} {fault : StartupError} {site : Site}
    (h : OptionFails keywords policy p rest fault site) : rest ≠ [] := by
  have htokens (item : Item) (rest : List String) : item.tokens ++ rest ≠ [] :=
    List.append_ne_nil_of_left_ne_nil item.tokens_ne_nil rest
  cases h with
  | refused => simp
  | lacking => simp
  | value => exact htokens _ _
  | candidate => exact htokens _ _
  | exec => exact htokens _ _

theorem OptionFails.runFrom_option {p : Progress} {rest : List String} {fault : StartupError}
    (h : OptionFails keywords policy p rest fault .option) (index : Nat) :
    (readFrom keywords policy index rest).runFrom keywords p = ⟨.error fault, p⟩ := by
  cases h with
  | refused htoken =>
    rw [(Stops.refused htoken).readFrom_eq]
    rfl
  | lacking =>
    rw [Stops.lacking.readFrom_eq]
    rfl
  | @value item fault rest hfits hfails =>
    obtain ⟨items, ending, hread⟩ := exists_items_readFrom keywords hfits index rest
    cases happly : applyAll p (item.directives keywords) with
    | mk q failed =>
      rw [happly] at hfails
      obtain rfl : failed = some fault := hfails
      obtain rfl := Item.applyAll_error happly
      rw [hread]
      apply Reading.runFrom_of_error
      exact applyAll_append_of_error happly _

/-- A group that fails has been applied up to the candidate that fails. -/
theorem OptionFails.runFrom_candidate {p : Progress} {rest : List String} {fault : StartupError}
    {group : String} {start : Nat}
    (h : OptionFails keywords policy p rest fault (.candidate group start)) (index : Nat) :
    ∃ round ∈ Group.rounds keywords group, round.start = start ∧
      round.reading.ending.mayFail = true ∧
      ∃ q, applyAll p (Group.read keywords group).directives = (q, none) ∧
        (readFrom keywords policy index rest).runFrom keywords p = ⟨.error fault, q⟩ := by
  cases h with
  | @candidate item group round fault rest hfits hgroup hround hending =>
    have hfaulty : item.ending keywords = .refused fault := by
      rw [Item.ending_of_group? hgroup, Group.read_ending_iff (by simp)]
      exact ⟨round, hround, hending⟩
    obtain ⟨q, hq, -, hrun⟩ := Item.exists_runFrom_last (by simp) hfaulty p
    rw [Item.directives_of_group? hgroup] at hq
    refine ⟨round, hround, rfl, by rw [hending]; rfl, q, hq, ?_⟩
    rw [(Stops.faulty hfits hfaulty).readFrom_eq, hrun]
    rfl
  | @exec item group round glued rest hfits hgroup hround hending hfiles =>
    have hexec : item.ending keywords = .exec glued := by
      rw [Item.ending_of_group? hgroup, Group.read_ending_iff (by simp)]
      exact ⟨round, hround, hending⟩
    obtain ⟨q, hq, hnames, hrun⟩ := Item.exists_runFrom_last (by simp) hexec p
    rw [Item.directives_of_group? hgroup] at hq
    have hempty : q.files.isEmpty = false := by
      rw [ProgramFiles.isEmpty, hnames]
      exact hfiles
    refine ⟨round, hround, rfl, by rw [hending]; rfl, q, hq, ?_⟩
    rw [(Stops.exec hfits hexec).readFrom_eq, hrun, conclude, runExec_of_files hempty]

theorem Stops.optionFails {index : Nat} {p : Progress} {rest : List String} {last : List Item}
    {ending : Ending} {fault : StartupError} (h : Stops keywords policy index rest last ending)
    (hfails : ((⟨last, ending⟩ : Reading).runFrom keywords p).outcome = .error fault) :
    ∃ site, OptionFails keywords policy p rest fault site := by
  cases h with
  | exhausted => cases hfails
  | operand hoperand => cases hfails
  | hyphen => cases hfails
  | terminator => cases hfails
  | refused htoken =>
    cases hfails
    exact ⟨_, .refused htoken⟩
  | lacking =>
    cases hfails
    exact ⟨_, .lacking⟩
  | @exec item glued rest hfits hexec =>
    obtain ⟨q, -, hnames, hrun⟩ := Item.exists_runFrom_last (by simp) hexec p
    obtain ⟨group, hgroup, round, hround, hending⟩ := Item.exists_round (by simp) hexec
    have hempty : q.files.isEmpty = p.files.isEmpty := by
      rw [ProgramFiles.isEmpty, ProgramFiles.isEmpty, hnames]
    rw [hrun, conclude] at hfails
    cases hp : p.files.isEmpty with
    | true =>
      obtain ⟨launch, hlaunch⟩ := exists_runExec_eq_ok (hempty.trans hp) glued
        (index + item.tokens.length) rest
      rw [hlaunch] at hfails
      cases hfails
    | false =>
      rw [runExec_of_files (hempty.trans hp)] at hfails
      cases hfails
      exact ⟨_, .exec hfits hgroup hround hending hp⟩
  | usage hfits husage =>
    obtain ⟨q, -, -, hrun⟩ := Item.exists_runFrom_last (by simp) husage p
    rw [hrun] at hfails
    cases hfails
  | @faulty item cause rest hfits hfaulty =>
    obtain ⟨q, -, -, hrun⟩ := Item.exists_runFrom_last (by simp) hfaulty p
    obtain ⟨group, hgroup, round, hround, hending⟩ := Item.exists_round (by simp) hfaulty
    rw [hrun] at hfails
    cases hfails
    exact ⟨_, .candidate hfits hgroup hround hending⟩

variable {args : List String} {fault : StartupError} {k : Nat}

theorem exists_failsAt (h : (dispatch features policy globals args).outcome = .error fault) :
    ∃ k site, FailsAt features policy globals args fault k site := by
  match args with
  | [] => cases h
  | [program] => cases h
  | program :: token :: tokens =>
    obtain ⟨items, rest, last, ending, hstops, hrun⟩ :=
      exists_dispatch_eq features policy globals program token tokens
    rw [hstops.tokens_eq]
    rcases hrun with ⟨p, cause, happly, hrun⟩ | ⟨p, happly, hrun⟩
    · rw [hrun] at h
      obtain rfl := Except.error.inj h
      obtain ⟨before, item, after, r, rfl, hbefore, hitem⟩ := exists_failing_item happly
      obtain ⟨hthrough, hlater⟩ := List.forall_mem_append.mp hstops.through
      have hfits := (List.forall_mem_cons.mp hlater).1.fits
      have hfails : OptionFails (ImplementationOption.table features) policy r
          (item.tokens ++ (spelled after ++ rest)) cause .option := .value hfits hitem
      refine ⟨(spelled before).length + 1, .option, ?_⟩
      rw [spelled_append, spelled_cons, List.append_assoc, List.append_assoc]
      exact .intro hthrough hbefore hfails
    · rw [hrun] at h
      obtain ⟨site, hfails⟩ := hstops.stops.optionFails h
      exact ⟨_, site, .intro hstops.through happly hfails⟩

theorem FailsAt.outcome {site : Site} (h : FailsAt features policy globals args fault k site) :
    (dispatch features policy globals args).outcome = .error fault := by
  cases h with
  | @intro program items rest p _ _ hthrough happly hfails =>
    rw [dispatch_spelled hthrough happly hfails.ne_nil]
    cases site with
    | option => rw [hfails.runFrom_option]
    | candidate group start =>
      obtain ⟨round, -, -, -, q, -, hrun⟩ :=
        hfails.runFrom_candidate ((spelled items).length + 1)
      rw [hrun]

theorem FailsAt.lt_length {site : Site} (h : FailsAt features policy globals args fault k site) :
    k < args.length := by
  cases h with
  | @intro program items rest p _ _ hthrough happly hfails =>
    have hpos := List.length_pos_iff.mpr hfails.ne_nil
    rw [List.length_cons, List.length_append]
    omega

/-- Cut off before an option that fails, a run does not fail and does the same. -/
theorem FailsAt.dispatch_option (h : FailsAt features policy globals args fault k .option) :
    ∃ launch, dispatch features policy globals (args.take k ++ ["--"]) =
      ⟨.ok launch, (dispatch features policy globals args).progress⟩ := by
  cases h with
  | @intro program items rest p _ _ hthrough happly hfails =>
    rw [dispatch_spelled hthrough happly hfails.ne_nil, hfails.runFrom_option]
    rw [List.take_succ_cons, List.take_left]
    exact dispatch_ended program hthrough happly

/-- Cut off before a candidate that fails, a run does not fail and does the same, apart from what
its remarks quote. -/
theorem FailsAt.dispatch_candidate {group : String} {start : Nat}
    (h : FailsAt features policy globals args fault k (.candidate group start)) :
    ∃ before after, group = before ++ after ∧ (Text.bytes before).length = start ∧
      ∃ launch q, dispatch features policy globals (args.take k ++ ["-W", before, "--"]) =
        ⟨.ok launch, q⟩ ∧
        q.unquoted = (dispatch features policy globals args).progress.unquoted := by
  cases h with
  | @intro program items rest p _ _ hthrough happly hfails =>
    obtain ⟨round, hround, rfl, hmayFail, q, hq, hrun⟩ :=
      hfails.runFrom_candidate ((spelled items).length + 1)
    obtain ⟨before, after, hgroup, hstart, hending, hsame⟩ := Group.exists_cut hround hmayFail
    refine ⟨before, after, hgroup, hstart, ?_⟩
    -- The group that is cut off is one more item that reading goes through.
    have hitem : (Item.separate .implementation before).Through
        (ImplementationOption.table features) policy := ⟨trivial, hending⟩
    obtain ⟨r, hr, -⟩ := exists_applyAll_group (ImplementationOption.table features) p before
    have hitems : ∀ item ∈ items ++ [Item.separate .implementation before],
        item.Through (ImplementationOption.table features) policy := by
      rw [List.forall_mem_append]
      exact ⟨hthrough, List.forall_mem_singleton.mpr hitem⟩
    have happly' : applyAll (Progress.start globals)
        ((items ++ [Item.separate .implementation before]).flatMap
          (Item.directives (ImplementationOption.table features))) = (r, none) := by
      rw [List.flatMap_append, applyAll_append_of_ok happly, List.flatMap_singleton]
      exact hr
    obtain ⟨launch, hlaunch⟩ := dispatch_ended program hitems happly'
    have htokens : (program :: (spelled items ++ rest)).take ((spelled items).length + 1) ++
        ["-W", before, "--"] =
          program :: (spelled (items ++ [Item.separate .implementation before]) ++ ["--"]) := by
      rw [List.take_succ_cons, List.take_left, spelled_append, List.append_assoc]
      rfl
    refine ⟨launch, r, ?_, ?_⟩
    · rw [htokens, hlaunch]
    · rw [dispatch_spelled hthrough happly hfails.ne_nil, hrun]
      have hcut := (applyAll_congr_unquoted hsame p).1
      rwa [hr, hq] at hcut

/-- A failing option contributes nothing. A run fails exactly when it fails at some option; cut off
before that option and ended there, it does not fail and leaves the same global names, calls and
remarks. When a candidate of a group fails, this holds of the group cut off before the candidate,
with as many remarks. -/
theorem failing_option_contributes_nothing (features : Features) (policy : LongOptionPolicy)
    (globals : Globals) (args : List String) (fault : StartupError) :
    ((dispatch features policy globals args).outcome = .error fault ↔
      ∃ k site, 1 ≤ k ∧ k < args.length ∧
        FailsAt features policy globals args fault k site) ∧
    (∀ k, FailsAt features policy globals args fault k .option →
      ∃ launch, dispatch features policy globals (args.take k ++ ["--"]) =
        ⟨.ok launch, (dispatch features policy globals args).progress⟩) ∧
    (∀ k group start, FailsAt features policy globals args fault k (.candidate group start) →
      ∃ before after launch p, group = before ++ after ∧ (Text.bytes before).length = start ∧
        dispatch features policy globals (args.take k ++ ["-W", before, "--"]) = ⟨.ok launch, p⟩ ∧
        p.globals = (dispatch features policy globals args).progress.globals ∧
        p.calls = (dispatch features policy globals args).progress.calls ∧
        p.notices.length = (dispatch features policy globals args).progress.notices.length) := by
  refine ⟨⟨fun h => ?_, ?_⟩, fun k h => h.dispatch_option, fun k group start h => ?_⟩
  · obtain ⟨k, site, hfails⟩ := exists_failsAt h
    refine ⟨k, site, ?_, hfails.lt_length, hfails⟩
    cases hfails
    exact Nat.succ_pos _
  · rintro ⟨k, site, -, -, hfails⟩
    exact hfails.outcome
  · obtain ⟨before, after, hgroup, hstart, launch, p, hdispatch, hsame⟩ := h.dispatch_candidate
    obtain ⟨hglobals, hcalls, hnotices⟩ := same_of_unquoted_eq hsame
    exact ⟨before, after, launch, p, hgroup, hstart, hdispatch, hglobals, hcalls, hnotices⟩

end Failing

/-- The second candidate of the group fails after the first has made a call. -/
theorem failing_random_contributes_nothing :
    FailsAt .plain .reject Globals.initial ["awk", "-f", "prog", "-W", "version,random", "x"]
      (.missingValue .random) 3 (.candidate "version,random" 8) ∧
    ∃ before after launch p, "version,random" = before ++ after ∧
      (Text.bytes before).length = 8 ∧
      dispatch .plain .reject Globals.initial ["awk", "-f", "prog", "-W", before, "--"] =
        ⟨.ok launch, p⟩ ∧
      p.globals = Globals.initial ∧ p.calls = [.version] ∧ p.notices.length = 0 := by
  have hround : ⟨8, ⟨[], .refused (.missingValue .random)⟩, 14⟩ ∈
      Group.rounds (ImplementationOption.table .plain) "version,random" := by decide +kernel
  have hfile : (Item.separate .programFile "prog").Through (ImplementationOption.table .plain)
      .reject := ⟨trivial, rfl⟩
  have hfails : FailsAt .plain .reject Globals.initial
      ["awk", "-f", "prog", "-W", "version,random", "x"] (.missingValue .random) 3
      (.candidate "version,random" 8) := by
    refine @FailsAt.intro _ _ _ _ "awk" [.separate .programFile "prog"]
      ["-W", "version,random", "x"] _ _ _ ?_ rfl ?_
    · simpa using hfile
    · exact @OptionFails.candidate _ _ _ _ (.separate .implementation "version,random") _ _ _ ["x"]
        trivial rfl hround rfl
  refine ⟨hfails, ?_⟩
  exact (failing_option_contributes_nothing .plain .reject Globals.initial _ _).2.2 _ _ _ hfails

end CommandLine
end AwkStartup
