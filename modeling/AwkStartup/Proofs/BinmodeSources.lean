import AwkStartup.Proofs.BrokenConfiguration
import AwkStartup.Proofs.CommandLine.AppliedOptions
import AwkStartup.Proofs.CommandLine.GroupTreatment
import AwkStartup.Proofs.CommandLine.Shifting
import AwkStartup.Proofs.Number.LeadingParts
import AwkStartup.Proofs.Toml.SpelledIntegers
import AwkStartup.StandardLibraries
import Mathlib.Tactic

/-!
# Where the mode comes from

The mode can be set in the environment, on the command line and in the configuration file. The first
two keep an integer within 64 bits and take its low 32 bits. The configuration file refuses what
32 bits do not hold. So all three agree on the integers of 32 bits, and on no others.
-/

namespace AwkStartup

open Subscript (Spells InRange)

variable {s : List Char} {n : Int}

/-- The integers of 32 bits. -/
def IsMode (n : Int) : Prop :=
  -2 ^ 31 ≤ n ∧ n < 2 ^ 31

instance (n : Int) : Decidable (IsMode n) :=
  inferInstanceAs (Decidable (_ ∧ _))

/-- The low 32 bits, as a signed integer, of an integer that is kept within 64 bits on both sides of
zero alike. -/
def lowBits (n : Int) : Int :=
  (BitVec.ofInt 32 (max (-(2 ^ 63 - 1)) (min n (2 ^ 63 - 1)))).toInt

section LowBits

theorem lowBits_of_isMode (h : IsMode n) : lowBits n = n := by
  obtain ⟨hleast, hmost⟩ := h
  have hkept : max (-(2 ^ 63 - 1)) (min n (2 ^ 63 - 1)) = n := by omega
  rw [lowBits, hkept, BitVec.toInt_ofInt_eq_self (by decide) hleast hmost]

theorem wrap32_saturated (s : List Char) :
    wrap32 (Leading.saturated s) = lowBits (Leading.decimal s) := by
  rw [lowBits, BitVec.toInt_ofInt]
  rfl

end LowBits

section Decimal

theorem Leading.denotes_of_spells (h : Spells s n) : Leading.Denotes s n := by
  have hblanks : Text.IsBlankText [] := List.forall_mem_nil _
  cases h with
  | natural hdigits =>
    rw [← hdigits.ofDigitChars_eq]
    exact .unsigned hblanks hdigits.isDigit
  | negative hdigits _ =>
    rw [← hdigits.ofDigitChars_eq]
    exact .minus hblanks hdigits.isDigit

theorem wrap32_integer (h : Spells s n) : wrap32 (Leading.integer s) = lowBits n := by
  rw [Leading.integer_eq_saturated, wrap32_saturated, (Leading.denotes_of_spells h).decimal_eq]

end Decimal

namespace Group

open CommandLine (Progress applyAll)

def binmode (n : Int) : String :=
  "binmode=" ++ toString n

theorem usable?_of_spells (h : Spells s n) : usable? ("binmode=".toList ++ s) = some s := by
  have hvalue : value? ("binmode=".toList ++ s) = some s := rfl
  have hfirst : isUsable s = true := by
    rw [isUsable, Bool.and_eq_true, bne_iff_ne, bne_iff_ne]
    constructor
    · obtain ⟨c, t, rfl, -, -⟩ := h.exists_cons
      exact List.cons_ne_nil c t
    · intro hequals
      exact h.notMem (by decide) (List.mem_of_head? hequals)
  rw [usable?, hvalue, Option.filter_some_pos hfirst]

theorem treatAll_binmode (p : Progress) (n : Int) :
    treatAll .full p (pieces (binmode n)) = ⟨p.call (.binmode (lowBits n)), .through⟩ := by
  obtain ⟨s, hs⟩ := Subscript.exists_spells n
  have htext : (binmode n).toList = "binmode=".toList ++ s := by
    rw [binmode, hs.toString_eq]
    simp
  have hcomma : ',' ∉ "binmode=".toList ++ s := by
    rw [List.mem_append, not_or]
    exact ⟨by decide, hs.notMem (by decide)⟩
  have hcandidate : candidate ("binmode=".toList ++ s) = "binmode".toList := rfl
  have hbegun : ImplementationOption.begun? .full "binmode".toList = some .binmode := by decide
  have htreat : treat .full p ("binmode=".toList ++ s) [] =
      ⟨p.call (.binmode (lowBits n)), .through⟩ := by
    rw [treat, hcandidate, if_neg (by decide), hbegun, treatOption, takeNumber,
      usable?_of_spells hs, ← wrap32_integer hs]
  rw [pieces, htext, List.splitOn_eq_singleton hcomma, treatAll, if_neg (by simp), htreat]
  rfl

theorem applyAll_binmode [Libraries] (p : Progress) (n : Int) :
    applyAll p (read (ImplementationOption.table .full) (binmode n)).directives =
      (p.call (.binmode (lowBits n)), none) := by
  obtain ⟨happlied, -⟩ := treats_readPieces .full p (pieces (binmode n))
  rwa [← read_eq_readPieces, treatAll_binmode] at happlied

end Group

namespace CommandLine

variable {features : Features} {policy : LongOptionPolicy} {globals : Globals} {p q : Progress}

variable [Libraries]

/-- What has been called for when an option is applied is called for whatever follows. -/
theorem calls_isPrefix_dispatch {items : List Item}
    (hthrough : ∀ item ∈ items, item.Through (ImplementationOption.table features) policy)
    {item : Item} (hfits : item.Fits policy)
    (hitems : applyAll (Progress.start globals)
      (items.flatMap (Item.directives (ImplementationOption.table features))) = (p, none))
    (hitem : applyAll p (item.directives (ImplementationOption.table features)) = (q, none))
    (name : String) (tail : List String) :
    q.calls <+: (dispatch features policy globals
      (name :: (spelled items ++ (item.tokens ++ tail)))).progress.calls := by
  obtain ⟨later, ending, hread⟩ := exists_items_readFrom (ImplementationOption.table features) hfits
    (1 + (spelled items).length) tail
  have hdirectives :
      (read (ImplementationOption.table features) policy
        (spelled items ++ (item.tokens ++ tail))).directives (ImplementationOption.table features) =
        items.flatMap (Item.directives (ImplementationOption.table features)) ++
          (item.directives (ImplementationOption.table features) ++
            later.flatMap (Item.directives (ImplementationOption.table features))) := by
    rw [directives_read_spelled hthrough, hread]
    rfl
  rw [(dispatch_eq_applyAll features policy globals _).1, List.tail_cons, hdirectives,
    applyAll_append_of_ok hitems, applyAll_append_of_ok hitem]
  exact calls_isPrefix_applyAll q _

theorem IsConsumed.exists_applied {pre : List String}
    (hpre : IsConsumed (ImplementationOption.table features) policy pre) {name : String}
    (hok : ∀ fault, (dispatch features policy globals (name :: pre)).outcome ≠ .error fault) :
    ∃ items, pre = spelled items ∧
      (∀ item ∈ items, item.Through (ImplementationOption.table features) policy) ∧
      applyAll (Progress.start globals)
          (items.flatMap (Item.directives (ImplementationOption.table features))) =
        ((dispatch features policy globals (name :: pre)).progress, none) := by
  obtain ⟨items, rfl, hthrough⟩ := hpre.exists_items
  obtain ⟨hprogress, hfails⟩ :=
    dispatch_eq_applyAll features policy globals (name :: spelled items)
  have hdirectives :
      (read (ImplementationOption.table features) policy (spelled items)).directives
          (ImplementationOption.table features) =
        items.flatMap (Item.directives (ImplementationOption.table features)) := by
    have hread := directives_read_spelled hthrough []
    rw [List.append_nil] at hread
    rw [hread]
    exact List.append_nil _
  rw [List.tail_cons, hdirectives] at hprogress hfails
  refine ⟨items, rfl, hthrough, ?_⟩
  cases happly : applyAll (Progress.start globals)
      (items.flatMap (Item.directives (ImplementationOption.table features))) with
  | mk q failed =>
    rw [happly] at hprogress hfails
    cases failed with
    | none => rw [hprogress]
    | some fault => exact absurd (hfails fault rfl) (hok fault)

end CommandLine

namespace Config

variable {features : Features} {files : Files} {process env : Environment} {text : String}
  {document : Toml.Value}

theorem load_of_document [Libraries] (hcontains : files.contains (path process env) = true)
    (hread : files.readText (path process env) = .ok text)
    (hdocument : Libraries.readDocument text = .ok document) :
    load features files process env =
      .ok (applyEnvironment features env
        (ofDocument features (directoryOf process env) document)) := by
  have hfile : ofFile features files (directoryOf process env) =
      .ok (ofDocument features (directoryOf process env) document) := by
    change files.contains (default (directoryOf process env)).file = true at hcontains
    change files.readText (default (directoryOf process env)).file = .ok text at hread
    unfold ofFile
    dsimp only
    rw [if_pos hcontains, hread]
    dsimp only
    rw [hdocument]
  rw [load, hfile]
  rfl

theorem binmode_applyEnvironment_of_notMem
    (h : "MAWKBINMODE" ∉ Environment.namesIn env.entries) (config : Config) :
    (applyEnvironment features env config).binmode = config.binmode := by
  have hvar : env.var? "MAWKBINMODE" = none := Environment.valueIn?_of_notMem h
  rw [applyEnvironment, hvar]
  exact ite_self _

theorem binmode_ofDocument {n : Int}
    (h : ((document.get? "options").bind fun options => options.get? "binmode") =
      some (.integer n)) (directory : String) :
    (ofDocument .full directory document).binmode = if IsMode n then some n else none := by
  unfold ofDocument
  dsimp only
  rw [h]
  rfl

end Config

namespace Surroundings

/-- The configuration file is there, and its text is a document. -/
structure HasDocument [Libraries] (s : Surroundings) (document : Toml.Value) : Prop where
  contains : s.files.contains s.configPath = true
  reads : ∃ text, s.files.readText s.configPath = .ok text ∧
    Libraries.readDocument text = .ok document

theorem binmode_of_document [Libraries] {s : Surroundings} {document : Toml.Value}
    (hunset : "MAWKBINMODE" ∉ Environment.namesIn s.entries) (h : s.HasDocument document)
    (hmode : ((document.get? "options").bind fun options => options.get? "binmode") =
      some (.integer n)) :
    (s.config .full).1.binmode = if IsMode n then some n else none := by
  obtain ⟨text, hread, hdocument⟩ := h.reads
  rw [← s.entries_environment] at hunset
  rw [config, Config.load_of_document h.contains hread hdocument]
  dsimp only
  rw [Config.binmode_applyEnvironment_of_notMem hunset, Config.binmode_ofDocument hmode]

end Surroundings

def Event.mode? : Event → Option Int
  | .call (.binmode mode) => some mode
  | _ => none

namespace Startup

section Modes

variable [Libraries] {σ : Type} {args : List String} {env : Environment} {config : Config}

def modes (c : Collaborator σ) (state : σ) (args : List String) (env : Environment)
    (config : Config) : List Int :=
  (run .full c.recorded args env config (state, [])).state.2.filterMap Event.mode?

theorem modes_eq (c : Collaborator σ) (state : σ) :
    modes c state args env config =
      ((calls .full args config).map Event.call).filterMap Event.mode? := by
  have hscans (sources : List ProgramSource) :
      (sources.map Event.scan).filterMap Event.mode? = [] := by
    rw [List.filterMap_eq_nil_iff]
    intro event hevent
    obtain ⟨source, -, rfl⟩ := List.mem_map.mp hevent
    rfl
  rw [modes, run_recorded, List.nil_append, List.filterMap_append, hscans, List.append_nil]

/-- A mode on the command line is called for after the modes of the options before it. -/
theorem exists_modes_eq {pre : List String}
    (hpre : CommandLine.IsConsumed (ImplementationOption.table .full) config.longOptions pre)
    {name : String} (hok : ∀ fault, (dispatched .full (name :: pre) config).outcome ≠ .error fault)
    {item : CommandLine.Item} (hfits : item.Fits config.longOptions)
    (hgroup : item.group? = some (Group.binmode n)) (tail : List String) (c : Collaborator σ)
    (state : σ) :
    ∃ more, modes c state (name :: (pre ++ (item.tokens ++ tail))) env config =
      modes c state (name :: pre) env config ++ lowBits n :: more := by
  obtain ⟨items, rfl, hthrough, hitems⟩ := hpre.exists_applied hok
  have hitem := Group.applyAll_binmode
    (dispatched .full (name :: CommandLine.spelled items) config).progress n
  rw [← CommandLine.Item.directives_of_group? hgroup] at hitem
  obtain ⟨more, hmore⟩ :=
    CommandLine.calls_isPrefix_dispatch hthrough hfits hitems hitem name tail
  rw [CommandLine.Progress.calls_call, List.append_assoc] at hmore
  have hcalls : calls .full (name :: (CommandLine.spelled items ++ (item.tokens ++ tail))) config =
      calls .full (name :: CommandLine.spelled items) config ++ .binmode (lowBits n) :: more := by
    rw [calls, calls, List.append_assoc]
    exact congrArg (_ ++ ·) hmore.symm
  refine ⟨(more.map Event.call).filterMap Event.mode?, ?_⟩
  rw [modes_eq, modes_eq, hcalls, List.map_append, List.filterMap_append]
  rfl

/-- The three ways to set the mode. Set to an integer in the environment, the mode is the low 32 bits
of that integer within 64 bits, and so is what the option calls for, after whatever options and before
whatever follows. A configuration file sets the mode to the integer itself when 32 bits hold it, and
does not set it when they do not. So the first two always agree, and all three exactly on the integers
of 32 bits. -/
theorem binmode_sources_agree (n : Int) :
    (∀ s : Surroundings, Environment.FirstEntry s.entries "MAWKBINMODE" (toString n) →
        (s.config .full).1.binmode = some (lowBits n)) ∧
      (∀ {σ : Type} (c : Collaborator σ) (state : σ) (env : Environment) (config : Config)
          (name : String) (pre tokens tail : List String),
        CommandLine.IsConsumed (ImplementationOption.table .full) config.longOptions pre →
        (∀ fault, (dispatched .full (name :: pre) config).outcome ≠ .error fault) →
        tokens = ["-Wbinmode=" ++ toString n] ∨ tokens = ["-W", "binmode=" ++ toString n] →
        ∃ more, modes c state (name :: (pre ++ (tokens ++ tail))) env config =
          modes c state (name :: pre) env config ++ lowBits n :: more) ∧
      (∀ (s : Surroundings) (document : Toml.Value),
        "MAWKBINMODE" ∉ Environment.namesIn s.entries → s.HasDocument document →
        ((document.get? "options").bind fun options => options.get? "binmode") =
          some (.integer n) →
        (s.config .full).1.binmode = if IsMode n then some n else none) ∧
      (InRange n →
        ∃ document, Toml.read? ("[options]\nbinmode = " ++ toString n ++ "\n") = some document ∧
          ((document.get? "options").bind fun options => options.get? "binmode") =
            some (.integer n)) ∧
      (some (lowBits n) = (if IsMode n then some n else none) ↔ IsMode n) := by
  refine ⟨?_, ?_, ?_, ?_, ?_⟩
  · intro s hentry
    rw [← s.entries_environment] at hentry
    obtain ⟨config, hconfig⟩ := s.exists_config_eq .full
    rw [hconfig, Config.binmode_applyEnvironment rfl hentry,
      wrap32_integer (Subscript.spells_toList_iff.mpr rfl)]
  · intro σ c state env config name pre tokens tail hpre hok htokens
    rcases htokens with rfl | rfl
    · have hfits :
          (CommandLine.Item.glued .implementation (Group.binmode n)).Fits config.longOptions := by
        intro hempty
        have htext := congrArg String.toList hempty
        rw [Group.binmode, String.toList_append] at htext
        cases htext
      have htokens : (CommandLine.Item.glued .implementation (Group.binmode n)).tokens =
          ["-Wbinmode=" ++ toString n] := by
        rw [CommandLine.Item.tokens, Switch.gluedToken, Group.binmode, String.toList_append,
          ← String.ofList_toList (s := "-Wbinmode=" ++ toString n), String.toList_append]
        rfl
      rw [← htokens]
      exact exists_modes_eq hpre hok hfits rfl tail c state
    · have hfits :
          (CommandLine.Item.separate .implementation (Group.binmode n)).Fits config.longOptions :=
        trivial
      exact exists_modes_eq hpre hok hfits rfl tail c state
  · intro s document hunset hdocument hmode
    exact s.binmode_of_document hunset hdocument hmode
  · intro hrange
    exact ⟨_, Toml.read?_binmode hrange, rfl⟩
  · split_ifs with hmode
    · simp [lowBits_of_isMode hmode, hmode]
    · simp [hmode]

end Modes

def leastModeSurroundings (entries : List String) : Surroundings :=
  { args := ["rawk"]
    entries := "RAWK_CONFIG_DIR=cfg" :: entries
    files := Files.ofPaths ["w"]
      [("cfg/config.toml",
        .file (Text.bytes "[options]\nbinmode = -9223372036854775808\n"))]
    input := []
    fullOutput := false
    fullError := false }

/-- The least integer of 64 bits makes the mode one, and the configuration file does not set it. -/
theorem binmode_sources_agree_least :
    ((leastModeSurroundings ["MAWKBINMODE=-9223372036854775808"]).config .full).1.binmode =
        some 1 ∧
      (∃ more, modes (Event.recorder none) []
        ["rawk", "-vx=1", "-Wbinmode=-9223372036854775808", "-Wr=,v"] ⟨"rawk", []⟩
          (Config.default "") = 1 :: more) ∧
      ((leastModeSurroundings []).config .full).1.binmode = none := by
  obtain ⟨henvironment, hoption, hfile, htext, -⟩ := binmode_sources_agree (-2 ^ 63)
  have hlow : lowBits (-2 ^ 63) = 1 := by decide
  refine ⟨?_, ?_, ?_⟩
  · rw [henvironment _ ⟨["RAWK_CONFIG_DIR=cfg"], [], rfl, by decide⟩, hlow]
  · have hpre : CommandLine.IsConsumed (ImplementationOption.table .full)
        (Config.default "").longOptions ["-vx=1"] := rfl
    have hok : (dispatched .full ["rawk", "-vx=1"] (Config.default "")).outcome =
        .ok .noProgram := rfl
    obtain ⟨more, hmore⟩ := hoption (Event.recorder none) [] ⟨"rawk", []⟩ (Config.default "") "rawk"
      ["-vx=1"] _ ["-Wr=,v"] hpre (by simp [hok]) (Or.inl rfl)
    rw [hlow] at hmore
    exact ⟨more, hmore⟩
  · obtain ⟨document, hread, hmode⟩ := htext (by decide)
    have hdocument : (leastModeSurroundings []).HasDocument document :=
      ⟨by decide, _, by decide +kernel, Libraries.readDocument_of_some hread⟩
    exact hfile _ document (by decide) hdocument hmode

-- The limits of 32 bits and of 64 bits, and one beyond them.
example :
    [-2 ^ 63, -2 ^ 31 - 1, -2 ^ 31, 2 ^ 31 - 1, 2 ^ 31, 2 ^ 32, 2 ^ 63 - 1].map lowBits =
      [1, 2 ^ 31 - 1, -2 ^ 31, 2 ^ 31 - 1, -2 ^ 31, 0, -1] := by
  decide

end Startup
end AwkStartup
