import AwkStartup.Proofs.CommandLine.Resolution
import AwkStartup.Proofs.CommandLine.ScannedPieces

/-!
# Groups treated piece by piece

Processing a group applies it to what was done before it, and tells how the run goes on. A group is
read in rounds over byte offsets, and each of them goes beyond its offset, so the reading comes to an
end by itself. What is then applied is the treatment of the pieces of the group from left to right,
which knows neither offsets nor directives.
-/

namespace AwkStartup

namespace CommandLine

/-- What a group leaves a run with: nothing when it is gone through, and else the outcome. The tokens
from an index on follow the group. -/
def control (p : Progress) (index : Nat) (rest : List String) :
    Group.Ending → Option (Except StartupError Launch)
  | .through => none
  | .exec glued => some (runExec p glued index rest)
  | .usage => some (.ok .usage)
  | .refused fault => some (.error fault)

/-- A group that has been processed. -/
structure Processed where
  control : Option (Except StartupError Launch)
  progress : Progress

variable [Libraries]

/-- Applies a group to what was done before it. -/
def processGroup (keywords : Keywords) (p : Progress) (group : String) (index : Nat)
    (rest : List String) : Processed :=
  let q := (applyAll p (Group.read keywords group).directives).1
  ⟨control q index rest (Group.read keywords group).ending, q⟩

/-- How a run goes on that has come to a group: it ends with its outcome, or goes on with what
follows the group. -/
def Processed.resume (keywords : Keywords) (processed : Processed) (following : Reading) :
    Dispatched :=
  match processed.control with
  | none => following.runFrom keywords processed.progress
  | some outcome => ⟨outcome, processed.progress⟩

variable {keywords : Keywords} {policy : LongOptionPolicy}

theorem runFrom_group {item : Item} {group : String} (hfits : item.Fits policy)
    (hgroup : item.group? = some group) (p : Progress) (index : Nat) (rest : List String) :
    (readFrom keywords policy index (item.tokens ++ rest)).runFrom keywords p =
      (processGroup keywords p group (index + item.tokens.length) rest).resume keywords
        (readFrom keywords policy (index + item.tokens.length) rest) := by
  obtain ⟨q, hq, -⟩ := exists_applyAll_group keywords p group
  have hitem : applyAll p (item.directives keywords) = (q, none) := by
    rw [Item.directives_of_group? hgroup, hq]
  have hlast (ending : Ending) :
      (⟨[item], ending⟩ : Reading).runFrom keywords p = ⟨conclude q ending, q⟩ := by
    apply Reading.runFrom_of_ok
    rw [Reading.directives, List.flatMap_singleton, hitem]
  rw [readFrom_item hfits, Item.ending_of_group? hgroup, processGroup, hq]
  cases (Group.read keywords group).ending with
  | through => exact Reading.runFrom_after hitem _
  | exec glued => exact hlast _
  | usage => exact hlast _
  | refused fault => exact hlast _

end CommandLine

namespace Group

open CommandLine (Progress applyAll apply)

variable {table : List (Abbreviation.Keyword ImplementationOption)} {group : String}

section Rounds

theorem offset_of_act {rest : String} {stop offset : Nat} {code : Option ImplementationOption}
    {directives : List Directive} (h : act group rest stop code = .next directives offset) :
    offset = stop ∨ Abbreviation.skipValue? (Text.bytes group) stop = some offset := by
  have hnumeric {option : ImplementationOption} {directive : Int → Directive}
      (h : numeric group option stop directive = Step.next directives offset) :
      Abbreviation.skipValue? (Text.bytes group) stop = some offset := by
    unfold numeric at h
    split_ifs at h
    split at h
    · rename_i n next _ hnext
      rw [hnext, (Step.next.inj h).2]
    · cases h
  cases code with
  | none => exact Or.inl (Step.next.inj h).2.symm
  | some option =>
    cases option with
    | binmode | random | sprintf => exact Or.inr (hnumeric h)
    | help | usage | exec => cases h
    | version | dump | interactive | posixSpace => exact Or.inl (Step.next.inj h).2.symm

theorem exists_of_roundOf_through {p : Abbreviation.Parsed ImplementationOption}
    (h : (roundOf group p).reading.ending = .through) :
    ∃ rest directives offset remarks,
      act group rest p.stop p.resolution.code? = .next directives offset ∧
        surplus group rest offset = some (remarks, (roundOf group p).next) := by
  unfold roundOf at h ⊢
  split at h
  · cases h
  · rename_i rest hrest
    split at h
    · rename_i ending hact
      obtain rfl : ending = .through := h
      exact absurd hact (act_ne_stop_through _ _ _)
    · rename_i directives offset hact
      split at h
      · cases h
      · rename_i remarks next hsurplus
        exact ⟨rest, directives, offset, remarks, hact, hsurplus⟩

/-- A round that does not end the group goes beyond its offset, and not beyond the group. -/
theorem lt_next_of_round? {offset : Nat} {round : Round}
    (hround : round? table group offset = some round)
    (hthrough : round.reading.ending = .through) :
    offset < round.next ∧ round.next ≤ (Text.bytes group).length := by
  obtain ⟨p, hp, rfl⟩ := Option.map_eq_some_iff.mp hround
  have hfinds := Abbreviation.finds_of_parse? hp
  obtain ⟨valueEnd, hskip, -, hlt, hlength, -, -⟩ := hfinds.exists_skipValue?
  obtain ⟨rest, directives, next, remarks, hact, hsurplus⟩ := exists_of_roundOf_through hthrough
  have hle := hfinds.offset_le
  have hstop := hfinds.stop_le
  have hend := Abbreviation.ne_equals_of_skipValue? hskip
  have hnext : (roundOf group p).next = valueEnd ∨
      (roundOf group p).next = p.stop ∧ p.start < p.stop := by
    unfold surplus at hsurplus
    rcases offset_of_act hact with rfl | hvalue
    · split_ifs at hsurplus with hequals
      · rw [hskip, Option.map_some] at hsurplus
        exact Or.inl (Prod.mk.inj (Option.some.inj hsurplus)).2.symm
      · exact Or.inr ⟨(Prod.mk.inj (Option.some.inj hsurplus)).2.symm, hfinds.start_lt_stop hequals⟩
    · obtain rfl := Option.some.inj (hskip.symm.trans hvalue)
      rw [if_neg hend] at hsurplus
      exact Or.inl (Prod.mk.inj (Option.some.inj hsurplus)).2.symm
  rcases hnext with hnext | ⟨hnext, hcandidate⟩
  · omega
  · omega

/-- The loop over values that no option took: as long as an equals sign stands at its offset, it
makes a remark and skips the value. -/
inductive SkipsValues (group rest : String) : Nat → List Directive → Nat → Prop
  | done {offset} : (Text.bytes group)[offset]? ≠ some Abbreviation.equals →
      SkipsValues group rest offset [] offset
  | skip {offset next remarks last} : (Text.bytes group)[offset]? = some Abbreviation.equals →
      Abbreviation.skipValue? (Text.bytes group) offset = some next →
      SkipsValues group rest next remarks last →
      SkipsValues group rest offset (.notice (.unexpectedValue rest) :: remarks) last

/-- The loop has one round at most, because no value ends at an equals sign. -/
theorem skipsValues_iff {rest : String} {offset last : Nat} {remarks : List Directive} :
    SkipsValues group rest offset remarks last ↔
      surplus group rest offset = some (remarks, last) := by
  constructor
  · intro h
    cases h with
    | done hend => rw [surplus, if_neg hend]
    | skip hequals hskip hlater =>
      cases hlater with
      | done => rw [surplus, if_pos hequals, hskip, Option.map_some]
      | skip hagain => exact absurd hagain (Abbreviation.ne_equals_of_skipValue? hskip)
  · intro h
    unfold surplus at h
    split_ifs at h with hequals
    · obtain ⟨next, hskip, hnext⟩ := Option.map_eq_some_iff.mp h
      cases hnext
      exact .skip hequals hskip (.done (Abbreviation.ne_equals_of_skipValue? hskip))
    · cases h
      exact .done hequals

/-- The reading that the rounds from an offset on make. There is no bound on how many there are: they
end when no candidate is left or when a candidate ends the group. -/
inductive Unrolls (table : List (Abbreviation.Keyword ImplementationOption)) (group : String) :
    Nat → Reading → Prop
  | done {offset} : round? table group offset = none → Unrolls table group offset .empty
  | ends {offset round} : round? table group offset = some round →
      round.reading.ending ≠ .through → Unrolls table group offset round.reading
  | goesOn {offset round reading} : round? table group offset = some round →
      round.reading.ending = .through → Unrolls table group round.next reading →
      Unrolls table group offset (reading.after round.reading.directives)

/-- The bound on the rounds is never reached. -/
theorem unrolls_readFrom (fuel : Nat) {offset : Nat} (h : (Text.bytes group).length < offset + fuel) :
    Unrolls table group offset (readFrom table group fuel offset) := by
  induction fuel generalizing offset with
  | zero =>
    have hnone : round? table group offset = none := by
      rw [round?, Option.map_eq_none_iff, Abbreviation.parse?_eq_none_iff,
        List.drop_eq_nil_of_le (by omega)]
      exact List.forall_mem_nil _
    exact .done hnone
  | succ fuel ih =>
    rw [readFrom_succ]
    cases hround : round? table group offset with
    | none => exact .done hround
    | some round =>
      by_cases hthrough : round.reading.ending = .through
      · obtain ⟨hlt, -⟩ := lt_next_of_round? hround hthrough
        dsimp only
        rw [Reading.andThen_of_through hthrough]
        exact .goesOn hround hthrough (ih (by omega))
      · dsimp only
        rw [Reading.andThen_of_ne_through hthrough]
        exact .ends hround hthrough

end Rounds

/-- What treating pieces comes to: what has been done, and how the group goes on. -/
structure Treated where
  progress : Progress
  ending : Ending

/-- The piece is done with. A value that no option took is remarked on. -/
def leaveValue (piece : List Char) (quoted : String) (p : Progress) : Treated :=
  ⟨if (value? piece).isSome then p.remark (.unexpectedValue quoted) else p, .through⟩

def takeNumber (piece : List Char) (option : ImplementationOption) (p : Progress)
    (use : Int → Progress) : Treated :=
  match usable? piece with
  | some value => ⟨use (Leading.integer value), .through⟩
  | none => ⟨p, .refused (.missingValue option)⟩

/-- The text of a group from a piece on. -/
def textFrom (piece : List Char) (later : List (List Char)) : String :=
  String.ofList (join (piece :: later))

/-- Treats a piece whose candidate stands for an option, or for none. -/
def treatOption (p : Progress) (piece : List Char) (later : List (List Char)) :
    Option ImplementationOption → Treated
  | none => leaveValue piece (textFrom piece later) (p.remark (.vacuous (textFrom piece later)))
  | some .version => leaveValue piece (textFrom piece later) (p.call .version)
  | some .dump =>
    leaveValue piece (textFrom piece later) { p with flags := { p.flags with dumpCode := true } }
  | some .interactive =>
    leaveValue piece (textFrom piece later)
      ({ p with flags := { p.flags with interactive := true } }.call .interactive)
  | some .posixSpace =>
    leaveValue piece (textFrom piece later) { p with flags := { p.flags with posixSpace := true } }
  | some .random => takeNumber piece .random p fun n => p.call (.seed (.ofInt n))
  | some .sprintf =>
    takeNumber piece .sprintf p fun n => if n < 0 then p else p.call (.sprintf n.toNat)
  | some .binmode => takeNumber piece .binmode p fun n => p.call (.binmode (wrap32 n))
  | some .help | some .usage => ⟨p, .usage⟩
  | some .exec => ⟨p, .exec ((usable? piece).map fun value => textFrom value later)⟩

/-- Treats a piece that is not empty. An empty candidate is remarked on and stands for the
version. -/
def treat (features : Features) (p : Progress) (piece : List Char) (later : List (List Char)) :
    Treated :=
  if candidate piece = [] then
    treatOption (p.remark (.ambiguous "VERSION" (ImplementationOption.secondName features))) piece
      later (some .version)
  else treatOption p piece later (ImplementationOption.begun? features (candidate piece))

/-- Treats pieces from the left until one ends the group. Empty pieces are passed over. -/
def treatAll (features : Features) (p : Progress) : List (List Char) → Treated
  | [] => ⟨p, .through⟩
  | piece :: later =>
    if piece = [] then treatAll features p later
    else
      let treated := treat features p piece later
      if treated.ending = .through then treatAll features treated.progress later else treated

/-- The option that a piece names. The empty candidate names the version. -/
def option? (features : Features) (piece : List Char) : Option ImplementationOption :=
  ImplementationOption.begun? features (candidate piece)

/-- Whether a group goes on behind a piece. The options that need a number end it when they have
none. -/
def goesOn (features : Features) (piece : List Char) : Bool :=
  match option? features piece with
  | some .help | some .usage | some .exec => false
  | some .random | some .sprintf | some .binmode => (usable? piece).isSome
  | _ => true

/-- What is said of the value of a piece that no option took. -/
def valueMessages (piece : List Char) (later : List (List Char)) : List String :=
  if (value? piece).isSome then ["unexpected option value " ++ textFrom piece later] else []

/-- What is said of a piece whose candidate stands for an option, or for none. -/
def optionMessages (piece : List Char) (later : List (List Char)) :
    Option ImplementationOption → List String
  | none => ("vacuous option: -W " ++ textFrom piece later) :: valueMessages piece later
  | some .version | some .dump | some .interactive | some .posixSpace => valueMessages piece later
  | some .random | some .sprintf | some .binmode | some .help | some .usage | some .exec => []

/-- What is said of a piece that is not empty. An empty candidate is remarked on first. -/
def pieceMessages (features : Features) (piece : List Char) (later : List (List Char)) :
    List String :=
  if candidate piece = [] then
    ("? ambiguous -W value: VERSION vs " ++ ImplementationOption.secondName features) ::
      optionMessages piece later (option? features piece)
  else optionMessages piece later (option? features piece)

/-- What is said of the pieces of a group, up to one that ends it. -/
def groupMessages (features : Features) : List (List Char) → List String
  | [] => []
  | piece :: later =>
    if piece = [] then groupMessages features later
    else
      pieceMessages features piece later ++
        if goesOn features piece then groupMessages features later else []

section Messages

variable {features : Features} {p : Progress} {piece : List Char} {later : List (List Char)}

theorem treat_eq (features : Features) (p : Progress) (piece : List Char)
    (later : List (List Char)) :
    treat features p piece later =
      treatOption
        (if candidate piece = [] then
          p.remark (.ambiguous "VERSION" (ImplementationOption.secondName features))
        else p) piece later (option? features piece) := by
  unfold treat option?
  split_ifs with hempty
  · rw [hempty]
    rfl
  · rfl

theorem treat_ending_iff (features : Features) (p : Progress) (piece : List Char)
    (later : List (List Char)) :
    (treat features p piece later).ending = .through ↔ goesOn features piece = true := by
  rw [treat_eq, goesOn]
  cases option? features piece with
  | none => simp [treatOption, leaveValue]
  | some option =>
    cases option with
    | version | dump | interactive | posixSpace => simp [treatOption, leaveValue]
    | random | sprintf | binmode =>
      cases hvalue : usable? piece with
      | none => simp [treatOption, takeNumber, hvalue]
      | some value => simp [treatOption, takeNumber, hvalue]
    | help | usage | exec => simp [treatOption]

theorem messages_leaveValue (p : Progress) :
    (leaveValue piece (textFrom piece later) p).progress.messages =
      p.messages ++ valueMessages piece later := by
  unfold leaveValue valueMessages
  split_ifs
  · exact p.messages_remark _
  · exact (List.append_nil _).symm

theorem messages_takeNumber {option : ImplementationOption} {use : Int → Progress}
    (h : ∀ n, (use n).messages = p.messages) :
    (takeNumber piece option p use).progress.messages = p.messages := by
  unfold takeNumber
  cases usable? piece with
  | none => rfl
  | some value => exact h _

theorem messages_treatOption (p : Progress) (piece : List Char) (later : List (List Char))
    (code : Option ImplementationOption) :
    (treatOption p piece later code).progress.messages =
      p.messages ++ optionMessages piece later code := by
  cases code with
  | none =>
    rw [treatOption, messages_leaveValue, Progress.messages_remark, List.append_assoc]
    rfl
  | some option =>
    cases option with
    | version => rw [treatOption, messages_leaveValue, Progress.messages_call, optionMessages]
    | dump | posixSpace => exact messages_leaveValue _
    | interactive =>
      rw [treatOption, messages_leaveValue, Progress.messages_call]
      rfl
    | random | binmode =>
      rw [optionMessages, List.append_nil]
      exact messages_takeNumber fun n => p.messages_call _
    | sprintf =>
      rw [optionMessages, List.append_nil]
      apply messages_takeNumber
      intro n
      split_ifs
      · rfl
      · exact p.messages_call _
    | help | usage | exec => exact (List.append_nil _).symm

theorem messages_treat (features : Features) (p : Progress) (piece : List Char)
    (later : List (List Char)) :
    (treat features p piece later).progress.messages =
      p.messages ++ pieceMessages features piece later := by
  rw [treat_eq, messages_treatOption, pieceMessages]
  split_ifs
  · rw [Progress.messages_remark, List.append_assoc]
    rfl
  · rfl

theorem messages_treatAll (features : Features) (p : Progress) (pieces : List (List Char)) :
    (treatAll features p pieces).progress.messages =
      p.messages ++ groupMessages features pieces := by
  induction pieces generalizing p with
  | nil => exact (List.append_nil _).symm
  | cons piece later ih =>
    rw [treatAll, groupMessages]
    by_cases hempty : piece = []
    · rw [if_pos hempty, if_pos hempty, ih]
    · rw [if_neg hempty, if_neg hempty]
      dsimp only
      rw [← List.append_assoc, ← messages_treat]
      by_cases hgoes : goesOn features piece = true
      · rw [if_pos ((treat_ending_iff features p piece later).mpr hgoes), if_pos hgoes, ih]
      · rw [if_neg (mt (treat_ending_iff features p piece later).mp hgoes), if_neg hgoes,
          List.append_nil]

end Messages

variable [Libraries]

/-- Applying a reading to what was done before it is a treatment. -/
structure Reading.Treats (reading : Reading) (p : Progress) (treated : Treated) : Prop where
  applied : applyAll p reading.directives = (treated.progress, none)
  ending : reading.ending = treated.ending

section Treatment

variable {p : Progress} {piece : List Char} {later : List (List Char)}

theorem treats_surplusOf {q : Progress} {d : Directive} (h : apply p d = .ok q) :
    (⟨d :: surplusOf piece later, .through⟩ : Reading).Treats p
      (leaveValue piece (textFrom piece later) q) := by
  refine ⟨?_, rfl⟩
  rw [CommandLine.applyAll_cons_ok h]
  unfold surplusOf leaveValue
  split_ifs
  · rfl
  · rfl

theorem treats_numericPiece {option : ImplementationOption} {directive : Int → Directive}
    {use : Int → Progress} (h : ∀ n, apply p (directive n) = .ok (use n)) :
    (numericPiece piece option directive).Treats p (takeNumber piece option p use) := by
  unfold numericPiece takeNumber
  cases usable? piece with
  | none => exact ⟨rfl, rfl⟩
  | some value => exact ⟨CommandLine.applyAll_cons_ok (h _) [], rfl⟩

theorem treats_optionPiece (p : Progress) (piece : List Char) (later : List (List Char))
    (code : Option ImplementationOption) :
    (optionPiece piece later code).Treats p (treatOption p piece later code) := by
  cases code with
  | none => exact treats_surplusOf rfl
  | some option =>
    cases option with
    | version | dump | interactive | posixSpace => exact treats_surplusOf rfl
    | random | sprintf | binmode =>
      rw [optionPiece, treatOption]
      apply treats_numericPiece
      intro n
      rfl
    | help | usage | exec => exact ⟨rfl, rfl⟩

theorem treats_readPiece (features : Features) (p : Progress) (piece : List Char)
    (later : List (List Char)) :
    (readPiece (ImplementationOption.table features) piece later).Treats p
      (treat features p piece later) := by
  unfold readPiece treat
  split_ifs with hempty
  · rw [hempty, Text.encode_nil, ImplementationOption.resolve_nil]
    obtain ⟨happlied, hending⟩ := treats_optionPiece
      (p.remark (.ambiguous "VERSION" (ImplementationOption.secondName features))) piece later
      (some .version)
    exact ⟨happlied, hending⟩
  · rw [ImplementationOption.resolve_of_ne_nil features hempty]
    obtain ⟨happlied, hending⟩ := treats_optionPiece p piece later
      (ImplementationOption.begun? features (candidate piece))
    cases hcode : ImplementationOption.begun? features (candidate piece) with
    | none =>
      rw [hcode] at happlied hending
      exact ⟨happlied, hending⟩
    | some option =>
      rw [hcode] at happlied hending
      exact ⟨happlied, hending⟩

theorem treats_readPieces (features : Features) (p : Progress) (pieces : List (List Char)) :
    (readPieces (ImplementationOption.table features) pieces).Treats p
      (treatAll features p pieces) := by
  induction pieces generalizing p with
  | nil => exact ⟨rfl, rfl⟩
  | cons piece later ih =>
    rw [readPieces, treatAll]
    by_cases hempty : piece = []
    · rw [if_pos hempty, if_pos hempty]
      exact ih p
    · rw [if_neg hempty, if_neg hempty]
      obtain ⟨happlied, hending⟩ := treats_readPiece features p piece later
      dsimp only
      by_cases hthrough : (treat features p piece later).ending = .through
      · rw [if_pos hthrough, Reading.andThen_of_through (hending.trans hthrough)]
        obtain ⟨hlater, hlast⟩ := ih (treat features p piece later).progress
        refine ⟨?_, hlast⟩
        rw [Reading.after, CommandLine.applyAll_append_of_ok happlied, hlater]
      · rw [if_neg hthrough, Reading.andThen_of_ne_through fun h => hthrough (hending ▸ h)]
        exact ⟨happlied, hending⟩

end Treatment

def Treated.processed (treated : Treated) (index : Nat) (rest : List String) :
    CommandLine.Processed :=
  ⟨CommandLine.control treated.progress index rest treated.ending, treated.progress⟩

/-- A group is the treatment of its pieces from left to right. Its rounds come to an end by
themselves, because each of them goes beyond its offset, and whatever was done before, processing the
group does what treating the pieces does. A run that comes to the group goes on or ends as that
says. -/
theorem group_is_treated_piece_by_piece (features : Features) (group : String) :
    Unrolls (ImplementationOption.table features) group 0
        (read (ImplementationOption.table features) group) ∧
      (∀ offset round, round? (ImplementationOption.table features) group offset = some round →
        round.reading.ending = .through →
        offset < round.next ∧ round.next ≤ (Text.bytes group).length) ∧
      (∀ rest offset remarks last, SkipsValues group rest offset remarks last ↔
        surplus group rest offset = some (remarks, last)) ∧
      (∀ (p : Progress) (index : Nat) (rest : List String),
        CommandLine.processGroup (ImplementationOption.table features) p group index rest =
          (treatAll features p (pieces group)).processed index rest) ∧
      (∀ (p : Progress) (index : Nat) (rest : List String),
        (CommandLine.processGroup (ImplementationOption.table features) p group index
            rest).progress.messages =
          p.messages ++ groupMessages features (pieces group)) ∧
      ∀ (policy : LongOptionPolicy) (p : Progress) (index : Nat) (rest : List String),
        (CommandLine.readFrom (ImplementationOption.table features) policy index
            ("-W" :: group :: rest)).runFrom (ImplementationOption.table features) p =
          ((treatAll features p (pieces group)).processed (index + 2) rest).resume
            (ImplementationOption.table features)
            (CommandLine.readFrom (ImplementationOption.table features) policy (index + 2) rest) := by
  have hprocess (p : Progress) (index : Nat) (rest : List String) :
      CommandLine.processGroup (ImplementationOption.table features) p group index rest =
        (treatAll features p (pieces group)).processed index rest := by
    obtain ⟨happlied, hending⟩ := treats_readPieces features p (pieces group)
    rw [← read_eq_readPieces] at happlied hending
    rw [CommandLine.processGroup, happlied, hending]
    rfl
  refine ⟨unrolls_readFrom _ (by omega), fun offset round => lt_next_of_round?,
    fun rest offset remarks last => skipsValues_iff, hprocess, ?_, ?_⟩
  · intro p index rest
    rw [hprocess]
    exact messages_treatAll features p (pieces group)
  · intro policy p index rest
    have hfits : (CommandLine.Item.separate .implementation group).Fits policy := trivial
    rw [← hprocess]
    exact CommandLine.runFrom_group hfits rfl p index rest

-- An empty candidate, a negative size, no keyword, a value that is not taken, and the end by usage.
example :
    (treatAll .plain (.start Globals.initial)
      (pieces "=é,,sp=-4,no=,d=1,usage,v")).progress.effects =
      [.remark (.ambiguous "VERSION" "DUMP"), .call .version,
        .remark (.unexpectedValue "=é,,sp=-4,no=,d=1,usage,v"),
        .remark (.vacuous "no=,d=1,usage,v"), .remark (.unexpectedValue "no=,d=1,usage,v"),
        .remark (.unexpectedValue "d=1,usage,v")] := by
  decide

end Group
end AwkStartup
