import AwkStartup.Proofs.CommandLine.Faults
import AwkStartup.StandardLibraries

/-!
# Accesses to texts

Options are read by byte offsets into tokens and groups. Every offset is a boundary of its text: the
start, a comma, an equals sign, the byte behind an equals sign, or the end. So no byte is looked for
beyond the end, no cut falls inside a character, and the fault of a failed cut never comes up.
-/

namespace AwkStartup

/-- An operation on a text that not every offset or text has an answer for. -/
inductive Access where
  | byte (text : String) (offset : Nat)
  | slice (text : String) (start stop : Nat)
  | cut (text : String) (offset : Nat)
  | skip (text : String) (offset : Nat)
  | integer (text : String)
  deriving DecidableEq, Repr

/-- Whether an access has an answer. Bytes lie in their text, a cut falls between two characters, a
value is skipped from an offset up to the end, and an integer is one of 64 bits. -/
def Access.IsSafe : Access → Prop
  | byte text offset => offset < (Text.bytes text).length
  | slice text start stop => start ≤ stop ∧ stop ≤ (Text.bytes text).length
  | cut text offset => Text.IsBoundary text offset
  | skip text offset => offset ≤ (Text.bytes text).length
  | integer text =>
    ∃ n, Leading.integer? text = some n ∧ -Leading.limit ≤ n ∧ n ≤ Leading.limit

theorem Access.isSafe_cut_iff (text : String) (offset : Nat) :
    (cut text offset).IsSafe ↔ (Text.from? text offset).isSome = true :=
  (Text.isSome_from?_iff text offset).symm

theorem Access.isSafe_skip_iff (text : String) (offset : Nat) :
    (skip text offset).IsSafe ↔
      (Abbreviation.skipValue? (Text.bytes text) offset).isSome = true := by
  unfold Abbreviation.skipValue? Access.IsSafe
  split_ifs with hbeyond
  · simp [hbeyond]
  · simp [Nat.le_of_not_lt hbeyond]

namespace Group

variable {table : List (Abbreviation.Keyword ImplementationOption)} {group : String}

/-- The offsets where rounds of a group start. -/
inductive Reaches (table : List (Abbreviation.Keyword ImplementationOption)) (group : String) :
    Nat → Prop
  | start : Reaches table group 0
  | next {offset round} : Reaches table group offset → round? table group offset = some round →
      round.reading.ending = .through → Reaches table group round.next

def Parses (table : List (Abbreviation.Keyword ImplementationOption)) (group : String)
    (p : Abbreviation.Parsed ImplementationOption) : Prop :=
  ∃ offset, Reaches table group offset ∧
    Abbreviation.parse? table (Text.bytes group) offset = some p

/-- The accesses of reading a group: the bytes of a candidate and the rest from it on, a usable
value with its number and its end, and the end of a value that no option took. -/
inductive Accesses (table : List (Abbreviation.Keyword ImplementationOption)) (group : String) :
    Access → Prop
  | candidate {p} : Parses table group p → Accesses table group (.slice group p.start p.stop)
  | rest {p} : Parses table group p → Accesses table group (.cut group p.start)
  | value {p} : Parses table group p → Abbreviation.hasValue (Text.bytes group) p.stop = true →
      Accesses table group (.cut group (p.stop + 1))
  | integer {p value} : Parses table group p →
      Abbreviation.hasValue (Text.bytes group) p.stop = true →
      Text.from? group (p.stop + 1) = some value → Accesses table group (.integer value)
  | valueEnd {p} : Parses table group p →
      Abbreviation.hasValue (Text.bytes group) p.stop = true →
      Accesses table group (.skip group p.stop)
  | surplus {p rest directives offset} : Parses table group p →
      Text.from? group p.start = some rest →
      act group rest p.stop p.resolution.code? = .next directives offset →
      (Text.bytes group)[offset]? = some Abbreviation.equals →
      Accesses table group (.skip group offset)

theorem exists_at_of_parse? {before s : List Char} (h : group.toList = before ++ s)
    {p : Abbreviation.Parsed ImplementationOption}
    (hp : Abbreviation.parse? table (Text.bytes group) (Text.encode before).length = some p) :
    ∃ before piece later, At group before piece later ∧
      p = ⟨Abbreviation.resolve table (Text.encode (candidate piece)),
        (Text.encode before).length, (Text.encode (before ++ candidate piece)).length⟩ := by
  induction s generalizing before with
  | nil =>
    have hend := @round?_end table group before (by rw [h, List.append_nil])
    rw [round?, hp] at hend
    cases hend
  | cons c s ih =>
    by_cases hc : c = ','
    · subst hc
      rw [parse?_comma h] at hp
      exact ih (by rw [h, List.append_assoc]; rfl) hp
    · have hjoin : join ((c :: s).splitOn ',') = c :: s := List.intercalate_splitOn ','
      have hcomma := noComma_of_mem_splitOn (c :: s)
      obtain ⟨piece, later, hpieces⟩ := List.exists_cons_of_ne_nil (List.splitOn_ne_nil ',' (c :: s))
      rw [hpieces] at hjoin hcomma
      have hpiece : piece ≠ [] := by
        rintro rfl
        have hhead := head?_later later
        rw [join_cons, List.nil_append] at hjoin
        simp [hjoin, hc] at hhead
      have hat : At group before piece later :=
        ⟨by rw [h, hjoin], hpiece, hcomma piece List.mem_cons_self⟩
      rw [hat.parse?] at hp
      exact ⟨before, piece, later, hat, (Option.some.inj hp).symm⟩

section Boundaries

variable {before piece : List Char} {later : List (List Char)}

theorem At.isBoundary_within (h : At group before piece later) {a b : List Char}
    (hab : piece = a ++ b) : Text.IsBoundary group (Text.encode (before ++ a)).length := by
  refine ⟨before ++ a, b ++ later.flatMap (',' :: ·), ?_, rfl⟩
  rw [h.toList_eq, hab]
  simp only [List.append_assoc]

theorem At.isBoundary_end (h : At group before piece later) :
    Text.IsBoundary group (Text.encode (before ++ piece)).length :=
  h.isBoundary_within (List.append_nil piece).symm

theorem At.isBoundary_stop (h : At group before piece later) :
    Text.IsBoundary group (Text.encode (before ++ candidate piece)).length :=
  h.isBoundary_within (List.takeWhile_append_dropWhile (p := (· != '='))).symm

theorem At.isBoundary_value (h : At group before piece later)
    (hvalue : Abbreviation.hasValue (Text.bytes group)
      (Text.encode (before ++ candidate piece)).length = true) :
    Text.IsBoundary group ((Text.encode (before ++ candidate piece)).length + 1) := by
  rw [h.hasValue, Option.isSome_iff_exists] at hvalue
  obtain ⟨value, hvalue⟩ := hvalue
  rw [← length_encode_equals, List.append_assoc]
  exact h.isBoundary_within (eq_candidate_equals_append (value?_of_usable? hvalue))

theorem At.offset_of_act (h : At group before piece later) {rest : String}
    {code : Option ImplementationOption} {directives : List Directive} {offset : Nat}
    (hact : act group rest (Text.encode (before ++ candidate piece)).length code =
      .next directives offset) :
    offset = (Text.encode (before ++ candidate piece)).length ∨
      offset = (Text.encode (before ++ piece)).length := by
  have hnumeric {option : ImplementationOption} {directive : Int → Directive}
      (hact : Group.numeric group option (Text.encode (before ++ candidate piece)).length directive =
        Step.next directives offset) : offset = (Text.encode (before ++ piece)).length := by
    rw [h.numeric] at hact
    cases hu : usable? piece with
    | none =>
      rw [hu] at hact
      cases hact
    | some value =>
      rw [hu] at hact
      exact (Step.next.inj hact).2.symm
  cases code with
  | none => exact Or.inl (Step.next.inj hact).2.symm
  | some option =>
    cases option with
    | binmode | random | sprintf => exact Or.inr (hnumeric hact)
    | help | usage | exec => cases hact
    | version | dump | interactive | posixSpace => exact Or.inl (Step.next.inj hact).2.symm

end Boundaries

theorem Reaches.isBoundary {offset : Nat} (h : Reaches table group offset) :
    Text.IsBoundary group offset := by
  induction h with
  | start => exact ⟨[], group.toList, rfl, rfl⟩
  | @next offset round hreaches hround hthrough ih =>
    obtain ⟨before, s, htext, rfl⟩ := ih
    obtain ⟨p, hp, rfl⟩ := Option.map_eq_some_iff.mp hround
    obtain ⟨before', piece, later, hat, rfl⟩ := exists_at_of_parse? htext hp
    have hreads := hat.roundOf (Abbreviation.resolve table (Text.encode (candidate piece)))
    rw [hreads.reading] at hthrough
    rw [hreads.next hthrough]
    exact hat.isBoundary_end

theorem Parses.exists_at {p : Abbreviation.Parsed ImplementationOption}
    (h : Parses table group p) :
    ∃ before piece later, At group before piece later ∧
      p = ⟨Abbreviation.resolve table (Text.encode (candidate piece)),
        (Text.encode before).length, (Text.encode (before ++ candidate piece)).length⟩ := by
  obtain ⟨offset, hreaches, hp⟩ := h
  obtain ⟨before, s, htext, rfl⟩ := hreaches.isBoundary
  exact exists_at_of_parse? htext hp

/-- Every access of reading a group has an answer. -/
theorem Accesses.isSafe {access : Access} (h : Accesses table group access) : access.IsSafe := by
  cases h with
  | candidate hp =>
    obtain ⟨before, piece, later, hat, rfl⟩ := hp.exists_at
    refine ⟨?_, hat.isBoundary_stop.le_length⟩
    rw [Text.encode_append, List.length_append]
    exact Nat.le_add_right _ _
  | rest hp =>
    obtain ⟨before, piece, later, hat, rfl⟩ := hp.exists_at
    have hboundary := hat.isBoundary_within (a := []) rfl
    rwa [List.append_nil] at hboundary
  | value hp hvalue =>
    obtain ⟨before, piece, later, hat, rfl⟩ := hp.exists_at
    exact hat.isBoundary_value hvalue
  | @integer p value hp hvalue hrest =>
    obtain ⟨hlower, hupper⟩ := Leading.abs_integer_le_limit value.toList
    exact ⟨_, Leading.integer?_eq_some value, hlower, hupper⟩
  | valueEnd hp hvalue =>
    obtain ⟨before, piece, later, hat, rfl⟩ := hp.exists_at
    exact hat.isBoundary_stop.le_length
  | surplus hp hrest hact hequals =>
    obtain ⟨before, piece, later, hat, rfl⟩ := hp.exists_at
    rcases hat.offset_of_act hact with rfl | rfl
    · exact hat.isBoundary_stop.le_length
    · exact hat.isBoundary_end.le_length

section Refusals

variable {piece : List Char} {later : List (List Char)} {fault : StartupError}

theorem refused_numericPiece {option : ImplementationOption} {directive : Int → Directive}
    (h : (numericPiece piece option directive).ending = .refused fault) :
    fault = .missingValue option := by
  unfold numericPiece at h
  split at h
  · cases h
  · exact (Ending.refused.inj h).symm

theorem exists_of_refused_readPiece (h : (readPiece table piece later).ending = .refused fault) :
    ∃ option, fault = .missingValue option := by
  simp only [readPiece, Reading.after] at h
  cases hcode : (Abbreviation.resolve table (Text.encode (candidate piece))).code? with
  | none =>
    rw [hcode] at h
    cases h
  | some option =>
    rw [hcode] at h
    cases option with
    | binmode | random | sprintf => exact ⟨_, refused_numericPiece h⟩
    | help | usage | exec | version | dump | interactive | posixSpace => cases h

/-- A round is only refused for a missing value. -/
theorem exists_of_refused_round {round : Round} (hround : round ∈ rounds table group)
    (h : round.reading.ending = .refused fault) : ∃ option, fault = .missingValue option := by
  have hne : round.reading.ending ≠ .through := by
    rw [h]
    simp
  obtain ⟨done, piece, later, -, -, -, -, hreading⟩ := exists_of_mem_rounds hround hne
  rw [hreading] at h
  exact exists_of_refused_readPiece h

end Refusals

end Group

def StartupError.isOfOption : StartupError → Bool
  | missingArgument _ | notAnOption _ | unsupportedOption _ | improperAssignment _
  | assignmentClash _ | execWithProgramFile | missingValue _ | fieldSeparator _ _ => true
  | programFile _ _ | io _ | config _ | badOffset _ => false

namespace CommandLine

variable {features : Features} {keywords : Keywords} {policy : LongOptionPolicy}

/-- The accesses of processing a command line: the letter of a token and the value glued to it, and
those of the groups that are read. -/
inductive Accesses (features : Features) (policy : LongOptionPolicy) (args : List String) :
    Access → Prop
  | letter {token} : token ∈ args → token.toList.head? = some '-' → token ≠ "-" →
      Accesses features policy args (.byte token 1)
  | value {token byte} : token ∈ args → token.toList.head? = some '-' → token ≠ "-" →
      (Text.bytes token)[1]? = some byte → byte < 128 →
      Accesses features policy args (.cut token 2)
  | group {item : Item} {group access} :
      item ∈ (read (ImplementationOption.table features) policy args.tail).items →
      item.group? = some group →
      Group.Accesses (ImplementationOption.table features) group access →
      Accesses features policy args access

theorem exists_letter {token : String} (hhead : token.toList.head? = some '-')
    (hne : token ≠ "-") : ∃ c s, token = String.ofList ('-' :: c :: s) := by
  obtain ⟨s, hs⟩ := List.head?_eq_some_iff.mp hhead
  have htoken : token = String.ofList ('-' :: s) := by rw [← hs, String.ofList_toList]
  cases s with
  | nil => exact absurd htoken hne
  | cons c s => exact ⟨c, s, htoken⟩

theorem Accesses.isSafe {args : List String} {access : Access}
    (h : Accesses features policy args access) : access.IsSafe := by
  cases h with
  | letter hmem hhead hne =>
    obtain ⟨c, s, rfl⟩ := exists_letter hhead hne
    obtain ⟨b, -, hbyte⟩ := Token.exists_second_byte c s
    exact (List.getElem?_eq_some_iff.mp hbyte).1
  | value hmem hhead hne hbyte hsmall =>
    obtain ⟨c, s, rfl⟩ := exists_letter hhead hne
    exact Token.isBoundary_value hbyte hsmall
  | group hitem hgroup haccess => exact haccess.isSafe

theorem isOfOption_badOption (token : String) : (badOption token).isOfOption = true := by
  unfold badOption
  split_ifs <;> rfl

theorem isOfOption_apply [Libraries] {p : Progress} {d : Directive} {fault : StartupError}
    (h : apply p d = .error fault) : fault.isOfOption = true := by
  obtain ⟨text, rfl⟩ | ⟨name, rfl⟩ | ⟨text, refusal, -, rfl⟩ := apply_error_cases h
  · rfl
  · rfl
  · rfl

theorem isOfOption_applyAll [Libraries] {p q : Progress} {ds : List Directive} {fault
    : StartupError}
    (h : applyAll p ds = (q, some fault)) : fault.isOfOption = true := by
  induction ds generalizing p with
  | nil => cases h
  | cons d ds ih =>
    cases hd : apply p d with
    | error cause =>
      rw [applyAll_cons_error hd] at h
      cases h
      exact isOfOption_apply hd
    | ok r =>
      rw [applyAll_cons_ok hd] at h
      exact ih h

theorem Stops.isOfOption {index : Nat} {rest : List String} {last : List Item} {ending : Ending}
    (h : Stops keywords policy index rest last ending) {fault : StartupError}
    (hrefused : ending = .refused fault) : fault.isOfOption = true := by
  cases h with
  | exhausted | operand | hyphen | terminator | exec | usage => cases hrefused
  | refused htoken =>
    cases hrefused
    rw [Token.fault_of_refused htoken]
    exact isOfOption_badOption _
  | lacking =>
    cases hrefused
    rfl
  | @faulty item cause rest hfits hfaulty =>
    cases hrefused
    obtain ⟨group, -, round, hround, hending⟩ := Item.exists_round (by simp) hfaulty
    obtain ⟨option, rfl⟩ := Group.exists_of_refused_round hround hending
    rfl

theorem isOfOption_of_refused {index : Nat} {tokens : List String} {fault : StartupError}
    (h : (readFrom keywords policy index tokens).ending = .refused fault) :
    fault.isOfOption = true := by
  obtain ⟨items, rest, last, ending, hstops⟩ := exists_stopsAfter keywords policy index tokens
  rw [hstops.readFrom_eq] at h
  exact hstops.stops.isOfOption h

theorem isOfOption_conclude {p : Progress} {ending : Ending} {fault : StartupError}
    (hrefused : ∀ cause, ending = .refused cause → cause.isOfOption = true)
    (h : conclude p ending = .error fault) : fault.isOfOption = true := by
  cases ending with
  | operands | dash | terminated | usage => cases h
  | exec glued index rest =>
    cases hfiles : p.files.isEmpty with
    | true =>
      obtain ⟨launch, hlaunch⟩ := exists_runExec_eq_ok hfiles glued index rest
      rw [conclude, hlaunch] at h
      cases h
    | false =>
      rw [conclude, runExec_of_files hfiles] at h
      cases h
      rfl
  | refused cause =>
    cases h
    exact hrefused fault rfl

theorem isOfOption_of_error [Libraries] {globals : Globals} {args : List String}
    {fault : StartupError} (h : (dispatch features policy globals args).outcome = .error fault) :
    fault.isOfOption = true := by
  match args with
  | [] => cases h
  | [program] => cases h
  | program :: token :: tokens =>
    rw [dispatch_eq_run (List.cons_ne_nil token tokens)] at h
    cases happly : applyAll (Progress.start globals) ((read (ImplementationOption.table features)
        policy (token :: tokens)).directives (ImplementationOption.table features)) with
    | mk p failed =>
      cases failed with
      | some cause =>
        rw [Reading.runFrom_of_error happly] at h
        cases h
        exact isOfOption_applyAll happly
      | none =>
        rw [Reading.runFrom_of_ok happly] at h
        exact isOfOption_conclude (fun cause hrefused => isOfOption_of_refused hrefused) h

/-- Whether an ending knows where the remaining tokens start; its index counts the name of the
program. -/
def Ending.IsAt (tokens : List String) : Ending → Prop
  | operands index rest | dash index rest | terminated index rest | exec _ index rest =>
    ∃ before, tokens = before ++ rest ∧ before.length + 1 = index
  | usage | refused _ => True

theorem Stops.isAt {rest : List String} {last : List Item} {ending : Ending}
    (before : List String) (h : Stops keywords policy (before.length + 1) rest last ending) :
    ending.IsAt (before ++ rest) := by
  cases h with
  | exhausted | operand | hyphen => exact ⟨before, rfl, rfl⟩
  | @terminator rest =>
    refine ⟨before ++ ["--"], ?_, ?_⟩
    · rw [List.append_assoc, List.singleton_append]
    · rw [List.length_append, List.length_singleton]
  | @exec item glued rest hfits hending =>
    refine ⟨before ++ item.tokens, ?_, ?_⟩
    · rw [List.append_assoc]
    · rw [List.length_append]
      omega
  | refused | lacking | usage | faulty => trivial

/-- Reading knows where it stops. -/
theorem isAt_read (keywords : Keywords) (policy : LongOptionPolicy) (tokens : List String) :
    (read keywords policy tokens).ending.IsAt tokens := by
  obtain ⟨items, rest, last, ending, hstops⟩ := exists_stopsAfter keywords policy 1 tokens
  have hindex := hstops.stops
  rw [Nat.add_comm] at hindex
  rw [read, hstops.readFrom_eq, hstops.tokens_eq]
  exact hindex.isAt

/-- Processing a command line never fails an access. No offset is bad, neither in the outcome nor
where reading stops; every access to a token, to a group or to a value is safe, so that every cut and
every skip has an answer; and the tokens that are left start where reading says. -/
theorem accesses_are_safe [Libraries] (features : Features) (policy : LongOptionPolicy)
    (globals : Globals) (args : List String) :
    (∀ offset, (dispatch features policy globals args).outcome ≠ .error (.badOffset offset)) ∧
    (∀ offset, (read (ImplementationOption.table features) policy args.tail).ending ≠
      .refused (.badOffset offset)) ∧
    (∀ access, Accesses features policy args access → access.IsSafe) ∧
    (∀ text offset, Accesses features policy args (.cut text offset) →
      (Text.from? text offset).isSome = true) ∧
    (∀ text offset, Accesses features policy args (.skip text offset) →
      (Abbreviation.skipValue? (Text.bytes text) offset).isSome = true) ∧
    (read (ImplementationOption.table features) policy args.tail).ending.IsAt args.tail := by
  refine ⟨fun offset h => ?_, fun offset h => ?_, fun access h => h.isSafe,
    fun text offset h => ?_, fun text offset h => ?_, ?_⟩
  · have hoption := isOfOption_of_error h
    cases hoption
  · have hoption := isOfOption_of_refused h
    cases hoption
  · exact (Access.isSafe_cut_iff text offset).mp h.isSafe
  · exact (Access.isSafe_skip_iff text offset).mp h.isSafe
  · exact isAt_read _ _ _

/-- The value of the second candidate is cut behind a character of two bytes. -/
theorem accesses_are_safe_behind_character :
    Accesses .plain .reject ["awk", "-W\u00e9=1,random=4"] (.cut "\u00e9=1,random=4" 12) ∧
      Text.IsBoundary "\u00e9=1,random=4" 12 := by
  have hread : (read (ImplementationOption.table .plain) .reject ["-W\u00e9=1,random=4"]).items =
      [.glued .implementation "\u00e9=1,random=4"] := by decide +kernel
  have hround : Group.round? (ImplementationOption.table .plain) "\u00e9=1,random=4" 0 =
      some ⟨0, ⟨[.notice (.vacuous "\u00e9=1,random=4"),
        .notice (.unexpectedValue "\u00e9=1,random=4")], .through⟩, 4⟩ := by decide +kernel
  have hparse : Abbreviation.parse? (ImplementationOption.table .plain)
      (Text.bytes "\u00e9=1,random=4") 4 = some ⟨.unique .random, 5, 11⟩ := by decide +kernel
  have hgroup : Group.Accesses (ImplementationOption.table .plain) "\u00e9=1,random=4"
      (.cut "\u00e9=1,random=4" 12) :=
    .value ⟨4, .next .start hround rfl, hparse⟩ (by decide +kernel)
  have haccess : Accesses .plain .reject ["awk", "-W\u00e9=1,random=4"]
      (.cut "\u00e9=1,random=4" 12) :=
    .group (by rw [List.tail_cons, hread]; exact List.mem_singleton.mpr rfl) rfl hgroup
  exact ⟨haccess, (accesses_are_safe .plain .reject Globals.initial _).2.2.1 _ haccess⟩

end CommandLine
end AwkStartup
