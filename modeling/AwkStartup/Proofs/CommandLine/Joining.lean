import AwkStartup.Proofs.CommandLine.Shifting
import AwkStartup.StandardLibraries

/-!
# Groups joined by a comma

A group that joins two groups by a comma is read as the first group and then the second, apart from
what remarks quote. So a switch with the joined group does what two switches do, unless `exec` takes
the second group as a part of its file.
-/

namespace AwkStartup
namespace Group

variable {table : List (Abbreviation.Keyword ImplementationOption)}

def Reading.unquoted (reading : Reading) : Reading :=
  ⟨reading.directives.map Directive.unquoted, reading.ending⟩

theorem Reading.unquoted_andThen (reading next : Reading) :
    (reading.andThen next).unquoted = reading.unquoted.andThen next.unquoted := by
  by_cases h : reading.ending = .through
  · have hunquoted : reading.unquoted.ending = .through := h
    rw [andThen_of_through h, andThen_of_through hunquoted]
    simp [Reading.unquoted, Reading.after]
  · have hunquoted : reading.unquoted.ending ≠ .through := h
    rw [andThen_of_ne_through h, andThen_of_ne_through hunquoted]

theorem Reading.andThen_assoc (reading next last : Reading) :
    (reading.andThen next).andThen last = reading.andThen (next.andThen last) := by
  by_cases h : reading.ending = .through
  · rw [andThen_of_through h, andThen_of_through h]
    by_cases hnext : next.ending = .through
    · have hafter : (next.after reading.directives).ending = .through := hnext
      rw [andThen_of_through hafter, andThen_of_through hnext]
      simp [Reading.after]
    · have hafter : (next.after reading.directives).ending ≠ .through := hnext
      rw [andThen_of_ne_through hafter, andThen_of_ne_through hnext]
  · rw [andThen_of_ne_through h, andThen_of_ne_through h, andThen_of_ne_through h]

def IsExec (table : List (Abbreviation.Keyword ImplementationOption)) (piece : List Char) : Prop :=
  (Abbreviation.resolve table (Text.encode (candidate piece))).code? = some .exec

instance (piece : List Char) : Decidable (IsExec table piece) :=
  inferInstanceAs (Decidable (_ = _))

theorem optionPiece_ending {code : Option ImplementationOption} (h : code ≠ some .exec)
    {piece piece' : List Char} (hvalue : value? piece = value? piece')
    (later later' : List (List Char)) :
    (optionPiece piece later code).ending = (optionPiece piece' later' code).ending := by
  have hnumeric := numericPiece_congr hvalue
  cases code with
  | none => rfl
  | some option =>
    cases option with
    | exec => exact absurd rfl h
    | binmode | random | sprintf => rw [optionPiece, optionPiece, hnumeric]
    | _ => rfl

/-- Only `exec` depends on later pieces, apart from quotations. -/
theorem unquoted_readPiece {piece : List Char} (h : ¬ IsExec table piece)
    (later later' : List (List Char)) :
    (readPiece table piece later).unquoted = (readPiece table piece later').unquoted := by
  have hdirectives := @readPiece_unquoted table piece later later'
  have hending : (readPiece table piece later).ending = (readPiece table piece later').ending :=
    optionPiece_ending h rfl later later'
  rw [Reading.unquoted, Reading.unquoted, hdirectives, hending]

theorem unquoted_readPieces_append {pieces : List (List Char)}
    (h : ∀ piece ∈ pieces, ¬ IsExec table piece) (rest : List (List Char)) :
    (readPieces table (pieces ++ rest)).unquoted =
      ((readPieces table pieces).andThen (readPieces table rest)).unquoted := by
  induction pieces with
  | nil =>
    have hempty : (readPieces table []).ending = .through := rfl
    rw [List.nil_append, Reading.andThen_of_through hempty]
    rfl
  | cons piece pieces ih =>
    obtain ⟨hpiece, hpieces⟩ := List.forall_mem_cons.mp h
    have ih := ih hpieces
    rw [List.cons_append, readPieces, readPieces]
    by_cases hempty : piece = []
    · rw [if_pos hempty, if_pos hempty, ih]
    · rw [if_neg hempty, if_neg hempty]
      calc
        _ = (readPiece table piece (pieces ++ rest)).unquoted.andThen
              (readPieces table (pieces ++ rest)).unquoted := Reading.unquoted_andThen _ _
        _ = (readPiece table piece pieces).unquoted.andThen
              ((readPieces table pieces).andThen (readPieces table rest)).unquoted := by
            rw [ih, unquoted_readPiece hpiece]
        _ = ((readPiece table piece pieces).andThen
              ((readPieces table pieces).andThen (readPieces table rest))).unquoted :=
            (Reading.unquoted_andThen _ _).symm
        _ = _ := by rw [Reading.andThen_assoc]

theorem pieces_append_comma (group other : String) :
    pieces (group ++ "," ++ other) = pieces group ++ pieces other := by
  have htext : (group ++ "," ++ other).toList = group.toList ++ ',' :: other.toList := by
    simp
  rw [pieces, htext, List.splitOn_append_cons_self]
  rfl

theorem unquoted_read_append_comma {group : String}
    (h : ∀ piece ∈ pieces group, ¬ IsExec table piece) (other : String) :
    (read table (group ++ "," ++ other)).unquoted =
      ((read table group).andThen (read table other)).unquoted := by
  rw [read_eq_readPieces, read_eq_readPieces, read_eq_readPieces, pieces_append_comma,
    unquoted_readPieces_append h]

theorem numericPiece_ne_exec (piece : List Char) (option : ImplementationOption)
    (directive : Int → Directive) (glued : Option String) :
    (numericPiece piece option directive).ending ≠ .exec glued := by
  unfold numericPiece
  split <;> simp

theorem optionPiece_ne_exec {code : Option ImplementationOption} (h : code ≠ some .exec)
    (piece : List Char) (later : List (List Char)) (glued : Option String) :
    (optionPiece piece later code).ending ≠ .exec glued := by
  cases code with
  | none => simp [optionPiece]
  | some option =>
    cases option with
    | exec => exact absurd rfl h
    | binmode | random | sprintf => exact numericPiece_ne_exec _ _ _ _
    | _ => simp [optionPiece]

theorem readPieces_ne_exec {pieces : List (List Char)}
    (h : ∀ piece ∈ pieces, ¬ IsExec table piece) (glued : Option String) :
    (readPieces table pieces).ending ≠ .exec glued := by
  induction pieces with
  | nil => simp [readPieces, Reading.empty]
  | cons piece pieces ih =>
    obtain ⟨hpiece, hpieces⟩ := List.forall_mem_cons.mp h
    rw [readPieces]
    by_cases hempty : piece = []
    · rw [if_pos hempty]
      exact ih hpieces
    · rw [if_neg hempty]
      by_cases hthrough : (readPiece table piece pieces).ending = .through
      · rw [Reading.andThen_of_through hthrough]
        exact ih hpieces
      · rw [Reading.andThen_of_ne_through hthrough]
        exact optionPiece_ne_exec hpiece piece pieces glued

theorem read_ne_exec {group : String} (h : ∀ piece ∈ pieces group, ¬ IsExec table piece)
    (glued : Option String) : (read table group).ending ≠ .exec glued := by
  rw [read_eq_readPieces]
  exact readPieces_ne_exec h glued

end Group

namespace CommandLine

variable {features : Features} {keywords : Keywords} {policy : LongOptionPolicy}
  {globals : Globals}

theorem Reading.runFrom_shift_unquoted [Libraries] {reading later : Reading} {k : Nat}
    (hdirectives : (later.directives keywords).map Directive.unquoted =
      (reading.directives keywords).map Directive.unquoted)
    (hending : later.ending = reading.ending.shift k) (p : Progress) :
    (later.runFrom keywords p).outcome =
        (reading.runFrom keywords p).outcome.map (Launch.shift k) ∧
      (later.runFrom keywords p).progress.unquoted =
        (reading.runFrom keywords p).progress.unquoted := by
  obtain ⟨hprogress, hfailed⟩ := applyAll_congr_unquoted hdirectives p
  cases happly : applyAll p (reading.directives keywords) with
  | mk q failed =>
    cases hlater : applyAll p (later.directives keywords) with
    | mk r other =>
      rw [happly, hlater] at hprogress hfailed
      obtain rfl : other = failed := hfailed
      have hprogress : r.unquoted = q.unquoted := hprogress
      cases other with
      | some fault =>
        rw [runFrom_of_error happly, runFrom_of_error hlater]
        exact ⟨rfl, hprogress⟩
      | none =>
        rw [runFrom_of_ok happly, runFrom_of_ok hlater]
        refine ⟨?_, hprogress⟩
        calc
          conclude r later.ending = conclude r.unquoted later.ending :=
            (conclude_unquoted r later.ending).symm
          _ = conclude q.unquoted later.ending := by rw [hprogress]
          _ = conclude q later.ending := conclude_unquoted q later.ending
          _ = (conclude q reading.ending).map (Launch.shift k) := by
            rw [hending, conclude_shift]

theorem readFrom_group (group : String) (index : Nat) (rest : List String) :
    readFrom keywords policy index ("-W" :: group :: rest) =
      match (Group.read keywords group).ending with
      | .through =>
        (readFrom keywords policy (index + 2) rest).after (.separate .implementation group)
      | .exec glued => ⟨[.separate .implementation group], .exec glued (index + 2) rest⟩
      | .usage => ⟨[.separate .implementation group], .usage⟩
      | .refused fault => ⟨[.separate .implementation group], .refused fault⟩ := by
  have hfits : (Item.separate .implementation group).Fits policy := trivial
  exact readFrom_item hfits index rest

theorem directives_group (group : String) :
    (Item.separate .implementation group).directives keywords =
      (Group.read keywords group).directives :=
  rfl

/-- The joined group and the two groups ask for the same, and reading goes on two tokens later. -/
theorem readFrom_joined {group : String}
    (hexec : ∀ piece ∈ Group.pieces group, ¬ Group.IsExec keywords piece) (other : String)
    (index : Nat) (tail : List String) :
    ((readFrom keywords policy index ("-W" :: group :: "-W" :: other :: tail)).directives
          keywords).map Directive.unquoted =
        ((readFrom keywords policy index ("-W" :: (group ++ "," ++ other) :: tail)).directives
          keywords).map Directive.unquoted ∧
      (readFrom keywords policy index ("-W" :: group :: "-W" :: other :: tail)).ending =
        (readFrom keywords policy index ("-W" :: (group ++ "," ++ other) :: tail)).ending.shift 2 := by
  have hread := Group.unquoted_read_append_comma hexec other
  have hending : (Group.read keywords (group ++ "," ++ other)).ending =
      ((Group.read keywords group).andThen (Group.read keywords other)).ending :=
    congrArg (fun r => r.ending) hread
  have hdirectives : (Group.read keywords (group ++ "," ++ other)).directives.map
      Directive.unquoted = ((Group.read keywords group).andThen
        (Group.read keywords other)).directives.map Directive.unquoted :=
    congrArg (fun r => r.directives) hread
  have hne := Group.read_ne_exec hexec
  rw [readFrom_group (group ++ "," ++ other), readFrom_group group, readFrom_group other, hending]
  cases hgroup : (Group.read keywords group).ending with
  | through =>
    rw [Group.Reading.andThen_of_through hgroup] at hdirectives ⊢
    simp only [Group.Reading.after, List.map_append] at hdirectives ⊢
    obtain ⟨hitems, hshift⟩ := @readFrom_add keywords policy 2 (index + 2) tail
    cases (Group.read keywords other).ending with
    | through =>
      simp [Reading.after, Reading.directives, directives_group, hdirectives, hitems, hshift]
    | exec glued =>
      simp [Reading.after, Reading.directives, directives_group, hdirectives, Ending.shift]
    | usage => simp [Reading.after, Reading.directives, directives_group, hdirectives, Ending.shift]
    | refused fault =>
      simp [Reading.after, Reading.directives, directives_group, hdirectives, Ending.shift]
  | exec glued => exact absurd hgroup (hne glued)
  | usage =>
    have hstop : (Group.read keywords group).ending ≠ .through := by simp [hgroup]
    rw [Group.Reading.andThen_of_ne_through hstop] at hdirectives ⊢
    simp [hgroup, Reading.directives, directives_group, hdirectives, Ending.shift]
  | refused fault =>
    have hstop : (Group.read keywords group).ending ≠ .through := by simp [hgroup]
    rw [Group.Reading.andThen_of_ne_through hstop] at hdirectives ⊢
    simp [hgroup, Reading.directives, directives_group, hdirectives, Ending.shift]

/-- Joining groups by a comma is the same as repeating the switch, when `exec` is not in the first
group. Both command lines launch the same or fail in the same way, with arguments two tokens apart,
and they leave the same global names, switches, calls and remarks, apart from the groups that the
remarks quote. -/
theorem comma_joins_groups [Libraries] {pre : List String}
    (hpre : IsConsumed (ImplementationOption.table features) policy pre) {group : String}
    (hexec : ∀ piece ∈ Group.pieces group,
      ¬ Group.IsExec (ImplementationOption.table features) piece)
    (name other : String) (tail : List String) :
    let joined := dispatch features policy globals
      (name :: (pre ++ "-W" :: (group ++ "," ++ other) :: tail))
    let repeated := dispatch features policy globals
      (name :: (pre ++ "-W" :: group :: "-W" :: other :: tail))
    repeated.outcome = joined.outcome.map (Launch.shift 2) ∧
      repeated.progress.flags = joined.progress.flags ∧
      repeated.progress.globals = joined.progress.globals ∧
      repeated.progress.calls = joined.progress.calls ∧
      repeated.progress.notices.length = joined.progress.notices.length ∧
      repeated.progress.notices.map Notice.unquoted =
        joined.progress.notices.map Notice.unquoted := by
  intro joined repeated
  obtain ⟨items, rfl, hthrough⟩ := hpre.exists_items
  obtain ⟨hdirectives, hending⟩ := @readFrom_joined (ImplementationOption.table features) policy
    group hexec other (1 + (spelled items).length) tail
  have hrun : repeated.outcome = joined.outcome.map (Launch.shift 2) ∧
      repeated.progress.unquoted = joined.progress.unquoted := by
    dsimp only [joined, repeated]
    rw [dispatch_eq_run (by simp), dispatch_eq_run (by simp)]
    apply Reading.runFrom_shift_unquoted
    · rw [directives_read_spelled hthrough, directives_read_spelled hthrough, List.map_append,
        List.map_append, hdirectives]
    · rw [ending_read_spelled hthrough, ending_read_spelled hthrough, hending]
  obtain ⟨houtcome, hsame⟩ := hrun
  obtain ⟨hglobals, hcalls, hnotices⟩ := same_of_unquoted_eq hsame
  have hflags : repeated.progress.flags = joined.progress.flags :=
    congrArg (fun p => p.flags) hsame
  refine ⟨houtcome, hflags, hglobals, hcalls, hnotices, ?_⟩
  rw [← notices_unquoted, ← notices_unquoted, hsame]

/-- Two remarks and a seed in the first group, and `exec` alone in the second. -/
theorem comma_joins_groups_exec :
    IsConsumed (ImplementationOption.table .plain) .reject ["-vx=1"] ∧
      (∀ piece ∈ Group.pieces "é=1,random=4",
        ¬ Group.IsExec (ImplementationOption.table .plain) piece) ∧
      (dispatch .plain .reject Globals.initial
        ["awk", "-vx=1", "-W", "é=1,random=4,exec", "prog", "-f"]).outcome =
          .ok (.run ⟨.files ⟨["prog"]⟩, 5, Flags.none⟩) ∧
      (dispatch .plain .reject Globals.initial
        ["awk", "-vx=1", "-W", "é=1,random=4", "-W", "exec", "prog", "-f"]).outcome =
          .ok (.run ⟨.files ⟨["prog"]⟩, 7, Flags.none⟩) := by
  have hpre : IsConsumed (ImplementationOption.table .plain) .reject ["-vx=1"] := rfl
  have hexec : ∀ piece ∈ Group.pieces "é=1,random=4",
      ¬ Group.IsExec (ImplementationOption.table .plain) piece := by decide +kernel
  have hjoined : (dispatch .plain .reject Globals.initial
      ["awk", "-vx=1", "-W", "é=1,random=4,exec", "prog", "-f"]).outcome =
        .ok (.run ⟨.files ⟨["prog"]⟩, 5, Flags.none⟩) := rfl
  obtain ⟨houtcome, -⟩ := @comma_joins_groups .plain .reject Globals.initial _ _ hpre _ hexec "awk"
    "exec" ["prog", "-f"]
  refine ⟨hpre, hexec, hjoined, houtcome.trans ?_⟩
  exact congrArg (Except.map (Launch.shift 2)) hjoined

end CommandLine
end AwkStartup
