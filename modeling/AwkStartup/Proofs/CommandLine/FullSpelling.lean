import AwkStartup.Proofs.CommandLine.GroupTreatment
import AwkStartup.Proofs.CommandLine.Joining
import AwkStartup.StandardLibraries
import Mathlib

/-!
# Abbreviations spelled in full

An abbreviation means what its keyword means. A group in which candidates are spelled in full, in any
case of their letters, is processed like the group itself, apart from what remarks quote.
-/

namespace AwkStartup

namespace ImplementationOption

/-- Whether a text is the full name of an option, in any case of its ASCII letters. -/
def IsSpelling (s : List Char) (option : ImplementationOption) : Prop :=
  s.map Char.toLower = option.spelling.toList

instance (s : List Char) (option : ImplementationOption) : Decidable (IsSpelling s option) :=
  inferInstanceAs (Decidable (_ = _))

variable {features : Features} {option : ImplementationOption}

theorem begun?_congr {s t : List Char} (h : s.map Char.toUpper = t.map Char.toUpper) :
    begun? features s = begun? features t := by
  rw [begun?, begun?, h]

theorem mem_table_of_begun? {candidate : List Char} (h : begun? features candidate = some option) :
    option ∈ (table features).map (·.code) := by
  obtain ⟨k, hk, rfl⟩ := Option.map_eq_some_iff.mp h
  exact List.mem_map_of_mem (List.mem_of_find?_eq_some hk)

theorem begun?_spelling (h : option ∈ (table features).map (·.code)) :
    begun? features option.spelling.toList = some option := by
  revert h
  cases hbinmode : features.binmode with
  | false =>
    simp only [begun?, table, hbinmode]
    cases option <;> decide
  | true =>
    simp only [begun?, table, hbinmode]
    cases option <;> decide

theorem IsSpelling.map_toUpper {s : List Char} (h : IsSpelling s option) :
    s.map Char.toUpper = option.spelling.toList.map Char.toUpper := by
  rw [← show s.map Char.toLower = option.spelling.toList from h, List.map_map]
  apply List.map_congr_left
  intro c _
  exact (Char.toUpper_toLower_eq_toUpper c).symm

theorem IsSpelling.ne_nil {s : List Char} (h : IsSpelling s option) : s ≠ [] := by
  rintro rfl
  cases option <;> cases h

theorem IsSpelling.notMem_equals {s : List Char} (h : IsSpelling s option) : '=' ∉ s := by
  intro hmem
  have hlower : '=' ∈ option.spelling.toList := by
    rw [← show s.map Char.toLower = option.spelling.toList from h]
    exact List.mem_map_of_mem hmem
  revert hlower
  cases option <;> decide

theorem IsSpelling.resolve_eq {s candidate : List Char} (h : IsSpelling s option)
    (hresolve : Abbreviation.resolve (table features) (Text.encode candidate) = .unique option) :
    Abbreviation.resolve (table features) (Text.encode s) = .unique option := by
  have hcandidate : candidate ≠ [] := by
    rintro rfl
    rw [Text.encode_nil, resolve_nil] at hresolve
    cases hresolve
  have hbegun : begun? features candidate = some option := by
    rw [resolve_of_ne_nil features hcandidate] at hresolve
    split at hresolve
    · cases hresolve
    · rename_i other hother
      rw [hother, Abbreviation.Resolution.unique.inj hresolve]
  rw [resolve_of_ne_nil features h.ne_nil, begun?_congr h.map_toUpper,
    begun?_spelling (mem_table_of_begun? hbegun)]

end ImplementationOption

namespace Group

/-- A piece, or the piece with its candidate spelled in full. -/
inductive Respells (features : Features) : List Char → List Char → Prop
  | same (piece) : Respells features piece piece
  | full {piece s option} :
      Abbreviation.resolve (ImplementationOption.table features) (Text.encode (candidate piece)) =
        .unique option →
      ImplementationOption.IsSpelling s option →
      Respells features piece (s ++ piece.dropWhile (· != '='))

/-- Pieces with candidates spelled in full, up to the first `exec`. What follows `exec` is its file
and stays as it is. -/
inductive RespellsAll (features : Features) : List (List Char) → List (List Char) → Prop
  | nil : RespellsAll features [] []
  | exec {piece piece' later} : IsExec (ImplementationOption.table features) piece →
      Respells features piece piece' → RespellsAll features (piece :: later) (piece' :: later)
  | cons {piece piece' later later'} : ¬ IsExec (ImplementationOption.table features) piece →
      Respells features piece piece' → RespellsAll features later later' →
      RespellsAll features (piece :: later) (piece' :: later')

variable {features : Features} {piece piece' : List Char} {later later' : List (List Char)}

section Spelled

variable {s : List Char}

theorem forall_ne_equals (h : '=' ∉ s) : ∀ c ∈ s, (c != '=') = true := by
  intro c hc
  rw [bne_iff_ne]
  rintro rfl
  exact h hc

theorem candidate_append (h : '=' ∉ s) (piece : List Char) :
    candidate (s ++ piece.dropWhile (· != '=')) = s := by
  have hhead := List.head?_dropWhile_not (· != '=') piece
  rw [candidate, List.takeWhile_append_of_pos (forall_ne_equals h)]
  cases hvalue : piece.dropWhile (· != '=') with
  | nil => simp
  | cons c rest =>
    rw [hvalue, List.head?_cons] at hhead
    rw [List.takeWhile_cons_of_neg (by simp [hhead]), List.append_nil]

theorem value?_append (h : '=' ∉ s) (piece : List Char) :
    value? (s ++ piece.dropWhile (· != '=')) = value? piece := by
  rw [value?, value?, List.dropWhile_append_of_pos (forall_ne_equals h), List.dropWhile_idempotent]

end Spelled

/-- A piece whose candidate stands for an option alone asks for what the option does. -/
theorem readPiece_of_unique {table : List (Abbreviation.Keyword ImplementationOption)}
    {option : ImplementationOption}
    (h : Abbreviation.resolve table (Text.encode (candidate piece)) = .unique option)
    (later : List (List Char)) :
    readPiece table piece later = optionPiece piece later (some option) := by
  rw [readPiece, h]
  rfl

theorem Respells.unquoted_readPiece (h : Respells features piece piece')
    (hlater : ¬ IsExec (ImplementationOption.table features) piece ∨ later = later') :
    (readPiece (ImplementationOption.table features) piece later).unquoted =
      (readPiece (ImplementationOption.table features) piece' later').unquoted := by
  cases h with
  | same =>
    rcases hlater with hexec | rfl
    · exact Group.unquoted_readPiece hexec later later'
    · rfl
  | @full s option hresolve hspelling =>
    have hequals := hspelling.notMem_equals
    have hvalue := (value?_append hequals piece).symm
    have hspelled := hspelling.resolve_eq hresolve
    rw [← candidate_append hequals piece] at hspelled
    have hending : (optionPiece piece later (some option)).ending =
        (optionPiece (s ++ piece.dropWhile (· != '=')) later' (some option)).ending := by
      by_cases hexec : some option = some .exec
      · obtain rfl := Option.some.inj hexec
        have hsame : IsExec (ImplementationOption.table features) piece := by
          rw [IsExec, hresolve]
          rfl
        obtain rfl := hlater.resolve_left (not_not_intro hsame)
        rw [optionPiece, optionPiece, usable?, usable?, hvalue]
      · exact optionPiece_ending hexec hvalue later later'
    rw [readPiece_of_unique hresolve, readPiece_of_unique hspelled, Reading.unquoted,
      Reading.unquoted, optionPiece_unquoted hvalue later later', hending]

theorem Respells.eq_nil_iff (h : Respells features piece piece') : piece' = [] ↔ piece = [] := by
  cases h with
  | same => rfl
  | @full s option hresolve hspelling =>
    have hpiece : piece ≠ [] := by
      rintro rfl
      have hempty : Text.encode (candidate []) = [] := rfl
      rw [hempty, ImplementationOption.resolve_nil] at hresolve
      cases hresolve
    simp [hpiece, hspelling.ne_nil]

theorem RespellsAll.unquoted_readPieces (h : RespellsAll features later later') :
    (readPieces (ImplementationOption.table features) later).unquoted =
      (readPieces (ImplementationOption.table features) later').unquoted := by
  induction h with
  | nil => rfl
  | exec hexec hpiece =>
    rw [readPieces, readPieces]
    simp only [hpiece.eq_nil_iff]
    split_ifs
    · rfl
    · rw [Reading.unquoted_andThen, Reading.unquoted_andThen, hpiece.unquoted_readPiece (Or.inr rfl)]
  | cons hexec hpiece _ ih =>
    rw [readPieces, readPieces]
    simp only [hpiece.eq_nil_iff]
    split_ifs
    · exact ih
    · rw [Reading.unquoted_andThen, Reading.unquoted_andThen,
        hpiece.unquoted_readPiece (Or.inl hexec), ih]

end Group

namespace CommandLine

variable {features : Features} {keywords : Keywords}

theorem control_unquoted (p : Progress) (index : Nat) (rest : List String)
    (ending : Group.Ending) : control p.unquoted index rest ending = control p index rest ending := by
  cases ending <;> rfl

/-- Groups that are read alike apart from quotations are processed alike. -/
theorem processGroup_congr_unquoted [Libraries] {group other : String}
    (h : (Group.read keywords group).unquoted = (Group.read keywords other).unquoted)
    (p : Progress) (index : Nat) (rest : List String) :
    (processGroup keywords p group index rest).control =
        (processGroup keywords p other index rest).control ∧
      (processGroup keywords p group index rest).progress.unquoted =
        (processGroup keywords p other index rest).progress.unquoted := by
  obtain ⟨hdirectives, hending⟩ := Group.Reading.mk.inj h
  obtain ⟨hprogress, -⟩ := applyAll_congr_unquoted hdirectives p
  refine ⟨?_, hprogress⟩
  unfold processGroup
  dsimp only
  rw [hending, ← control_unquoted, hprogress, control_unquoted]

/-- Abbreviations are only spelling. No candidate but the empty one is ambiguous. A group in which
candidates are spelled in full, in any case of their letters, ends like the group itself, with the
same switches, global names, calls and number of remarks. -/
theorem abbreviations_are_only_spelling [Libraries] (features : Features) :
    (∀ candidate : List UInt8, candidate ≠ [] → ∀ code first second,
      Abbreviation.resolve (ImplementationOption.table features) candidate ≠
        .ambiguous code first second) ∧
      ∀ {group other : String},
        Group.RespellsAll features (Group.pieces group) (Group.pieces other) →
        ∀ (p : Progress) (index : Nat) (rest : List String),
          let abbreviated := processGroup (ImplementationOption.table features) p group index rest
          let spelled := processGroup (ImplementationOption.table features) p other index rest
          spelled.control = abbreviated.control ∧
            spelled.progress.flags = abbreviated.progress.flags ∧
            spelled.progress.globals = abbreviated.progress.globals ∧
            spelled.progress.calls = abbreviated.progress.calls ∧
            spelled.progress.notices.length = abbreviated.progress.notices.length := by
  constructor
  · intro candidate hcandidate
    obtain ⟨b, bytes, rfl⟩ := List.exists_cons_of_ne_nil hcandidate
    exact Abbreviation.resolve_ne_ambiguous (ImplementationOption.pairwise_table features) b bytes
  · intro group other hrespells p index rest abbreviated spelled
    have hread := hrespells.unquoted_readPieces
    rw [← Group.read_eq_readPieces, ← Group.read_eq_readPieces] at hread
    obtain ⟨hcontrol, hprogress⟩ := processGroup_congr_unquoted hread p index rest
    obtain ⟨hglobals, hcalls, hnotices⟩ := same_of_unquoted_eq hprogress
    have hflags : abbreviated.progress.flags = spelled.progress.flags :=
      congrArg (fun q => q.flags) hprogress
    exact ⟨hcontrol.symm, hflags.symm, hglobals.symm, hcalls.symm, hnotices.symm⟩

/-- Three candidates spelled in full, an unknown one, and a file that is not one. -/
theorem abbreviations_are_only_spelling_exec :
    Group.RespellsAll .plain (Group.pieces "v=,sp=4,no=é,e=d,v")
        (Group.pieces "VerSion=,sprintf=4,no=é,EXEC=d,v") ∧
      (processGroup (ImplementationOption.table .plain) (.start Globals.initial)
        "v=,sp=4,no=é,e=d,v" 3 ["x"]).control =
          some (.ok (.run ⟨.files ⟨["d,v"]⟩, 3, Flags.none⟩)) ∧
      (processGroup (ImplementationOption.table .plain) (.start Globals.initial)
        "VerSion=,sprintf=4,no=é,EXEC=d,v" 3 ["x"]).control =
          some (.ok (.run ⟨.files ⟨["d,v"]⟩, 3, Flags.none⟩)) ∧
      (processGroup (ImplementationOption.table .plain) (.start Globals.initial)
        "VerSion=,sprintf=4,no=é,EXEC=d,v" 3 ["x"]).progress.calls = [.version, .sprintf 4] := by
  have hpieces : Group.pieces "v=,sp=4,no=é,e=d,v" =
      ["v=".toList, "sp=4".toList, "no=é".toList, "e=d".toList, "v".toList] := rfl
  have hothers : Group.pieces "VerSion=,sprintf=4,no=é,EXEC=d,v" =
      ["VerSion".toList ++ ['='], "sprintf".toList ++ ['=', '4'], "no=é".toList,
        "EXEC".toList ++ ['=', 'd'], "v".toList] := rfl
  have hrespells : Group.RespellsAll .plain (Group.pieces "v=,sp=4,no=é,e=d,v")
      (Group.pieces "VerSion=,sprintf=4,no=é,EXEC=d,v") := by
    rw [hpieces, hothers]
    refine .cons (by decide) (@Group.Respells.full _ _ _ .version (by decide) (by decide)) ?_
    refine .cons (by decide) (@Group.Respells.full _ _ _ .sprintf (by decide) (by decide)) ?_
    refine .cons (by decide) (.same _) ?_
    exact .exec (by decide) (@Group.Respells.full _ _ _ .exec (by decide) (by decide))
  have hcontrol : (processGroup (ImplementationOption.table .plain) (.start Globals.initial)
      "v=,sp=4,no=é,e=d,v" 3 ["x"]).control =
        some (.ok (.run ⟨.files ⟨["d,v"]⟩, 3, Flags.none⟩)) := rfl
  have hcalls : (processGroup (ImplementationOption.table .plain) (.start Globals.initial)
      "v=,sp=4,no=é,e=d,v" 3 ["x"]).progress.calls = [.version, .sprintf 4] := rfl
  obtain ⟨hsame, -, -, hsameCalls, -⟩ :=
    (abbreviations_are_only_spelling .plain).2 hrespells (.start Globals.initial) 3 ["x"]
  exact ⟨hrespells, hcontrol, hsame.trans hcontrol, hsameCalls.trans hcalls⟩

end CommandLine
end AwkStartup
