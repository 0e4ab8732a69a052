import AwkStartup.Proofs.CommandLine.Keywords
import AwkStartup.Proofs.CommandLine.PieceReading

/-!
# Where a group ends

A group ends in the round of some piece, and goes through all pieces before it. Cut off before that
piece the group asks for the same things, apart from what its remarks quote, and goes through.
-/

namespace AwkStartup
namespace Group

variable {table : List (Abbreviation.Keyword ImplementationOption)} {group : String}

theorem isOfGroup_of_mem_doubts {resolution : Abbreviation.Resolution ImplementationOption}
    {d : Directive} (h : d ∈ doubts resolution) : d.isOfGroup = true := by
  unfold doubts at h
  split at h
  · rw [List.mem_singleton] at h
    rw [h]
    rfl
  · cases h

theorem isOfGroup_of_mem_surplusOf {piece : List Char} {later : List (List Char)} {d : Directive}
    (h : d ∈ surplusOf piece later) : d.isOfGroup = true := by
  unfold surplusOf at h
  split_ifs at h
  · rw [List.mem_singleton] at h
    rw [h]
    rfl
  · cases h

theorem isOfGroup_of_mem_numericPiece {piece : List Char} {option : ImplementationOption}
    {directive : Int → Directive} (hd : ∀ n, (directive n).isOfGroup = true) {d : Directive}
    (h : d ∈ (numericPiece piece option directive).directives) : d.isOfGroup = true := by
  unfold numericPiece at h
  split at h
  · rw [List.mem_singleton] at h
    rw [h]
    exact hd _
  · cases h

theorem isOfGroup_of_mem_optionPiece {piece : List Char} {later : List (List Char)}
    {code : Option ImplementationOption} {d : Directive}
    (h : d ∈ (optionPiece piece later code).directives) : d.isOfGroup = true := by
  cases code with
  | none =>
    rcases List.mem_cons.mp h with rfl | h
    · rfl
    · exact isOfGroup_of_mem_surplusOf h
  | some option =>
    cases option with
    | binmode | random | sprintf => exact isOfGroup_of_mem_numericPiece (fun _ => rfl) h
    | help | usage | exec => cases h
    | version | dump | interactive | posixSpace =>
      rcases List.mem_cons.mp h with rfl | h
      · rfl
      · exact isOfGroup_of_mem_surplusOf h

theorem isOfGroup_of_mem_readPiece {piece : List Char} {later : List (List Char)} {d : Directive}
    (h : d ∈ (readPiece table piece later).directives) : d.isOfGroup = true := by
  rcases List.mem_append.mp h with h | h
  · exact isOfGroup_of_mem_doubts h
  · exact isOfGroup_of_mem_optionPiece h

theorem isOfGroup_of_mem_readPieces {rest : List (List Char)} {d : Directive}
    (h : d ∈ (readPieces table rest).directives) : d.isOfGroup = true := by
  induction rest with
  | nil => cases h
  | cons piece later ih =>
    rw [readPieces] at h
    split_ifs at h
    · exact ih h
    · unfold Reading.andThen at h
      split at h
      · rcases List.mem_append.mp h with h | h
        · exact isOfGroup_of_mem_readPiece h
        · exact ih h
      · exact isOfGroup_of_mem_readPiece h

theorem isOfGroup_of_mem_read {d : Directive} (h : d ∈ (read table group).directives) :
    d.isOfGroup = true := by
  rw [read_eq_readPieces] at h
  exact isOfGroup_of_mem_readPieces h

section Values

variable {piece piece' : List Char}

theorem surplusOf_unquoted (h : value? piece = value? piece') (later later' : List (List Char)) :
    (surplusOf piece later).map Directive.unquoted =
      (surplusOf piece' later').map Directive.unquoted := by
  unfold surplusOf
  rw [h]
  split_ifs
  · rfl
  · rfl

theorem numericPiece_congr (h : value? piece = value? piece') (option : ImplementationOption)
    (directive : Int → Directive) :
    numericPiece piece option directive = numericPiece piece' option directive := by
  rw [numericPiece, numericPiece, usable?, usable?, h]

theorem optionPiece_unquoted (h : value? piece = value? piece') (later later' : List (List Char))
    (code : Option ImplementationOption) :
    (optionPiece piece later code).directives.map Directive.unquoted =
      (optionPiece piece' later' code).directives.map Directive.unquoted := by
  have hsurplus := surplusOf_unquoted h later later'
  have hnumeric := numericPiece_congr h
  cases code with
  | none => simp [optionPiece, hsurplus, Directive.unquoted, Notice.unquoted]
  | some option => cases option <;> simp [optionPiece, hsurplus, hnumeric]

end Values

theorem readPiece_unquoted (piece : List Char) (later later' : List (List Char)) :
    (readPiece table piece later).directives.map Directive.unquoted =
      (readPiece table piece later').directives.map Directive.unquoted := by
  simp only [readPiece, Reading.after, List.map_append]
  rw [optionPiece_unquoted rfl later later']

theorem readPiece_through_iff (piece : List Char) (later later' : List (List Char)) :
    (readPiece table piece later).ending = .through ↔
      (readPiece table piece later').ending = .through := by
  simp only [readPiece, Reading.after]
  generalize Abbreviation.Resolution.code? _ = code
  cases code with
  | none => simp [optionPiece]
  | some option => cases option <;> simp [optionPiece]

def IsThrough (table : List (Abbreviation.Keyword ImplementationOption)) (piece : List Char) : Prop :=
  piece = [] ∨ (readPiece table piece []).ending = .through

theorem readPieces_append {done : List (List Char)} (h : ∀ piece ∈ done, IsThrough table piece)
    (rest : List (List Char)) :
    (readPieces table (done ++ rest)).ending = (readPieces table rest).ending ∧
      (readPieces table (done ++ rest)).directives.map Directive.unquoted =
        (readPieces table done).directives.map Directive.unquoted ++
          (readPieces table rest).directives.map Directive.unquoted := by
  induction done with
  | nil => exact ⟨rfl, rfl⟩
  | cons piece done ih =>
    obtain ⟨hpiece, hdone⟩ := List.forall_mem_cons.mp h
    obtain ⟨hending, hdirectives⟩ := ih hdone
    rw [List.cons_append, readPieces, readPieces]
    split_ifs with hempty
    · exact ⟨hending, hdirectives⟩
    · have hthrough := hpiece.resolve_left hempty
      rw [Reading.andThen_of_through ((readPiece_through_iff piece _ _).mp hthrough),
        Reading.andThen_of_through ((readPiece_through_iff piece _ _).mp hthrough)]
      refine ⟨hending, ?_⟩
      simp only [Reading.after, List.map_append, hdirectives, List.append_assoc]
      rw [readPiece_unquoted piece (done ++ rest) done]

/-- Pieces that are gone through, with their commas. -/
def gone (done : List (List Char)) : List Char :=
  done.flatMap (· ++ [','])

theorem join_append (done : List (List Char)) (piece : List Char) (later : List (List Char)) :
    join (done ++ piece :: later) = gone done ++ join (piece :: later) := by
  induction done with
  | nil => rfl
  | cons first done ih =>
    have hne : done ++ piece :: later ≠ [] := by simp
    simp only [join] at ih ⊢
    rw [List.cons_append, List.intercalate_cons_of_ne_nil hne, ih]
    simp [gone]

theorem splitOn_gone {done : List (List Char)} (h : ∀ piece ∈ done, ',' ∉ piece) :
    (gone done).splitOn ',' = done ++ [[]] := by
  induction done with
  | nil => rfl
  | cons piece done ih =>
    obtain ⟨hpiece, hdone⟩ := List.forall_mem_cons.mp h
    have hcons : gone (piece :: done) = piece ++ ',' :: gone done := by simp [gone]
    rw [hcons, List.splitOn_append_cons_self, List.splitOn_eq_singleton hpiece, ih hdone]
    rfl

theorem exists_of_mem_pieceRounds {before : List Char} {rest : List (List Char)}
    {round : Nat × Reading} (hmem : round ∈ pieceRounds table before rest)
    (hne : round.2.ending ≠ .through) :
    ∃ done piece later, rest = done ++ piece :: later ∧ piece ≠ [] ∧
      (∀ p ∈ done, IsThrough table p) ∧
      round = ((Text.encode (before ++ gone done)).length, readPiece table piece later) := by
  induction rest generalizing before with
  | nil => cases hmem
  | cons piece later ih =>
    -- A round of later pieces, when the first piece is gone through.
    have hlater (hthrough : IsThrough table piece)
        (hmem : round ∈ pieceRounds table (before ++ piece ++ [',']) later) :
        ∃ done p later', piece :: later = done ++ p :: later' ∧ p ≠ [] ∧
          (∀ q ∈ done, IsThrough table q) ∧
          round = ((Text.encode (before ++ gone done)).length, readPiece table p later') := by
      obtain ⟨done, p, later', rfl, hp, hdone, rfl⟩ := ih hmem
      refine ⟨piece :: done, p, later', rfl, hp, List.forall_mem_cons.mpr ⟨hthrough, hdone⟩, ?_⟩
      simp [gone]
    rw [pieceRounds] at hmem
    split_ifs at hmem with hempty hthrough
    · exact hlater (Or.inl hempty) hmem
    · rcases List.mem_cons.mp hmem with rfl | hmem
      · exact absurd hthrough hne
      · exact hlater (Or.inr ((readPiece_through_iff piece _ _).mp hthrough)) hmem
    · rw [List.mem_singleton] at hmem
      exact ⟨[], piece, later, rfl, hempty, by simp, by simp [gone, hmem]⟩

theorem exists_of_mem_rounds {round : Round} (hmem : round ∈ rounds table group)
    (hne : round.reading.ending ≠ .through) :
    ∃ done piece later, pieces group = done ++ piece :: later ∧ piece ≠ [] ∧
      (∀ p ∈ done, IsThrough table p) ∧ round.start = (Text.encode (gone done)).length ∧
      round.reading = readPiece table piece later := by
  have hasked : round.asked ∈ pieceRounds table [] (pieces group) := by
    rw [← rounds_eq_pieceRounds]
    exact List.mem_map_of_mem hmem
  obtain ⟨done, piece, later, hpieces, hpiece, hdone, hround⟩ :=
    exists_of_mem_pieceRounds hasked hne
  obtain ⟨hstart, hreading⟩ := Prod.mk.inj hround
  exact ⟨done, piece, later, hpieces, hpiece, hdone, hstart, hreading⟩

def Ending.mayFail : Ending → Bool
  | refused _ | exec _ => true
  | _ => false

theorem Ending.ne_through_of_mayFail {ending : Ending} (h : ending.mayFail = true) :
    ending ≠ .through := by
  rintro rfl
  cases h

theorem mayFail_numericPiece {piece : List Char} {option : ImplementationOption}
    {directive : Int → Directive} (h : (numericPiece piece option directive).ending.mayFail = true) :
    (numericPiece piece option directive).directives = [] := by
  unfold numericPiece at h ⊢
  split
  · rename_i value hvalue
    rw [hvalue] at h
    cases h
  · rfl

/-- A piece that can make a run fail asks for nothing before it does, not even for a remark. -/
theorem directives_eq_nil_of_mayFail {features : Features} {piece : List Char}
    {later : List (List Char)}
    (h : (readPiece (ImplementationOption.table features) piece later).ending.mayFail = true) :
    (readPiece (ImplementationOption.table features) piece later).directives = [] := by
  simp only [readPiece, Reading.after] at h ⊢
  cases hresolution : Abbreviation.resolve (ImplementationOption.table features)
      (Text.encode (candidate piece)) with
  | unknown =>
    rw [hresolution] at h
    cases h
  | ambiguous code first second =>
    rw [hresolution] at h
    obtain rfl := ImplementationOption.code_of_ambiguous hresolution
    cases h
  | unique code =>
    rw [hresolution] at h
    simp only [doubts, List.nil_append, Abbreviation.Resolution.code?] at h ⊢
    cases code with
    | binmode | random | sprintf => exact mayFail_numericPiece h
    | exec => rfl
    | help | usage => rfl
    | version | dump | interactive | posixSpace => cases h

/-- Cut off before the round that can make a run fail, a group goes through and asks for the same,
apart from what its remarks quote. -/
theorem exists_cut {features : Features} {round : Round}
    (hmem : round ∈ rounds (ImplementationOption.table features) group)
    (hfails : round.reading.ending.mayFail = true) :
    ∃ before after, group = before ++ after ∧ (Text.bytes before).length = round.start ∧
      (read (ImplementationOption.table features) before).ending = .through ∧
      (read (ImplementationOption.table features) before).directives.map Directive.unquoted =
        (read (ImplementationOption.table features) group).directives.map Directive.unquoted := by
  have hne := Ending.ne_through_of_mayFail hfails
  obtain ⟨done, piece, later, hpieces, hpiece, hdone, hstart, hreading⟩ :=
    exists_of_mem_rounds hmem hne
  rw [hreading] at hfails hne
  have htext : group.toList = gone done ++ join (piece :: later) := by
    rw [← join_append, ← hpieces, join_pieces]
  have hgone : pieces (String.ofList (gone done)) = done ++ [[]] := by
    rw [pieces, String.toList_ofList]
    apply splitOn_gone
    intro p hp
    have hmem : p ∈ pieces group := hpieces ▸ List.mem_append_left _ hp
    exact noComma_of_mem_pieces hmem
  -- The failing piece asks for nothing, and nothing after it is read.
  have hlast : readPieces (ImplementationOption.table features) (piece :: later) =
      readPiece (ImplementationOption.table features) piece later := by
    rw [readPieces, if_neg hpiece, Reading.andThen_of_ne_through hne]
  obtain ⟨hending, hdirectives⟩ := readPieces_append hdone [[]]
  obtain ⟨-, hwhole⟩ := readPieces_append hdone (piece :: later)
  refine ⟨String.ofList (gone done), String.ofList (join (piece :: later)), ?_, ?_, ?_, ?_⟩
  · rw [← String.ofList_append, ← htext, String.ofList_toList]
  · rw [Text.bytes, String.toList_ofList]
    exact hstart.symm
  · rw [read_eq_readPieces, hgone, hending]
    rfl
  · rw [read_eq_readPieces, read_eq_readPieces, hgone, hpieces, hdirectives, hwhole, hlast,
      directives_eq_nil_of_mayFail hfails]
    rfl

end Group
end AwkStartup
