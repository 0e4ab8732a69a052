import AwkStartup.Proofs.CommandLine.PieceOffsets
import AwkStartup.Proofs.CommandLine.Quotation

/-!
# Reading a group piece by piece

The rounds of a group are the rounds of its pieces, so a group is read as its pieces between commas
from left to right.
-/

namespace AwkStartup
namespace Group

variable {table : List (Abbreviation.Keyword ImplementationOption)} {group : String}

/-- The pieces of a group between its commas. -/
def pieces (group : String) : List (List Char) :=
  group.toList.splitOn ','

theorem join_pieces (group : String) : join (pieces group) = group.toList :=
  List.intercalate_splitOn ','

theorem noComma_of_mem_splitOn (s : List Char) : ∀ piece ∈ s.splitOn ',', ',' ∉ piece := by
  induction s with
  | nil => simp [List.splitOn_nil]
  | cons c s ih =>
    obtain ⟨first, later, hs⟩ := List.exists_cons_of_ne_nil (List.splitOn_ne_nil ',' s)
    rw [hs] at ih
    obtain ⟨hfirst, hlater⟩ := List.forall_mem_cons.mp ih
    rw [List.splitOn_cons_eq_if_modifyHead, hs]
    split_ifs with hc
    · exact List.forall_mem_cons.mpr ⟨List.not_mem_nil, ih⟩
    · have hne : ',' ≠ c := fun h => hc (beq_iff_eq.mpr h.symm)
      rw [List.modifyHead_cons, List.forall_mem_cons, List.mem_cons, not_or]
      exact ⟨⟨hne, hfirst⟩, hlater⟩

theorem noComma_of_mem_pieces {piece : List Char} (h : piece ∈ pieces group) : ',' ∉ piece :=
  noComma_of_mem_splitOn _ piece h

/-- The offsets and readings of the rounds of pieces that stand after some text. -/
def pieceRounds (table : List (Abbreviation.Keyword ImplementationOption)) :
    List Char → List (List Char) → List (Nat × Reading)
  | _, [] => []
  | before, piece :: later =>
    if piece = [] then pieceRounds table (before ++ piece ++ [',']) later
    else if (readPiece table piece later).ending = .through then
      ((Text.encode before).length, readPiece table piece later) ::
        pieceRounds table (before ++ piece ++ [',']) later
    else [((Text.encode before).length, readPiece table piece later)]

def Round.asked (round : Round) : Nat × Reading :=
  (round.start, round.reading)

theorem roundsFrom_end {before : List Char} (h : group.toList = before) (fuel : Nat) :
    roundsFrom table group fuel (Text.encode before).length = [] := by
  cases fuel with
  | zero => rfl
  | succ fuel => rw [roundsFrom, round?_end h]

theorem roundsFrom_comma {before s : List Char} (h : group.toList = before ++ ',' :: s)
    (fuel : Nat) :
    roundsFrom table group fuel (Text.encode before).length =
      roundsFrom table group fuel (Text.encode (before ++ [','])).length := by
  cases fuel with
  | zero => rfl
  | succ fuel => rw [roundsFrom, roundsFrom, round?_comma h]

theorem length_join_le (piece : List Char) (later : List (List Char)) :
    piece.length + (join later).length ≤ (join (piece :: later)).length := by
  rw [join_cons, List.length_append]
  cases later with
  | nil => simp [join]
  | cons next later =>
    rw [join_cons]
    simp only [List.flatMap_cons, List.length_append, List.length_cons]
    omega

theorem roundsFrom_eq_pieceRounds (rest : List (List Char)) (before : List Char) (fuel : Nat)
    (htext : group.toList = before ++ join rest) (hcomma : ∀ piece ∈ rest, ',' ∉ piece)
    (hfuel : (join rest).length < fuel) :
    (roundsFrom table group fuel (Text.encode before).length).map Round.asked =
      pieceRounds table before rest := by
  induction rest generalizing before fuel with
  | nil =>
    rw [roundsFrom_end (by simpa [join] using htext)]
    rfl
  | cons piece later ih =>
    -- After the piece, reading is at the end or before the comma of the next piece.
    have hlater : ∀ fuel, (join later).length < fuel →
        (roundsFrom table group fuel (Text.encode (before ++ piece)).length).map Round.asked =
          pieceRounds table (before ++ piece ++ [',']) later := by
      intro fuel hfuel
      cases later with
      | nil =>
        rw [roundsFrom_end (by simpa [join] using htext)]
        rfl
      | cons next later =>
        have hnext : group.toList = (before ++ piece) ++ ',' :: join (next :: later) := by
          rw [htext, join, List.intercalate_cons_cons]
          simp [join]
        rw [roundsFrom_comma hnext]
        apply ih _ _ _ (fun p hp => hcomma p (List.mem_cons_of_mem _ hp)) hfuel
        rw [hnext]
        simp
    have hlen := length_join_le piece later
    by_cases hempty : piece = []
    · have h := hlater fuel (by omega)
      rw [hempty, List.append_nil] at h
      rw [pieceRounds, if_pos hempty, hempty, List.append_nil]
      exact h
    · have hat : At group before piece later := ⟨htext, hempty, hcomma piece List.mem_cons_self⟩
      have hpos := List.length_pos_iff.mpr hempty
      obtain ⟨n, rfl⟩ : ∃ n, fuel = n + 1 := ⟨fuel - 1, by omega⟩
      obtain ⟨round, hround, hreads⟩ : ∃ round, round? table group (Text.encode before).length =
          some round ∧ round.Reads before piece (readPiece table piece later) := hat.round?
      have hasked : round.asked = ((Text.encode before).length, readPiece table piece later) := by
        rw [Round.asked, hreads.start, hreads.reading]
      rw [roundsFrom, hround, pieceRounds, if_neg hempty]
      dsimp only
      rw [hreads.reading]
      split_ifs with hthrough
      · rw [List.map_cons, hasked, hreads.next hthrough, hlater n (by omega)]
      · rw [List.map_singleton, hasked]

theorem rounds_eq_pieceRounds (group : String) :
    (rounds table group).map Round.asked = pieceRounds table [] (pieces group) := by
  refine roundsFrom_eq_pieceRounds (pieces group) [] _ ?_ ?_ ?_
  · rw [join_pieces]
    rfl
  · intro piece hpiece
    exact noComma_of_mem_pieces hpiece
  · have hle (s : List Char) : s.length ≤ (Text.encode s).length := by
      induction s with
      | nil => simp
      | cons c s ih =>
        have hpos := c.utf8Size_pos
        simp only [List.length_cons, Text.encode_cons, List.length_append,
          String.length_utf8EncodeChar]
        omega
    rw [join_pieces]
    exact Nat.lt_succ_of_le (hle group.toList)

theorem readPieces_eq_foldr (before : List Char) (rest : List (List Char)) :
    readPieces table rest =
      (pieceRounds table before rest).foldr (fun round reading => round.2.andThen reading) .empty := by
  induction rest generalizing before with
  | nil => rfl
  | cons piece later ih =>
    rw [readPieces, pieceRounds]
    split_ifs with hempty hthrough
    · exact ih _
    · rw [ih (before ++ piece ++ [','])]
      rfl
    · rw [Reading.andThen_of_ne_through hthrough]
      exact (Reading.andThen_of_ne_through hthrough _).symm

/-- A group is read as its pieces from left to right. -/
theorem read_eq_readPieces (group : String) :
    read table group = readPieces table (pieces group) := by
  rw [read_eq_joined, readPieces_eq_foldr [], ← rounds_eq_pieceRounds, List.foldr_map]
  rfl

end Group
end AwkStartup
