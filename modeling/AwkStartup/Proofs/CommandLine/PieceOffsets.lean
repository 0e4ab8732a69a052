import AwkStartup.Proofs.CommandLine.Pieces
import AwkStartup.Proofs.Text.Offsets
import Mathlib.Data.List.TakeWhile

/-!
# Pieces at their offsets

Every offset that comes up in reading a group stands before a piece, before an equals sign, before
a comma or at the end, so no cut falls inside a character. A round from the offset of a piece
reads that piece.
-/

namespace AwkStartup
namespace Abbreviation

theorem takeWhile_comma (s : List Char) :
    (Text.encode s).takeWhile (· == comma) = Text.encode (s.takeWhile (· == ',')) := by
  apply Text.takeWhile_encode
  · intro c hc b hb
    rw [beq_iff_eq] at hc
    rw [hc, Text.utf8EncodeChar_ascii (by decide), List.mem_singleton] at hb
    exact beq_iff_eq.mpr hb
  · intro c hc b hb
    have hmem := List.mem_of_head? hb
    rw [beq_eq_false_iff_ne] at hc ⊢
    rintro rfl
    exact hc (Text.eq_of_mem_utf8EncodeChar (by decide) hmem)

theorem takeWhile_not_comma (s : List Char) :
    (Text.encode s).takeWhile (· != comma) = Text.encode (s.takeWhile (· != ',')) := by
  apply Text.takeWhile_encode
  · intro c hc b hb
    rw [bne_iff_ne] at hc ⊢
    rintro rfl
    exact hc (Text.eq_of_mem_utf8EncodeChar (by decide) hb)
  · intro c hc b hb
    rw [bne_eq_false_iff_eq] at hc ⊢
    subst hc
    exact (Option.some.inj hb).symm

theorem takeWhile_not_endsCandidate (s : List Char) :
    (Text.encode s).takeWhile (fun b => !endsCandidate b) =
      Text.encode (s.takeWhile fun c => c != ',' && c != '=') := by
  apply Text.takeWhile_encode
  · intro c hc b hb
    simp only [Bool.and_eq_true, bne_iff_ne] at hc
    simp only [endsCandidate, Bool.not_eq_true', Bool.or_eq_false_iff, beq_eq_false_iff_ne]
    constructor
    · rintro rfl
      exact hc.1 (Text.eq_of_mem_utf8EncodeChar (by decide) hb)
    · rintro rfl
      exact hc.2 (Text.eq_of_mem_utf8EncodeChar (by decide) hb)
  · intro c hc b hb
    simp only [Bool.and_eq_false_iff, bne_eq_false_iff_eq] at hc
    rcases hc with rfl | rfl
    · rw [← Option.some.inj hb]
      rfl
    · rw [← Option.some.inj hb]
      rfl

theorem hasValue_eq_any (text : List UInt8) (offset : Nat) :
    hasValue text offset =
      (text[offset]? == some equals && text[offset + 1]?.any fun b => b != equals && b != comma) := by
  unfold hasValue
  cases text[offset + 1]? <;> rfl

end Abbreviation

namespace Group

variable {table : List (Abbreviation.Keyword ImplementationOption)} {group : String}

/-- A piece stands in a group between commas, after some text. -/
structure At (group : String) (before piece : List Char) (later : List (List Char)) : Prop where
  text : group.toList = before ++ join (piece :: later)
  nonempty : piece ≠ []
  noComma : ',' ∉ piece

section Offsets

variable {before piece : List Char} {later : List (List Char)}

theorem head?_later (later : List (List Char)) :
    (later.flatMap (',' :: ·)).head? = none ∨ (later.flatMap (',' :: ·)).head? = some ',' := by
  cases later with
  | nil => exact Or.inl rfl
  | cons piece later => exact Or.inr rfl

theorem At.toList_eq (h : At group before piece later) :
    group.toList = before ++ (piece ++ later.flatMap (',' :: ·)) := by
  rw [h.text, join_cons]

theorem takeWhile_comma_piece (hne : piece ≠ []) (hcomma : ',' ∉ piece) (s : List Char) :
    (piece ++ s).takeWhile (· == ',') = [] := by
  obtain ⟨c, rest, rfl⟩ := List.exists_cons_of_ne_nil hne
  have hc : c ≠ ',' := fun hc => hcomma (by simp [hc])
  rw [List.cons_append, List.takeWhile_cons_of_neg (by simp [hc])]

theorem takeWhile_not_comma_piece (hcomma : ',' ∉ piece) (later : List (List Char)) :
    (piece ++ later.flatMap (',' :: ·)).takeWhile (· != ',') = piece := by
  rw [List.takeWhile_append_of_pos]
  · cases later with
    | nil => simp
    | cons next later => simp
  · intro c hc
    rw [bne_iff_ne]
    rintro rfl
    exact hcomma hc

theorem candidate_eq_takeWhile (hcomma : ',' ∉ piece) (later : List (List Char)) :
    (piece ++ later.flatMap (',' :: ·)).takeWhile (fun c => c != ',' && c != '=') =
      candidate piece := by
  have h := List.takeWhile_takeWhile (· != '=') (· != ',') (piece ++ later.flatMap (',' :: ·))
  rw [takeWhile_not_comma_piece hcomma] at h
  rw [candidate, h]
  congr 1
  funext c
  rw [Bool.and_comm, Bool.decide_and, Bool.decide_coe, Bool.decide_coe]

theorem At.bytes_eq (h : At group before piece later) :
    Text.bytes group = Text.encode (before ++ (piece ++ later.flatMap (',' :: ·))) := by
  rw [Text.bytes, h.toList_eq]

theorem At.drop_bytes (h : At group before piece later) :
    (Text.bytes group).drop (Text.encode before).length =
      Text.encode (piece ++ later.flatMap (',' :: ·)) := by
  rw [h.bytes_eq, Text.drop_encode_append]

theorem At.parse? (h : At group before piece later) :
    Abbreviation.parse? table (Text.bytes group) (Text.encode before).length =
      some ⟨Abbreviation.resolve table (Text.encode (candidate piece)), (Text.encode before).length,
        (Text.encode (before ++ candidate piece)).length⟩ := by
  have hskip : Abbreviation.skipCommas (Text.bytes group) (Text.encode before).length =
      (Text.encode before).length := by
    rw [Abbreviation.skipCommas, h.drop_bytes, Abbreviation.takeWhile_comma,
      takeWhile_comma_piece h.nonempty h.noComma]
    rfl
  have hcandidate : Abbreviation.candidateAt (Text.bytes group) (Text.encode before).length =
      Text.encode (candidate piece) := by
    rw [Abbreviation.candidateAt, h.drop_bytes, Abbreviation.takeWhile_not_endsCandidate,
      candidate_eq_takeWhile h.noComma]
  have hlen : ¬ (Text.bytes group).length ≤ (Text.encode before).length := by
    obtain ⟨c, rest, rfl⟩ := List.exists_cons_of_ne_nil h.nonempty
    have hpos := c.utf8Size_pos
    rw [h.bytes_eq]
    simp only [Text.encode_append, Text.encode_cons, List.length_append, List.cons_append,
      String.length_utf8EncodeChar]
    omega
  rw [Abbreviation.parse?, hskip]
  dsimp only
  rw [if_neg hlen, hcandidate, Text.encode_append, List.length_append]

/-- The offsets inside a piece: the bytes from there on are the rest of the piece and the later
pieces. -/
theorem At.bytes_within (h : At group before piece later) {a b : List Char} (hab : piece = a ++ b) :
    Text.bytes group = Text.encode ((before ++ a) ++ (b ++ later.flatMap (',' :: ·))) := by
  rw [h.bytes_eq, hab]
  simp only [List.append_assoc]

theorem At.getElem?_within (h : At group before piece later) {a b : List Char}
    (hab : piece = a ++ b) :
    (Text.bytes group)[(Text.encode (before ++ a)).length]? =
      (Text.encode (b ++ later.flatMap (',' :: ·))).head? := by
  rw [h.bytes_within hab, Text.getElem?_encode_append]

theorem At.skipValue? (h : At group before piece later) {a b : List Char} (hab : piece = a ++ b) :
    Abbreviation.skipValue? (Text.bytes group) (Text.encode (before ++ a)).length =
      some (Text.encode (before ++ piece)).length := by
  have hcomma : ',' ∉ b := fun hb => h.noComma (by simp [hab, hb])
  have hle : ¬ (Text.bytes group).length < (Text.encode (before ++ a)).length := by
    rw [h.bytes_within hab, Text.encode_append (before ++ a), List.length_append]
    omega
  rw [Abbreviation.skipValue?, if_neg hle, h.bytes_within hab, Text.drop_encode_append,
    Abbreviation.takeWhile_not_comma, takeWhile_not_comma_piece hcomma, ← List.length_append,
    ← Text.encode_append, hab, List.append_assoc]

theorem At.from?_within (h : At group before piece later) {a b : List Char} (hab : piece = a ++ b) :
    Text.from? group (Text.encode (before ++ a)).length =
      some (String.ofList (join (b :: later))) := by
  have htext : group = String.ofList ((before ++ a) ++ join (b :: later)) := by
    rw [← String.ofList_toList (s := group), h.toList_eq, hab, join_cons]
    simp only [List.append_assoc]
  rw [htext, Text.from?_ofList_append]

theorem encode_later_head?_ne_equals (later : List (List Char)) :
    (Text.encode (later.flatMap (',' :: ·))).head? ≠ some Abbreviation.equals := by
  intro heq
  have hhead := (Text.encode_head?_eq_iff (a := '=') (by decide) _).mp heq
  rcases head?_later later with h | h
  · rw [h] at hhead
    cases hhead
  · rw [h] at hhead
    cases hhead

theorem At.getElem?_end_ne_equals (h : At group before piece later) :
    (Text.bytes group)[(Text.encode (before ++ piece)).length]? ≠ some Abbreviation.equals := by
  rw [h.getElem?_within (List.append_nil piece).symm, List.nil_append]
  exact encode_later_head?_ne_equals later

theorem At.getElem?_eq_equals_iff (h : At group before piece later) :
    (Text.bytes group)[(Text.encode (before ++ candidate piece)).length]? = some Abbreviation.equals ↔
      (value? piece).isSome := by
  cases hv : value? piece with
  | none =>
    rw [candidate_of_value?_eq_none hv]
    simpa using h.getElem?_end_ne_equals
  | some value =>
    rw [h.getElem?_within (eq_candidate_append_of_value? hv)]
    simp only [Option.isSome_some, iff_true]
    exact (Text.encode_head?_eq_iff (a := '=') (by decide) _).mpr rfl

theorem head?_encode_usable {value : List Char} (hcomma : ',' ∉ value)
    (later : List (List Char)) :
    ((Text.encode (value ++ later.flatMap (',' :: ·))).head?.any fun b =>
      b != Abbreviation.equals && b != Abbreviation.comma) = isUsable value := by
  cases value with
  | nil =>
    cases later with
    | nil => rfl
    | cons piece later => rfl
  | cons c rest =>
    obtain ⟨b, bs, he⟩ := List.exists_cons_of_ne_nil (String.utf8EncodeChar_ne_nil (c := c))
    have hmem : b ∈ String.utf8EncodeChar c := he ▸ List.mem_cons_self
    have hb : b ≠ Abbreviation.comma := by
      rintro rfl
      have hc := Text.eq_of_mem_utf8EncodeChar (a := ',') (by decide) hmem
      exact hcomma (by simp [hc])
    have hequals : b = Abbreviation.equals ↔ c = '=' := by
      constructor
      · rintro rfl
        exact Text.eq_of_mem_utf8EncodeChar (by decide) hmem
      · rintro rfl
        exact (List.cons.inj he).1.symm
    have hbytes : (b != Abbreviation.equals) = (c != '=') := by
      rw [Bool.eq_iff_iff, bne_iff_ne, bne_iff_ne, not_iff_not]
      exact hequals
    simp [isUsable, he, hbytes, bne_iff_ne.mpr hb]
    rfl

theorem length_encode_equals (before : List Char) :
    (Text.encode (before ++ ['='])).length = (Text.encode before).length + 1 := by
  rw [Text.encode_append, List.length_append]
  rfl

theorem At.hasValue (h : At group before piece later) :
    Abbreviation.hasValue (Text.bytes group) (Text.encode (before ++ candidate piece)).length =
      (usable? piece).isSome := by
  have hiff := h.getElem?_eq_equals_iff
  rw [Abbreviation.hasValue_eq_any]
  cases hv : value? piece with
  | none =>
    rw [hv] at hiff
    have hne := mt hiff.mp (by simp)
    rw [beq_eq_false_iff_ne.mpr hne, usable?, hv]
    rfl
  | some value =>
    rw [hv] at hiff
    have hpiece := eq_candidate_equals_append hv
    have hcomma : ',' ∉ value := fun hmem => h.noComma (by rw [hpiece]; simp [hmem])
    rw [hiff.mpr rfl, ← length_encode_equals, List.append_assoc, h.getElem?_within hpiece,
      head?_encode_usable hcomma]
    simp [usable?, hv, Option.isSome_filter]

theorem At.from?_value (h : At group before piece later) {value : List Char}
    (hv : value? piece = some value) :
    Text.from? group ((Text.encode (before ++ candidate piece)).length + 1) =
      some (String.ofList (join (value :: later))) := by
  rw [← length_encode_equals, List.append_assoc,
    h.from?_within (eq_candidate_equals_append hv)]

theorem At.numeric (h : At group before piece later) (option : ImplementationOption)
    (directive : Int → Directive) :
    numeric group option (Text.encode (before ++ candidate piece)).length directive =
      match usable? piece with
      | some value =>
        .next [directive (Leading.integer value)] (Text.encode (before ++ piece)).length
      | none => .stop (.refused (.missingValue option)) := by
  unfold Group.numeric
  rw [h.hasValue]
  cases hu : usable? piece with
  | none => rfl
  | some value =>
    have hv := value?_of_usable? hu
    rw [h.from?_value hv, h.skipValue? (eq_candidate_append_of_value? hv)]
    simp [Leading.integer?_eq_some, integer_join]

theorem At.exec (h : At group before piece later) :
    exec group (Text.encode (before ++ candidate piece)).length =
      .exec ((usable? piece).map fun value => String.ofList (join (value :: later))) := by
  unfold Group.exec
  rw [h.hasValue]
  cases hu : usable? piece with
  | none => rfl
  | some value =>
    rw [h.from?_value (value?_of_usable? hu)]
    rfl

/-- Where a candidate ends, its value is surplus. -/
theorem At.surplus_candidate (h : At group before piece later) :
    surplus group (String.ofList (join (piece :: later)))
        (Text.encode (before ++ candidate piece)).length =
      some (surplusOf piece later, (Text.encode (before ++ piece)).length) := by
  unfold Group.surplus surplusOf
  have hiff := h.getElem?_eq_equals_iff
  cases hv : value? piece with
  | none =>
    rw [hv] at hiff
    rw [if_neg (mt hiff.mp (by simp)), candidate_of_value?_eq_none hv]
    rfl
  | some value =>
    rw [hv] at hiff
    rw [if_pos (hiff.mpr rfl), h.skipValue? (eq_candidate_append_of_value? hv)]
    rfl

theorem At.surplus_end (h : At group before piece later) (rest : String) :
    surplus group rest (Text.encode (before ++ piece)).length =
      some ([], (Text.encode (before ++ piece)).length) := by
  rw [Group.surplus, if_neg h.getElem?_end_ne_equals]

end Offsets

/-- A round that reads a piece: it starts with the piece, and goes on after it. -/
structure Round.Reads (round : Round) (before piece : List Char) (asked : Reading) : Prop where
  start : round.start = (Text.encode before).length
  reading : round.reading = asked
  next : asked.ending = .through → round.next = (Text.encode (before ++ piece)).length

section Rounds

variable {before piece : List Char} {later : List (List Char)}

theorem At.roundOf_directive (h : At group before piece later)
    (resolution : Abbreviation.Resolution ImplementationOption) {directive : Directive}
    (hact : act group (String.ofList (join (piece :: later)))
      (Text.encode (before ++ candidate piece)).length resolution.code? =
        .next [directive] (Text.encode (before ++ candidate piece)).length) :
    (roundOf group ⟨resolution, (Text.encode before).length,
        (Text.encode (before ++ candidate piece)).length⟩).Reads before piece
      ⟨doubts resolution ++ directive :: surplusOf piece later, .through⟩ := by
  have hrest := h.from?_within (a := []) rfl
  rw [List.append_nil] at hrest
  rw [roundOf_next hrest hact h.surplus_candidate]
  exact ⟨rfl, by simp, fun _ => rfl⟩

theorem At.roundOf_numeric (h : At group before piece later)
    (resolution : Abbreviation.Resolution ImplementationOption) (option : ImplementationOption)
    (directive : Int → Directive)
    (hact : act group (String.ofList (join (piece :: later)))
      (Text.encode (before ++ candidate piece)).length resolution.code? =
        Group.numeric group option (Text.encode (before ++ candidate piece)).length directive) :
    (roundOf group ⟨resolution, (Text.encode before).length,
        (Text.encode (before ++ candidate piece)).length⟩).Reads before piece
      ((numericPiece piece option directive).after (doubts resolution)) := by
  have hrest := h.from?_within (a := []) rfl
  rw [List.append_nil] at hrest
  rw [h.numeric] at hact
  unfold numericPiece
  cases hu : usable? piece with
  | none =>
    rw [hu] at hact
    rw [roundOf_stop hrest hact]
    exact ⟨rfl, by simp [Reading.after], fun hthrough => by cases hthrough⟩
  | some value =>
    rw [hu] at hact
    rw [roundOf_next hrest hact (h.surplus_end _)]
    exact ⟨rfl, by simp [Reading.after], fun _ => rfl⟩

theorem At.roundOf_stop (h : At group before piece later)
    (resolution : Abbreviation.Resolution ImplementationOption) {ending : Ending}
    (hact : act group (String.ofList (join (piece :: later)))
      (Text.encode (before ++ candidate piece)).length resolution.code? = .stop ending) :
    (roundOf group ⟨resolution, (Text.encode before).length,
        (Text.encode (before ++ candidate piece)).length⟩).Reads before piece
      ⟨doubts resolution, ending⟩ := by
  have hrest := h.from?_within (a := []) rfl
  rw [List.append_nil] at hrest
  rw [Group.roundOf_stop hrest hact]
  refine ⟨rfl, rfl, fun hthrough => ?_⟩
  dsimp only at hthrough
  rw [hthrough] at hact
  exact absurd hact (act_ne_stop_through _ _ _)

theorem At.roundOf (h : At group before piece later)
    (resolution : Abbreviation.Resolution ImplementationOption) :
    (roundOf group ⟨resolution, (Text.encode before).length,
        (Text.encode (before ++ candidate piece)).length⟩).Reads before piece
      ((optionPiece piece later resolution.code?).after (doubts resolution)) := by
  cases hcode : resolution.code? with
  | none =>
    apply h.roundOf_directive
    rw [hcode]
    rfl
  | some option =>
    cases option with
    | binmode =>
      apply h.roundOf_numeric
      rw [hcode]
      rfl
    | random =>
      apply h.roundOf_numeric
      rw [hcode]
      rfl
    | sprintf =>
      apply h.roundOf_numeric
      rw [hcode]
      rfl
    | help =>
      rw [optionPiece, Reading.after, List.append_nil]
      apply h.roundOf_stop
      rw [hcode]
      rfl
    | usage =>
      rw [optionPiece, Reading.after, List.append_nil]
      apply h.roundOf_stop
      rw [hcode]
      rfl
    | exec =>
      rw [optionPiece, Reading.after, List.append_nil]
      apply h.roundOf_stop
      rw [hcode, ← h.exec]
      rfl
    | version | dump | interactive | posixSpace =>
      apply h.roundOf_directive
      rw [hcode]
      rfl

theorem At.round? (h : At group before piece later) :
    ∃ round, round? table group (Text.encode before).length = some round ∧
      round.Reads before piece (readPiece table piece later) := by
  rw [Group.round?, h.parse?]
  exact ⟨_, rfl, h.roundOf _⟩

theorem parse?_comma {s : List Char} (h : group.toList = before ++ ',' :: s) :
    Abbreviation.parse? table (Text.bytes group) (Text.encode before).length =
      Abbreviation.parse? table (Text.bytes group) (Text.encode (before ++ [','])).length := by
  have hbytes : Text.bytes group = Text.encode ((before ++ [',']) ++ s) := by
    rw [Text.bytes, h, List.append_assoc]
    rfl
  have hskip : Abbreviation.skipCommas (Text.bytes group) (Text.encode before).length =
      Abbreviation.skipCommas (Text.bytes group) (Text.encode (before ++ [','])).length := by
    rw [Abbreviation.skipCommas, Abbreviation.skipCommas, hbytes, Text.drop_encode_append,
      List.append_assoc, Text.drop_encode_append]
    have hcomma : Text.encode ([','] ++ s) = Abbreviation.comma :: Text.encode s := rfl
    rw [hcomma, List.takeWhile_cons_of_pos (by simp), Text.encode_append,
      List.length_append, List.length_cons]
    change _ = _ + 1 + _
    omega
  rw [Abbreviation.parse?, Abbreviation.parse?, hskip]

theorem round?_comma {s : List Char} (h : group.toList = before ++ ',' :: s) :
    round? table group (Text.encode before).length =
      round? table group (Text.encode (before ++ [','])).length := by
  rw [round?, round?, parse?_comma h]

theorem round?_end (h : group.toList = before) :
    round? table group (Text.encode before).length = none := by
  have hle : (Text.bytes group).length ≤
      Abbreviation.skipCommas (Text.bytes group) (Text.encode before).length := by
    rw [Text.bytes, h]
    exact Nat.le_add_right _ _
  rw [round?, Abbreviation.parse?]
  dsimp only
  rw [if_pos hle]
  rfl

end Rounds

end Group
end AwkStartup
