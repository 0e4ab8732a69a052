import AwkStartup.CommandLine.Abbreviation
import Mathlib.Data.List.TakeWhile
import Mathlib.Tactic

/-!
# The pieces that scanning a group finds

Candidates are found by three scans over byte offsets: past commas, to the end of a candidate, and
to the end of its value. Whatever bytes the text is made of, the scans agree on its pieces, which are
the runs of bytes between commas that are not empty, and they come to the end of the text.
-/

namespace AwkStartup
namespace Abbreviation

section Runs

variable {r : UInt8 → Bool} {text : List UInt8} {offset : Nat}

/-- Where a run of bytes ends that starts at an offset. -/
def runEnd (r : UInt8 → Bool) (text : List UInt8) (offset : Nat) : Nat :=
  offset + ((text.drop offset).takeWhile r).length

theorem le_runEnd (r : UInt8 → Bool) (text : List UInt8) (offset : Nat) :
    offset ≤ runEnd r text offset :=
  Nat.le_add_right _ _

theorem runEnd_le_length (r : UInt8 → Bool) (h : offset ≤ text.length) :
    runEnd r text offset ≤ text.length := by
  have hle := (List.takeWhile_prefix r (l := text.drop offset)).length_le
  rw [List.length_drop] at hle
  unfold runEnd
  omega

theorem getElem?_add_eq (r : UInt8 → Bool) (text : List UInt8) (offset i : Nat) :
    text[offset + i]? =
      ((text.drop offset).takeWhile r ++ (text.drop offset).dropWhile r)[i]? := by
  rw [List.takeWhile_append_dropWhile, List.getElem?_drop]

theorem exists_of_lt_runEnd {i : Nat} (hle : offset ≤ i) (hlt : i < runEnd r text offset) :
    ∃ b, text[i]? = some b ∧ r b = true := by
  obtain ⟨j, rfl⟩ := Nat.exists_eq_add_of_le hle
  have hj : j < ((text.drop offset).takeWhile r).length := by
    unfold runEnd at hlt
    omega
  refine ⟨((text.drop offset).takeWhile r)[j], ?_, ?_⟩
  · rw [getElem?_add_eq r, List.getElem?_append_left hj, List.getElem?_eq_getElem hj]
  · exact List.mem_takeWhile_imp (List.getElem_mem hj)

theorem eq_false_of_getElem?_runEnd {b : UInt8} (h : text[runEnd r text offset]? = some b) :
    r b = false := by
  rw [runEnd, getElem?_add_eq r, List.getElem?_append_right le_rfl, Nat.sub_self,
    ← List.head?_eq_getElem?] at h
  have hhead := List.head?_dropWhile_not r (text.drop offset)
  rw [h] at hhead
  exact hhead

theorem lt_runEnd {b : UInt8} (h : text[offset]? = some b) (hb : r b = true) :
    offset < runEnd r text offset := by
  refine lt_of_le_of_ne (le_runEnd r text offset) ?_
  intro heq
  rw [heq] at h
  rw [eq_false_of_getElem?_runEnd h] at hb
  cases hb

theorem mem_drop_of_getElem? {i : Nat} {b : UInt8} (hle : offset ≤ i) (h : text[i]? = some b) :
    b ∈ text.drop offset := by
  obtain ⟨j, rfl⟩ := Nat.exists_eq_add_of_le hle
  rw [← List.getElem?_drop] at h
  exact List.mem_of_getElem? h

theorem getElem?_of_lt_skipCommas {i : Nat} (hle : offset ≤ i) (hlt : i < skipCommas text offset) :
    text[i]? = some comma := by
  have hrun : i < runEnd (· == comma) text offset := hlt
  obtain ⟨b, hb, hcomma⟩ := exists_of_lt_runEnd hle hrun
  rw [hb, beq_iff_eq.mp hcomma]

theorem getElem?_skipCommas_ne (text : List UInt8) (offset : Nat) :
    text[skipCommas text offset]? ≠ some comma := by
  intro hcomma
  have hrun : text[runEnd (· == comma) text offset]? = some comma := hcomma
  cases eq_false_of_getElem?_runEnd hrun

end Runs

variable {α : Type} {table : List (Keyword α)} {text : List UInt8}

theorem parse?_eq_none_iff (table : List (Keyword α)) (text : List UInt8) (offset : Nat) :
    parse? table text offset = none ↔ ∀ b ∈ text.drop offset, b = comma := by
  have hnone : parse? table text offset = none ↔ text.length ≤ skipCommas text offset := by
    unfold parse?
    dsimp only
    split_ifs with hlength
    · simp [hlength]
    · simp [hlength]
  rw [hnone]
  constructor
  · intro hlength b hb
    obtain ⟨i, hi⟩ := List.mem_iff_getElem?.mp hb
    rw [List.getElem?_drop] at hi
    have hlt := (List.getElem?_eq_some_iff.mp hi).1
    have hcomma := getElem?_of_lt_skipCommas (Nat.le_add_right offset i) (lt_of_lt_of_le hlt hlength)
    exact Option.some.inj (hi.symm.trans hcomma)
  · intro hcommas
    by_contra hlength
    have hbyte := List.getElem?_eq_getElem (Nat.lt_of_not_le hlength)
    rw [hcommas _ (mem_drop_of_getElem? (Nat.le_add_right offset _) hbyte)] at hbyte
    exact getElem?_skipCommas_ne text offset hbyte

/-- What is known of a candidate that is parsed from an offset on. -/
structure Finds (table : List (Keyword α)) (text : List UInt8) (offset : Nat) (p : Parsed α) :
    Prop where
  offset_le : offset ≤ p.start
  commas : ∀ i, offset ≤ i → i < p.start → text[i]? = some comma
  start_lt : p.start < text.length
  start_ne : text[p.start]? ≠ some comma
  start_le : p.start ≤ p.stop
  stop_le : p.stop ≤ text.length
  inside : ∀ i, p.start ≤ i → i < p.stop → text[i]? ≠ some comma ∧ text[i]? ≠ some equals
  ends : ∀ b, text[p.stop]? = some b → b = comma ∨ b = equals
  resolution : p.resolution = resolve table ((text.drop p.start).take (p.stop - p.start))

theorem finds_of_parse? {offset : Nat} {p : Parsed α} (h : parse? table text offset = some p) :
    Finds table text offset p := by
  unfold parse? at h
  dsimp only at h
  split_ifs at h with hlength
  have hstart : skipCommas text offset < text.length := Nat.lt_of_not_le hlength
  obtain rfl := Option.some.inj h
  refine ⟨le_runEnd _ _ _, fun i => getElem?_of_lt_skipCommas, hstart,
    getElem?_skipCommas_ne text offset, Nat.le_add_right _ _, runEnd_le_length _ hstart.le, ?_, ?_,
    ?_⟩
  · intro i hle hlt
    obtain ⟨b, hb, hinside⟩ := exists_of_lt_runEnd hle hlt
    rw [hb]
    constructor
    · rintro ⟨⟩
      cases hinside
    · rintro ⟨⟩
      cases hinside
  · intro b hb
    have hends := eq_false_of_getElem?_runEnd (r := fun b => !endsCandidate b) hb
    simpa [endsCandidate, or_iff_not_imp_left] using hends
  · dsimp only
    rw [Nat.add_sub_cancel_left]
    congr 1
    exact List.prefix_iff_eq_take.mp (List.takeWhile_prefix _)

theorem Finds.start_lt_stop {offset : Nat} {p : Parsed α} (h : Finds table text offset p)
    (hne : text[p.stop]? ≠ some equals) : p.start < p.stop := by
  refine lt_of_le_of_ne h.start_le ?_
  intro heq
  obtain ⟨b, hb⟩ : ∃ b, text[p.start]? = some b := ⟨_, List.getElem?_eq_getElem h.start_lt⟩
  have hstop := heq ▸ hb
  rcases h.ends b hstop with rfl | rfl
  · exact h.start_ne hb
  · exact hne hstop

/-- A piece takes the bytes from an offset up to another: some bytes without commas, between commas
or the ends of the text. -/
structure IsPiece (text : List UInt8) (first last : Nat) : Prop where
  first_lt : first < last
  last_le : last ≤ text.length
  noComma : ∀ i, first ≤ i → i < last → text[i]? ≠ some comma
  before : first = 0 ∨ text[first - 1]? = some comma
  after : last = text.length ∨ text[last]? = some comma

/-- The candidate of a piece ends at its first equals sign, or else with the piece. -/
structure IsCandidateEnd (text : List UInt8) (first last stop : Nat) : Prop where
  first_le : first ≤ stop
  stop_le : stop ≤ last
  noEquals : ∀ i, first ≤ i → i < stop → text[i]? ≠ some equals
  ends : stop = last ∨ text[stop]? = some equals

/-- An offset where no piece goes on: the start, a comma or the end. -/
def IsBreak (text : List UInt8) (offset : Nat) : Prop :=
  offset = 0 ∨ offset = text.length ∨ text[offset]? = some comma

theorem Finds.exists_skipValue? {offset : Nat} {p : Parsed α} (h : Finds table text offset p) :
    ∃ next, skipValue? text p.stop = some next ∧ p.stop ≤ next ∧ p.start < next ∧
      next ≤ text.length ∧ (∀ i, p.start ≤ i → i < next → text[i]? ≠ some comma) ∧
      (next = text.length ∨ text[next]? = some comma) := by
  have hskip : skipValue? text p.stop = some (runEnd (· != comma) text p.stop) := by
    rw [skipValue?, if_neg (Nat.not_lt.mpr h.stop_le)]
    rfl
  have hle := le_runEnd (· != comma) text p.stop
  have hlength := runEnd_le_length (· != comma) h.stop_le
  refine ⟨_, hskip, hle, ?_, hlength, ?_, ?_⟩
  · by_cases hequals : text[p.stop]? = some equals
    · exact lt_of_le_of_lt h.start_le (lt_runEnd hequals (by decide))
    · exact lt_of_lt_of_le (h.start_lt_stop hequals) hle
  · intro i hstart hlt
    by_cases hstop : i < p.stop
    · exact (h.inside i hstart hstop).1
    · obtain ⟨b, hb, hcomma⟩ := exists_of_lt_runEnd (Nat.le_of_not_lt hstop) hlt
      rw [hb]
      rintro ⟨⟩
      cases hcomma
  · rcases hlength.eq_or_lt with heq | hlt
    · exact Or.inl heq
    · have hbyte := List.getElem?_eq_getElem hlt
      have hcomma := eq_false_of_getElem?_runEnd hbyte
      rw [bne_eq_false_iff_eq] at hcomma
      exact Or.inr (hbyte.trans (congrArg some hcomma))

/-- A skipped value ends at a comma or with the text. -/
theorem ne_equals_of_skipValue? {offset next : Nat} (h : skipValue? text offset = some next) :
    text[next]? ≠ some equals := by
  unfold skipValue? at h
  split_ifs at h
  obtain rfl := Option.some.inj h
  intro hequals
  cases eq_false_of_getElem?_runEnd (r := (· != comma)) hequals

/-- A candidate that is parsed where no piece goes on is that of a piece, and its value is skipped to
the end of the piece. -/
theorem Finds.exists_isPiece {offset : Nat} {p : Parsed α} (h : Finds table text offset p)
    (hbreak : IsBreak text offset) :
    ∃ next, skipValue? text p.stop = some next ∧ IsPiece text p.start next ∧
      IsCandidateEnd text p.start next p.stop := by
  obtain ⟨next, hskip, hstop, hlt, hlength, hcommas, hafter⟩ := h.exists_skipValue?
  refine ⟨next, hskip, ⟨hlt, hlength, hcommas, ?_, hafter⟩, ⟨h.start_le, hstop, ?_, ?_⟩⟩
  · rcases h.offset_le.lt_or_eq with hskipped | rfl
    · exact Or.inr (h.commas (p.start - 1) (by omega) (by omega))
    · rcases hbreak with hzero | hend | hcomma
      · exact Or.inl hzero
      · exact absurd hend h.start_lt.ne
      · exact absurd hcomma h.start_ne
  · intro i hle hi
    exact (h.inside i hle hi).2
  · rcases hstop.lt_or_eq with hvalue | rfl
    · have hbyte := List.getElem?_eq_getElem (lt_of_lt_of_le hvalue hlength)
      rcases h.ends _ hbyte with hcomma | hequals
      · rw [hcomma] at hbyte
        exact absurd hbyte (hcommas p.stop h.start_le hvalue)
      · rw [hequals] at hbyte
        exact Or.inr hbyte
    · exact Or.inl rfl

/-- A candidate has a usable value when its piece goes on after an equals sign, and not with another
one. -/
theorem IsCandidateEnd.hasValue_iff {first last stop : Nat}
    (h : IsCandidateEnd text first last stop) (hpiece : IsPiece text first last) :
    hasValue text stop = true ↔ stop + 1 < last ∧ text[stop + 1]? ≠ some equals := by
  have hlast : ∀ b, text[last]? = some b → b = comma := by
    intro b hb
    rcases hpiece.after with hend | hcomma
    · rw [hend, List.getElem?_eq_none le_rfl] at hb
      cases hb
    · exact Option.some.inj (hb.symm.trans hcomma)
  have hunfold : hasValue text stop = true ↔
      text[stop]? = some equals ∧ ∃ b, text[stop + 1]? = some b ∧ b ≠ equals ∧ b ≠ comma := by
    unfold hasValue
    cases text[stop + 1]? <;> simp
  rw [hunfold]
  constructor
  · rintro ⟨hequals, b, hb, hne, hcomma⟩
    have hstop : stop ≠ last := by
      rintro rfl
      exact absurd (hlast equals hequals) (by decide)
    have hnext : stop + 1 ≠ last := by
      rintro rfl
      exact hcomma (hlast b hb)
    have hle := h.stop_le
    refine ⟨by omega, ?_⟩
    rw [hb]
    rintro ⟨⟩
    exact hne rfl
  · rintro ⟨hlt, hne⟩
    have hle := h.first_le
    have hequals := h.ends.resolve_left (by omega)
    have hbyte := List.getElem?_eq_getElem (lt_of_lt_of_le hlt hpiece.last_le)
    refine ⟨hequals, _, hbyte, ?_, ?_⟩
    · intro heq
      rw [heq] at hbyte
      exact hne hbyte
    · intro heq
      rw [heq] at hbyte
      exact hpiece.noComma (stop + 1) (by omega) hlt hbyte

/-- The candidates from an offset on, each parsed after the value of the one before, until none is
left. There is no bound on how many there are. -/
inductive Scans (table : List (Keyword α)) (text : List UInt8) : Nat → List (Entry α) → Prop
  | done {offset} : parse? table text offset = none → Scans table text offset []
  | next {offset p next later} : parse? table text offset = some p →
      skipValue? text p.stop = some next → Scans table text next later →
      Scans table text offset (⟨p, hasValue text p.stop, next⟩ :: later)

/-- Every round goes on beyond its offset, so the bound on the rounds is never reached. -/
theorem scans_entriesFrom (fuel : Nat) {offset : Nat} (h : text.length < offset + fuel) :
    Scans table text offset (entriesFrom table text fuel offset) := by
  induction fuel generalizing offset with
  | zero =>
    have hnone : parse? table text offset = none := by
      rw [parse?_eq_none_iff, List.drop_eq_nil_of_le (by omega)]
      exact List.forall_mem_nil _
    exact .done hnone
  | succ fuel ih =>
    cases hp : parse? table text offset with
    | none =>
      rw [entriesFrom, hp]
      exact .done hp
    | some p =>
      have hfinds := finds_of_parse? hp
      obtain ⟨next, hskip, -, hlt, -⟩ := hfinds.exists_skipValue?
      have hle := hfinds.offset_le
      rw [entriesFrom, hp]
      dsimp only
      rw [hskip]
      exact .next hp hskip (ih (by omega))

/-- What an entry of a text says of its piece. -/
structure Entry.Describes (table : List (Keyword α)) (text : List UInt8) (e : Entry α) : Prop where
  piece : IsPiece text e.parsed.start e.skippedTo
  candidateEnd : IsCandidateEnd text e.parsed.start e.skippedTo e.parsed.stop
  resolution : e.parsed.resolution =
    resolve table ((text.drop e.parsed.start).take (e.parsed.stop - e.parsed.start))
  skipped : skipValue? text e.parsed.stop = some e.skippedTo
  valued : e.valued = hasValue text e.parsed.stop

theorem isBreak_of_piece {first last : Nat} (h : IsPiece text first last) : IsBreak text last :=
  Or.inr h.after

variable {offset : Nat} {found : List (Entry α)}

theorem Scans.describes (h : Scans table text offset found) (hbreak : IsBreak text offset) :
    ∀ e ∈ found, e.Describes table text ∧ offset ≤ e.parsed.start := by
  induction h with
  | done => exact List.forall_mem_nil _
  | @next offset p next later hp hskip _ ih =>
    have hfinds := finds_of_parse? hp
    obtain ⟨last, hlast, hpiece, hend⟩ := hfinds.exists_isPiece hbreak
    obtain rfl := Option.some.inj (hskip.symm.trans hlast)
    rw [List.forall_mem_cons]
    refine ⟨⟨⟨hpiece, hend, hfinds.resolution, hskip, rfl⟩, hfinds.offset_le⟩, ?_⟩
    intro e he
    obtain ⟨hdescribes, hle⟩ := ih (isBreak_of_piece hpiece) e he
    have hfirst := hpiece.first_lt
    have hoffset := hfinds.offset_le
    exact ⟨hdescribes, by omega⟩

theorem Scans.pairwise (h : Scans table text offset found) (hbreak : IsBreak text offset) :
    found.Pairwise fun e f => e.skippedTo < f.parsed.start := by
  induction h with
  | done => exact List.Pairwise.nil
  | @next offset p next later hp hskip hlater ih =>
    obtain ⟨last, hlast, hpiece, -⟩ := (finds_of_parse? hp).exists_isPiece hbreak
    obtain rfl := Option.some.inj (hskip.symm.trans hlast)
    have hnext := isBreak_of_piece hpiece
    refine List.pairwise_cons.mpr ⟨?_, ih hnext⟩
    intro e he
    obtain ⟨hdescribes, hle⟩ := hlater.describes hnext e he
    refine lt_of_le_of_ne hle ?_
    -- A piece starts neither at a comma nor at the end.
    intro heq
    have hlt := hdescribes.piece.first_lt
    have hlength := hdescribes.piece.last_le
    have hcomma := hdescribes.piece.noComma _ le_rfl hlt
    rw [← heq] at hlt hcomma
    rcases hpiece.after with hend | hafter
    · omega
    · exact hcomma hafter

/-- No piece is passed over. -/
theorem Scans.exists_of_isPiece (h : Scans table text offset found) {first last : Nat}
    (hpiece : IsPiece text first last) (hle : offset ≤ first) :
    ∃ e ∈ found, e.parsed.start = first ∧ e.skippedTo = last := by
  have hfirst := hpiece.first_lt
  have hlast := hpiece.last_le
  have hstart := hpiece.noComma first le_rfl hfirst
  induction h with
  | @done offset hnone =>
    have hbyte := List.getElem?_eq_getElem (lt_of_lt_of_le hfirst hlast)
    have hcommas := (parse?_eq_none_iff table text offset).mp hnone
    rw [hcommas _ (mem_drop_of_getElem? hle hbyte)] at hbyte
    exact absurd hbyte hstart
  | @next offset p next later hp hskip _ ih =>
    have hfinds := finds_of_parse? hp
    obtain ⟨stop, hstop, -, hlt, hlength, hcommas, hafter⟩ := hfinds.exists_skipValue?
    obtain rfl := Option.some.inj (hskip.symm.trans hstop)
    rcases lt_trichotomy first p.start with hbefore | heq | hbeyond
    · exact absurd (hfinds.commas first hle hbefore) hstart
    · subst heq
      refine ⟨_, List.mem_cons_self, rfl, ?_⟩
      -- Two pieces that start together end together.
      rcases lt_trichotomy next last with hshort | heq | hlong
      · rcases hafter with hend | hcomma
        · omega
        · exact absurd hcomma (hpiece.noComma next hlt.le hshort)
      · exact heq
      · rcases hpiece.after with hend | hcomma
        · omega
        · exact absurd hcomma (hcommas last hfirst.le hlong)
    · have hbreak := hpiece.before.resolve_left (by omega)
      have hnext : next ≤ first := by
        by_contra hinside
        exact hcommas (first - 1) (by omega) (by omega) hbreak
      obtain ⟨e, he, hsame⟩ := ih hnext
      exact ⟨e, List.mem_cons_of_mem _ he, hsame⟩

/-- Scanning a text from its start comes to an end, and finds exactly its pieces from left to right.
The candidate of a piece ends at its first equals sign, or else with the piece, its value is skipped
to the end of the piece, and the value is usable when it is not empty and does not start with another
equals sign. From any offset on, no candidate is left exactly when only commas are. -/
theorem scanning_finds_the_pieces (table : List (Keyword α)) (text : List UInt8) :
    Scans table text 0 (entries table text) ∧
      (∀ first last, IsPiece text first last ↔
        ∃ e ∈ entries table text, e.parsed.start = first ∧ e.skippedTo = last) ∧
      ((entries table text).Pairwise fun e f => e.skippedTo < f.parsed.start) ∧
      (∀ e ∈ entries table text, e.Describes table text ∧
        (hasValue text e.parsed.stop = true ↔
          e.parsed.stop + 1 < e.skippedTo ∧ text[e.parsed.stop + 1]? ≠ some equals)) ∧
      ∀ offset, parse? table text offset = none ↔ ∀ b ∈ text.drop offset, b = comma := by
  have hscans : Scans table text 0 (entries table text) := scans_entriesFrom _ (by omega)
  have hdescribes := hscans.describes (Or.inl rfl)
  refine ⟨hscans, ?_, hscans.pairwise (Or.inl rfl), ?_, parse?_eq_none_iff table text⟩
  · intro first last
    constructor
    · intro hpiece
      exact hscans.exists_of_isPiece hpiece (Nat.zero_le first)
    · rintro ⟨e, he, rfl, rfl⟩
      exact (hdescribes e he).1.piece
  · intro e he
    obtain ⟨hentry, -⟩ := hdescribes e he
    exact ⟨hentry, hentry.candidateEnd.hasValue_iff hentry.piece⟩

/-- A letter of two bytes in a value, repeated commas, and a candidate that is empty. -/
example :
    (entries [(⟨"RED", ()⟩ : Keyword Unit)] (Text.bytes ",re=é,,==2")).map
        (fun e => (e.parsed.start, e.parsed.stop, e.skippedTo, e.valued)) =
      [(1, 3, 6, true), (8, 8, 11, false)] := by
  decide

end Abbreviation
end AwkStartup
