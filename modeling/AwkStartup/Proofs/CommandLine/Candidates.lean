import AwkStartup.Proofs.CommandLine.Resolution
import AwkStartup.Proofs.CommandLine.ScannedPieces
import AwkStartup.Proofs.Text.Runs

/-!
# Candidates of any table

A candidate stands for the keywords of a table whose names begin with it, byte for byte, when its
letters are in upper case. That is all it depends on, so the case of letters means nothing, and a
longer candidate stands for fewer keywords.
-/

namespace AwkStartup
namespace Abbreviation

variable {α : Type} {table : List (Keyword α)} {text other : List UInt8} {offset : Nat}
  {commas candidate rest more : List UInt8}

/-- The keywords of a table whose names begin with a candidate in upper case. -/
def begunBy (table : List (Keyword α)) (candidate : List UInt8) : List (Keyword α) :=
  table.filter fun k => candidate.map upper <+: Text.bytes k.name

/-- What a candidate stands for that some keywords begin with. -/
inductive Stands : List (Keyword α) → Resolution α → Prop
  | unknown : Stands [] .unknown
  | unique (k) : Stands [k] (.unique k.code)
  | ambiguous (k l more) : Stands (k :: l :: more) (.ambiguous k.code k.name l.name)

/-- From an offset on, a text has commas, a candidate and a rest. The candidate has no comma and no
equals sign, it ends before one or with the text, and it is only empty before an equals sign. -/
structure Splits (text : List UInt8) (offset : Nat) (commas candidate rest : List UInt8) :
    Prop where
  drop_eq : text.drop offset = commas ++ (candidate ++ rest)
  isComma : ∀ b ∈ commas, b = comma
  inside : ∀ b ∈ candidate, b ≠ comma ∧ b ≠ equals
  starts : ∃ b, (candidate ++ rest).head? = some b ∧ b ≠ comma
  ends : ∀ b, rest.head? = some b → b = comma ∨ b = equals

section Matching

theorem abbreviates_iff_isPrefix {name : List UInt8} :
    abbreviates candidate name = true ↔ candidate.map upper <+: name := by
  induction candidate generalizing name with
  | nil => simp [abbreviates]
  | cons b candidate ih =>
    cases name with
    | nil => simp [abbreviates]
    | cons n name =>
      rw [abbreviates_cons, Bool.and_eq_true, beq_iff_eq, ih, List.map_cons, List.cons_prefix_cons]

theorem candidates_eq_begunBy (table : List (Keyword α)) (candidate : List UInt8) :
    candidates table candidate = begunBy table candidate := by
  apply List.filter_congr
  intro k _
  rw [Bool.eq_iff_iff, decide_eq_true_iff]
  exact abbreviates_iff_isPrefix

/-- A candidate is resolved by the keywords that begin with it, and in one way. -/
theorem stands_iff {resolution : Resolution α} :
    Stands (begunBy table candidate) resolution ↔ resolution = resolve table candidate := by
  rw [resolve, candidates_eq_begunBy]
  generalize begunBy table candidate = found
  constructor
  · rintro (_ | k | ⟨k, l, more⟩)
    · rfl
    · rfl
    · rfl
  · rintro rfl
    match found with
    | [] => exact .unknown
    | [k] => exact .unique k
    | k :: l :: more => exact .ambiguous k l more

theorem begunBy_append_sublist (table : List (Keyword α)) (candidate more : List UInt8) :
    (begunBy table (candidate ++ more)).Sublist (begunBy table candidate) := by
  apply List.monotone_filter_right
  intro k hk
  rw [decide_eq_true_iff, List.map_append] at hk
  exact decide_eq_true ((List.prefix_append _ _).trans hk)

/-- Nothing is begun by more than nothing, and of one keyword that one or nothing is left. -/
theorem Stands.narrow {found fewer : List (Keyword α)} {resolution narrowed : Resolution α}
    (h : Stands found resolution) (hfewer : Stands fewer narrowed) (hsub : fewer.Sublist found) :
    (resolution = .unknown → narrowed = .unknown) ∧
      ∀ code, resolution = .unique code → narrowed = .unique code ∨ narrowed = .unknown := by
  cases h with
  | unknown =>
    obtain rfl := List.sublist_nil.mp hsub
    cases hfewer
    exact ⟨fun _ => rfl, nofun⟩
  | unique k =>
    refine ⟨nofun, ?_⟩
    rintro code ⟨⟩
    rcases List.sublist_singleton.mp hsub with rfl | rfl
    · cases hfewer
      exact Or.inr rfl
    · cases hfewer
      exact Or.inl rfl
  | ambiguous k l more => exact ⟨nofun, nofun⟩

end Matching

section Splitting

theorem endsCandidate_eq_false_iff {b : UInt8} :
    endsCandidate b = false ↔ b ≠ comma ∧ b ≠ equals := by
  simp [endsCandidate]

theorem endsCandidate_eq_true_iff {b : UInt8} :
    endsCandidate b = true ↔ b = comma ∨ b = equals := by
  simp [endsCandidate]

theorem Splits.skipCommas_eq (h : Splits text offset commas candidate rest) :
    skipCommas text offset = offset + commas.length := by
  obtain ⟨first, hfirst, hne⟩ := h.starts
  have hrun : ∀ b ∈ commas, (b == comma) = true := fun b hb => beq_iff_eq.mpr (h.isComma b hb)
  have hstop : ∀ b, (candidate ++ rest).head? = some b → (b == comma) = false := by
    intro b hb
    obtain rfl := Option.some.inj (hfirst.symm.trans hb)
    exact beq_eq_false_iff_ne.mpr hne
  rw [skipCommas, h.drop_eq, Text.takeWhile_append_of_run hrun hstop]

theorem Splits.candidateAt_eq (h : Splits text offset commas candidate rest) :
    candidateAt text (offset + commas.length) = candidate := by
  rw [candidateAt, ← List.drop_drop, h.drop_eq, List.drop_left]
  apply Text.takeWhile_append_of_run
  · intro b hb
    rw [endsCandidate_eq_false_iff.mpr (h.inside b hb)]
    rfl
  · intro b hb
    rw [endsCandidate_eq_true_iff.mpr (h.ends b hb)]
    rfl

theorem Splits.parse?_eq (h : Splits text offset commas candidate rest)
    (table : List (Keyword α)) :
    parse? table text offset =
      some ⟨resolve table candidate, offset + commas.length,
        offset + commas.length + candidate.length⟩ := by
  obtain ⟨first, hfirst, -⟩ := h.starts
  have hlength : ¬text.length ≤ offset + commas.length := by
    intro hle
    have hnil : candidate ++ rest = [] := by
      have hbehind : (commas ++ (candidate ++ rest)).drop commas.length = candidate ++ rest :=
        List.drop_left
      rw [← hbehind, ← h.drop_eq, List.drop_drop, List.drop_eq_nil_of_le hle]
    rw [hnil] at hfirst
    cases hfirst
  unfold parse?
  dsimp only
  rw [h.skipCommas_eq, if_neg hlength, h.candidateAt_eq]

theorem exists_splits {p : Parsed α} (h : parse? table text offset = some p) :
    ∃ commas candidate rest, Splits text offset commas candidate rest := by
  have hcommas := List.takeWhile_append_dropWhile (p := (· == comma)) (l := text.drop offset)
  have hcandidate := List.takeWhile_append_dropWhile (p := fun b => !endsCandidate b)
    (l := (text.drop offset).dropWhile (· == comma))
  refine ⟨(text.drop offset).takeWhile (· == comma),
    ((text.drop offset).dropWhile (· == comma)).takeWhile fun b => !endsCandidate b,
    ((text.drop offset).dropWhile (· == comma)).dropWhile fun b => !endsCandidate b,
    ?_, ?_, ?_, ?_, ?_⟩
  · rw [hcandidate, hcommas]
  · intro b hb
    have hcomma := List.mem_takeWhile_imp hb
    exact beq_iff_eq.mp hcomma
  · intro b hb
    rw [← endsCandidate_eq_false_iff]
    simpa using List.mem_takeWhile_imp hb
  · rw [hcandidate]
    have hne : (text.drop offset).dropWhile (· == comma) ≠ [] := by
      intro hnil
      have hnone : parse? table text offset = none := by
        rw [parse?_eq_none_iff]
        intro b hb
        exact beq_iff_eq.mp (List.dropWhile_eq_nil_iff.mp hnil b hb)
      rw [hnone] at h
      cases h
    obtain ⟨b, later, hlater⟩ := List.exists_cons_of_ne_nil hne
    have hfirst : ((text.drop offset).dropWhile (· == comma)).head? = some b := by
      rw [hlater]
      rfl
    have hstop := Text.eq_false_of_head?_dropWhile hfirst
    exact ⟨b, hfirst, beq_eq_false_iff_ne.mp hstop⟩
  · intro b hb
    rw [← endsCandidate_eq_true_iff]
    simpa using Text.eq_false_of_head?_dropWhile hb

/-- What is parsed is the candidate of the text from an offset on, resolved by the keywords that
begin with it. -/
theorem parse?_eq_some_iff {p : Parsed α} :
    parse? table text offset = some p ↔
      ∃ commas candidate rest, Splits text offset commas candidate rest ∧
        p.start = offset + commas.length ∧ p.stop = p.start + candidate.length ∧
        Stands (begunBy table candidate) p.resolution := by
  constructor
  · intro h
    obtain ⟨commas, candidate, rest, hsplits⟩ := exists_splits h
    obtain rfl := Option.some.inj ((hsplits.parse?_eq table).symm.trans h)
    exact ⟨commas, candidate, rest, hsplits, rfl, rfl, stands_iff.mpr rfl⟩
  · rintro ⟨commas, candidate, rest, hsplits, hstart, hstop, hresolution⟩
    obtain ⟨resolution, start, stop⟩ := p
    obtain rfl : start = offset + commas.length := hstart
    obtain rfl : stop = offset + commas.length + candidate.length := hstop
    rw [hsplits.parse?_eq, ← stands_iff.mp hresolution]

theorem Splits.extend (h : Splits text offset commas candidate rest)
    (hmore : ∀ b ∈ more, b ≠ comma ∧ b ≠ equals)
    (hdrop : other.drop offset = commas ++ ((candidate ++ more) ++ rest)) :
    Splits other offset commas (candidate ++ more) rest := by
  refine ⟨hdrop, h.isComma, ?_, ?_, h.ends⟩
  · intro b hb
    rcases List.mem_append.mp hb with hcandidate | hlonger
    · exact h.inside b hcandidate
    · exact hmore b hlonger
  · cases candidate with
    | cons b candidate => exact ⟨b, rfl, (h.inside b List.mem_cons_self).1⟩
    | nil =>
      cases more with
      | nil => exact h.starts
      | cons b more => exact ⟨b, rfl, (hmore b List.mem_cons_self).1⟩

end Splitting

section Case

theorem upper_eq_iff {b sign : UInt8} (hsign : sign.toNat < 65) : upper b = sign ↔ b = sign := by
  rw [← UInt8.toNat_inj, ← UInt8.toNat_inj, toNat_upper]
  split_ifs with hletter
  · omega
  · rfl

@[simp] theorem upper_upper (b : UInt8) : upper (upper b) = upper b := by
  rw [← UInt8.toNat_inj, toNat_upper (upper b), toNat_upper]
  split_ifs <;> omega

theorem skipCommas_map_upper (text : List UInt8) (offset : Nat) :
    skipCommas (text.map upper) offset = skipCommas text offset := by
  have hcomma : ((· == comma) ∘ upper) = (· == comma) := by
    funext b
    rw [Function.comp_apply, Bool.eq_iff_iff, beq_iff_eq, beq_iff_eq]
    exact upper_eq_iff (by decide)
  rw [skipCommas, ← List.map_drop, List.takeWhile_map, hcomma, List.length_map]
  rfl

theorem candidateAt_map_upper (text : List UInt8) (start : Nat) :
    candidateAt (text.map upper) start = (candidateAt text start).map upper := by
  have hends : ((fun b => !endsCandidate b) ∘ upper) = fun b => !endsCandidate b := by
    funext b
    rw [Function.comp_apply, Bool.not_inj_iff, Bool.eq_iff_iff, endsCandidate_eq_true_iff,
      endsCandidate_eq_true_iff, upper_eq_iff (by decide), upper_eq_iff (by decide)]
  rw [candidateAt, ← List.map_drop, List.takeWhile_map, hends]
  rfl

theorem resolve_map_upper (table : List (Keyword α)) (candidate : List UInt8) :
    resolve table (candidate.map upper) = resolve table candidate := by
  have hsame : candidates table (candidate.map upper) = candidates table candidate := by
    simp only [candidates_eq_begunBy, begunBy, List.map_map, Function.comp_def, upper_upper]
  unfold resolve
  rw [hsame]

theorem parse?_map_upper (table : List (Keyword α)) (text : List UInt8) (offset : Nat) :
    parse? table (text.map upper) offset = parse? table text offset := by
  unfold parse?
  rw [skipCommas_map_upper, List.length_map]
  dsimp only
  rw [candidateAt_map_upper, resolve_map_upper, List.length_map]

theorem map_upper_utf8EncodeChar (c : Char) :
    (String.utf8EncodeChar c).map upper = String.utf8EncodeChar c.toUpper := by
  have hfolded := toNat_toUpper c
  by_cases hc : c.toNat < 128
  · have hupper : c.toUpper.toNat < 128 := by
      rw [hfolded]
      split_ifs <;> omega
    rw [Text.utf8EncodeChar_ascii hc, Text.utf8EncodeChar_ascii hupper, List.map_singleton,
      (upper_of_toUpper hupper rfl).2]
  · rw [if_neg (by omega), Char.toNat_inj] at hfolded
    rw [hfolded]
    refine (List.map_congr_left ?_).trans (List.map_id _)
    intro b hb
    have hbeyond := Text.le_of_mem_utf8EncodeChar (not_lt.mp hc) hb
    rw [UInt8.le_iff_toNat_le] at hbeyond
    change 128 ≤ b.toNat at hbeyond
    rw [← UInt8.toNat_inj, toNat_upper, if_neg (by omega)]
    rfl

theorem map_upper_encode (s : List Char) :
    (Text.encode s).map upper = Text.encode (s.map Char.toUpper) := by
  induction s with
  | nil => rfl
  | cons c s ih =>
    rw [Text.encode_cons, List.map_append, ih, map_upper_utf8EncodeChar]
    rfl

end Case

/-- Candidates are resolved exactly, and only narrowed. What is parsed from an offset of a text on is
the candidate there, and it stands for what the keywords say whose names begin with it in upper case.
A longer candidate begins fewer names, so it stands for nothing when the candidate does, and for the
same keyword or nothing when the candidate stands for one. Texts that differ only in the case of ASCII
letters are parsed alike. -/
theorem resolution_is_exact_and_narrows (table : List (Keyword α)) :
    (∀ text offset (p : Parsed α), parse? table text offset = some p ↔
        ∃ commas candidate rest, Splits text offset commas candidate rest ∧
          p.start = offset + commas.length ∧ p.stop = p.start + candidate.length ∧
          Stands (begunBy table candidate) p.resolution) ∧
      (∀ candidate more,
        (begunBy table (candidate ++ more)).Sublist (begunBy table candidate)) ∧
      (∀ text longer offset commas candidate more rest,
        Splits text offset commas candidate rest → (∀ b ∈ more, b ≠ comma ∧ b ≠ equals) →
        longer.drop offset = commas ++ ((candidate ++ more) ++ rest) →
        ∃ p q : Parsed α, parse? table text offset = some p ∧
          parse? table longer offset = some q ∧ q.start = p.start ∧
          q.stop = p.stop + more.length ∧ (p.resolution = .unknown → q.resolution = .unknown) ∧
          ∀ code, p.resolution = .unique code →
            q.resolution = .unique code ∨ q.resolution = .unknown) ∧
      ∀ s t : String, s.toList.map Char.toUpper = t.toList.map Char.toUpper →
        ∀ offset, parse? table (Text.bytes s) offset = parse? table (Text.bytes t) offset := by
  refine ⟨fun text offset p => parse?_eq_some_iff, begunBy_append_sublist table, ?_, ?_⟩
  · intro text longer offset commas candidate more rest hsplits hmore hdrop
    have hlonger := hsplits.extend hmore hdrop
    have hstands : Stands (begunBy table candidate) (resolve table candidate) :=
      stands_iff.mpr rfl
    refine ⟨_, _, hsplits.parse?_eq table, hlonger.parse?_eq table, rfl, ?_, ?_⟩
    · dsimp only
      rw [List.length_append]
      omega
    · exact hstands.narrow (stands_iff.mpr rfl) (begunBy_append_sublist table candidate more)
  · intro s t hcase offset
    rw [← parse?_map_upper, Text.bytes, map_upper_encode, hcase, ← map_upper_encode,
      parse?_map_upper]
    rfl

-- A keyword twice, one that begins another, an empty name, and a name beyond ASCII.
example :
    let table : List (Keyword Nat) := [⟨"RED", 0⟩, ⟨"REÉ", 1⟩, ⟨"", 2⟩, ⟨"RED", 3⟩, ⟨"REDO", 4⟩]
    (["=", "re", "rEd", "redo", "reÉ", "reé", "é"].map fun s =>
        (parse? table (Text.bytes s) 0).map (·.resolution)) =
      [some (.ambiguous 0 "RED" "REÉ"), some (.ambiguous 0 "RED" "REÉ"),
        some (.ambiguous 0 "RED" "RED"), some (.unique 4), some (.unique 1), some .unknown,
        some .unknown] := by
  decide +kernel

end Abbreviation
end AwkStartup
