import AwkStartup.CommandLine.Group
import Mathlib.Tactic

/-!
# The rounds of reading a group

Reading a group goes through it in rounds, one for each candidate. Each round knows the offset of
its candidate, and only the last round can end the group. The reading of a group is made of the
readings of its rounds.
-/

namespace AwkStartup
namespace Group

variable {table : List (Abbreviation.Keyword ImplementationOption)} {group : String}

/-- One reading, and the next one when it is read through. -/
def Reading.andThen (reading next : Reading) : Reading :=
  match reading.ending with
  | .through => next.after reading.directives
  | _ => reading

def Reading.empty : Reading :=
  ⟨[], .through⟩

theorem Reading.andThen_of_through {reading : Reading} (h : reading.ending = .through)
    (next : Reading) : reading.andThen next = next.after reading.directives := by
  simp [andThen, h]

theorem Reading.andThen_of_ne_through {reading : Reading} (h : reading.ending ≠ .through)
    (next : Reading) : reading.andThen next = reading := by
  unfold andThen
  split
  · exact absurd ‹_› h
  · rfl

/-- One round: the offset of its candidate, what it asks for, and where the next one begins. -/
structure Round where
  start : Nat
  reading : Reading
  next : Nat
  deriving DecidableEq, Repr

def roundOf (group : String) (p : Abbreviation.Parsed ImplementationOption) : Round :=
  match Text.from? group p.start with
  | none => ⟨p.start, ⟨[], .refused (.badOffset p.start)⟩, p.start⟩
  | some rest =>
    match act group rest p.stop p.resolution.code? with
    | .stop ending => ⟨p.start, ⟨doubts p.resolution, ending⟩, p.stop⟩
    | .next directives offset =>
      match surplus group rest offset with
      | none => ⟨p.start, ⟨doubts p.resolution ++ directives, .refused (.badOffset offset)⟩, offset⟩
      | some (remarks, next) =>
        ⟨p.start, ⟨doubts p.resolution ++ directives ++ remarks, .through⟩, next⟩

theorem roundOf_next {p : Abbreviation.Parsed ImplementationOption} {rest : String}
    {directives remarks : List Directive} {offset next : Nat}
    (hrest : Text.from? group p.start = some rest)
    (hact : act group rest p.stop p.resolution.code? = .next directives offset)
    (hsurplus : surplus group rest offset = some (remarks, next)) :
    roundOf group p =
      ⟨p.start, ⟨doubts p.resolution ++ directives ++ remarks, .through⟩, next⟩ := by
  simp only [roundOf, hrest, hact, hsurplus]

theorem roundOf_stop {p : Abbreviation.Parsed ImplementationOption} {rest : String}
    {ending : Ending} (hrest : Text.from? group p.start = some rest)
    (hact : act group rest p.stop p.resolution.code? = .stop ending) :
    roundOf group p = ⟨p.start, ⟨doubts p.resolution, ending⟩, p.stop⟩ := by
  simp only [roundOf, hrest, hact]

/-- The round from an offset on; nothing when only commas are left. -/
def round? (table : List (Abbreviation.Keyword ImplementationOption)) (group : String)
    (offset : Nat) : Option Round :=
  (Abbreviation.parse? table (Text.bytes group) offset).map (roundOf group)

def roundsFrom (table : List (Abbreviation.Keyword ImplementationOption)) (group : String) :
    Nat → Nat → List Round
  | 0, _ => []
  | fuel + 1, offset =>
    match round? table group offset with
    | none => []
    | some round =>
      if round.reading.ending = .through then round :: roundsFrom table group fuel round.next
      else [round]

/-- The rounds of a group. -/
def rounds (table : List (Abbreviation.Keyword ImplementationOption)) (group : String) :
    List Round :=
  roundsFrom table group ((Text.bytes group).length + 1) 0

/-- The readings of rounds as one. -/
def joined (rounds : List Round) : Reading :=
  rounds.foldr (fun round reading => round.reading.andThen reading) .empty

theorem numeric_ne_stop_through (option : ImplementationOption) (offset : Nat)
    (directive : Int → Directive) : numeric group option offset directive ≠ .stop .through := by
  unfold numeric
  split_ifs
  · split <;> simp
  · simp

theorem exec_ne_through (offset : Nat) : exec group offset ≠ .through := by
  unfold exec
  split_ifs
  · split <;> simp
  · simp

theorem act_ne_stop_through (rest : String) (offset : Nat) (code : Option ImplementationOption) :
    act group rest offset code ≠ .stop .through := by
  cases code with
  | none => simp [act]
  | some option =>
    cases option with
    | binmode => exact numeric_ne_stop_through _ _ _
    | random => exact numeric_ne_stop_through _ _ _
    | sprintf => exact numeric_ne_stop_through _ _ _
    | exec =>
      intro h
      exact exec_ne_through offset (Step.stop.inj h)
    | _ => simp [act]

theorem readFrom_succ (fuel offset : Nat) :
    readFrom table group (fuel + 1) offset =
      match round? table group offset with
      | none => .empty
      | some round => round.reading.andThen (readFrom table group fuel round.next) := by
  rw [readFrom, round?]
  cases Abbreviation.parse? table (Text.bytes group) offset with
  | none => rfl
  | some p =>
    simp only [Option.map_some, roundOf]
    cases Text.from? group p.start with
    | none => rfl
    | some rest =>
      dsimp only
      cases ha : act group rest p.stop p.resolution.code? with
      | stop ending =>
        have hne : ending ≠ .through := by
          rintro rfl
          exact act_ne_stop_through _ _ _ ha
        exact (@Reading.andThen_of_ne_through ⟨doubts p.resolution, ending⟩ hne _).symm
      | next directives offset =>
        dsimp only
        cases surplus group rest offset with
        | none => rfl
        | some remarks => rfl

theorem readFrom_eq_joined (fuel offset : Nat) :
    readFrom table group fuel offset = joined (roundsFrom table group fuel offset) := by
  induction fuel generalizing offset with
  | zero => rfl
  | succ fuel ih =>
    rw [readFrom_succ, roundsFrom]
    cases round? table group offset with
    | none => rfl
    | some round =>
      dsimp only
      split_ifs with hthrough
      · rw [ih]
        rfl
      · simp [joined, Reading.andThen_of_ne_through hthrough]

theorem read_eq_joined : read table group = joined (rounds table group) :=
  readFrom_eq_joined _ _

theorem joined_ending_iff {ending : Ending} (h : ending ≠ .through) (fuel offset : Nat) :
    (joined (roundsFrom table group fuel offset)).ending = ending ↔
      ∃ round ∈ roundsFrom table group fuel offset, round.reading.ending = ending := by
  induction fuel generalizing offset with
  | zero => simpa [roundsFrom, joined, Reading.empty] using h.symm
  | succ fuel ih =>
    rw [roundsFrom]
    cases round? table group offset with
    | none => simpa [joined, Reading.empty] using h.symm
    | some round =>
      dsimp only
      split_ifs with hthrough
      · have hround : round.reading.ending ≠ ending := fun he => h (he.symm.trans hthrough)
        have hjoined : (joined (round :: roundsFrom table group fuel round.next)).ending =
            (joined (roundsFrom table group fuel round.next)).ending := by
          simp [joined, Reading.andThen_of_through hthrough, Reading.after]
        rw [hjoined, ih]
        simp [hround]
      · simp [joined, Reading.andThen_of_ne_through hthrough]

theorem read_ending_iff {ending : Ending} (h : ending ≠ .through) :
    (read table group).ending = ending ↔
      ∃ round ∈ rounds table group, round.reading.ending = ending := by
  rw [read_eq_joined]
  exact joined_ending_iff h _ _

end Group
end AwkStartup
