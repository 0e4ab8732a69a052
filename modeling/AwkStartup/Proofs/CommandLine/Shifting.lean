import AwkStartup.Proofs.CommandLine.ItemRuns
import AwkStartup.StandardLibraries

/-!
# Command lines that go on later

Reading depends on the index it starts at only in the indices that it ends with. So two command
lines whose options ask for the same, and that go on with the same tokens, end alike: at most the
arguments start later.
-/

namespace AwkStartup

/-- A launch whose arguments start some tokens later. -/
def Launch.shift (k : Nat) : Launch → Launch
  | run inv => run { inv with argsStart := inv.argsStart + k }
  | noProgram => noProgram
  | usage => usage

namespace CommandLine

def Ending.shift (k : Nat) : Ending → Ending
  | operands index rest => operands (index + k) rest
  | dash index rest => dash (index + k) rest
  | terminated index rest => terminated (index + k) rest
  | exec glued index rest => exec glued (index + k) rest
  | usage => usage
  | refused fault => refused fault

variable {features : Features} {keywords : Keywords} {policy : LongOptionPolicy}
  {globals : Globals} {p : Progress}

theorem Stops.shift {index : Nat} {rest : List String} {last : List Item} {ending : Ending}
    (h : Stops keywords policy index rest last ending) (k : Nat) :
    Stops keywords policy (index + k) rest last (ending.shift k) := by
  cases h with
  | exhausted => exact .exhausted
  | operand hoperand => exact .operand hoperand
  | hyphen => exact .hyphen
  | terminator =>
    have hindex : index + 1 + k = index + k + 1 := by omega
    rw [Ending.shift, hindex]
    exact .terminator
  | refused hrefused => exact .refused hrefused
  | lacking => exact .lacking
  | @exec item glued rest hfits hexec =>
    have hindex : index + item.tokens.length + k = index + k + item.tokens.length := by omega
    rw [Ending.shift, hindex]
    exact .exec hfits hexec
  | usage hfits husage => exact .usage hfits husage
  | faulty hfits hfaulty => exact .faulty hfits hfaulty

/-- From a later index the same items are read, and reading ends the same, so much later. -/
theorem readFrom_add (k index : Nat) (tokens : List String) :
    (readFrom keywords policy (index + k) tokens).items =
        (readFrom keywords policy index tokens).items ∧
      (readFrom keywords policy (index + k) tokens).ending =
        (readFrom keywords policy index tokens).ending.shift k := by
  obtain ⟨items, rest, last, ending, h⟩ := exists_stopsAfter keywords policy index tokens
  have hshift : StopsAfter keywords policy (index + k) tokens items rest last (ending.shift k) := by
    refine ⟨h.tokens_eq, h.through, ?_⟩
    have hstops := h.stops.shift k
    rwa [Nat.add_right_comm] at hstops
  rw [h.readFrom_eq, hshift.readFrom_eq]
  exact ⟨rfl, rfl⟩

theorem conclude_shift (p : Progress) (ending : Ending) (k : Nat) :
    conclude p (ending.shift k) = (conclude p ending).map (Launch.shift k) := by
  have hnext (index : Nat) (rest : List String) :
      runNext p (index + k) rest = (runNext p index rest).shift k := by
    cases rest with
    | nil => rfl
    | cons text rest => simp [runNext, Launch.shift, Nat.add_right_comm]
  cases ending with
  | operands index rest | terminated index rest =>
    by_cases hfiles : p.files.isEmpty = true
    · simp [Ending.shift, conclude, hfiles, hnext, Except.map]
    · simp [Ending.shift, conclude, hfiles, runFiles, Launch.shift, Except.map]
  | dash index rest =>
    by_cases hfiles : p.files.isEmpty = true
    · simp [Ending.shift, conclude, hfiles, Launch.shift, Except.map]
    · simp [Ending.shift, conclude, hfiles, runFiles, Launch.shift, Except.map]
  | exec glued index rest =>
    by_cases hfiles : p.files.isEmpty = true
    · cases rest with
      | nil => simp [Ending.shift, conclude, runExec, hfiles, Launch.shift, Except.map]
      | cons first rest =>
        cases glued <;>
          simp [Ending.shift, conclude, runExec, hfiles, runFiles, Launch.shift, Except.map,
            Nat.add_right_comm]
    · simp [Ending.shift, conclude, runExec, hfiles, Except.map]
  | usage => rfl
  | refused fault => rfl

def Dispatched.shift (k : Nat) (d : Dispatched) : Dispatched :=
  ⟨d.outcome.map (Launch.shift k), d.progress⟩

theorem readFrom_separate {value : String} (hvalue : value ≠ "") (switch : Switch) (index : Nat)
    (tail : List String) :
    (readFrom keywords policy index (switch.token :: value :: tail)).directives keywords =
        (readFrom keywords policy index (switch.gluedToken value :: tail)).directives keywords ∧
      (readFrom keywords policy index (switch.token :: value :: tail)).ending =
        (readFrom keywords policy index (switch.gluedToken value :: tail)).ending.shift 1 := by
  have hglued : (Item.glued switch value).Fits policy := hvalue
  have hseparate : (Item.separate switch value).Fits policy := trivial
  have hfirst := @readFrom_item keywords policy _ hglued index tail
  have hsecond := @readFrom_item keywords policy _ hseparate index tail
  simp only [Item.tokens, List.cons_append, List.nil_append, Item.ending, List.length_cons,
    List.length_nil] at hfirst hsecond
  obtain ⟨hitems, hshift⟩ := @readFrom_add keywords policy 1 (index + 1) tail
  rw [hfirst, hsecond]
  cases switchEnding keywords switch value with
  | through =>
    simp [Reading.after, Reading.directives, Item.directives, hitems, hshift]
  | exec glued => simp [Reading.directives, Item.directives, Ending.shift]
  | usage => simp [Reading.directives, Item.directives, Ending.shift]
  | refused fault => simp [Reading.directives, Item.directives, Ending.shift]

/-- Tokens that are options to their end: reading them alone stops only because nothing is left. -/
def IsConsumed (keywords : Keywords) (policy : LongOptionPolicy) (tokens : List String) : Prop :=
  (read keywords policy tokens).ending = .operands (tokens.length + 1) []

theorem Stops.eq_nil {index count : Nat} {rest : List String} {last : List Item} {ending : Ending}
    (h : Stops keywords policy index rest last ending) (hending : ending = .operands count []) :
    rest = [] := by
  cases h with
  | exhausted => rfl
  | operand => simp at hending
  | hyphen | terminator | refused | lacking | exec | usage | faulty => cases hending

theorem IsConsumed.exists_items {tokens : List String}
    (h : IsConsumed keywords policy tokens) :
    ∃ items : List Item, tokens = spelled items ∧
      ∀ item ∈ items, item.Through keywords policy := by
  obtain ⟨items, rest, last, ending, hstops⟩ := exists_stopsAfter keywords policy 1 tokens
  have hending : ending = .operands (tokens.length + 1) [] := by
    have hread := h
    rwa [IsConsumed, read, hstops.readFrom_eq] at hread
  have hrest := hstops.stops.eq_nil hending
  refine ⟨items, ?_, hstops.through⟩
  rw [hstops.tokens_eq, hrest, List.append_nil]

theorem directives_read_spelled {items : List Item}
    (h : ∀ item ∈ items, item.Through keywords policy) (rest : List String) :
    (read keywords policy (spelled items ++ rest)).directives keywords =
      items.flatMap (Item.directives keywords) ++
        (readFrom keywords policy (1 + (spelled items).length) rest).directives keywords := by
  rw [read, readFrom_spelled h]
  simp [Reading.directives]

theorem ending_read_spelled {items : List Item}
    (h : ∀ item ∈ items, item.Through keywords policy) (rest : List String) :
    (read keywords policy (spelled items ++ rest)).ending =
      (readFrom keywords policy (1 + (spelled items).length) rest).ending := by
  rw [read, readFrom_spelled h]

section Dispatching

variable [Libraries]

theorem Reading.runFrom_shift {reading later : Reading} {k : Nat}
    (hdirectives : later.directives keywords = reading.directives keywords)
    (hending : later.ending = reading.ending.shift k) (p : Progress) :
    later.runFrom keywords p = (reading.runFrom keywords p).shift k := by
  cases happly : applyAll p (reading.directives keywords) with
  | mk q failed =>
    have hlater : applyAll p (later.directives keywords) = (q, failed) := by
      rw [hdirectives, happly]
    cases failed with
    | some fault =>
      rw [runFrom_of_error happly, runFrom_of_error hlater]
      rfl
    | none =>
      rw [runFrom_of_ok happly, runFrom_of_ok hlater, hending, conclude_shift]
      rfl

theorem dispatch_spelled_error {items : List Item} {fault : StartupError}
    (hthrough : ∀ item ∈ items, item.Through (ImplementationOption.table features) policy)
    (happly : applyAll (Progress.start globals)
      (items.flatMap (Item.directives (ImplementationOption.table features))) = (p, some fault))
    {rest : List String} (hne : spelled items ++ rest ≠ []) (name : String) :
    dispatch features policy globals (name :: (spelled items ++ rest)) = ⟨.error fault, p⟩ := by
  rw [dispatch_eq_run hne]
  apply Reading.runFrom_of_error
  rw [directives_read_spelled hthrough]
  exact applyAll_append_of_error happly _

theorem dispatch_spelled_shift {items : List Item}
    (hthrough : ∀ item ∈ items, item.Through (ImplementationOption.table features) policy)
    {rest later : List String} (hrest : spelled items ++ rest ≠ [])
    (hlater : spelled items ++ later ≠ []) {k : Nat}
    (hdirectives : ∀ index, (readFrom (ImplementationOption.table features) policy index
        later).directives (ImplementationOption.table features) =
      (readFrom (ImplementationOption.table features) policy index rest).directives
        (ImplementationOption.table features))
    (hending : ∀ index,
      (readFrom (ImplementationOption.table features) policy index later).ending =
        (readFrom (ImplementationOption.table features) policy index rest).ending.shift k)
    (name : String) :
    dispatch features policy globals (name :: (spelled items ++ later)) =
      (dispatch features policy globals (name :: (spelled items ++ rest))).shift k := by
  rw [dispatch_eq_run hlater, dispatch_eq_run hrest]
  apply Reading.runFrom_shift
  · rw [directives_read_spelled hthrough, directives_read_spelled hthrough, hdirectives]
  · rw [ending_read_spelled hthrough, ending_read_spelled hthrough, hending]

/-- Glued and separate values mean the same. After options that are gone through, a switch with its
value in the same token does what it does with its value in the next, and only the index of the
arguments differs. -/
theorem glued_and_separate_agree {pre : List String}
    (hpre : IsConsumed (ImplementationOption.table features) policy pre) {value : String}
    (hvalue : value ≠ "") (name : String) (switch : Switch) (tail : List String) :
    dispatch features policy globals (name :: (pre ++ switch.token :: value :: tail)) =
      (dispatch features policy globals (name :: (pre ++ switch.gluedToken value :: tail))).shift
        1 := by
  obtain ⟨items, rfl, hthrough⟩ := hpre.exists_items
  apply dispatch_spelled_shift hthrough
  · simp
  · simp
  · intro index
    exact (readFrom_separate hvalue switch index tail).1
  · intro index
    exact (readFrom_separate hvalue switch index tail).2

end Dispatching

/-- A group that takes the next token as its file, in the same token or after its switch. -/
theorem glued_and_separate_agree_exec :
    IsConsumed (ImplementationOption.table .plain) .reject ["-vx=1"] ∧ "exec" ≠ "" ∧
      (dispatch .plain .reject Globals.initial ["awk", "-vx=1", "-Wexec", "é", "-f"]).outcome =
        .ok (.run ⟨.files ⟨["é"]⟩, 4, Flags.none⟩) ∧
      dispatch .plain .reject Globals.initial ["awk", "-vx=1", "-W", "exec", "é", "-f"] =
        (dispatch .plain .reject Globals.initial ["awk", "-vx=1", "-Wexec", "é", "-f"]).shift
          1 := by
  have hpre : IsConsumed (ImplementationOption.table .plain) .reject ["-vx=1"] := rfl
  have hvalue : "exec" ≠ "" := by decide
  exact ⟨hpre, hvalue, rfl,
    glued_and_separate_agree hpre hvalue "awk" .implementation ["é", "-f"]⟩

end CommandLine
end AwkStartup
