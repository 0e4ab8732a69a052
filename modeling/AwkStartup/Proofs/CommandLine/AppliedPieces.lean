import AwkStartup.Proofs.CommandLine.AppliedOptions
import AwkStartup.Proofs.CommandLine.Finishing
import AwkStartup.Proofs.CommandLine.GroupTreatment
import AwkStartup.Proofs.SeparatorAgreement

/-!
# The pieces that a run applies

A group applies its pieces up to one that ends it. What the pieces of all groups of a run do to the
interpreter and to the switches is one fold over them in the order of the command line. The other
options do nothing to either, apart from the separator.
-/

namespace AwkStartup

namespace Group

def names (features : Features) (option : ImplementationOption) (piece : List Char) : Bool :=
  option? features piece = some option

/-- The number that a piece has for an option: the integer that its value starts with, kept within
64 bits. -/
def number? (features : Features) (option : ImplementationOption) (piece : List Char) :
    Option Int :=
  if names features option piece then (usable? piece).map Leading.saturated else none

/-- The pieces of a group that are applied. Empty pieces are passed over. -/
def applied (features : Features) (pieces : List (List Char)) : List (List Char) :=
  (pieces.filter (· ≠ [])).takeWhile (goesOn features)

end Group

/-- What a piece does to the interpreter. -/
def Interpreter.obey (features : Features) (i : Interpreter) (piece : List Char) : Interpreter :=
  { i with
    output :=
      if Group.names features .version piece then
        i.output ++ Help.versionText i.name i.formatBuffer
      else i.output
    seed := ((Group.number? features .random piece).map Binary64.ofInt).or i.seed
    formatBuffer :=
      max i.formatBuffer (((Group.number? features .sprintf piece).map Int.toNat).getD 0)
    interactive := i.interactive || Group.names features .interactive piece
    binmode := ((Group.number? features .binmode piece).map wrap32).getD i.binmode }

/-- What a piece does to the switches. -/
def Flags.obey (features : Features) (flags : Flags) (piece : List Char) : Flags :=
  { dumpCode := flags.dumpCode || Group.names features .dump piece
    interactive := flags.interactive || Group.names features .interactive piece
    posixSpace := flags.posixSpace || Group.names features .posixSpace piece }

namespace Interpreter

def withSeparator (i : Interpreter) (separator : Separator) : Interpreter :=
  { i with separator := separator }

theorem foldl_obey_withSeparator (features : Features) (i : Interpreter) (separator : Separator)
    (pieces : List (List Char)) :
    pieces.foldl (obey features) (i.withSeparator separator) =
      (pieces.foldl (obey features) i).withSeparator separator := by
  induction pieces generalizing i with
  | nil => rfl
  | cons piece pieces ih => exact ih (i.obey features piece)

end Interpreter

namespace CommandLine

/-- Pieces lead a run from what was done to what is done then, for an interpreter that the run
started with. The separator may be another one. -/
structure Progress.Leads (features : Features) (i : Interpreter) (pieces : List (List Char))
    (p q : Progress) : Prop where
  interpreter : ∃ separator, q.interpreter i =
    (pieces.foldl (Interpreter.obey features) (p.interpreter i)).withSeparator separator
  flags : q.flags = pieces.foldl (Flags.obey features) p.flags

namespace Progress

variable {features : Features} {i : Interpreter} {p q r : Progress}
  {pieces later : List (List Char)} {piece : List Char}

theorem Leads.refl (p : Progress) : p.Leads features i [] p :=
  ⟨⟨(p.interpreter i).separator, rfl⟩, rfl⟩

theorem Leads.trans (hpq : p.Leads features i pieces q) (hqr : q.Leads features i later r) :
    p.Leads features i (pieces ++ later) r := by
  obtain ⟨separator, hq⟩ := hpq.interpreter
  obtain ⟨last, hr⟩ := hqr.interpreter
  refine ⟨⟨last, ?_⟩, ?_⟩
  · rw [hr, hq, Interpreter.foldl_obey_withSeparator, List.foldl_append]
    rfl
  · rw [hqr.flags, hpq.flags, List.foldl_append]

theorem leads_remark (p : Progress) (n : Notice) : p.Leads features i [] (p.remark n) :=
  ⟨⟨(p.interpreter i).separator, p.interpreter_remark n i⟩, rfl⟩

theorem leads_leaveValue (p : Progress) (piece : List Char) (quoted : String) :
    p.Leads features i [] (Group.leaveValue piece quoted p).progress := by
  unfold Group.leaveValue
  split_ifs
  · exact leads_remark p _
  · exact Leads.refl p

theorem Leads.leaveValue (h : p.Leads features i [piece] q) (quoted : String) :
    p.Leads features i [piece] (Group.leaveValue piece quoted q).progress :=
  h.trans (leads_leaveValue q piece quoted)

theorem leads_singleton (hinterpreter : q.interpreter i = (p.interpreter i).obey features piece)
    (hflags : q.flags = p.flags.obey features piece) : p.Leads features i [piece] q :=
  ⟨⟨((p.interpreter i).obey features piece).separator, hinterpreter⟩, hflags⟩

end Progress
end CommandLine

namespace Group

open CommandLine (Progress applyAll)

variable {features : Features} {i : Interpreter} {p : Progress} {later : List (List Char)}
  {piece : List Char}

section Treatment

theorem exists_treat_eq (features : Features) (p : Progress) (piece : List Char)
    (later : List (List Char)) :
    ∃ q, (∀ i, p.Leads features i [] q) ∧
      treat features p piece later = treatOption q piece later (option? features piece) := by
  refine ⟨_, fun i => ?_, treat_eq features p piece later⟩
  split_ifs
  · exact p.leads_remark _
  · exact Progress.Leads.refl p

theorem leads_takeNumber {option : ImplementationOption} {use : Int → Progress}
    (hvalue : (usable? piece).isSome = true)
    (huse : ∀ value, usable? piece = some value →
      p.Leads features i [piece] (use (Leading.saturated value))) :
    p.Leads features i [piece] (takeNumber piece option p use).progress := by
  obtain ⟨value, hsome⟩ := Option.isSome_iff_exists.mp hvalue
  rw [takeNumber, hsome]
  dsimp only
  rw [Leading.integer_eq_saturated]
  exact huse value hsome

theorem leads_treatOption (p : Progress) (later : List (List Char))
    (hgoes : goesOn features piece = true) :
    p.Leads features i [piece] (treatOption p piece later (option? features piece)).progress := by
  unfold goesOn at hgoes
  cases hoption : option? features piece with
  | none =>
    refine Progress.Leads.leaveValue (Progress.leads_singleton ?_ ?_) _
    · rw [Progress.interpreter_remark]
      simp [Interpreter.obey, names, number?, hoption]
    · simp [Flags.obey, names, hoption, Progress.remark]
  | some option =>
    rw [hoption] at hgoes
    cases option with
    | version =>
      refine Progress.Leads.leaveValue (Progress.leads_singleton ?_ ?_) _
      · rw [Progress.interpreter_call]
        simp [Interpreter.obey, Interpreter.perform, names, number?, hoption]
      · simp [Flags.obey, names, hoption, Progress.call]
    | dump | posixSpace =>
      refine Progress.Leads.leaveValue (Progress.leads_singleton ?_ ?_) _
      · simp [Interpreter.obey, names, number?, hoption, Progress.interpreter, Progress.calls]
      · simp [Flags.obey, names, hoption]
    | interactive =>
      refine Progress.Leads.leaveValue (Progress.leads_singleton ?_ ?_) _
      · rw [Progress.interpreter_call]
        simp [Interpreter.obey, Interpreter.perform, names, number?, hoption, Progress.interpreter,
          Progress.calls]
      · simp [Flags.obey, names, hoption, Progress.call]
    | random | binmode =>
      refine leads_takeNumber hgoes ?_
      intro value hvalue
      apply Progress.leads_singleton
      · rw [Progress.interpreter_call]
        simp [Interpreter.obey, Interpreter.perform, names, number?, hoption, hvalue]
      · simp [Flags.obey, names, hoption, Progress.call]
    | sprintf =>
      refine leads_takeNumber hgoes ?_
      intro value hvalue
      -- A negative size grows nothing, like the size zero.
      split_ifs with hnegative
      · apply Progress.leads_singleton
        · simp [Interpreter.obey, names, number?, hoption, hvalue, Int.toNat_of_nonpos hnegative.le]
        · simp [Flags.obey, names, hoption]
      · apply Progress.leads_singleton
        · rw [Progress.interpreter_call]
          simp [Interpreter.obey, Interpreter.perform, names, number?, hoption, hvalue]
        · simp [Flags.obey, names, hoption, Progress.call]
    | help | usage | exec => cases hgoes

theorem treatOption_of_not_goesOn (p : Progress) (later : List (List Char))
    (hends : goesOn features piece = false) :
    (treatOption p piece later (option? features piece)).progress = p := by
  cases hoption : option? features piece with
  | none => simp [goesOn, hoption] at hends
  | some option =>
    cases option with
    | version | dump | interactive | posixSpace => simp [goesOn, hoption] at hends
    | random | sprintf | binmode =>
      simp only [goesOn, hoption, Option.isSome_eq_false_iff, Option.isNone_iff_eq_none] at hends
      rw [treatOption, takeNumber, hends]
    | help | usage | exec => rfl

theorem applied_cons_goesOn (hpiece : piece ≠ []) (hgoes : goesOn features piece = true) :
    applied features (piece :: later) = piece :: applied features later := by
  simp [applied, hpiece, hgoes]

theorem applied_cons_ends (hpiece : piece ≠ []) (hends : goesOn features piece = false) :
    applied features (piece :: later) = [] := by
  simp [applied, hpiece, hends]

/-- Treating the pieces of a group leads to what its applied pieces come to. -/
theorem leads_treatAll (p : Progress) (pieces : List (List Char)) :
    p.Leads features i (applied features pieces) (treatAll features p pieces).progress := by
  induction pieces generalizing p with
  | nil => exact Progress.Leads.refl p
  | cons piece later ih =>
    rw [treatAll]
    split_ifs with hempty
    · subst hempty
      exact ih p
    · obtain ⟨q, hremarks, htreat⟩ := exists_treat_eq features p piece later
      cases hgoes : goesOn features piece with
      | true =>
        have hthrough := (treat_ending_iff features p piece later).mpr hgoes
        dsimp only
        rw [if_pos hthrough, htreat, applied_cons_goesOn hempty hgoes]
        exact (hremarks i).trans ((leads_treatOption q later hgoes).trans (ih _))
      | false =>
        have hends : (treat features p piece later).ending ≠ .through := by
          rw [Ne, treat_ending_iff, hgoes]
          exact Bool.false_ne_true
        dsimp only
        rw [if_neg hends, htreat, applied_cons_ends hempty hgoes,
          treatOption_of_not_goesOn q later hgoes]
        exact hremarks i

end Treatment

theorem leads_read [Libraries] {q : Progress} {group : String}
    (h : applyAll p (read (ImplementationOption.table features) group).directives = (q, none)) :
    p.Leads features i (applied features (Group.pieces group)) q := by
  obtain ⟨happlied, -⟩ := treats_readPieces features p (Group.pieces group)
  rw [← read_eq_readPieces, h] at happlied
  rw [(Prod.mk.inj happlied).1]
  exact leads_treatAll p _

end Group

namespace CommandLine

variable {features : Features} {policy : LongOptionPolicy} {globals : Globals}
  {args : List String} {i : Interpreter} {p q : Progress}

def Item.appliedPieces (features : Features) (item : Item) : List (List Char) :=
  match item.group? with
  | some group => Group.applied features (Group.pieces group)
  | none => []

/-- The pieces of some options that are applied, in the order of the command line. -/
def appliedPieces (features : Features) (items : List Item) : List (List Char) :=
  items.flatMap (Item.appliedPieces features)

theorem Item.directives_of_group?_eq_none (keywords : Keywords) {item : Item}
    (h : item.group? = none) :
    item.directives keywords = [] ∨
      ∃ d : Directive, item.directives keywords = [d] ∧ d.isOfGroup = false := by
  cases item with
  | skipped token reported =>
    cases reported with
    | false => exact Or.inl rfl
    | true => exact Or.inr ⟨_, rfl, rfl⟩
  | glued switch value | separate switch value =>
    cases switch with
    | implementation => cases h
    | separator | assign | programFile => exact Or.inr ⟨_, rfl, rfl⟩

variable [Libraries]

theorem leads_apply {d : Directive} (hd : d.isOfGroup = false) (h : apply p d = .ok q) :
    p.Leads features i [] q := by
  cases d with
  | assign text =>
    obtain ⟨name, raw, -, -, ⟨-, rfl⟩ | ⟨-, separator, -, rfl⟩⟩ := assign_cases h
    · exact ⟨⟨(p.interpreter i).separator, rfl⟩, rfl⟩
    · exact ⟨⟨separator, Progress.interpreter_call _ _ i⟩, rfl⟩
  | separator text =>
    obtain ⟨separator, -, rfl⟩ := setSeparator_cases h
    exact ⟨⟨separator, Progress.interpreter_call _ _ i⟩, rfl⟩
  | programFile name =>
    cases h
    exact ⟨⟨(p.interpreter i).separator, rfl⟩, rfl⟩
  | ignoredLong token =>
    cases h
    split_ifs
    · exact Progress.Leads.refl p
    · exact ⟨(p.leads_remark _).interpreter, rfl⟩
  | version | dump | interactive | posixSpace | random n | sprintf n | binmode n | notice n =>
    cases hd

theorem Item.leads {item : Item}
    (h : applyAll p (item.directives (ImplementationOption.table features)) = (q, none)) :
    p.Leads features i (item.appliedPieces features) q := by
  unfold Item.appliedPieces
  cases hgroup : item.group? with
  | some group =>
    rw [Item.directives_of_group? hgroup] at h
    exact Group.leads_read h
  | none =>
    rcases Item.directives_of_group?_eq_none (ImplementationOption.table features) hgroup with
      hnone | ⟨d, hd, hnotgroup⟩
    · rw [hnone] at h
      obtain ⟨rfl, -⟩ := Prod.mk.inj h
      exact Progress.Leads.refl p
    · rw [hd] at h
      cases happly : apply p d with
      | error fault =>
        rw [applyAll_cons_error happly] at h
        cases h
      | ok r =>
        rw [applyAll_cons_ok happly] at h
        obtain ⟨rfl, -⟩ := Prod.mk.inj h
        exact leads_apply hnotgroup happly

theorem leads_items {items : List Item}
    (h : applyAll p (items.flatMap (Item.directives (ImplementationOption.table features))) =
      (q, none)) :
    p.Leads features i (appliedPieces features items) q := by
  induction items generalizing p with
  | nil =>
    obtain ⟨rfl, -⟩ := Prod.mk.inj h
    exact Progress.Leads.refl p
  | cons item items ih =>
    rw [List.flatMap_cons] at h
    obtain ⟨r, hitem, hitems⟩ := exists_of_applyAll_append h
    rw [appliedPieces, List.flatMap_cons]
    exact (Item.leads hitem).trans (ih hitems)

/-- What a run does to an interpreter and to the switches is a fold over the pieces that it applies,
however it ends. -/
theorem Applied.leads {items : List Item} (h : Applied features policy globals args items)
    (i : Interpreter) :
    (Progress.start globals).Leads features i (appliedPieces features items)
      (dispatch features policy globals args).progress :=
  leads_items h.applied

end CommandLine
end AwkStartup
