import AwkStartup.Proofs.CommandLine.Items
import AwkStartup.Proofs.CommandLine.PieceEnding

/-!
# Applying items

Items are applied one after the other. Groups cannot fail, and any other item asks for one thing at
most, so an item that fails has changed nothing.
-/

namespace AwkStartup
namespace CommandLine

def Item.group? : Item → Option String
  | glued .implementation group | separate .implementation group => some group
  | _ => none

variable {features : Features} {keywords : Keywords} {policy : LongOptionPolicy}
  {globals : Globals}

theorem Item.eq_of_group? {item : Item} {group : String} (h : item.group? = some group) :
    item = .glued .implementation group ∨ item = .separate .implementation group := by
  cases item with
  | skipped token reported => cases h
  | glued switch value =>
    cases switch with
    | implementation => exact Or.inl (congrArg _ (Option.some.inj h))
    | separator | assign | programFile => cases h
  | separate switch value =>
    cases switch with
    | implementation => exact Or.inr (congrArg _ (Option.some.inj h))
    | separator | assign | programFile => cases h

theorem Item.directives_of_group? {item : Item} {group : String} (h : item.group? = some group) :
    item.directives keywords = (Group.read keywords group).directives := by
  rcases Item.eq_of_group? h with rfl | rfl
  · rfl
  · rfl

theorem Item.ending_of_group? {item : Item} {group : String} (h : item.group? = some group) :
    item.ending keywords = (Group.read keywords group).ending := by
  rcases Item.eq_of_group? h with rfl | rfl
  · rfl
  · rfl

theorem Item.exists_group {item : Item} (h : item.ending keywords ≠ .through) :
    ∃ group, item.group? = some group := by
  cases item with
  | skipped token reported => exact absurd rfl h
  | glued switch value | separate switch value =>
    cases switch with
    | implementation => exact ⟨value, rfl⟩
    | separator | assign | programFile => exact absurd rfl h

theorem Item.exists_round {item : Item} {ending : Group.Ending} (hne : ending ≠ .through)
    (h : item.ending keywords = ending) :
    ∃ group, item.group? = some group ∧
      ∃ round ∈ Group.rounds keywords group, round.reading.ending = ending := by
  have hitem : item.ending keywords ≠ .through := h ▸ hne
  obtain ⟨group, hgroup⟩ := Item.exists_group hitem
  rw [Item.ending_of_group? hgroup] at h
  exact ⟨group, hgroup, (Group.read_ending_iff hne).mp h⟩

theorem not_canFail_of_mem_read {group : String} {d : Directive}
    (h : d ∈ (Group.read keywords group).directives) : d.canFail = false :=
  Directive.canFail_of_isOfGroup (Group.isOfGroup_of_mem_read h)

/-- An item of a group cannot fail, and any other item asks for one thing at most. -/
theorem Item.directives_cases (keywords : Keywords) (item : Item) :
    (∀ d ∈ item.directives keywords, d.canFail = false) ∨
      ∃ d, item.directives keywords = [d] := by
  cases item with
  | skipped token reported =>
    cases reported with
    | false => exact Or.inl fun d hd => by cases hd
    | true => exact Or.inr ⟨_, rfl⟩
  | glued switch value | separate switch value =>
    cases switch with
    | implementation => exact Or.inl fun d hd => not_canFail_of_mem_read hd
    | separator | assign | programFile => exact Or.inr ⟨_, rfl⟩

theorem runExec_of_files {p : Progress} (h : p.files.isEmpty = false) (glued : Option String)
    (index : Nat) (rest : List String) :
    runExec p glued index rest = .error .execWithProgramFile := by
  simp [runExec, h]

theorem exists_runExec_eq_ok {p : Progress} (h : p.files.isEmpty = true) (glued : Option String)
    (index : Nat) (rest : List String) : ∃ launch, runExec p glued index rest = .ok launch := by
  unfold runExec
  rw [h]
  cases rest with
  | nil => exact ⟨_, rfl⟩
  | cons name rest =>
    cases glued with
    | none => exact ⟨_, rfl⟩
    | some name => exact ⟨_, rfl⟩

variable [Libraries]

theorem exists_applyAll_group (keywords : Keywords) (p : Progress) (group : String) :
    ∃ q, applyAll p (Group.read keywords group).directives = (q, none) ∧
      q.files.names = p.files.names := by
  obtain ⟨q, hq⟩ := applyAll_ok_of_not_canFail p fun d hd =>
    @not_canFail_of_mem_read keywords group d hd
  have hnone : (Group.read keywords group).directives.filterMap Directive.programFile? = [] := by
    rw [List.filterMap_eq_nil_iff]
    intro d hd
    exact Directive.programFile?_of_isOfGroup (Group.isOfGroup_of_mem_read hd)
  refine ⟨q, hq, ?_⟩
  rw [names_of_applyAll_ok hq, hnone, List.append_nil]

theorem Item.applyAll_error {item : Item} {p q : Progress} {fault : StartupError}
    (h : applyAll p (item.directives keywords) = (q, some fault)) : q = p := by
  rcases Item.directives_cases keywords item with hsafe | ⟨d, hd⟩
  · obtain ⟨r, hr⟩ := applyAll_ok_of_not_canFail p hsafe
    rw [hr] at h
    cases h
  · rw [hd] at h
    cases happly : apply p d with
    | error cause =>
      rw [applyAll_cons_error happly] at h
      exact (Prod.mk.inj h).1.symm
    | ok r =>
      rw [applyAll_cons_ok happly] at h
      cases h

/-- When some items cannot all be applied, one of them is the first that fails. -/
theorem exists_failing_item {items : List Item} {p q : Progress} {fault : StartupError}
    (h : applyAll p (items.flatMap (Item.directives keywords)) = (q, some fault)) :
    ∃ before item after r, items = before ++ item :: after ∧
      applyAll p (before.flatMap (Item.directives keywords)) = (r, none) ∧
      (applyAll r (item.directives keywords)).2 = some fault := by
  induction items generalizing p with
  | nil => cases h
  | cons item items ih =>
    rw [List.flatMap_cons] at h
    cases hitem : applyAll p (item.directives keywords) with
    | mk r failed =>
      cases failed with
      | some cause =>
        rw [applyAll_append_of_error hitem] at h
        refine ⟨[], item, items, p, rfl, rfl, ?_⟩
        rw [hitem]
        exact (Prod.mk.inj h).2
      | none =>
        rw [applyAll_append_of_ok hitem] at h
        obtain ⟨before, failing, after, r', rfl, hbefore, hfailing⟩ := ih h
        refine ⟨item :: before, failing, after, r', rfl, ?_, hfailing⟩
        rw [List.flatMap_cons, applyAll_append_of_ok hitem, hbefore]

theorem Reading.runFrom_append {items others : List Item} {ending : Ending} {p q : Progress}
    (h : applyAll p (items.flatMap (Item.directives keywords)) = (q, none)) :
    (⟨items ++ others, ending⟩ : Reading).runFrom keywords p =
      (⟨others, ending⟩ : Reading).runFrom keywords q := by
  simp only [Reading.runFrom, Reading.directives, List.flatMap_append]
  rw [applyAll_append_of_ok h]

theorem Item.exists_runFrom_last {item : Item} {stop : Group.Ending} (hne : stop ≠ .through)
    (h : item.ending keywords = stop) (p : Progress) :
    ∃ q, applyAll p (item.directives keywords) = (q, none) ∧ q.files.names = p.files.names ∧
      ∀ ending, (⟨[item], ending⟩ : Reading).runFrom keywords p = ⟨conclude q ending, q⟩ := by
  obtain ⟨group, hgroup⟩ := Item.exists_group (h ▸ hne)
  obtain ⟨q, hq, hnames⟩ := exists_applyAll_group keywords p group
  rw [← Item.directives_of_group? hgroup] at hq
  refine ⟨q, hq, hnames, fun ending => Reading.runFrom_of_ok ?_⟩
  rw [Reading.directives, List.flatMap_singleton, hq]

theorem dispatch_eq_run {tokens : List String} (h : tokens ≠ []) (name : String) :
    dispatch features policy globals (name :: tokens) =
      (read (ImplementationOption.table features) policy tokens).runFrom
        (ImplementationOption.table features) (Progress.start globals) := by
  obtain ⟨token, rest, rfl⟩ := List.exists_cons_of_ne_nil h
  rfl

theorem dispatch_spelled {program : String} {items : List Item} {p : Progress}
    {rest : List String}
    (hthrough : ∀ item ∈ items, item.Through (ImplementationOption.table features) policy)
    (happly : applyAll (Progress.start globals)
      (items.flatMap (Item.directives (ImplementationOption.table features))) = (p, none))
    (hrest : rest ≠ []) :
    dispatch features policy globals (program :: (spelled items ++ rest)) =
      (readFrom (ImplementationOption.table features) policy ((spelled items).length + 1)
        rest).runFrom (ImplementationOption.table features) p := by
  have hne : spelled items ++ rest ≠ [] := List.append_ne_nil_of_right_ne_nil _ hrest
  rw [dispatch_eq_run hne, read, readFrom_spelled hthrough, Reading.runFrom_append happly,
    Nat.add_comm 1]

/-- Ended after its options, a command line does not fail and does no more than them. -/
theorem dispatch_ended (program : String) {items : List Item} {p : Progress}
    (hthrough : ∀ item ∈ items, item.Through (ImplementationOption.table features) policy)
    (happly : applyAll (Progress.start globals)
      (items.flatMap (Item.directives (ImplementationOption.table features))) = (p, none)) :
    ∃ launch, dispatch features policy globals (program :: (spelled items ++ ["--"])) =
      ⟨.ok launch, p⟩ := by
  rw [dispatch_spelled hthrough happly (by simp), Stops.terminator.readFrom_eq]
  exact ⟨_, rfl⟩

/-- What a run does: one of the items before the place where reading stops cannot be applied, or all
are applied and the run goes on from there. -/
theorem exists_dispatch_eq (features : Features) (policy : LongOptionPolicy) (globals : Globals)
    (name token : String) (tokens : List String) :
    ∃ items rest last ending,
      StopsAfter (ImplementationOption.table features) policy 1 (token :: tokens) items rest last
        ending ∧
      ((∃ p fault, applyAll (Progress.start globals)
          (items.flatMap (Item.directives (ImplementationOption.table features))) =
            (p, some fault) ∧
          dispatch features policy globals (name :: token :: tokens) = ⟨.error fault, p⟩) ∨
        ∃ p, applyAll (Progress.start globals)
          (items.flatMap (Item.directives (ImplementationOption.table features))) = (p, none) ∧
          dispatch features policy globals (name :: token :: tokens) =
            (⟨last, ending⟩ : Reading).runFrom (ImplementationOption.table features) p) := by
  obtain ⟨items, rest, last, ending, hstops⟩ :=
    exists_stopsAfter (ImplementationOption.table features) policy 1 (token :: tokens)
  have hrun : dispatch features policy globals (name :: token :: tokens) =
      (⟨items ++ last, ending⟩ : Reading).runFrom (ImplementationOption.table features)
        (Progress.start globals) := by
    rw [dispatch_eq_run (List.cons_ne_nil token tokens), read, hstops.readFrom_eq]
  refine ⟨items, rest, last, ending, hstops, ?_⟩
  cases happly : applyAll (Progress.start globals)
      (items.flatMap (Item.directives (ImplementationOption.table features))) with
  | mk p failed =>
    cases failed with
    | none =>
      rw [Reading.runFrom_append happly] at hrun
      exact Or.inr ⟨p, rfl, hrun⟩
    | some fault =>
      have hall := applyAll_append_of_error happly
        (last.flatMap (Item.directives (ImplementationOption.table features)))
      rw [← List.flatMap_append] at hall
      rw [Reading.runFrom_of_error hall] at hrun
      exact Or.inl ⟨p, fault, rfl, hrun⟩

end CommandLine
end AwkStartup
