import AwkStartup.Proofs.CommandLine.ItemRuns

/-!
# The options that a run applies

A run applies the options that it reads, one after the other, up to one that cannot be applied. What
it has done is what these options do, and there is only one such list of options.
-/

namespace AwkStartup
namespace CommandLine

theorem spelled_read_isPrefix (keywords : Keywords) (policy : LongOptionPolicy)
    (tokens : List String) : spelled (read keywords policy tokens).items <+: tokens := by
  obtain ⟨items, rest, last, ending, h⟩ := exists_stopsAfter keywords policy 1 tokens
  have hlast : spelled last <+: rest := by
    cases h.stops with
    | exhausted | operand | hyphen | terminator | refused | lacking => exact List.nil_prefix
    | exec | usage | faulty => simp
  rw [read, h.readFrom_eq, spelled_append, h.tokens_eq, List.prefix_append_right_inj]
  exact hlast

variable [Libraries]

/-- The options that a run applies: they are the first of those that it reads, and spell the first
tokens. The option after them, if any, cannot be applied. -/
structure Applied (features : Features) (policy : LongOptionPolicy) (globals : Globals)
    (args : List String) (items : List Item) : Prop where
  tokens : spelled items <+: args.tail
  items_read : items <+: (read (ImplementationOption.table features) policy args.tail).items
  applied : applyAll (Progress.start globals)
      (items.flatMap (Item.directives (ImplementationOption.table features))) =
    ((dispatch features policy globals args).progress, none)
  next : ∀ item,
    items ++ [item] <+: (read (ImplementationOption.table features) policy args.tail).items →
      ∃ fault, (dispatch features policy globals args).outcome = .error fault ∧
        (applyAll (dispatch features policy globals args).progress
          (item.directives (ImplementationOption.table features))).2 = some fault

variable {features : Features} {keywords : Keywords} {policy : LongOptionPolicy}
  {globals : Globals} {args : List String} {items others : List Item}

theorem exists_of_applyAll_append {p q : Progress} {ds es : List Directive}
    (h : applyAll p (ds ++ es) = (q, none)) :
    ∃ r, applyAll p ds = (r, none) ∧ applyAll r es = (q, none) := by
  cases happly : applyAll p ds with
  | mk r failed =>
    cases failed with
    | none =>
      rw [applyAll_append_of_ok happly] at h
      exact ⟨r, rfl, h⟩
    | some fault =>
      rw [applyAll_append_of_error happly] at h
      cases h

/-- Some first items are all applied, and the one after them cannot be. -/
theorem exists_applied_items (keywords : Keywords) (p : Progress) (items : List Item) :
    ∃ before later, items = before ++ later ∧
      applyAll p (before.flatMap (Item.directives keywords)) =
        ((applyAll p (items.flatMap (Item.directives keywords))).1, none) ∧
      ∀ item more, later = item :: more →
        ∃ fault, (applyAll p (items.flatMap (Item.directives keywords))).2 = some fault ∧
          (applyAll (applyAll p (items.flatMap (Item.directives keywords))).1
            (item.directives keywords)).2 = some fault := by
  cases happly : applyAll p (items.flatMap (Item.directives keywords)) with
  | mk q failed =>
    cases failed with
    | none => exact ⟨items, [], by simp, happly, by simp⟩
    | some fault =>
      obtain ⟨before, item, after, r, rfl, hbefore, hitem⟩ := exists_failing_item happly
      -- The item that fails has changed nothing.
      have hr : applyAll r (item.directives keywords) = (r, some fault) := by
        cases hrun : applyAll r (item.directives keywords) with
        | mk s cause =>
          rw [hrun] at hitem
          obtain rfl : cause = some fault := hitem
          rw [Item.applyAll_error hrun]
      have hq : r = q := by
        rw [List.flatMap_append, applyAll_append_of_ok hbefore, List.flatMap_cons,
          applyAll_append_of_error hr] at happly
        exact congrArg Prod.fst happly
      subst hq
      refine ⟨before, item :: after, rfl, hbefore, ?_⟩
      intro other more hmore
      obtain ⟨rfl, -⟩ := List.cons.inj hmore
      exact ⟨fault, rfl, hitem⟩

/-- What a run does is what its reading asks for; it fails when one of the directives does. -/
theorem dispatch_eq_applyAll (features : Features) (policy : LongOptionPolicy) (globals : Globals)
    (args : List String) :
    (dispatch features policy globals args).progress =
        (applyAll (Progress.start globals)
          ((read (ImplementationOption.table features) policy args.tail).directives
            (ImplementationOption.table features))).1 ∧
      ∀ fault, (applyAll (Progress.start globals)
          ((read (ImplementationOption.table features) policy args.tail).directives
            (ImplementationOption.table features))).2 = some fault →
        (dispatch features policy globals args).outcome = .error fault := by
  match args with
  | [] => exact ⟨rfl, by simp [read, readFrom, Reading.directives, applyAll]⟩
  | [name] => exact ⟨rfl, by simp [read, readFrom, Reading.directives, applyAll]⟩
  | name :: token :: tokens =>
    rw [dispatch_eq_run (List.cons_ne_nil token tokens), List.tail_cons]
    refine ⟨progress_runFrom _ _ _, ?_⟩
    intro fault hfault
    cases happly : applyAll (Progress.start globals)
        ((read (ImplementationOption.table features) policy (token :: tokens)).directives
          (ImplementationOption.table features)) with
    | mk q failed =>
      rw [happly] at hfault
      obtain rfl : failed = some fault := hfault
      rw [Reading.runFrom_of_error happly]

theorem exists_applied (features : Features) (policy : LongOptionPolicy) (globals : Globals)
    (args : List String) : ∃ items, Applied features policy globals args items := by
  obtain ⟨hprogress, houtcome⟩ := dispatch_eq_applyAll features policy globals args
  obtain ⟨before, later, hitems, hbefore, hnext⟩ :=
    exists_applied_items (ImplementationOption.table features) (Progress.start globals)
      (read (ImplementationOption.table features) policy args.tail).items
  have hread : before <+: (read (ImplementationOption.table features) policy args.tail).items := by
    rw [hitems]
    exact List.prefix_append before later
  refine ⟨before, ?_, hread, ?_, ?_⟩
  · have hspelled : spelled before <+:
        spelled (read (ImplementationOption.table features) policy args.tail).items := by
      rw [hitems, spelled_append]
      exact List.prefix_append _ _
    exact hspelled.trans (spelled_read_isPrefix _ policy args.tail)
  · rw [hprogress]
    exact hbefore
  · intro item hitem
    rw [hitems, List.prefix_append_right_inj] at hitem
    obtain ⟨more, hmore⟩ := hitem
    obtain ⟨fault, hfails, hlast⟩ := hnext item more hmore.symm
    refine ⟨fault, houtcome fault hfails, ?_⟩
    rw [hprogress]
    exact hlast

theorem Applied.ne_append_cons (h : Applied features policy globals args items)
    (hothers : Applied features policy globals args others) (item : Item) (more : List Item) :
    others ≠ items ++ item :: more := by
  rintro rfl
  have hitem : items ++ [item] <+:
      (read (ImplementationOption.table features) policy args.tail).items := by
    refine List.IsPrefix.trans ?_ hothers.items_read
    exact (List.prefix_append_right_inj items).mpr ⟨more, rfl⟩
  obtain ⟨fault, -, hfails⟩ := h.next item hitem
  have happlied := hothers.applied
  rw [List.flatMap_append, applyAll_append_of_ok h.applied, List.flatMap_cons] at happlied
  obtain ⟨r, hr, -⟩ := exists_of_applyAll_append happlied
  rw [hr] at hfails
  cases hfails

theorem Applied.unique (h : Applied features policy globals args items)
    (hothers : Applied features policy globals args others) : others = items := by
  rcases List.prefix_or_prefix_of_prefix h.items_read hothers.items_read with
    ⟨later, hlater⟩ | ⟨later, hlater⟩
  · cases later with
    | nil => rw [← hlater, List.append_nil]
    | cons item more => exact absurd hlater.symm (h.ne_append_cons hothers item more)
  · cases later with
    | nil => rw [← hlater, List.append_nil]
    | cons item more => exact absurd hlater.symm (hothers.ne_append_cons h item more)

theorem Applied.exists_step {before after : List Item} {item : Item}
    (h : Applied features policy globals args (before ++ item :: after)) :
    ∃ p q, applyAll (Progress.start globals)
        (before.flatMap (Item.directives (ImplementationOption.table features))) = (p, none) ∧
      applyAll p (item.directives (ImplementationOption.table features)) = (q, none) := by
  have happlied := h.applied
  rw [List.flatMap_append, List.flatMap_cons] at happlied
  obtain ⟨p, hp, hlater⟩ := exists_of_applyAll_append happlied
  obtain ⟨q, hq, -⟩ := exists_of_applyAll_append hlater
  exact ⟨p, q, hp, hq⟩

end CommandLine
end AwkStartup
