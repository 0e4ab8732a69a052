import AwkStartup.Proofs.CommandLine.Bindings

/-!
# A command line processed twice

Global names decide only whether an assignment is refused, and writing a name never makes it less
assignable. So where the first run has left its names, a second run of the same command line is
refused no earlier and no later than the first, and writes the same scalars again.
-/

namespace AwkStartup
namespace CommandLine

def Progress.withGlobals (p : Progress) (globals : Globals) : Progress :=
  { p with globals := globals }

variable {p q : Progress} {d : Directive} {ds : List Directive} {globals : Globals}

@[simp] theorem globals_withGlobals (p : Progress) (globals : Globals) :
    (p.withGlobals globals).globals = globals := rfl

@[simp] theorem withGlobals_self (p : Progress) : p.withGlobals p.globals = p := rfl

theorem isAssignable_setScalar (globals : Globals) (name n : String) (cell : Cell) :
    isAssignable (globals.setScalar name cell) n = true ↔
      n = name ∨ isAssignable globals n = true := by
  by_cases hname : n = name
  · simp [isAssignable, hname]
  · simp [isAssignable, hname]

theorem isAssignable_write (globals : Globals) (writes : List (String × Cell)) (name : String) :
    isAssignable (globals.write writes) name = true ↔
      name ∈ writes.map Prod.fst ∨ isAssignable globals name = true := by
  induction writes generalizing globals with
  | nil => simp
  | cons w writes ih =>
    rw [Globals.write_cons, ih, isAssignable_setScalar, List.map_cons, List.mem_cons]
    tauto

variable [Libraries]

theorem exists_write_of_applyAll (p : Progress) (ds : List Directive) :
    ∃ writes, (applyAll p ds).1.globals = p.globals.write writes := by
  induction ds generalizing p with
  | nil => exact ⟨[], rfl⟩
  | cons d ds ih =>
    cases hd : apply p d with
    | error fault =>
      rw [applyAll_cons_error hd]
      exact ⟨[], rfl⟩
    | ok r =>
      obtain ⟨writes, hwrites⟩ := ih r
      rw [applyAll_cons_ok hd, hwrites, globals_of_apply_ok hd, ← Globals.write_append]
      exact ⟨_, rfl⟩

theorem isAssignable_of_applyAll {name : String} (h : isAssignable p.globals name = true)
    (ds : List Directive) : isAssignable (applyAll p ds).1.globals name = true := by
  obtain ⟨writes, hwrites⟩ := exists_write_of_applyAll p ds
  rw [hwrites, isAssignable_write]
  exact Or.inr h

theorem assign_withGlobals {text : String}
    (h : ∀ name raw, assignment? text = some (name, raw) →
      isAssignable globals name = isAssignable p.globals name) :
    assign (p.withGlobals globals) text =
      (assign p text).map fun r =>
        r.withGlobals (globals.write (Directive.assign text).write?.toList) := by
  unfold assign
  cases hassignment : assignment? text with
  | none => rfl
  | some assignment =>
    obtain ⟨name, raw⟩ := assignment
    have hwrite : (Directive.assign text).write? =
        some (name, .maybeNumeric (Text.unescape raw)) := by
      simp [Directive.write?, hassignment]
    dsimp only
    rw [hwrite, globals_withGlobals, h name raw hassignment]
    split_ifs with hclash hfs
    · rfl
    · cases castSeparator (Text.unescape raw) with
      | error fault => rfl
      | ok separator => rfl
    · rfl

theorem apply_withGlobals
    (h : ∀ text name raw, d = .assign text → assignment? text = some (name, raw) →
      isAssignable globals name = isAssignable p.globals name) :
    apply (p.withGlobals globals) d =
      (apply p d).map fun r => r.withGlobals (globals.write d.write?.toList) := by
  cases d with
  | assign text => exact assign_withGlobals fun name raw => h text name raw rfl
  | separator text =>
    unfold apply setSeparator
    dsimp only
    cases castSeparator (Text.unescape text) with
    | error fault => rfl
    | ok separator => rfl
  | sprintf n =>
    by_cases hn : n < 0
    · rw [apply, apply, if_pos hn, if_pos hn]
      rfl
    · rw [apply, apply, if_neg hn, if_neg hn]
      rfl
  | ignoredLong token =>
    have hsame : (p.withGlobals globals).longReported = p.longReported := rfl
    rw [apply, apply, hsame]
    split_ifs
    · rfl
    · rfl
  | _ => rfl

/-- Over bindings in which the same names are assignable as in the end, directives do the same
again. -/
theorem applyAll_withGlobals
    (h : ∀ name, isAssignable globals name = isAssignable (applyAll p ds).1.globals name) :
    ∃ writes, (applyAll p ds).1.globals = p.globals.write writes ∧
      applyAll (p.withGlobals globals) ds =
        ((applyAll p ds).1.withGlobals (globals.write writes), (applyAll p ds).2) := by
  induction ds generalizing p globals with
  | nil => exact ⟨[], rfl, rfl⟩
  | cons d ds ih =>
    cases hd : apply p d with
    | error fault =>
      -- The bindings are those of the end, so the directive fails again.
      rw [applyAll_cons_error hd] at h ⊢
      have hagain := apply_withGlobals (d := d) fun text name raw _ _ => h name
      rw [hd] at hagain
      exact ⟨[], rfl, applyAll_cons_error hagain ds⟩
    | ok r =>
      rw [applyAll_cons_ok hd] at h ⊢
      have hglobals := globals_of_apply_ok hd
      -- A name that was assignable still is in the end, and so it is here.
      have hassigned : ∀ text name raw, d = .assign text → assignment? text = some (name, raw) →
          isAssignable globals name = isAssignable p.globals name := by
        rintro text name raw rfl hassignment
        obtain ⟨n, t, hsame, hassignable, -⟩ := assign_cases hd
        rw [hassignment] at hsame
        cases hsame
        have hr : isAssignable r.globals name = true := by
          rw [hglobals, isAssignable_write]
          exact Or.inr hassignable
        rw [h, hassignable, isAssignable_of_applyAll hr]
      have hagain := apply_withGlobals hassigned
      rw [hd] at hagain
      have hstep : ∀ name, isAssignable (globals.write d.write?.toList) name =
          isAssignable (applyAll r ds).1.globals name := by
        intro name
        rw [Bool.eq_iff_iff, isAssignable_write, h]
        constructor
        · rintro (hname | hname)
          · apply isAssignable_of_applyAll
            rw [hglobals, isAssignable_write]
            exact Or.inl hname
          · exact hname
        · intro hname
          exact Or.inr hname
      obtain ⟨writes, hwrites, hrun⟩ := ih hstep
      refine ⟨d.write?.toList ++ writes, ?_, ?_⟩
      · rw [hwrites, hglobals, Globals.write_append]
      · rw [applyAll_cons_ok hagain, hrun, Globals.write_append]

/-- Directives do the same again over the bindings that they have left. -/
theorem applyAll_again (p : Progress) (ds : List Directive) :
    applyAll (p.withGlobals (applyAll p ds).1.globals) ds = applyAll p ds := by
  obtain ⟨writes, hwrites, hagain⟩ :=
    @applyAll_withGlobals p ds (applyAll p ds).1.globals _ fun _ => rfl
  have hsame : (applyAll p ds).1.globals.write writes = (applyAll p ds).1.globals := by
    rw [hwrites, Globals.write_write]
  rw [hagain, hsame, withGlobals_self]

/-- Processing a command line is idempotent on the global names. A second run on the names that the
first run left ends the same, makes the same calls and remarks in the same order, and leaves the
names as they are. -/
theorem dispatch_again (features : Features) (policy : LongOptionPolicy) (globals : Globals)
    (args : List String) :
    dispatch features policy (dispatch features policy globals args).progress.globals args =
      dispatch features policy globals args := by
  match args with
  | [] => rfl
  | [name] => rfl
  | name :: token :: tokens =>
    rw [dispatch_eq_run (List.cons_ne_nil token tokens),
      dispatch_eq_run (List.cons_ne_nil token tokens), progress_runFrom]
    generalize read (ImplementationOption.table features) policy (token :: tokens) = reading
    generalize hds : reading.directives (ImplementationOption.table features) = ds
    have hstart : Progress.start (applyAll (Progress.start globals) ds).1.globals =
        (Progress.start globals).withGlobals (applyAll (Progress.start globals) ds).1.globals := rfl
    rw [Reading.runFrom, Reading.runFrom, hds, hstart, applyAll_again]

end CommandLine
end AwkStartup
