import AwkStartup.CommandLine.Dispatch
import Mathlib.Tactic

/-!
# Applying directives

Directives are applied one after the other. Only assignments and separators can fail, and only
program files are remembered as files.
-/

namespace AwkStartup

namespace Directive

def canFail : Directive → Bool
  | assign _ | separator _ => true
  | _ => false

def isRemark : Directive → Bool
  | notice _ | ignoredLong _ => true
  | _ => false

def isIgnoredLong : Directive → Bool
  | ignoredLong _ => true
  | _ => false

def programFile? : Directive → Option String
  | programFile name => some name
  | _ => none

/-- Whether a candidate of a group can ask for a directive. -/
def isOfGroup : Directive → Bool
  | version | dump | interactive | posixSpace | random _ | sprintf _ | binmode _ | notice _ => true
  | _ => false

theorem canFail_of_isOfGroup {d : Directive} (h : d.isOfGroup = true) : d.canFail = false := by
  cases d <;> simp_all [isOfGroup, canFail]

theorem programFile?_of_isOfGroup {d : Directive} (h : d.isOfGroup = true) :
    d.programFile? = none := by
  cases d <;> simp_all [isOfGroup, programFile?]

theorem isIgnoredLong_of_isOfGroup {d : Directive} (h : d.isOfGroup = true) :
    d.isIgnoredLong = false := by
  cases d <;> simp_all [isOfGroup, isIgnoredLong]

end Directive

namespace CommandLine

/-- The same progress with other effects, and with another mark for a reported long option. -/
def Progress.retell (f : List Effect → List Effect) (g : Bool → Bool) (p : Progress) : Progress :=
  { p with effects := f p.effects, longReported := g p.longReported }

variable {f : List Effect → List Effect} {g : Bool → Bool}

theorem retell_call (hcall : ∀ effects c, f (effects ++ [.call c]) = f effects ++ [.call c])
    (p : Progress) (c : Call) : (p.call c).retell f g = (p.retell f g).call c := by
  simp [Progress.retell, Progress.call, hcall]

/-- What is launched does not depend on what has been done apart from files and switches. -/
theorem conclude_retell (p : Progress) (ending : Ending) :
    conclude (p.retell f g) ending = conclude p ending := by
  cases ending <;> rfl

def Progress.preceded (before : List Effect) (reported : Bool) : Progress → Progress :=
  Progress.retell (before ++ ·) fun _ => reported

theorem calls_preceded (before : List Effect) (reported : Bool) (p : Progress) :
    (p.preceded before reported).calls = before.filterMap Effect.call? ++ p.calls :=
  List.filterMap_append

theorem notices_preceded (before : List Effect) (reported : Bool) (p : Progress) :
    (p.preceded before reported).notices = before.filterMap Effect.notice? ++ p.notices :=
  List.filterMap_append

theorem messages_preceded (before : List Effect) (reported : Bool) (p : Progress) :
    (p.preceded before reported).messages =
      (before.filterMap Effect.notice?).map Notice.message ++ p.messages := by
  rw [Progress.messages, notices_preceded, List.map_append]
  rfl

variable [Libraries]

theorem applyAll_cons_ok {p q : Progress} {d : Directive} (h : apply p d = .ok q)
    (ds : List Directive) : applyAll p (d :: ds) = applyAll q ds := by
  simp [applyAll, h]

theorem applyAll_cons_error {p : Progress} {d : Directive} {fault : StartupError}
    (h : apply p d = .error fault) (ds : List Directive) :
    applyAll p (d :: ds) = (p, some fault) := by
  simp [applyAll, h]

theorem applyAll_append_of_ok {p q : Progress} {ds : List Directive}
    (h : applyAll p ds = (q, none)) (es : List Directive) :
    applyAll p (ds ++ es) = applyAll q es := by
  induction ds generalizing p with
  | nil =>
    obtain ⟨rfl, -⟩ := Prod.mk.inj h
    rfl
  | cons d ds ih =>
    cases hd : apply p d with
    | error fault =>
      rw [applyAll_cons_error hd] at h
      cases h
    | ok r =>
      rw [applyAll_cons_ok hd] at h
      rw [List.cons_append, applyAll_cons_ok hd]
      exact ih h

theorem applyAll_append_of_error {p q : Progress} {ds : List Directive} {fault : StartupError}
    (h : applyAll p ds = (q, some fault)) (es : List Directive) :
    applyAll p (ds ++ es) = (q, some fault) := by
  induction ds generalizing p with
  | nil => cases h
  | cons d ds ih =>
    cases hd : apply p d with
    | error cause =>
      rw [applyAll_cons_error hd] at h
      rw [List.cons_append, applyAll_cons_error hd, h]
    | ok r =>
      rw [applyAll_cons_ok hd] at h
      rw [List.cons_append, applyAll_cons_ok hd]
      exact ih h

theorem apply_ok_of_not_canFail (p : Progress) {d : Directive} (h : d.canFail = false) :
    ∃ q, apply p d = .ok q := by
  cases d with
  | assign text => cases h
  | separator text => cases h
  | _ => exact ⟨_, rfl⟩

theorem applyAll_ok_of_not_canFail (p : Progress) {ds : List Directive}
    (h : ∀ d ∈ ds, d.canFail = false) : ∃ q, applyAll p ds = (q, none) := by
  induction ds generalizing p with
  | nil => exact ⟨p, rfl⟩
  | cons d ds ih =>
    obtain ⟨q, hq⟩ := apply_ok_of_not_canFail p (h d List.mem_cons_self)
    rw [applyAll_cons_ok hq]
    exact ih q fun e he => h e (List.mem_cons_of_mem _ he)

def Progress.bind (p : Progress) (name : String) (cell : Cell) : Progress :=
  { p with globals := p.globals.setScalar name cell }

/-- What an assignment can do: it binds its name, and for FS it also sets the separator. -/
theorem assign_cases {p q : Progress} {text : String} (h : assign p text = .ok q) :
    ∃ name raw, assignment? text = some (name, raw) ∧ isAssignable p.globals name = true ∧
      ((name ≠ "FS" ∧ q = p.bind name (.maybeNumeric (Text.unescape raw))) ∨
        (name = "FS" ∧ ∃ separator, castSeparator (Text.unescape raw) = .ok separator ∧
          q = (p.bind name (.maybeNumeric (Text.unescape raw))).call (.separator separator))) := by
  unfold assign at h
  split at h
  · cases h
  · rename_i name raw hname
    split_ifs at h with hclash hfs
    · refine ⟨name, raw, hname, by simpa using hclash, Or.inr ⟨hfs, ?_⟩⟩
      dsimp only at h
      split at h
      · cases h
      · rename_i separator hcast
        exact ⟨separator, hcast, (Except.ok.inj h).symm⟩
    · exact ⟨name, raw, hname, by simpa using hclash, Or.inl ⟨hfs, (Except.ok.inj h).symm⟩⟩

/-- What a separator switch can do: it binds FS to its text and sets the separator. -/
theorem setSeparator_cases {p q : Progress} {text : String} (h : setSeparator p text = .ok q) :
    ∃ separator, castSeparator (Text.unescape text) = .ok separator ∧
      q = (p.bind "FS" (.string (Text.unescape text))).call (.separator separator) := by
  unfold setSeparator at h
  dsimp only at h
  split at h
  · cases h
  · rename_i separator hcast
    exact ⟨separator, hcast, (Except.ok.inj h).symm⟩

theorem castSeparator_error {text : String} {fault : StartupError}
    (h : castSeparator text = .error fault) :
    ∃ description, Separator.cast text = .error description ∧
      fault = .fieldSeparator text description := by
  unfold castSeparator at h
  split at h
  · cases h
  · rename_i refusal hcast
    exact ⟨refusal, hcast, (Except.error.inj h).symm⟩

/-- How a directive can fail: for a text that is no assignment, for a name that may not be assigned
to, or for a text that is no separator. -/
theorem apply_error_cases {p : Progress} {d : Directive} {fault : StartupError}
    (h : apply p d = .error fault) :
    (∃ text, fault = .improperAssignment text) ∨ (∃ name, fault = .assignmentClash name) ∨
      ∃ text description, Separator.cast text = .error description ∧
        fault = .fieldSeparator text description := by
  cases d with
  | assign text =>
    rw [apply, assign] at h
    split at h
    · exact Or.inl ⟨_, (Except.error.inj h).symm⟩
    · dsimp only at h
      split_ifs at h
      · exact Or.inr (Or.inl ⟨_, (Except.error.inj h).symm⟩)
      · split at h
        · rename_i hcast
          obtain rfl := Except.error.inj h
          exact Or.inr (Or.inr ⟨_, castSeparator_error hcast⟩)
        · cases h
  | separator text =>
    simp only [apply, setSeparator] at h
    split at h
    · rename_i hcast
      obtain rfl := Except.error.inj h
      exact Or.inr (Or.inr ⟨_, castSeparator_error hcast⟩)
    · cases h
  | _ => cases h

theorem assign_files {p q : Progress} {text : String} (h : assign p text = .ok q) :
    q.files = p.files := by
  obtain ⟨name, raw, -, -, ⟨-, rfl⟩ | ⟨-, separator, -, rfl⟩⟩ := assign_cases h
  · rfl
  · rfl

theorem setSeparator_files {p q : Progress} {text : String} (h : setSeparator p text = .ok q) :
    q.files = p.files := by
  obtain ⟨separator, -, rfl⟩ := setSeparator_cases h
  rfl

theorem names_of_apply_ok {p q : Progress} {d : Directive} (h : apply p d = .ok q) :
    q.files.names = p.files.names ++ d.programFile?.toList := by
  cases d with
  | assign text => simpa [Directive.programFile?] using congrArg ProgramFiles.names (assign_files h)
  | separator text =>
    simpa [Directive.programFile?] using congrArg ProgramFiles.names (setSeparator_files h)
  | programFile name =>
    cases h
    rfl
  | sprintf n =>
    cases h
    split_ifs <;> simp [Directive.programFile?, Progress.call]
  | ignoredLong token =>
    cases h
    split_ifs <;> simp [Directive.programFile?, Progress.remark]
  | _ =>
    cases h
    simp [Directive.programFile?, Progress.call, Progress.remark]

theorem names_of_applyAll_ok {p q : Progress} {ds : List Directive}
    (h : applyAll p ds = (q, none)) :
    q.files.names = p.files.names ++ ds.filterMap Directive.programFile? := by
  induction ds generalizing p with
  | nil =>
    obtain ⟨rfl, -⟩ := Prod.mk.inj h
    simp
  | cons d ds ih =>
    cases hd : apply p d with
    | error fault =>
      rw [applyAll_cons_error hd] at h
      cases h
    | ok r =>
      rw [applyAll_cons_ok hd] at h
      rw [ih h, names_of_apply_ok hd, List.append_assoc]
      cases hfile : d.programFile? with
      | none => simp [hfile]
      | some name => simp [hfile]

theorem assign_retell (hcall : ∀ effects c, f (effects ++ [.call c]) = f effects ++ [.call c])
    (p : Progress) (text : String) :
    assign (p.retell f g) text = (assign p text).map (Progress.retell f g) := by
  have hglobals : (p.retell f g).globals = p.globals := rfl
  unfold assign
  rw [hglobals]
  cases assignment? text with
  | none => rfl
  | some assignment =>
    obtain ⟨name, raw⟩ := assignment
    dsimp only
    split_ifs with hclash hfs
    · rfl
    · cases castSeparator (Text.unescape raw) with
      | error fault => rfl
      | ok separator =>
        simp only [Except.map, retell_call hcall]
        rfl
    · rfl

theorem setSeparator_retell
    (hcall : ∀ effects c, f (effects ++ [.call c]) = f effects ++ [.call c])
    (p : Progress) (text : String) :
    setSeparator (p.retell f g) text = (setSeparator p text).map (Progress.retell f g) := by
  unfold setSeparator
  dsimp only
  cases castSeparator (Text.unescape text) with
  | error fault => rfl
  | ok separator =>
    simp only [Except.map, retell_call hcall]
    rfl

/-- What has been done before does not change what a directive does. Remarks are told apart,
because they may be retold. -/
theorem apply_retell (hcall : ∀ effects c, f (effects ++ [.call c]) = f effects ++ [.call c])
    (p : Progress) {d : Directive} (hd : d.isRemark = false) :
    apply (p.retell f g) d = (apply p d).map (Progress.retell f g) := by
  cases d with
  | assign text => exact assign_retell hcall p text
  | separator text => exact setSeparator_retell hcall p text
  | sprintf n =>
    by_cases hn : n < 0
    · simp [apply, hn, Except.map]
    · simp [apply, hn, Except.map, retell_call hcall]
  | version | random n | binmode n => simp [apply, Except.map, retell_call hcall]
  | interactive =>
    simp only [apply, Except.map, retell_call hcall]
    rfl
  | programFile name | dump | posixSpace => rfl
  | notice n | ignoredLong token => cases hd

/-- A map of progress that goes past each directive goes past all of them. -/
theorem applyAll_map {f : Progress → Progress} {g : Directive → Directive} {ds : List Directive}
    (h : ∀ p, ∀ d ∈ ds, apply (f p) (g d) = (apply p d).map f) (p : Progress) :
    applyAll (f p) (ds.map g) = (f (applyAll p ds).1, (applyAll p ds).2) := by
  induction ds generalizing p with
  | nil => rfl
  | cons d ds ih =>
    obtain ⟨hd, hds⟩ : (∀ p, apply (f p) (g d) = (apply p d).map f) ∧
        ∀ p, ∀ e ∈ ds, apply (f p) (g e) = (apply p e).map f := by
      constructor
      · intro q
        exact h q d List.mem_cons_self
      · intro q e he
        exact h q e (List.mem_cons_of_mem d he)
    have happly := hd p
    cases hp : apply p d with
    | error fault =>
      rw [hp] at happly
      rw [List.map_cons, applyAll_cons_error happly, applyAll_cons_error hp]
    | ok q =>
      rw [hp] at happly
      rw [List.map_cons, applyAll_cons_ok happly, applyAll_cons_ok hp, ih hds]

theorem applyAll_preceded (before : List Effect) (reported : Bool) {ds : List Directive}
    (hds : ∀ d ∈ ds, d.isIgnoredLong = false) (p : Progress) :
    applyAll (p.preceded before reported) ds =
      ((applyAll p ds).1.preceded before reported, (applyAll p ds).2) := by
  have hcall (effects : List Effect) (c : Call) :
      before ++ (effects ++ [Effect.call c]) = before ++ effects ++ [Effect.call c] := by
    simp
  have hmap := @applyAll_map _ (Progress.preceded before reported) id ds ?_ p
  · rwa [List.map_id] at hmap
  · intro q d hd
    have hlong := hds d hd
    cases d with
    | notice n =>
      simp [apply, Except.map, Progress.preceded, Progress.retell, Progress.remark]
    | ignoredLong token => cases hlong
    | _ => exact apply_retell (f := (before ++ ·)) hcall q rfl

theorem longReported_of_apply_ok {p q : Progress} {d : Directive} (h : apply p d = .ok q)
    (hd : d.isIgnoredLong = false) : q.longReported = p.longReported := by
  cases d with
  | assign text =>
    obtain ⟨name, raw, -, -, ⟨-, rfl⟩ | ⟨-, separator, -, rfl⟩⟩ := assign_cases h
    · rfl
    · rfl
  | separator text =>
    obtain ⟨separator, -, rfl⟩ := setSeparator_cases h
    rfl
  | sprintf n =>
    cases h
    split_ifs <;> rfl
  | ignoredLong token => cases hd
  | _ =>
    cases h
    rfl

theorem longReported_of_applyAll {p q : Progress} {ds : List Directive}
    (hds : ∀ d ∈ ds, d.isIgnoredLong = false) (h : applyAll p ds = (q, none)) :
    q.longReported = p.longReported := by
  induction ds generalizing p with
  | nil =>
    obtain ⟨rfl, -⟩ := Prod.mk.inj h
    rfl
  | cons d ds ih =>
    obtain ⟨hd, hlater⟩ := List.forall_mem_cons.mp hds
    cases hp : apply p d with
    | error fault =>
      rw [applyAll_cons_error hp] at h
      cases h
    | ok r =>
      rw [applyAll_cons_ok hp] at h
      rw [ih hlater h, longReported_of_apply_ok hp hd]

theorem applyAll_of_reported {p : Progress} (h : p.longReported = true) (ds : List Directive) :
    applyAll p ds = applyAll p (ds.filter fun d => !d.isIgnoredLong) := by
  induction ds generalizing p with
  | nil => rfl
  | cons d ds ih =>
    cases hd : d.isIgnoredLong with
    | true =>
      have hp : apply p d = .ok p := by
        cases d with
        | ignoredLong token => simp [apply, h]
        | _ => cases hd
      rw [applyAll_cons_ok hp, List.filter_cons_of_neg (by simp [hd]), ih h]
    | false =>
      rw [List.filter_cons_of_pos (by simp [hd])]
      cases hp : apply p d with
      | error fault => rw [applyAll_cons_error hp, applyAll_cons_error hp]
      | ok q =>
        have hq : q.longReported = true := by rw [longReported_of_apply_ok hp hd, h]
        rw [applyAll_cons_ok hp, applyAll_cons_ok hp, ih hq]

theorem effects_isPrefix_of_apply_ok {p q : Progress} {d : Directive} (h : apply p d = .ok q) :
    p.effects <+: q.effects := by
  cases d with
  | assign text =>
    obtain ⟨name, raw, -, -, ⟨-, rfl⟩ | ⟨-, separator, -, rfl⟩⟩ := assign_cases h
    · exact List.prefix_rfl
    · exact List.prefix_append _ _
  | separator text =>
    obtain ⟨separator, -, rfl⟩ := setSeparator_cases h
    exact List.prefix_append _ _
  | sprintf n =>
    cases h
    split_ifs
    · exact List.prefix_rfl
    · exact List.prefix_append _ _
  | ignoredLong token =>
    cases h
    split_ifs
    · exact List.prefix_rfl
    · exact List.prefix_append _ _
  | programFile name | dump | posixSpace =>
    cases h
    exact List.prefix_rfl
  | version | interactive | random n | binmode n | notice n =>
    cases h
    exact List.prefix_append _ _

theorem calls_isPrefix_applyAll (p : Progress) (ds : List Directive) :
    p.calls <+: (applyAll p ds).1.calls := by
  induction ds generalizing p with
  | nil => exact List.prefix_rfl
  | cons d ds ih =>
    cases hd : apply p d with
    | error fault => rw [applyAll_cons_error hd]
    | ok q =>
      rw [applyAll_cons_ok hd]
      exact ((effects_isPrefix_of_apply_ok hd).filterMap Effect.call?).trans (ih q)

def Reading.runFrom (keywords : Keywords) (p : Progress) (reading : Reading) : Dispatched :=
  match applyAll p (reading.directives keywords) with
  | (q, some fault) => ⟨.error fault, q⟩
  | (q, none) => ⟨conclude q reading.ending, q⟩

theorem Reading.run_eq_runFrom (keywords : Keywords) (globals : Globals) (reading : Reading) :
    reading.run keywords globals = reading.runFrom keywords (Progress.start globals) := rfl

theorem Reading.runFrom_of_ok {keywords : Keywords} {p q : Progress} {reading : Reading}
    (h : applyAll p (reading.directives keywords) = (q, none)) :
    reading.runFrom keywords p = ⟨conclude q reading.ending, q⟩ := by
  simp [runFrom, h]

theorem Reading.runFrom_of_error {keywords : Keywords} {p q : Progress} {reading : Reading}
    {fault : StartupError} (h : applyAll p (reading.directives keywords) = (q, some fault)) :
    reading.runFrom keywords p = ⟨.error fault, q⟩ := by
  simp [runFrom, h]

theorem progress_runFrom (keywords : Keywords) (p : Progress) (reading : Reading) :
    (reading.runFrom keywords p).progress = (applyAll p (reading.directives keywords)).1 := by
  cases happly : applyAll p (reading.directives keywords) with
  | mk q failed =>
    cases failed with
    | none => rw [Reading.runFrom_of_ok happly]
    | some fault => rw [Reading.runFrom_of_error happly]

end CommandLine
end AwkStartup
