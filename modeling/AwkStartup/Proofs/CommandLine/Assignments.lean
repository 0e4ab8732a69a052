import AwkStartup.Proofs.CommandLine.Bindings
import AwkStartup.StandardLibraries

/-!
# How an assignment can fail

An assignment is refused for its form, for what its name is bound to, or, when it is to FS, for a
value that is no separator. These are looked at in this order, and a refused assignment changes
nothing. Any other assignment binds its name.
-/

namespace AwkStartup

/-- A name that an assignment may not bind: a keyword, a builtin function or an array. -/
inductive Globals.IsTaken (globals : Globals) (name : String) : Prop
  | keyword : globals.find? name = some .keyword → IsTaken globals name
  | builtin : globals.find? name = some .builtin → IsTaken globals name
  | array {id} : globals.find? name = some (.array id) → IsTaken globals name

/-- A text that is no separator, and why: it is neither empty nor a space, and the pattern that it
stands for does not compile. -/
structure Separator.IsRefused [Libraries] (text description : String) : Prop where
  not_empty : text ≠ ""
  not_space : text ≠ " "
  fault : Libraries.patternFault? (patternText text) = some description

theorem Separator.cast_eq_error_iff [Libraries] {text description : String} :
    cast text = .error description ↔ IsRefused text description := by
  have hempty : text = "" ↔ text.toList = [] := String.toList_eq_nil_iff.symm
  have hspace : text = " " ↔ text.toList = [' '] := String.toList_inj.symm
  constructor
  · intro h
    unfold cast at h
    split at h
    · cases h
    · cases h
    · rename_i hne hblank
      split at h
      · cases h
      · rename_i hfault
        obtain rfl := Except.error.inj h
        exact ⟨fun he => hne (hempty.mp he), fun he => hblank (hspace.mp he), hfault⟩
  · rintro ⟨hne, hblank, hfault⟩
    unfold cast
    split
    · rename_i he
      exact absurd (hempty.mpr he) hne
    · rename_i he
      exact absurd (hspace.mpr he) hblank
    · rw [hfault]

namespace CommandLine

/-- A letter or an underscore, followed by letters, digits and underscores. -/
def IsIdentifier (name : List Char) : Prop :=
  ∃ c s, name = c :: s ∧ (c.isAlpha = true ∨ c = '_') ∧ ∀ d ∈ s, d.isAlphanum = true ∨ d = '_'

/-- A text that is an identifier, an equals sign and a raw value. An identifier has no equals sign, so
this is the first one; the value may have others. -/
def Assigns (text name raw : String) : Prop :=
  text = name ++ "=" ++ raw ∧ IsIdentifier name.toList

variable {p : Progress} {text name raw : String}

theorem isNameStart_iff (c : Char) : isNameStart c = true ↔ c.isAlpha = true ∨ c = '_' := by
  have hupper : c.isUpper = true ↔ 'A' ≤ c ∧ c ≤ 'Z' := decide_eq_true_iff
  have hlower : c.isLower = ('a' ≤ c && c ≤ 'z') := rfl
  have halpha : c.isAlpha = (c.isUpper || c.isLower) := rfl
  rw [isNameStart, halpha]
  simp only [Bool.or_eq_true, Bool.and_eq_true, decide_eq_true_eq, beq_iff_eq, hupper, hlower]
  exact or_congr or_comm Iff.rfl

theorem isNameRest_iff (c : Char) : isNameRest c = true ↔ c.isAlphanum = true ∨ c = '_' := by
  have halphanum : c.isAlphanum = (c.isAlpha || Leading.isDigit c) := rfl
  rw [isNameRest, Bool.or_eq_true, isNameStart_iff, halphanum, Bool.or_eq_true, or_right_comm]

theorem isVariableName_iff : isVariableName name = true ↔ IsIdentifier name.toList := by
  unfold isVariableName IsIdentifier
  cases name.toList with
  | nil => simp
  | cons c s => simp [isNameStart_iff, isNameRest_iff]

theorem IsIdentifier.notMem_equals {name : List Char} (h : IsIdentifier name) : '=' ∉ name := by
  obtain ⟨c, s, rfl, hc, hs⟩ := h
  rw [List.mem_cons, not_or]
  refine ⟨?_, fun hmem => absurd (hs '=' hmem) (by decide)⟩
  rintro rfl
  exact absurd hc (by decide)

theorem assignment?_iff_assigns : assignment? text = some (name, raw) ↔ Assigns text name raw := by
  rw [assignment?_eq_some_iff, isVariableName_iff]
  constructor
  · rintro ⟨htext, -, hname⟩
    exact ⟨htext, hname⟩
  · rintro ⟨htext, hname⟩
    exact ⟨htext, hname.notMem_equals, hname⟩

theorem isTaken_iff {globals : Globals} :
    globals.IsTaken name ↔
      ∃ symbol, globals.find? name = some symbol ∧ symbol.isVariable = false := by
  constructor
  · rintro (hfind | hfind | hfind) <;> exact ⟨_, hfind, rfl⟩
  · rintro ⟨symbol, hfind, hsymbol⟩
    cases symbol with
    | keyword => exact .keyword hfind
    | builtin => exact .builtin hfind
    | var cell => cases hsymbol
    | array id => exact .array hfind

theorem isAssignable_eq_false_iff {globals : Globals} :
    isAssignable globals name = false ↔ globals.IsTaken name := by
  rw [← Bool.not_eq_true, isAssignable_iff, isTaken_iff]
  simp only [not_forall, Bool.not_eq_true, exists_prop]

theorem isAssignable_of_not_isTaken {globals : Globals} (h : ¬globals.IsTaken name) :
    isAssignable globals name = true := by
  rwa [← isAssignable_eq_false_iff, Bool.not_eq_false] at h

section Assigning

variable [Libraries]

/-- What an assignment does that is not refused: it binds its name and no other one, and it calls
for the separator of its value when the name is FS. -/
structure Binds (p q : Progress) (name value : String) : Prop where
  bound : q.globals.find? name = some (.var (.maybeNumeric value))
  others : ∀ other, other ≠ name → q.globals.find? other = p.globals.find? other
  separator : name = "FS" → ∃ separator, Separator.cast value = .ok separator ∧
    q.effects = p.effects ++ [.call (.separator separator)]
  silent : name ≠ "FS" → q.effects = p.effects
  files : q.files = p.files
  flags : q.flags = p.flags
  longReported : q.longReported = p.longReported

/-- The ways in which an assignment fails: for its form, for a name that is taken, and for a value
that is no separator when the name is FS. -/
inductive AssignmentFails (globals : Globals) (text : String) : StartupError → Prop
  | form : (∀ name raw, ¬Assigns text name raw) →
      AssignmentFails globals text (.improperAssignment text)
  | name {name raw : String} : Assigns text name raw → globals.IsTaken name →
      AssignmentFails globals text (.assignmentClash name)
  | value {raw description : String} : Assigns text "FS" raw → ¬globals.IsTaken "FS" →
      Separator.IsRefused (Text.unescape raw) description →
      AssignmentFails globals text (.fieldSeparator (Text.unescape raw) description)

theorem AssignmentFails.applyAll_eq {fault : StartupError}
    (h : AssignmentFails p.globals text fault) :
    applyAll p [.assign text] = (p, some fault) := by
  cases h with
  | form hform =>
    have hnone : assignment? text = none := by
      rw [Option.eq_none_iff_forall_ne_some]
      rintro ⟨name, raw⟩ hsome
      exact hform name raw (assignment?_iff_assigns.mp hsome)
    simp [applyAll, apply, assign, hnone]
  | name hassigns htaken =>
    simp [applyAll, apply, assign, assignment?_iff_assigns.mpr hassigns,
      isAssignable_eq_false_iff.mpr htaken]
  | value hassigns hfree hrefused =>
    simp [applyAll, apply, assign, assignment?_iff_assigns.mpr hassigns,
      isAssignable_of_not_isTaken hfree, castSeparator, Separator.cast_eq_error_iff.mpr hrefused]

theorem binds_bind (hname : name ≠ "FS") (value : String) :
    Binds p (p.bind name (.maybeNumeric value)) name value := by
  refine ⟨by simp [Progress.bind], ?_, fun hfs => absurd hfs hname, fun _ => rfl, rfl, rfl, rfl⟩
  intro other hother
  simp [Progress.bind, hother]

theorem binds_bind_call {value : String} {separator : Separator}
    (hcast : Separator.cast value = .ok separator) :
    Binds p ((p.bind "FS" (.maybeNumeric value)).call (.separator separator)) "FS" value := by
  refine ⟨by simp [Progress.bind, Progress.call], ?_, fun _ => ⟨separator, hcast, rfl⟩,
    fun hname => absurd rfl hname, rfl, rfl, rfl⟩
  intro other hother
  simp [Progress.bind, Progress.call, hother]

theorem exists_applyAll_assign (h : Assigns text name raw)
    (hsafe : ∀ fault, ¬AssignmentFails p.globals text fault) :
    ∃ q, applyAll p [.assign text] = (q, none) ∧ Binds p q name (Text.unescape raw) := by
  have hfree : ¬p.globals.IsTaken name := fun htaken => hsafe _ (.name h htaken)
  have hassignable := isAssignable_of_not_isTaken hfree
  by_cases hfs : name = "FS"
  · subst hfs
    cases hcast : Separator.cast (Text.unescape raw) with
    | error description =>
      exact absurd (.value h hfree (Separator.cast_eq_error_iff.mp hcast)) (hsafe _)
    | ok separator =>
      refine ⟨_, ?_, binds_bind_call hcast⟩
      simp [applyAll, apply, assign, assignment?_iff_assigns.mpr h, hassignable, castSeparator,
        hcast, Progress.bind]
  · refine ⟨_, ?_, binds_bind hfs _⟩
    simp [applyAll, apply, assign, assignment?_iff_assigns.mpr h, hassignable, hfs, Progress.bind]

/-- An assignment fails in exactly three ways and leaves no trace then: for its form, when it is no
identifier, equals sign and raw value; otherwise for its name, when that is a keyword, a builtin
function or an array; and otherwise for its value, when the name is FS and the decoded value is
neither empty nor a space nor a pattern. Every other assignment binds its name, and no other one, to
the decoded value, which may be numeric. It makes no call, except that an assignment to FS calls for
the separator of the value. -/
theorem assignments_fail_in_three_ways (p : Progress) (text : String) :
    (∀ q fault, applyAll p [.assign text] = (q, some fault) ↔
      q = p ∧ AssignmentFails p.globals text fault) ∧
    ((∀ fault, ¬AssignmentFails p.globals text fault) → ∃ name raw, Assigns text name raw) ∧
    ∀ name raw, Assigns text name raw → (∀ fault, ¬AssignmentFails p.globals text fault) →
      ∃ q, applyAll p [.assign text] = (q, none) ∧ Binds p q name (Text.unescape raw) := by
  have hform : (∀ fault, ¬AssignmentFails p.globals text fault) →
      ∃ name raw, Assigns text name raw := by
    intro hsafe
    by_contra hnone
    simp only [not_exists] at hnone
    exact hsafe _ (.form hnone)
  refine ⟨fun q fault => ⟨?_, ?_⟩, hform, fun name raw h hsafe => exists_applyAll_assign h hsafe⟩
  · intro hfails
    by_cases h : ∃ cause, AssignmentFails p.globals text cause
    · obtain ⟨cause, hcause⟩ := h
      rw [hcause.applyAll_eq] at hfails
      cases hfails
      exact ⟨rfl, hcause⟩
    · rw [not_exists] at h
      obtain ⟨name, raw, hassigns⟩ := hform h
      obtain ⟨r, hdone, -⟩ := exists_applyAll_assign hassigns h
      rw [hdone] at hfails
      cases hfails
  · rintro ⟨rfl, h⟩
    exact h.applyAll_eq

end Assigning

/-- A name that starts with a digit, a keyword, a value that is no pattern, and a value with an equals
sign, a letter beyond ASCII and an escape. -/
theorem assignments_fail_in_three_ways_initial :
    AssignmentFails Globals.initial "1x=2" (.improperAssignment "1x=2") ∧
    AssignmentFails Globals.initial "BEGIN=1" (.assignmentClash "BEGIN") ∧
    (∃ description,
      AssignmentFails Globals.initial "FS=\\133a" (.fieldSeparator "[a" description)) ∧
    Assigns "FS=é=\\56" "FS" "é=\\56" ∧
    (∀ fault, ¬AssignmentFails Globals.initial "FS=é=\\56" fault) ∧
    ∃ q, applyAll (.start Globals.initial) [.assign "FS=é=\\56"] = (q, none) ∧
      Binds (.start Globals.initial) q "FS" "é=." := by
  have hfails := fun text => (assignments_fail_in_three_ways (.start Globals.initial) text).1
  have hassigns : Assigns "FS=é=\\56" "FS" "é=\\56" :=
    ⟨rfl, 'F', ['S'], rfl, Or.inl (by decide),
      List.forall_mem_singleton.mpr (Or.inl (by decide))⟩
  have hsafe : ∀ fault, ¬AssignmentFails Globals.initial "FS=é=\\56" fault := by
    intro fault h
    have hnone : (applyAll (.start Globals.initial) [.assign "FS=é=\\56"]).2 = none := rfl
    rw [(hfails _ _ fault).mpr ⟨rfl, h⟩] at hnone
    cases hnone
  exact ⟨((hfails _ _ _).mp rfl).2, ((hfails _ _ _).mp rfl).2, ⟨_, ((hfails _ _ _).mp rfl).2⟩,
    hassigns, hsafe, (assignments_fail_in_three_ways _ _).2.2 _ _ hassigns hsafe⟩

end CommandLine
end AwkStartup
