import AwkStartup.Proofs.CommandLine.AppliedOptions
import AwkStartup.StandardLibraries

/-!
# What a command line binds

Only assignments and separators write global names, and the last write of a name decides what it is
bound to. All other names stay as they were. An assignment never writes a keyword, a builtin
function or an array; a separator may write any FS.
-/

namespace AwkStartup

namespace Symbol

def isVariable : Symbol → Bool
  | var _ => true
  | _ => false

end Symbol

namespace Globals

def write (g : Globals) (writes : List (String × Cell)) : Globals :=
  writes.foldl (fun h w => h.setScalar w.1 w.2) g

@[simp] theorem write_nil (g : Globals) : g.write [] = g := rfl

@[simp] theorem write_cons (g : Globals) (w : String × Cell) (writes : List (String × Cell)) :
    g.write (w :: writes) = (g.setScalar w.1 w.2).write writes := rfl

theorem write_append (g : Globals) (writes later : List (String × Cell)) :
    g.write (writes ++ later) = (g.write writes).write later :=
  List.foldl_append

@[simp] theorem find?_setScalar (g : Globals) (name n : String) (cell : Cell) :
    (g.setScalar name cell).find? n = if n = name then some (.var cell) else g.find? n := rfl

theorem find?_write (g : Globals) (writes : List (String × Cell)) (name : String) :
    (g.write writes).find? name =
      ((writes.reverse.lookup name).map Symbol.var).or (g.find? name) := by
  induction writes generalizing g with
  | nil => rfl
  | cons w writes ih =>
    obtain ⟨n, cell⟩ := w
    rw [write_cons, ih, List.reverse_cons, List.lookup_append, find?_setScalar]
    cases writes.reverse.lookup name with
    | some later => rfl
    | none =>
      by_cases hname : name = n
      · simp [hname]
      · simp [hname, List.lookup_cons, beq_eq_false_iff_ne.2 hname]

theorem write_write (g : Globals) (writes : List (String × Cell)) :
    (g.write writes).write writes = g.write writes := by
  ext1 name
  rw [find?_write, find?_write]
  cases writes.reverse.lookup name <;> rfl

end Globals

def Directive.write? : Directive → Option (String × Cell)
  | assign text =>
    (CommandLine.assignment? text).map fun (name, raw) => (name, .maybeNumeric (Text.unescape raw))
  | separator text => some ("FS", .string (Text.unescape text))
  | _ => none

namespace CommandLine

theorem assignment?_eq_some_iff (text name raw : String) :
    assignment? text = some (name, raw) ↔
      text = name ++ "=" ++ raw ∧ '=' ∉ name.toList ∧ isVariableName name = true := by
  unfold assignment?
  constructor
  · intro h
    split at h
    · rename_i n r hpair
      split_ifs at h with hname
      cases h
      obtain ⟨htext, hequals⟩ := (Text.nameValue?_eq_some_iff _ _ _).mp hpair
      exact ⟨htext, hequals, hname⟩
    · cases h
  · rintro ⟨htext, hequals, hname⟩
    rw [(Text.nameValue?_eq_some_iff _ _ _).mpr ⟨htext, hequals⟩]
    simp [hname]

theorem globals_of_apply_ok [Libraries] {p q : Progress} {d : Directive} (h : apply p d = .ok q) :
    q.globals = p.globals.write d.write?.toList := by
  cases d with
  | assign text =>
    obtain ⟨name, raw, hassignment, -, ⟨-, rfl⟩ | ⟨-, separator, -, rfl⟩⟩ := assign_cases h
    · simp [Directive.write?, hassignment, Progress.bind]
    · simp [Directive.write?, hassignment, Progress.bind, Progress.call]
  | separator text =>
    obtain ⟨separator, -, rfl⟩ := setSeparator_cases h
    rfl
  | sprintf n =>
    cases h
    split_ifs <;> rfl
  | ignoredLong token =>
    cases h
    split_ifs <;> rfl
  | _ =>
    cases h
    rfl

theorem filterMap_cons_eq_append {α β : Type} (f : α → Option β) (a : α) (l : List α) :
    (a :: l).filterMap f = (f a).toList ++ l.filterMap f := by
  rw [List.filterMap_eq_flatMap_toList, List.filterMap_eq_flatMap_toList, List.flatMap_cons]

theorem globals_of_applyAll_ok [Libraries] {p q : Progress} {ds : List Directive}
    (h : applyAll p ds = (q, none)) :
    q.globals = p.globals.write (ds.filterMap Directive.write?) := by
  induction ds generalizing p with
  | nil =>
    obtain ⟨rfl, -⟩ := Prod.mk.inj h
    rfl
  | cons d ds ih =>
    cases hd : apply p d with
    | error fault =>
      rw [applyAll_cons_error hd] at h
      cases h
    | ok r =>
      rw [applyAll_cons_ok hd] at h
      rw [ih h, globals_of_apply_ok hd, ← Globals.write_append, filterMap_cons_eq_append]

theorem write?_of_isOfGroup {d : Directive} (h : d.isOfGroup = true) : d.write? = none := by
  cases d <;> simp_all [Directive.isOfGroup, Directive.write?]

def Item.option? : Item → Option (Switch × String)
  | skipped _ _ => none
  | glued switch value | separate switch value => some (switch, value)

/-- An option writes a scalar to a name: an assignment its decoded value, which may be numeric, and
a separator its decoded text to FS. -/
inductive Item.Writes (item : Item) : String → Cell → Prop
  | assign {name raw : String} : item.option? = some (.assign, name ++ "=" ++ raw) →
      '=' ∉ name.toList → isVariableName name = true →
      Item.Writes item name (.maybeNumeric (Text.unescape raw))
  | separator {text : String} : item.option? = some (.separator, text) →
      Item.Writes item "FS" (.string (Text.unescape text))

def Item.write? (item : Item) : Option (String × Cell) :=
  match item.option? with
  | some (.assign, text) => (Directive.assign text).write?
  | some (.separator, text) => (Directive.separator text).write?
  | _ => none

theorem Item.write?_eq_some_iff {item : Item} {name : String} {cell : Cell} :
    item.write? = some (name, cell) ↔ item.Writes name cell := by
  constructor
  · intro h
    unfold Item.write? at h
    split at h
    · rename_i text hoption
      obtain ⟨⟨n, raw⟩, hassignment, hparts⟩ := Option.map_eq_some_iff.mp h
      cases hparts
      obtain ⟨rfl, hequals, hname⟩ := (assignment?_eq_some_iff _ _ _).mp hassignment
      exact .assign hoption hequals hname
    · rename_i text hoption
      cases h
      exact .separator hoption
    · cases h
  · intro h
    cases h with
    | @assign name raw hoption hequals hname =>
      have hassignment := (assignment?_eq_some_iff _ name raw).mpr ⟨rfl, hequals, hname⟩
      simp [Item.write?, hoption, Directive.write?, hassignment]
    | separator hoption => simp [Item.write?, hoption, Directive.write?]

theorem Item.write?_eq_none_iff {item : Item} {name : String} :
    (∀ w, item.write? = some w → w.1 ≠ name) ↔ ∀ cell, ¬ item.Writes name cell := by
  constructor
  · intro h cell hwrites
    exact h _ (Item.write?_eq_some_iff.mpr hwrites) rfl
  · rintro h ⟨n, cell⟩ hwrite rfl
    exact h cell (Item.write?_eq_some_iff.mp hwrite)

theorem Item.filterMap_write? (keywords : Keywords) (item : Item) :
    (item.directives keywords).filterMap Directive.write? = item.write?.toList := by
  cases item with
  | skipped token reported => cases reported <;> rfl
  | glued switch value | separate switch value =>
    cases switch with
    | implementation =>
      rw [Item.directives, switchDirectives, List.filterMap_eq_nil_iff.mpr]
      · rfl
      · intro d hd
        exact write?_of_isOfGroup (Group.isOfGroup_of_mem_read hd)
    | separator | programFile => rfl
    | assign =>
      cases hassignment : assignment? value <;>
        simp [Item.directives, switchDirectives, Item.write?, Item.option?, Directive.write?,
          hassignment]

theorem filterMap_write?_items (keywords : Keywords) (items : List Item) :
    (items.flatMap (Item.directives keywords)).filterMap Directive.write? =
      items.filterMap Item.write? := by
  induction items with
  | nil => rfl
  | cons item items ih =>
    rw [List.flatMap_cons, List.filterMap_append, Item.filterMap_write?, ih,
      filterMap_cons_eq_append]

theorem Item.directives_of_option? {item : Item} {switch : Switch} {value : String}
    (h : item.option? = some (switch, value)) (keywords : Keywords) :
    item.directives keywords = switchDirectives keywords switch value := by
  cases item with
  | skipped token reported => cases h
  | glued s v | separate s v =>
    cases h
    rfl

theorem isAssignable_iff (globals : Globals) (name : String) :
    isAssignable globals name = true ↔
      ∀ symbol, globals.find? name = some symbol → symbol.isVariable = true := by
  unfold isAssignable
  cases globals.find? name with
  | none => simp
  | some symbol => cases symbol <;> simp [Symbol.isVariable]

section Keeping

variable [Libraries] {keywords : Keywords} {p q : Progress} {item : Item} {items : List Item}

theorem globals_of_item (h : applyAll p (item.directives keywords) = (q, none)) :
    q.globals = p.globals.write item.write?.toList := by
  rw [globals_of_applyAll_ok h, Item.filterMap_write?]

theorem globals_of_items (h : applyAll p (items.flatMap (Item.directives keywords)) = (q, none)) :
    q.globals = p.globals.write (items.filterMap Item.write?) := by
  rw [globals_of_applyAll_ok h, filterMap_write?_items]

theorem isAssignable_of_item (h : applyAll p (item.directives keywords) = (q, none))
    {name raw : String} (hoption : item.option? = some (.assign, name ++ "=" ++ raw))
    (hequals : '=' ∉ name.toList) : isAssignable p.globals name = true := by
  rw [Item.directives_of_option? hoption, switchDirectives] at h
  cases happly : apply p (.assign (name ++ "=" ++ raw)) with
  | error fault =>
    rw [applyAll_cons_error happly] at h
    cases h
  | ok r =>
    obtain ⟨n, text, hassignment, hassignable, -⟩ := assign_cases happly
    obtain ⟨hparts, hn, -⟩ := (assignment?_eq_some_iff _ n text).mp hassignment
    have hsame := (Text.nameValue?_eq_some_iff _ name raw).mpr ⟨rfl, hequals⟩
    rw [(Text.nameValue?_eq_some_iff _ n text).mpr ⟨hparts, hn⟩] at hsame
    cases hsame
    exact hassignable

/-- A binding that is no variable stays, unless it is that of FS and a separator is set. -/
theorem Item.keeps (h : applyAll p (item.directives keywords) = (q, none)) {name : String}
    {symbol : Symbol} (hfind : p.globals.find? name = some symbol)
    (hsymbol : symbol.isVariable = false) :
    q.globals.find? name = some symbol ∨
      (name = "FS" ∧ ∃ text, item.option? = some (.separator, text)) := by
  have hglobals := globals_of_item h
  cases hwrite : item.write? with
  | none =>
    left
    rw [hglobals, hwrite]
    exact hfind
  | some w =>
    obtain ⟨n, cell⟩ := w
    by_cases hname : name = n
    · subst hname
      cases Item.write?_eq_some_iff.mp hwrite with
      | assign hoption hequals =>
        have hvariable := (isAssignable_iff _ _).mp (isAssignable_of_item h hoption hequals)
        rw [hvariable symbol hfind] at hsymbol
        cases hsymbol
      | separator hoption => exact Or.inr ⟨rfl, _, hoption⟩
    · left
      rw [hglobals, hwrite]
      simp [hname, hfind]

theorem keeps_items (h : applyAll p (items.flatMap (Item.directives keywords)) = (q, none))
    {name : String} {symbol : Symbol} (hfind : p.globals.find? name = some symbol)
    (hsymbol : symbol.isVariable = false) :
    q.globals.find? name = some symbol ∨
      (name = "FS" ∧ ∃ item ∈ items, ∃ text, item.option? = some (.separator, text)) := by
  induction items generalizing p with
  | nil =>
    obtain ⟨rfl, -⟩ := Prod.mk.inj h
    exact Or.inl hfind
  | cons item items ih =>
    rw [List.flatMap_cons] at h
    obtain ⟨r, hitem, hitems⟩ := exists_of_applyAll_append h
    rcases Item.keeps hitem hfind hsymbol with hkept | ⟨hname, text, hoption⟩
    · rcases ih hitems hkept with hfinal | ⟨hname, other, hother, text, hoption⟩
      · exact Or.inl hfinal
      · exact Or.inr ⟨hname, other, List.mem_cons_of_mem item hother, text, hoption⟩
    · exact Or.inr ⟨hname, item, List.mem_cons_self, text, hoption⟩

end Keeping

/-- The last of some options that writes a name writes this scalar. -/
def LastWrite (items : List Item) (name : String) (cell : Cell) : Prop :=
  ∃ before item after, items = before ++ item :: after ∧ item.Writes name cell ∧
    ∀ later ∈ after, ∀ other, ¬ later.Writes name other

/-- After the writes of some options, a name is bound to the last of them, or as it was. -/
theorem find?_write_items (items : List Item) (globals : Globals) (name : String) :
    (∃ cell, LastWrite items name cell ∧
      (globals.write (items.filterMap Item.write?)).find? name = some (.var cell)) ∨
    ((∀ item ∈ items, ∀ cell, ¬ item.Writes name cell) ∧
      (globals.write (items.filterMap Item.write?)).find? name = globals.find? name) := by
  induction items generalizing globals with
  | nil => exact Or.inr ⟨by simp, rfl⟩
  | cons item items ih =>
    have hwrites : globals.write ((item :: items).filterMap Item.write?) =
        (globals.write item.write?.toList).write (items.filterMap Item.write?) := by
      rw [← Globals.write_append, filterMap_cons_eq_append]
    rw [hwrites]
    rcases ih (globals.write item.write?.toList) with
      ⟨cell, ⟨before, last, after, rfl, hlast, hafter⟩, hfind⟩ | ⟨hnone, hfind⟩
    · exact Or.inl ⟨cell, ⟨item :: before, last, after, rfl, hlast, hafter⟩, hfind⟩
    · rw [hfind]
      by_cases hitem : ∃ cell, item.Writes name cell
      · obtain ⟨cell, hcell⟩ := hitem
        refine Or.inl ⟨cell, ⟨[], item, items, rfl, hcell, hnone⟩, ?_⟩
        rw [Item.write?_eq_some_iff.mpr hcell]
        simp
      · rw [not_exists] at hitem
        refine Or.inr ⟨List.forall_mem_cons.mpr ⟨hitem, hnone⟩, ?_⟩
        cases hwrite : item.write? with
        | none => rfl
        | some w =>
          have hname : name ≠ w.1 := (Item.write?_eq_none_iff.mpr hitem w hwrite).symm
          simp [hname]

/-- The last write wins, and everything else is untouched. However a run ends, there is one list of
options that it has applied, and every name is bound to the scalar that the last of them writes to
it, or as it was before. No option changes a binding that is no variable, except that a separator
replaces any binding of FS. -/
theorem last_write_wins [Libraries] (features : Features) (policy : LongOptionPolicy)
    (globals : Globals) (args : List String) :
    ∃ items, Applied features policy globals args items ∧
      (∀ others, Applied features policy globals args others → others = items) ∧
      (∀ name,
        (∃ cell, LastWrite items name cell ∧
          (dispatch features policy globals args).progress.globals.find? name =
            some (.var cell)) ∨
        ((∀ item ∈ items, ∀ cell, ¬ item.Writes name cell) ∧
          (dispatch features policy globals args).progress.globals.find? name =
            globals.find? name)) ∧
      (∀ before item after, items = before ++ item :: after →
        ∃ p q, applyAll (Progress.start globals)
            (before.flatMap (Item.directives (ImplementationOption.table features))) = (p, none) ∧
          applyAll p (item.directives (ImplementationOption.table features)) = (q, none) ∧
          ∀ name symbol, p.globals.find? name = some symbol → symbol.isVariable = false →
            q.globals.find? name = some symbol ∨
              (name = "FS" ∧ ∃ text, item.option? = some (.separator, text))) ∧
      ∀ name symbol, globals.find? name = some symbol → symbol.isVariable = false →
        (dispatch features policy globals args).progress.globals.find? name = some symbol ∨
          (name = "FS" ∧ ∃ item ∈ items, ∃ text, item.option? = some (.separator, text)) := by
  obtain ⟨items, happlied⟩ := exists_applied features policy globals args
  refine ⟨items, happlied, ?_, ?_, ?_, ?_⟩
  · intro others hothers
    exact happlied.unique hothers
  · intro name
    rw [globals_of_items happlied.applied]
    exact find?_write_items items globals name
  · rintro before item after rfl
    obtain ⟨p, q, hp, hq⟩ := happlied.exists_step
    refine ⟨p, q, hp, hq, ?_⟩
    intro name symbol hfind hsymbol
    exact Item.keeps hq hfind hsymbol
  · intro name symbol hfind hsymbol
    exact keeps_items happlied.applied hfind hsymbol

/-- A name assigned twice, a separator, and an assignment to a keyword that ends the run. -/
theorem last_write_wins_failing :
    (dispatch .plain .reject Globals.initial
        ["awk", "-v", "x=1", "-F,", "-vx=a=b", "-v", "BEGIN=1"]).outcome =
      .error (.assignmentClash "BEGIN") ∧
    ∃ items, Applied .plain .reject Globals.initial
        ["awk", "-v", "x=1", "-F,", "-vx=a=b", "-v", "BEGIN=1"] items ∧
      LastWrite items "x" (.maybeNumeric "a=b") ∧ LastWrite items "FS" (.string ",") ∧
      ∀ item ∈ items, ∀ cell, ¬ item.Writes "BEGIN" cell := by
  have hx : (dispatch .plain .reject Globals.initial
      ["awk", "-v", "x=1", "-F,", "-vx=a=b", "-v", "BEGIN=1"]).progress.globals.find? "x" =
        some (.var (.maybeNumeric "a=b")) := rfl
  have hfs : (dispatch .plain .reject Globals.initial
      ["awk", "-v", "x=1", "-F,", "-vx=a=b", "-v", "BEGIN=1"]).progress.globals.find? "FS" =
        some (.var (.string ",")) := rfl
  obtain ⟨items, happlied, -, hwrites, -, -⟩ := last_write_wins .plain .reject Globals.initial
    ["awk", "-v", "x=1", "-F,", "-vx=a=b", "-v", "BEGIN=1"]
  refine ⟨rfl, items, happlied, ?_, ?_, ?_⟩
  · rcases hwrites "x" with ⟨cell, hlast, hcell⟩ | ⟨-, hsame⟩
    · rw [hx] at hcell
      cases hcell
      exact hlast
    · rw [hx] at hsame
      cases hsame
  · rcases hwrites "FS" with ⟨cell, hlast, hcell⟩ | ⟨-, hsame⟩
    · rw [hfs] at hcell
      cases hcell
      exact hlast
    · have hinitial : Globals.initial.find? "FS" = some (.var (.string " ")) := rfl
      rw [hfs, hinitial] at hsame
      simp at hsame
  · rcases hwrites "BEGIN" with ⟨cell, -, hcell⟩ | ⟨hnone, -⟩
    · cases hcell
    · exact hnone

end CommandLine
end AwkStartup
