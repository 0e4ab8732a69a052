import AwkStartup.Proofs.Value.SeededTables

/-!
# Two views of the environment

The value of a variable is looked up in the entries of the environment, and the first entry of its
name counts. ENVIRON has an element for the variable, and there the last entry counts. Both views
have the same names, whatever these look like, and the entries of one name are nothing to another.
-/

namespace AwkStartup

namespace Environment

/-- The first entry of a name has this value. -/
def FirstEntry (entries : List String) (name value : String) : Prop :=
  ∃ before after, entries = before ++ (name ++ "=" ++ value) :: after ∧ name ∉ namesIn before

/-- The last entry of a name has this value. -/
def LastEntry (entries : List String) (name value : String) : Prop :=
  ∃ before after, entries = before ++ (name ++ "=" ++ value) :: after ∧ name ∉ namesIn after

variable {entries : List String} {name value : String}

section Names

theorem mem_namesIn_append {later : List String} :
    name ∈ namesIn (entries ++ later) ↔ name ∈ namesIn entries ∨ name ∈ namesIn later := by
  simp [namesIn]

theorem notMem_equals_of_mem (h : name ∈ namesIn entries) : '=' ∉ name.toList := by
  induction entries with
  | nil => cases h
  | cons entry entries ih =>
    rcases entry_cases entry with ⟨other, value, rfl, hother⟩ | hentry
    · rw [namesIn_cons_of_name hother] at h
      rcases List.mem_cons.mp h with rfl | hlater
      · exact hother
      · exact ih hlater
    · rw [namesIn_cons_of_notMem hentry] at h
      exact ih h

theorem exists_firstEntry (h : name ∈ namesIn entries) : ∃ value, FirstEntry entries name value := by
  induction entries with
  | nil => cases h
  | cons entry entries ih =>
    have hlater (hhead : name ∉ namesIn [entry]) (h : name ∈ namesIn entries) :
        ∃ value, FirstEntry (entry :: entries) name value := by
      obtain ⟨value, before, after, rfl, hbefore⟩ := ih h
      refine ⟨value, entry :: before, after, rfl, ?_⟩
      rw [← List.singleton_append, mem_namesIn_append, not_or]
      exact ⟨hhead, hbefore⟩
    rcases entry_cases entry with ⟨other, value, rfl, hother⟩ | hentry
    · rw [namesIn_cons_of_name hother, List.mem_cons] at h
      by_cases hname : name = other
      · subst hname
        exact ⟨value, [], entries, rfl, List.not_mem_nil⟩
      · refine hlater ?_ (h.resolve_left hname)
        rw [namesIn_cons_of_name hother]
        exact List.not_mem_cons_of_ne_of_not_mem hname List.not_mem_nil
    · rw [namesIn_cons_of_notMem hentry] at h
      refine hlater ?_ h
      rw [namesIn_cons_of_notMem hentry]
      exact List.not_mem_nil

theorem exists_lastEntry (h : name ∈ namesIn entries) : ∃ value, LastEntry entries name value := by
  induction entries with
  | nil => cases h
  | cons entry entries ih =>
    by_cases hlater : name ∈ namesIn entries
    · obtain ⟨value, before, after, rfl, hafter⟩ := ih hlater
      exact ⟨value, entry :: before, after, rfl, hafter⟩
    · rcases entry_cases entry with ⟨other, value, rfl, hother⟩ | hentry
      · rw [namesIn_cons_of_name hother, List.mem_cons] at h
        obtain rfl := h.resolve_right hlater
        exact ⟨value, [], entries, rfl, hlater⟩
      · rw [namesIn_cons_of_notMem hentry] at h
        exact absurd h hlater

end Names

section Lookup

theorem valueIn?_cons_of_name {name : String} (h : '=' ∉ name.toList) (value wanted : String)
    (entries : List String) :
    valueIn? wanted ((name ++ "=" ++ value) :: entries) =
      if name = wanted then some value else valueIn? wanted entries := by
  rw [valueIn?, (Text.nameValue?_eq_some_iff _ name value).mpr ⟨rfl, h⟩]

theorem valueIn?_cons_of_notMem {entry : String} (h : '=' ∉ entry.toList) (wanted : String)
    (entries : List String) : valueIn? wanted (entry :: entries) = valueIn? wanted entries := by
  rw [valueIn?, nameValue?_of_notMem h]

theorem valueIn?_append (wanted : String) (before entries : List String) :
    valueIn? wanted (before ++ entries) =
      (valueIn? wanted before).or (valueIn? wanted entries) := by
  induction before with
  | nil => rfl
  | cons entry before ih =>
    rw [List.cons_append]
    rcases entry_cases entry with ⟨name, value, rfl, hname⟩ | hentry
    · rw [valueIn?_cons_of_name hname, valueIn?_cons_of_name hname, ih]
      split_ifs
      · rfl
      · rfl
    · rw [valueIn?_cons_of_notMem hentry, valueIn?_cons_of_notMem hentry, ih]

theorem valueIn?_of_notMem (h : name ∉ namesIn entries) : valueIn? name entries = none := by
  induction entries with
  | nil => rfl
  | cons entry entries ih =>
    rcases entry_cases entry with ⟨other, value, rfl, hother⟩ | hentry
    · rw [namesIn_cons_of_name hother, List.mem_cons, not_or] at h
      rw [valueIn?_cons_of_name hother, if_neg (Ne.symm h.1), ih h.2]
    · rw [namesIn_cons_of_notMem hentry] at h
      rw [valueIn?_cons_of_notMem hentry, ih h]

theorem FirstEntry.valueIn?_eq (h : FirstEntry entries name value) (hname : '=' ∉ name.toList) :
    valueIn? name entries = some value := by
  obtain ⟨before, after, rfl, hbefore⟩ := h
  rw [valueIn?_append, valueIn?_of_notMem hbefore, valueIn?_cons_of_name hname, if_pos rfl]
  rfl

theorem valueIn?_eq_some_iff :
    valueIn? name entries = some value ↔ '=' ∉ name.toList ∧ FirstEntry entries name value := by
  constructor
  · intro h
    have hmem : name ∈ namesIn entries := by
      by_contra hnot
      rw [valueIn?_of_notMem hnot] at h
      cases h
    have hname := notMem_equals_of_mem hmem
    obtain ⟨first, hfirst⟩ := exists_firstEntry hmem
    obtain rfl := Option.some.inj ((hfirst.valueIn?_eq hname).symm.trans h)
    exact ⟨hname, hfirst⟩
  · rintro ⟨hname, hfirst⟩
    exact hfirst.valueIn?_eq hname

theorem isSome_valueIn?_iff : (valueIn? name entries).isSome = true ↔ name ∈ namesIn entries := by
  constructor
  · intro h
    by_contra hnot
    rw [valueIn?_of_notMem hnot] at h
    cases h
  · intro h
    obtain ⟨value, hfirst⟩ := exists_firstEntry h
    rw [hfirst.valueIn?_eq (notMem_equals_of_mem h)]
    rfl

theorem valueIn?_delete {other : String} (hother : '=' ∉ other.toList) (hne : other ≠ name)
    (before after : List String) (value : String) :
    valueIn? name (before ++ (other ++ "=" ++ value) :: after) = valueIn? name (before ++ after) := by
  rw [valueIn?_append, valueIn?_append, valueIn?_cons_of_name hother, if_neg hne]

end Lookup

end Environment

namespace Table

/-- What is found after further insertions depends on what was found before them. -/
theorem get?_insertAll_congr {t u : Table} {k : Subscript} (h : t.get? k = u.get? k)
    (elements : List (Subscript × Cell)) :
    (t.insertAll elements).get? k = (u.insertAll elements).get? k := by
  induction elements generalizing t u with
  | nil => exact h
  | cons element elements ih =>
    apply ih
    rw [get?_insert, get?_insert, h]

end Table

namespace Workspace

open Environment (namesIn FirstEntry LastEntry)

variable {entries : List String} {name value : String}

section Elements

theorem get?_environmentTable_of_notMem (h : name ∉ namesIn entries) :
    (environmentTable entries).get? (.ofText name) = none := by
  rw [environmentTable_eq_insertAll, Table.get?_insertAll_of_notMem, Table.get?_empty]
  rwa [map_fst_environmentElements, List.mem_map_of_injective Subscript.ofText_injective]

theorem get?_environmentTable_of_lastEntry (h : LastEntry entries name value)
    (hname : '=' ∉ name.toList) :
    (environmentTable entries).get? (.ofText name) = some (.maybeNumeric value) := by
  obtain ⟨before, after, hentries, hafter⟩ := h
  exact (holdsEntries_environmentTable entries).last before after name value hentries hname hafter

theorem get?_environmentTable_eq_some_iff {cell : Cell} :
    (environmentTable entries).get? (.ofText name) = some cell ↔
      '=' ∉ name.toList ∧ ∃ value, LastEntry entries name value ∧ cell = .maybeNumeric value := by
  constructor
  · intro h
    have hmem : name ∈ namesIn entries := by
      by_contra hnot
      rw [get?_environmentTable_of_notMem hnot] at h
      cases h
    have hname := Environment.notMem_equals_of_mem hmem
    obtain ⟨value, hlast⟩ := Environment.exists_lastEntry hmem
    rw [get?_environmentTable_of_lastEntry hlast hname] at h
    exact ⟨hname, value, hlast, (Option.some.inj h).symm⟩
  · rintro ⟨hname, value, hlast, rfl⟩
    exact get?_environmentTable_of_lastEntry hlast hname

theorem contains_environmentTable_iff :
    (environmentTable entries).contains (.ofText name) = true ↔ name ∈ namesIn entries := by
  rw [Table.contains]
  constructor
  · intro h
    by_contra hnot
    rw [get?_environmentTable_of_notMem hnot] at h
    cases h
  · intro h
    obtain ⟨value, hlast⟩ := Environment.exists_lastEntry h
    rw [get?_environmentTable_of_lastEntry hlast (Environment.notMem_equals_of_mem h)]
    rfl

theorem get?_environmentTable_delete {other : String} (hother : '=' ∉ other.toList)
    (hne : other ≠ name) (before after : List String) (value : String) :
    (environmentTable (before ++ (other ++ "=" ++ value) :: after)).get? (.ofText name) =
      (environmentTable (before ++ after)).get? (.ofText name) := by
  have hkey : Subscript.ofText name ≠ .ofText other := fun heq =>
    hne (Subscript.ofText_injective heq).symm
  rw [environmentTable_eq_insertAll, environmentTable_eq_insertAll, environmentElements_append,
    environmentElements_append, environmentElements_cons, environmentElements_entry hother,
    List.singleton_append, Table.insertAll_append, Table.insertAll_append, Table.insertAll_cons]
  apply Table.get?_insertAll_congr
  rw [Table.get?_insert, if_neg hkey]

end Elements

/-- A table that shows the entries of an environment as its variables do, apart from names with
several entries. -/
structure Mirrors (env : Environment) (t : Table) : Prop where
  contains_iff : ∀ name, t.contains (.ofText name) = true ↔ (env.var? name).isSome = true
  var?_iff : ∀ name value, env.var? name = some value ↔
    '=' ∉ name.toList ∧ FirstEntry env.entries name value
  get?_iff : ∀ name cell, t.get? (.ofText name) = some cell ↔
    '=' ∉ name.toList ∧ ∃ value, LastEntry env.entries name value ∧ cell = .maybeNumeric value
  agrees_iff : ∀ name, t.get? (.ofText name) = (env.var? name).map Cell.maybeNumeric ↔
    ∀ first last, '=' ∉ name.toList → FirstEntry env.entries name first →
      LastEntry env.entries name last → first = last
  size_eq : t.size = (namesIn env.entries).toFinset.card
  name_of_key : ∀ key ∈ t.keys, ∃! name, name ∈ namesIn env.entries ∧ key = .ofText name
  others : ∀ before after name other value,
    env.entries = before ++ (other ++ "=" ++ value) :: after → '=' ∉ other.toList → other ≠ name →
      env.var? name = Environment.valueIn? name (before ++ after) ∧
        t.get? (.ofText name) = (environmentTable (before ++ after)).get? (.ofText name)

theorem agrees_iff (env : Environment) (name : String) :
    (environmentTable env.entries).get? (.ofText name) =
        (env.var? name).map Cell.maybeNumeric ↔
      ∀ first last, '=' ∉ name.toList → FirstEntry env.entries name first →
        LastEntry env.entries name last → first = last := by
  constructor
  · intro h first last hname hfirst hlast
    have hvar : env.var? name = some first := hfirst.valueIn?_eq hname
    rw [get?_environmentTable_of_lastEntry hlast hname, hvar] at h
    exact (Cell.maybeNumeric.inj (Option.some.inj h)).symm
  · intro h
    by_cases hmem : name ∈ namesIn env.entries
    · have hname := Environment.notMem_equals_of_mem hmem
      obtain ⟨first, hfirst⟩ := Environment.exists_firstEntry hmem
      obtain ⟨last, hlast⟩ := Environment.exists_lastEntry hmem
      have hvar : env.var? name = some first := hfirst.valueIn?_eq hname
      rw [get?_environmentTable_of_lastEntry hlast hname, hvar, h first last hname hfirst hlast]
      rfl
    · have hvar : env.var? name = none := Environment.valueIn?_of_notMem hmem
      rw [get?_environmentTable_of_notMem hmem, hvar]
      rfl

theorem size_environmentTable (entries : List String) :
    (environmentTable entries).size = (namesIn entries).toFinset.card := by
  rw [← Table.length_keys, (holdsEntries_environmentTable entries).keys.length_eq, List.length_map,
    List.card_toFinset]

theorem existsUnique_name {key : Subscript} (h : key ∈ (environmentTable entries).keys) :
    ∃! name, name ∈ namesIn entries ∧ key = .ofText name := by
  rw [(holdsEntries_environmentTable entries).keys.mem_iff] at h
  obtain ⟨name, hname, rfl⟩ := List.mem_map.mp h
  refine ⟨name, ⟨List.mem_dedup.mp hname, rfl⟩, ?_⟩
  rintro other ⟨-, heq⟩
  exact (Subscript.ofText_injective heq).symm

/-- The table that ENVIRON is bound to and the variables of the environment agree up to names with
several entries. -/
theorem views_agree_up_to_repetition (features : Features) (w : Workspace) (env : Environment) :
    ∃ id, (w.loadEnviron features env.entries).globals.find? "ENVIRON" = some (.array id) ∧
      Mirrors env ((w.loadEnviron features env.entries).contents id) := by
  have hcontents : (w.loadEnviron features env.entries).contents w.fresh =
      environmentTable env.entries := by
    rw [loadEnviron, contents_seedArray, if_pos rfl]
  refine ⟨w.fresh, ?_, ?_⟩
  · rw [loadEnviron, globals_seedArray]
    rfl
  · rw [hcontents]
    refine ⟨?_, ?_, ?_, agrees_iff env, size_environmentTable env.entries, ?_, ?_⟩
    · intro name
      exact contains_environmentTable_iff.trans Environment.isSome_valueIn?_iff.symm
    · intro name value
      exact Environment.valueIn?_eq_some_iff
    · intro name cell
      exact get?_environmentTable_eq_some_iff
    · intro key hkey
      exact existsUnique_name hkey
    · intro before after name other value hentries hother hne
      rw [Environment.var?, hentries]
      exact ⟨Environment.valueIn?_delete hother hne before after value,
        get?_environmentTable_delete hother hne before after value⟩

-- Names that are empty, integers with and without a leading zero, and one letter in both cases.
example :
    let entries := ["=e", "7=a", "07=b", "-0=c", "a=1", "A==2", "7=z", "N", "a=1"]
    (["", "7", "07", "-0", "a", "A", "N"].map (Environment.ofEntries entries).var? =
        [some "e", some "a", some "b", some "c", some "1", some "=2", none]) ∧
      (environmentTable entries).size = 6 ∧
        (environmentTable entries).get? (.ofText "7") = some (.maybeNumeric "z") := by
  decide +kernel

end Workspace
end AwkStartup
