import AwkStartup.Environment
import AwkStartup.Proofs.Value.Subscripts
import AwkStartup.Workspace

/-!
# The elements of the seeded arrays

A table that cells are put into one after the other has each subscript once and under it the last
cell. ARGV has the indices from zero to the number of arguments, and ENVIRON has the names of the
entries with an equals sign.
-/

namespace AwkStartup

namespace Table

def keys (t : Table) : List Subscript :=
  t.entries.map Prod.fst

theorem nodup_keys (t : Table) : t.keys.Nodup :=
  t.nodup

theorem length_keys (t : Table) : t.keys.length = t.size :=
  List.length_map _

@[simp] theorem keys_empty : empty.keys = [] := rfl

theorem mem_keys_insert {t : Table} {key k : Subscript} {cell : Cell} :
    k ∈ (t.insert key cell).keys ↔ k = key ∨ k ∈ t.keys :=
  mem_keys_insertEntry

def insertAll (t : Table) (elements : List (Subscript × Cell)) : Table :=
  elements.foldl (fun t element => t.insert element.1 element.2) t

variable {elements later : List (Subscript × Cell)} {k : Subscript} {cell : Cell}

theorem insertAll_cons (t : Table) (element : Subscript × Cell)
    (elements : List (Subscript × Cell)) :
    t.insertAll (element :: elements) = (t.insert element.1 element.2).insertAll elements := rfl

theorem insertAll_append (t : Table) (elements later : List (Subscript × Cell)) :
    t.insertAll (elements ++ later) = (t.insertAll elements).insertAll later :=
  List.foldl_append

theorem mem_keys_insertAll {t : Table} :
    k ∈ (t.insertAll elements).keys ↔ k ∈ elements.map Prod.fst ∨ k ∈ t.keys := by
  induction elements generalizing t with
  | nil => simp [insertAll]
  | cons element elements ih =>
    rw [insertAll_cons, ih, mem_keys_insert, List.map_cons, List.mem_cons]
    tauto

theorem get?_insertAll_of_notMem (t : Table) (h : k ∉ elements.map Prod.fst) :
    (t.insertAll elements).get? k = t.get? k := by
  induction elements generalizing t with
  | nil => rfl
  | cons element elements ih =>
    rw [List.map_cons, List.mem_cons, not_or] at h
    rw [insertAll_cons, ih _ h.2, get?_insert, if_neg h.1]

theorem get?_insertAll_last (t : Table) (elements : List (Subscript × Cell))
    (h : k ∉ later.map Prod.fst) :
    (t.insertAll (elements ++ (k, cell) :: later)).get? k = some cell := by
  rw [insertAll_append, insertAll_cons, get?_insertAll_of_notMem _ h, get?_insert, if_pos rfl]

theorem get?_insertAll_of_mem (t : Table) (hnodup : (elements.map Prod.fst).Nodup)
    (h : (k, cell) ∈ elements) : (t.insertAll elements).get? k = some cell := by
  obtain ⟨before, after, rfl⟩ := List.append_of_mem h
  rw [List.map_append, List.map_cons, List.nodup_append, List.nodup_cons] at hnodup
  exact get?_insertAll_last t before hnodup.2.1.1

theorem keys_insertAll_empty (elements : List (Subscript × Cell)) :
    (empty.insertAll elements).keys.Perm (elements.map Prod.fst).dedup := by
  rw [List.perm_ext_iff_of_nodup (nodup_keys _) (List.nodup_dedup _)]
  intro k
  rw [List.mem_dedup, mem_keys_insertAll, keys_empty]
  simp only [List.not_mem_nil, or_false]

end Table

namespace Workspace

/-- The elements of ARGV: the name of the program and the arguments, from zero on. -/
def argumentElements (programName : String) (args : List String) : List (Subscript × Cell) :=
  (.int 0, .string programName) ::
    (args.zipIdx 1).map fun (arg, index) => (.int (index : Int), .maybeNumeric arg)

theorem argumentTable_eq_insertAll {index : Nat} {args : List String}
    (h : index + args.length ≤ 2 ^ 63) (t : Table) :
    argumentTable index args t =
      t.insertAll ((args.zipIdx index).map fun (arg, index) =>
        (.int (index : Int), .maybeNumeric arg)) := by
  induction args generalizing index t with
  | nil => rfl
  | cons arg args ih =>
    rw [List.length_cons] at h
    rw [argumentTable, Subscript.ofIndex_eq_int (by omega), ih (by omega), List.zipIdx_cons,
      List.map_cons, Table.insertAll_cons]

variable {programName : String} {args : List String}

theorem argumentElements_keys (programName : String) (args : List String) :
    (argumentElements programName args).map Prod.fst =
      (List.range (args.length + 1)).map fun index : Nat => Subscript.int index := by
  rw [argumentElements, List.range_eq_range', List.range'_succ, ← List.zipIdx_map_snd 1 args,
    List.map_cons, List.map_map, List.map_cons, List.map_map]
  rfl

theorem nodup_argumentElements_keys (programName : String) (args : List String) :
    ((argumentElements programName args).map Prod.fst).Nodup := by
  rw [argumentElements_keys]
  apply List.Nodup.map _ List.nodup_range
  intro i j hij
  exact Int.ofNat_inj.mp (Subscript.int.inj hij)

/-- A table with the indices from zero to the number of arguments: the name of the program is at
zero, and the arguments are in order from one on. -/
structure HoldsArguments (programName : String) (args : List String) (t : Table) : Prop where
  keys : t.keys.Perm ((List.range (args.length + 1)).map fun index : Nat => Subscript.int index)
  name : t.get? (.int 0) = some (.string programName)
  argument : ∀ (index : Nat) (arg : String), args[index]? = some arg →
    t.get? (.int (index + 1 : Nat)) = some (.maybeNumeric arg)

theorem HoldsArguments.size_eq {t : Table} (h : HoldsArguments programName args t) :
    t.size = args.length + 1 := by
  rw [← Table.length_keys, h.keys.length_eq, List.length_map, List.length_range]

theorem holdsArguments_insertAll (programName : String) (args : List String) :
    HoldsArguments programName args
      (Table.empty.insertAll (argumentElements programName args)) := by
  have hnodup := nodup_argumentElements_keys programName args
  constructor
  · have hkeys := Table.keys_insertAll_empty (argumentElements programName args)
    rwa [hnodup.dedup, argumentElements_keys] at hkeys
  · exact Table.get?_insertAll_of_mem _ hnodup List.mem_cons_self
  · intro index arg harg
    have hmem : (arg, index + 1) ∈ args.zipIdx 1 := by
      rw [List.mk_mem_zipIdx_iff_le_and_getElem?_sub]
      exact ⟨Nat.le_add_left 1 index, harg⟩
    apply Table.get?_insertAll_of_mem _ hnodup
    exact List.mem_cons_of_mem _ (List.mem_map.mpr ⟨_, hmem, rfl⟩)

/-- The table that ARGV is bound to, as long as positions do not wrap. -/
theorem holdsArguments_argumentTable (h : args.length < 2 ^ 63) :
    HoldsArguments programName args
      (argumentTable 1 args (Table.empty.insert (.ofIndex 0) (.string programName))) := by
  rw [argumentTable_eq_insertAll (by omega), Subscript.ofIndex_eq_int (by omega)]
  exact holdsArguments_insertAll programName args

end Workspace

namespace Environment

/-- The names of the entries with an equals sign, in order. -/
def namesIn (entries : List String) : List String :=
  (entries.filter fun entry => '=' ∈ entry.toList).map fun entry =>
    String.ofList (entry.toList.takeWhile (· ≠ '='))

theorem entry_cases (entry : String) :
    (∃ name value, entry = name ++ "=" ++ value ∧ '=' ∉ name.toList) ∨ '=' ∉ entry.toList := by
  by_cases h : '=' ∈ entry.toList
  · obtain ⟨before, after, hentry, hbefore⟩ := List.eq_append_cons_of_mem h
    refine Or.inl ⟨String.ofList before, String.ofList after, ?_, ?_⟩
    · rw [← String.toList_inj, hentry]
      simp
    · rwa [String.toList_ofList]
  · exact Or.inr h

theorem nameValue?_of_notMem {entry : String} (h : '=' ∉ entry.toList) :
    Text.nameValue? entry = none := by
  rw [Option.eq_none_iff_forall_ne_some]
  rintro ⟨name, value⟩ hsplit
  obtain ⟨rfl, -⟩ := (Text.nameValue?_eq_some_iff _ name value).mp hsplit
  exact h (by simp)

theorem namesIn_cons_of_name {name : String} (h : '=' ∉ name.toList) (value : String)
    (entries : List String) :
    namesIn ((name ++ "=" ++ value) :: entries) = name :: namesIn entries := by
  have htext : (name ++ "=" ++ value).toList = name.toList ++ '=' :: value.toList := by simp
  have htake : (name.toList ++ '=' :: value.toList).takeWhile (· ≠ '=') = name.toList := by
    rw [List.takeWhile_append_of_pos, List.takeWhile_cons_of_neg (by simp), List.append_nil]
    intro c hc
    exact decide_eq_true (fun heq => h (heq ▸ hc))
  rw [namesIn, List.filter_cons_of_pos (by simp), List.map_cons, htext, htake,
    String.ofList_toList]
  rfl

theorem namesIn_cons_of_notMem {entry : String} (h : '=' ∉ entry.toList) (entries : List String) :
    namesIn (entry :: entries) = namesIn entries := by
  rw [namesIn, List.filter_cons_of_neg (by simpa using h)]
  rfl

end Environment

namespace Workspace

/-- The elements of ENVIRON: the names and values of the entries with an equals sign. -/
def environmentElements (entries : List String) : List (Subscript × Cell) :=
  entries.filterMap fun entry =>
    (Text.nameValue? entry).map fun (name, value) => (.ofText name, .maybeNumeric value)

theorem environmentTable_eq_insertAll (entries : List String) :
    environmentTable entries = Table.empty.insertAll (environmentElements entries) := by
  rw [environmentTable, Table.insertAll, environmentElements, List.foldl_filterMap]
  congr 1
  funext t entry
  cases Text.nameValue? entry with
  | none => rfl
  | some parts => rfl

theorem environmentElements_append (entries later : List String) :
    environmentElements (entries ++ later) =
      environmentElements entries ++ environmentElements later :=
  List.filterMap_append

theorem environmentElements_cons (entry : String) (entries : List String) :
    environmentElements (entry :: entries) =
      environmentElements [entry] ++ environmentElements entries :=
  environmentElements_append [entry] entries

theorem environmentElements_entry {name : String} (h : '=' ∉ name.toList) (value : String) :
    environmentElements [name ++ "=" ++ value] = [(.ofText name, .maybeNumeric value)] := by
  have hsplit := (Text.nameValue?_eq_some_iff _ name value).mpr ⟨rfl, h⟩
  simp only [environmentElements, List.filterMap_cons, hsplit, Option.map_some,
    List.filterMap_nil]

theorem environmentElements_of_notMem {entry : String} (h : '=' ∉ entry.toList) :
    environmentElements [entry] = [] := by
  simp only [environmentElements, List.filterMap_cons, Environment.nameValue?_of_notMem h,
    Option.map_none, List.filterMap_nil]

theorem map_fst_environmentElements (entries : List String) :
    (environmentElements entries).map Prod.fst =
      (Environment.namesIn entries).map Subscript.ofText := by
  induction entries with
  | nil => rfl
  | cons entry entries ih =>
    rw [environmentElements_cons, List.map_append, ih]
    rcases Environment.entry_cases entry with ⟨name, value, rfl, hname⟩ | hentry
    · rw [environmentElements_entry hname, Environment.namesIn_cons_of_name hname]
      rfl
    · rw [environmentElements_of_notMem hentry, Environment.namesIn_cons_of_notMem hentry]
      rfl

/-- A table with one element for each name of the entries: the value of the last entry of that
name, as text that may be numeric. -/
structure HoldsEntries (entries : List String) (t : Table) : Prop where
  keys : t.keys.Perm ((Environment.namesIn entries).dedup.map Subscript.ofText)
  last : ∀ (before after : List String) (name value : String),
    entries = before ++ (name ++ "=" ++ value) :: after → '=' ∉ name.toList →
      name ∉ Environment.namesIn after →
        t.get? (.ofText name) = some (.maybeNumeric value)

theorem holdsEntries_environmentTable (entries : List String) :
    HoldsEntries entries (environmentTable entries) := by
  constructor
  · have hkeys := Table.keys_insertAll_empty (environmentElements entries)
    rwa [map_fst_environmentElements, List.dedup_map_of_injective Subscript.ofText_injective,
      ← environmentTable_eq_insertAll] at hkeys
  · intro before after name value hentries hname hafter
    have hlater : Subscript.ofText name ∉ (environmentElements after).map Prod.fst := by
      rw [map_fst_environmentElements, List.mem_map_of_injective Subscript.ofText_injective]
      exact hafter
    rw [environmentTable_eq_insertAll, hentries, environmentElements_append,
      environmentElements_cons, environmentElements_entry hname, List.singleton_append]
    exact Table.get?_insertAll_last _ _ hlater

end Workspace

end AwkStartup
