import AwkStartup.Proofs.Value.SeededTables

/-!
# Elements in the order of their indices

A table holds its elements in no order, and sorting by subscript brings those under integers into
the only ascending order they have. The elements of ARGV come out as the name of the program and
then the arguments.
-/

namespace AwkStartup

namespace Table

variable {t : Table}

theorem mem_iff_lookup {entries : List (Subscript × Cell)} (h : (entries.map Prod.fst).Nodup)
    (key : Subscript) (cell : Cell) :
    (key, cell) ∈ entries ↔ entries.lookup key = some cell := by
  induction entries with
  | nil => simp
  | cons entry entries ih =>
    obtain ⟨first, held⟩ := entry
    rw [List.map_cons, List.nodup_cons] at h
    rw [List.lookup_cons, List.mem_cons]
    by_cases hkey : key = first
    · subst hkey
      have hnot : (key, cell) ∉ entries := fun hmem => h.1 (List.mem_map.mpr ⟨_, hmem, rfl⟩)
      simp [hnot, eq_comm]
    · simp [hkey, beq_eq_false_iff_ne.2 hkey, ih h.2]

theorem mem_entries_iff (t : Table) (key : Subscript) (cell : Cell) :
    (key, cell) ∈ t.entries ↔ t.get? key = some cell :=
  mem_iff_lookup t.nodup key cell

theorem entries_perm {elements : List (Subscript × Cell)}
    (hkeys : t.keys.Perm (elements.map Prod.fst))
    (hcells : ∀ element ∈ elements, t.get? element.1 = some element.2) :
    t.entries.Perm elements := by
  have hnodup : elements.Nodup := (hkeys.nodup_iff.mp t.nodup_keys).of_map
  rw [List.perm_ext_iff_of_nodup t.nodup.of_map hnodup]
  rintro ⟨key, cell⟩
  rw [mem_entries_iff]
  constructor
  · intro hget
    have hkey : key ∈ t.keys := List.mem_map_of_mem ((mem_entries_iff t key cell).mpr hget)
    obtain ⟨element, helement, rfl⟩ := List.mem_map.mp (hkeys.mem_iff.mp hkey)
    have hsame : some element.2 = some cell := (hcells element helement).symm.trans hget
    rwa [← Option.some.inj hsame]
  · exact hcells (key, cell)

theorem mem_indexed_iff (t : Table) (n : Int) (cell : Cell) :
    (n, cell) ∈ t.indexed ↔ t.get? (.int n) = some cell := by
  rw [indexed, List.mem_mergeSort, List.mem_filterMap, ← mem_entries_iff]
  constructor
  · rintro ⟨⟨key, held⟩, hmem, hkey⟩
    cases key with
    | int m =>
      cases hkey
      exact hmem
    | text s => cases hkey
  · intro hmem
    exact ⟨_, hmem, rfl⟩

theorem pairwise_ne_indexed (t : Table) : t.indexed.Pairwise fun a b => a.1 ≠ b.1 := by
  rw [indexed, (List.mergeSort_perm _ _).pairwise_iff Ne.symm, List.pairwise_filterMap]
  have hkeys : t.entries.Pairwise fun a b => a.1 ≠ b.1 := List.pairwise_map.mp t.nodup
  apply hkeys.imp
  rintro ⟨key, held⟩ ⟨key', held'⟩ hne a ha b hb
  cases key with
  | int m =>
    cases key' with
    | int m' =>
      cases ha
      cases hb
      exact fun h => hne (congrArg Subscript.int h)
    | text s => cases hb
  | text s => cases ha

theorem pairwise_indexed (t : Table) : t.indexed.Pairwise fun a b => a.1 < b.1 := by
  have hsorted : t.indexed.Pairwise fun a b => decide (a.1 ≤ b.1) = true := by
    apply List.pairwise_mergeSort
    · intro a b c hab hbc
      simp only [decide_eq_true_eq] at *
      omega
    · intro a b
      simp only [Bool.or_eq_true, decide_eq_true_eq]
      omega
  apply (hsorted.and t.pairwise_ne_indexed).imp
  rintro a b ⟨hle, hne⟩
  exact lt_of_le_of_ne (of_decide_eq_true hle) hne

/-- Elements in strictly ascending order are listed as they are, if they are those under integers. -/
theorem indexed_eq_of_mem_iff {elements : List (Int × Cell)}
    (hmem : ∀ n cell, (n, cell) ∈ elements ↔ t.get? (.int n) = some cell)
    (hascending : elements.Pairwise fun a b => a.1 < b.1) : t.indexed = elements := by
  have hirrefl : Std.Irrefl fun a b : Int × Cell => a.1 < b.1 := ⟨fun a => lt_irrefl a.1⟩
  have hantisymm : Std.Antisymm fun a b : Int × Cell => a.1 < b.1 :=
    ⟨fun a b hab hba => absurd hab hba.asymm⟩
  apply t.pairwise_indexed.eq_of_mem_iff hascending
  rintro ⟨n, cell⟩
  rw [mem_indexed_iff, hmem]

/-- Elements under integers, with their subscripts. -/
def underIntegers (elements : List (Int × Cell)) : List (Subscript × Cell) :=
  elements.map fun element => (.int element.1, element.2)

theorem indexed_eq {elements : List (Int × Cell)}
    (hentries : t.entries.Perm (underIntegers elements))
    (hascending : elements.Pairwise fun a b => a.1 < b.1) : t.indexed = elements := by
  refine indexed_eq_of_mem_iff ?_ hascending
  intro n cell
  rw [← mem_entries_iff, hentries.mem_iff]
  simp [underIntegers]

end Table

namespace Workspace

def listedArguments (programName : String) (args : List String) : List (Int × Cell) :=
  (0, .string programName) :: (args.zipIdx 1).map fun (arg, index) => (index, .maybeNumeric arg)

theorem underIntegers_listedArguments (programName : String) (args : List String) :
    Table.underIntegers (listedArguments programName args) =
      argumentElements programName args := by
  simp [Table.underIntegers, listedArguments, argumentElements]

theorem pairwise_listedArguments (programName : String) (args : List String) :
    (listedArguments programName args).Pairwise fun a b => a.1 < b.1 := by
  have hindices : (listedArguments programName args).map Prod.fst =
      (List.range (args.length + 1)).map fun index : Nat => (index : Int) := by
    rw [listedArguments, List.range_eq_range', List.range'_succ, ← List.zipIdx_map_snd 1 args,
      List.map_cons, List.map_map, List.map_cons, List.map_map]
    rfl
  rw [← List.pairwise_map (f := Prod.fst) (R := (· < ·)), hindices, List.pairwise_map]
  exact List.pairwise_lt_range.imp fun h => Int.ofNat_lt.mpr h

theorem HoldsArguments.indexed_eq {programName : String} {args : List String} {t : Table}
    (h : HoldsArguments programName args t) : t.indexed = listedArguments programName args := by
  apply Table.indexed_eq _ (pairwise_listedArguments programName args)
  rw [underIntegers_listedArguments]
  apply Table.entries_perm
  · rw [argumentElements_keys]
    exact h.keys
  · intro element helement
    rcases List.mem_cons.mp helement with rfl | hargument
    · exact h.name
    · obtain ⟨⟨arg, index⟩, hmem, rfl⟩ := List.mem_map.mp hargument
      obtain ⟨hone, hget⟩ := List.mk_mem_zipIdx_iff_le_and_getElem?_sub.mp hmem
      have hargument := h.argument _ arg hget
      rwa [Nat.sub_add_cancel hone] at hargument

end Workspace

end AwkStartup
