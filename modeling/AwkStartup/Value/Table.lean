import AwkStartup.Value.Cell
import AwkStartup.Value.Subscript

/-!
# Associative arrays

A table holds at most one cell under each subscript. It keeps no order of its own; listings
are sorted by subscript.
-/

namespace AwkStartup

/-- Puts a cell under a subscript, in place of the cell that is there. -/
def insertEntry (key : Subscript) (cell : Cell) :
    List (Subscript × Cell) → List (Subscript × Cell)
  | [] => [(key, cell)]
  | entry :: entries =>
    if entry.1 = key then (key, cell) :: entries else entry :: insertEntry key cell entries

theorem mem_keys_insertEntry {key k : Subscript} {cell : Cell} {entries : List (Subscript × Cell)} :
    k ∈ (insertEntry key cell entries).map Prod.fst ↔ k = key ∨ k ∈ entries.map Prod.fst := by
  induction entries with
  | nil => simp [insertEntry]
  | cons entry entries ih =>
    by_cases h : entry.1 = key
    · simp [insertEntry, h]
    · simp only [insertEntry, h, if_false, List.map_cons, List.mem_cons, ih]
      grind

theorem nodup_keys_insertEntry (key : Subscript) (cell : Cell) {entries : List (Subscript × Cell)}
    (h : (entries.map Prod.fst).Nodup) : ((insertEntry key cell entries).map Prod.fst).Nodup := by
  induction entries with
  | nil => simp [insertEntry]
  | cons entry entries ih =>
    simp only [List.map_cons, List.nodup_cons] at h
    by_cases hk : entry.1 = key
    · rw [hk] at h
      simpa [insertEntry, hk] using h
    · have hmem : entry.1 ∉ (insertEntry key cell entries).map Prod.fst := by
        rw [mem_keys_insertEntry]
        grind
      simp [insertEntry, hk, hmem, ih h.2]

/-- An associative array. -/
structure Table where
  entries : List (Subscript × Cell)
  nodup : (entries.map Prod.fst).Nodup

namespace Table

def empty : Table :=
  ⟨[], by simp⟩

def get? (t : Table) (key : Subscript) : Option Cell :=
  t.entries.lookup key

def contains (t : Table) (key : Subscript) : Bool :=
  (t.get? key).isSome

def size (t : Table) : Nat :=
  t.entries.length

def isEmpty (t : Table) : Bool :=
  t.entries.isEmpty

def insert (t : Table) (key : Subscript) (cell : Cell) : Table :=
  ⟨insertEntry key cell t.entries, nodup_keys_insertEntry key cell t.nodup⟩

/-- Puts a cell under a subscript and hands over the cell that it replaces. -/
def exchange (t : Table) (key : Subscript) (cell : Cell) : Option Cell × Table :=
  (t.get? key, t.insert key cell)

def indexed (t : Table) : List (Int × Cell) :=
  (t.entries.filterMap fun
    | (.int n, cell) => some (n, cell)
    | (.text _, _) => none).mergeSort fun a b => a.1 ≤ b.1

def sorted (t : Table) : List (Subscript × Cell) :=
  t.entries.mergeSort fun a b => a.1.le b.1

@[simp] theorem get?_empty (key : Subscript) : empty.get? key = none := rfl

theorem get?_insert (t : Table) (key k : Subscript) (cell : Cell) :
    (t.insert key cell).get? k = if k = key then some cell else t.get? k := by
  unfold get? insert
  simp only
  induction t.entries with
  | nil =>
    by_cases h : k = key
    · simp [insertEntry, h]
    · simp [insertEntry, List.lookup_cons, h, beq_eq_false_iff_ne.2 h]
  | cons entry entries ih =>
    obtain ⟨k', c'⟩ := entry
    by_cases hk : k' = key
    · by_cases h : k = key
      · simp [insertEntry, hk, h]
      · simp [insertEntry, hk, List.lookup_cons, h, beq_eq_false_iff_ne.2 h]
    · by_cases h : k = k'
      · subst h
        simp [insertEntry, hk]
      · simp [insertEntry, hk, List.lookup_cons, beq_eq_false_iff_ne.2 h, ih]

end Table
end AwkStartup
