import AwkStartup.Proofs.Value.CanonicalSpellings
import AwkStartup.Proofs.Value.IndexedElements
import Mathlib.Data.Finmap

/-!
# Arrays as maps on texts

A subscript may be given as an integer or as a text. Whatever is put into an array and however it is
cleared, the array holds what a finite map from texts to cells holds in which an integer stands for
its decimal text. The elements under integers are listed in ascending order, whatever the order in
which they were put there.
-/

namespace AwkStartup

namespace Subscript

/-- What a subscript is made from: an integer of 64 bits, a text, or a part of one. -/
inductive Given where
  | integer (n : Int) (inRange : InRange n)
  | text (s : String)
  | part (s : String.Slice)

namespace Given

def subscript : Given → Subscript
  | integer n _ => .int n
  | text s => ofText s
  | part s => ofSlice s

/-- The text that is meant; an integer stands for its decimal text. -/
def spelling : Given → String
  | integer n _ => toString n
  | text s => s
  | part s => s.copy

theorem subscript_eq (key : Given) : key.subscript = ofText key.spelling := by
  cases key with
  | integer n inRange =>
    exact (ofText_eq_int_iff.mpr ⟨spells_toList_iff.mpr rfl, inRange⟩).symm
  | text s => rfl
  | part s => exact ofSlice_eq s

end Given
end Subscript

/-- A change of an array. -/
inductive Edit where
  | insert (key : Subscript.Given) (cell : Cell)
  | clear

namespace Edit

/-- Whether a change leaves the element of a text alone. -/
def Spares (s : String) : Edit → Prop
  | insert key _ => key.spelling ≠ s
  | clear => False

/-- The cell that was put under a text last, if nothing has been cleared since. -/
def LastInsertion (edits : List Edit) (s : String) (cell : Cell) : Prop :=
  ∃ before key after, edits = before ++ insert key cell :: after ∧ key.spelling = s ∧
    ∀ edit ∈ after, edit.Spares s

/-- The texts that cells are put under before an array is cleared. -/
def textsUntilClear : List Edit → List String
  | [] => []
  | clear :: _ => []
  | insert key _ :: edits => key.spelling :: textsUntilClear edits

/-- The texts that cells were put under since an array was cleared, the latest first. -/
def textsSinceClear (edits : List Edit) : List String :=
  textsUntilClear edits.reverse

/-- One more change is the last insertion under a text, or spares it. -/
theorem lastInsertion_append {edits : List Edit} {edit : Edit} {s : String} {cell : Cell} :
    LastInsertion (edits ++ [edit]) s cell ↔
      (∃ key, edit = insert key cell ∧ key.spelling = s) ∨
        (edit.Spares s ∧ LastInsertion edits s cell) := by
  constructor
  · rintro ⟨before, key, after, hedits, hkey, hafter⟩
    rcases List.eq_nil_or_concat after with rfl | ⟨more, last, rfl⟩
    · obtain ⟨-, hlast⟩ := List.append_inj' hedits rfl
      exact Or.inl ⟨key, List.singleton_inj.mp hlast, hkey⟩
    · rw [List.concat_eq_append, ← List.cons_append, ← List.append_assoc] at hedits
      obtain ⟨hbefore, hlast⟩ := List.append_inj' hedits rfl
      obtain rfl := List.singleton_inj.mp hlast
      refine Or.inr ⟨hafter _ (by simp), before, key, more, hbefore, hkey, ?_⟩
      intro other hother
      exact hafter other (by simp [hother])
  · rintro (⟨key, rfl, hkey⟩ | ⟨hspares, before, key, after, rfl, hkey, hafter⟩)
    · exact ⟨edits, key, [], rfl, hkey, by simp⟩
    · refine ⟨before, key, after ++ [edit], by simp, hkey, ?_⟩
      intro other hother
      rcases List.mem_append.mp hother with hmem | hlast
      · exact hafter other hmem
      · rwa [List.mem_singleton.mp hlast]

theorem not_lastInsertion_nil {s : String} {cell : Cell} : ¬ LastInsertion [] s cell := by
  rintro ⟨before, key, after, hedits, -⟩
  simp at hedits

end Edit

/-- A finite map from texts to cells. -/
abbrev TextMap := Finmap fun _ : String => Cell

namespace TextMap

def edit (m : TextMap) : Edit → TextMap
  | .insert key cell => m.insert key.spelling cell
  | .clear => ∅

def after (edits : List Edit) : TextMap :=
  edits.foldl edit ∅

theorem after_append (edits : List Edit) (change : Edit) :
    after (edits ++ [change]) = (after edits).edit change :=
  List.foldl_append

theorem lookup_after {edits : List Edit} {s : String} {cell : Cell} :
    (after edits).lookup s = some cell ↔ Edit.LastInsertion edits s cell := by
  induction edits using List.reverseRecOn with
  | nil => simp [after, Edit.not_lastInsertion_nil]
  | append_singleton edits change ih =>
    rw [after_append, Edit.lastInsertion_append]
    cases change with
    | insert key held =>
      by_cases hkey : key.spelling = s
      · subst hkey
        simp [edit, Edit.Spares]
      · rw [edit, Finmap.lookup_insert_of_ne _ (Ne.symm hkey), ih]
        simp [Edit.Spares, hkey]
    | clear => simp [edit, Edit.Spares]

theorem keys_after (edits : List Edit) :
    (after edits).keys = (Edit.textsSinceClear edits).toFinset := by
  induction edits using List.reverseRecOn with
  | nil => rfl
  | append_singleton edits change ih =>
    rw [after_append, Edit.textsSinceClear, List.reverse_append]
    cases change with
    | insert key held =>
      ext s
      rw [Finmap.mem_keys, edit, Finmap.mem_insert, ← Finmap.mem_keys, ih]
      simp [Edit.textsUntilClear, Edit.textsSinceClear]
    | clear => rfl

end TextMap

namespace Table

def edit (t : Table) : Edit → Table
  | .insert key cell => (t.exchange key.subscript cell).2
  | .clear => empty

def after (edits : List Edit) : Table :=
  edits.foldl edit empty

/-- A table holds under the subscripts of texts what a map holds under the texts, and it holds
nothing else. -/
structure Represents (t : Table) (m : TextMap) : Prop where
  get?_ofText : ∀ s, t.get? (.ofText s) = m.lookup s
  keys_ofText : ∀ key ∈ t.keys, ∃ s, key = .ofText s

section Representation

variable {t : Table} {m : TextMap}

theorem mem_keys_iff (t : Table) (key : Subscript) :
    key ∈ t.keys ↔ ∃ cell, t.get? key = some cell := by
  constructor
  · intro h
    obtain ⟨⟨k, cell⟩, hmem, rfl⟩ := List.mem_map.mp h
    exact ⟨cell, (mem_entries_iff t k cell).mp hmem⟩
  · rintro ⟨cell, hget⟩
    exact List.mem_map.mpr ⟨_, (mem_entries_iff t key cell).mpr hget, rfl⟩

theorem represents_empty : empty.Represents ∅ := by
  constructor
  · intro s
    rw [get?_empty, Finmap.lookup_empty]
  · intro key hkey
    cases hkey

theorem Represents.edit (h : t.Represents m) (change : Edit) :
    (t.edit change).Represents (m.edit change) := by
  cases change with
  | clear => exact represents_empty
  | insert key cell =>
    constructor
    · intro s
      rw [Table.edit, exchange, TextMap.edit, key.subscript_eq, get?_insert]
      by_cases hs : s = key.spelling
      · subst hs
        rw [if_pos rfl, Finmap.lookup_insert]
      · rw [if_neg fun heq => hs (Subscript.ofText_injective heq),
          Finmap.lookup_insert_of_ne _ hs, h.get?_ofText]
    · intro k hk
      rcases mem_keys_insert.mp hk with rfl | hold
      · exact ⟨key.spelling, key.subscript_eq⟩
      · exact h.keys_ofText k hold

theorem represents_after (edits : List Edit) : (after edits).Represents (TextMap.after edits) := by
  have hrun : ∀ {t : Table} {m : TextMap}, t.Represents m →
      (edits.foldl Table.edit t).Represents (edits.foldl TextMap.edit m) := by
    induction edits with
    | nil => exact fun h => h
    | cons change edits ih => exact fun h => ih (h.edit change)
  exact hrun represents_empty

theorem Represents.get?_eq (h : t.Represents m) (key : Subscript.Given) :
    t.get? key.subscript = m.lookup key.spelling := by
  rw [key.subscript_eq, h.get?_ofText]

theorem Represents.contains_iff (h : t.Represents m) (key : Subscript.Given) :
    t.contains key.subscript = true ↔ key.spelling ∈ m := by
  rw [contains, h.get?_eq, Finmap.lookup_isSome]

theorem Represents.toFinset_keys (h : t.Represents m) :
    t.keys.toFinset = m.keys.image .ofText := by
  ext key
  rw [List.mem_toFinset, Finset.mem_image]
  constructor
  · intro hkey
    obtain ⟨s, rfl⟩ := h.keys_ofText key hkey
    obtain ⟨cell, hget⟩ := (mem_keys_iff t _).mp hkey
    rw [h.get?_ofText] at hget
    exact ⟨s, Finmap.mem_keys.mpr (Finmap.mem_iff.mpr ⟨cell, hget⟩), rfl⟩
  · rintro ⟨s, hs, rfl⟩
    obtain ⟨cell, hlookup⟩ := Finmap.mem_iff.mp (Finmap.mem_keys.mp hs)
    exact (mem_keys_iff t _).mpr ⟨cell, by rw [h.get?_ofText, hlookup]⟩

theorem Represents.size_eq (h : t.Represents m) : t.size = m.keys.card := by
  rw [← length_keys, ← List.toFinset_card_of_nodup t.nodup_keys, h.toFinset_keys,
    Finset.card_image_of_injective _ Subscript.ofText_injective]

theorem Represents.mem_indexed_iff (h : t.Represents m) (n : Int) (cell : Cell) :
    (n, cell) ∈ t.indexed ↔
      ∃ s, Subscript.Spells s.toList n ∧ Subscript.InRange n ∧ m.lookup s = some cell := by
  rw [Table.mem_indexed_iff]
  constructor
  · intro hget
    obtain ⟨s, hs⟩ := h.keys_ofText (.int n) ((mem_keys_iff t _).mpr ⟨cell, hget⟩)
    obtain ⟨hspells, hrange⟩ := Subscript.ofText_eq_int_iff.mp hs.symm
    rw [hs, h.get?_ofText] at hget
    exact ⟨s, hspells, hrange, hget⟩
  · rintro ⟨s, hspells, hrange, hlookup⟩
    rw [← Subscript.ofText_eq_int_iff.mpr ⟨hspells, hrange⟩, h.get?_ofText, hlookup]

theorem Represents.indexed_eq {other : Table} (h : t.Represents m) (hother : other.Represents m) :
    t.indexed = other.indexed := by
  refine indexed_eq_of_mem_iff ?_ other.pairwise_indexed
  intro n cell
  rw [hother.mem_indexed_iff, ← h.mem_indexed_iff, Table.mem_indexed_iff]

end Representation

/-- An array is a finite map on texts. After any changes, whichever way their subscripts are given,
looking up, asking for an element, the cell that one more change replaces and the number of elements
are those of the map, which holds the last insertion under each text since the last clearing. The
elements whose texts spell integers of 64 bits are listed, and no others, in strictly ascending
order, which depends on the map alone and not on the order of the changes. -/
theorem table_is_map_on_texts (edits : List Edit) :
    (∀ key : Subscript.Given,
        (after edits).get? key.subscript = (TextMap.after edits).lookup key.spelling) ∧
      (∀ key : Subscript.Given,
        (after edits).contains key.subscript = true ↔ key.spelling ∈ TextMap.after edits) ∧
      (∀ (key : Subscript.Given) (cell : Cell),
        ((after edits).exchange key.subscript cell).1 =
          (TextMap.after edits).lookup key.spelling) ∧
      (after edits).size = (TextMap.after edits).keys.card ∧
      (∀ (s : String) (cell : Cell),
        (TextMap.after edits).lookup s = some cell ↔ Edit.LastInsertion edits s cell) ∧
      (after edits).size = (Edit.textsSinceClear edits).dedup.length ∧
      (∀ (n : Int) (cell : Cell), (n, cell) ∈ (after edits).indexed ↔
        ∃ s, Subscript.Spells s.toList n ∧ Subscript.InRange n ∧
          (TextMap.after edits).lookup s = some cell) ∧
      ((after edits).indexed.Pairwise fun a b => a.1 < b.1) ∧
      ∀ others, TextMap.after others = TextMap.after edits →
        (after others).indexed = (after edits).indexed := by
  have h := represents_after edits
  refine ⟨h.get?_eq, h.contains_iff, ?_, h.size_eq, ?_, ?_, h.mem_indexed_iff,
    pairwise_indexed _, ?_⟩
  · intro key cell
    exact h.get?_eq key
  · intro s cell
    exact TextMap.lookup_after
  · rw [h.size_eq, TextMap.keys_after, List.card_toFinset]
  · intro others hsame
    have hothers := represents_after others
    rw [hsame] at hothers
    exact hothers.indexed_eq h

-- An integer and its text are one element, and a text with a needless zero is another.
example :
    (after [.insert (.text "lost") .unset, .clear, .insert (.integer 10 (by decide)) (.string "a"),
      .insert (.text "010") .unset, .insert (.text "10") (.string "b")]).entries =
      [(.int 10, .string "b"), (.text "010", .unset)] := by
  decide +kernel

end Table
end AwkStartup
