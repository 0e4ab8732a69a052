/-!
# Splitting texts

A text is split at the first equals sign (assignments and environment entries), after the
last slash (program names), and into lines (listings).
-/

namespace AwkStartup
namespace Text

def splitAtFirst? (sep : Char) : List Char → Option (List Char × List Char)
  | [] => none
  | c :: s =>
    if c = sep then some ([], s) else (splitAtFirst? sep s).map fun (before, after) => (c :: before, after)

theorem splitAtFirst?_append {sep : Char} {s : List Char} (h : sep ∉ s) (t : List Char) :
    splitAtFirst? sep (s ++ sep :: t) = some (s, t) := by
  induction s with
  | nil => simp [splitAtFirst?]
  | cons c s ih =>
    simp only [List.mem_cons, not_or] at h
    simp [splitAtFirst?, Ne.symm h.1, ih h.2]

theorem splitAtFirst?_eq_some_iff (sep : Char) (s before after : List Char) :
    splitAtFirst? sep s = some (before, after) ↔ s = before ++ sep :: after ∧ sep ∉ before := by
  constructor
  · intro h
    induction s generalizing before with
    | nil => cases h
    | cons c s ih =>
      unfold splitAtFirst? at h
      split at h
      · rename_i hc
        cases h
        exact ⟨by rw [hc]; rfl, List.not_mem_nil⟩
      · rename_i hc
        obtain ⟨⟨front, rest⟩, hsplit, hparts⟩ := Option.map_eq_some_iff.mp h
        cases hparts
        obtain ⟨rfl, hfront⟩ := ih front hsplit
        refine ⟨rfl, ?_⟩
        rw [List.mem_cons, not_or]
        exact ⟨Ne.symm hc, hfront⟩
  · rintro ⟨rfl, hbefore⟩
    exact splitAtFirst?_append hbefore after

/-- A name and a value around the first equals sign. -/
def nameValue? (text : String) : Option (String × String) :=
  (splitAtFirst? '=' text.toList).map fun (name, value) => (String.ofList name, String.ofList value)

theorem nameValue?_eq_some_iff (text name value : String) :
    nameValue? text = some (name, value) ↔ text = name ++ "=" ++ value ∧ '=' ∉ name.toList := by
  have htext : text = name ++ "=" ++ value ↔ text.toList = name.toList ++ '=' :: value.toList := by
    rw [← String.toList_inj, String.toList_append, String.toList_append, List.append_assoc]
    rfl
  rw [htext, ← splitAtFirst?_eq_some_iff, nameValue?, Option.map_eq_some_iff]
  constructor
  · rintro ⟨⟨before, after⟩, hsplit, hparts⟩
    cases hparts
    rw [hsplit, String.toList_ofList, String.toList_ofList]
  · intro h
    exact ⟨_, h, by simp⟩

def afterLastSlash : List Char → List Char
  | [] => []
  | c :: s => if '/' ∈ c :: s then afterLastSlash s else c :: s

def basename (path : String) : String :=
  String.ofList (afterLastSlash path.toList)

/-- The lines of a text. A newline ends a line, with the carriage return before it; the last
line may lack its newline and then keeps a carriage return. -/
def lines : List Char → List (List Char)
  | [] => []
  | '\n' :: s => [] :: lines s
  | '\r' :: '\n' :: s => [] :: lines s
  | c :: s =>
    match lines s with
    | [] => [[c]]
    | line :: rest => (c :: line) :: rest

end Text
end AwkStartup
