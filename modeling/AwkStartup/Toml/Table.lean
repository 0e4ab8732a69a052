import AwkStartup.Toml.Value

/-!
# Building the table of a document

Headers and dotted keys create tables on the way to their last key. A table is defined at most
once: by a header, by dotted keys, or as the last element of an array of tables.
-/

namespace AwkStartup
namespace Toml

/-- How a table came to be: on the way to another one, by a header, or by a dotted key. -/
inductive TableOrigin where
  | implied
  | header
  | dotted
  deriving DecidableEq, Repr

/-- What stands under a key while a document is read. -/
inductive Item where
  | value (v : Value)
  | table (origin : TableOrigin) (entries : List (String × Item))
  | tables (elements : List (List (String × Item)))

abbrev Entries := List (String × Item)

def setItem (key : String) (item : Item) : Entries → Entries
  | [] => [(key, item)]
  | e :: entries => if e.1 = key then (key, item) :: entries else e :: setItem key item entries

/-- Adds a value under a dotted key. Tables on the way must not come from a header, and the table
of the last key must come from dotted keys as well. -/
def assign? (v : Value) : Bool → List String → Entries → Option Entries
  | _, [], _ => none
  | fits, [key], entries =>
    if fits ∧ (entries.lookup key).isNone then some (entries ++ [(key, .value v)]) else none
  | _, key :: path, entries =>
    match entries.lookup key with
    | none => (assign? v true path []).map fun inner => entries ++ [(key, .table .dotted inner)]
    | some (.table .header _) => none
    | some (.table origin inner) =>
      (assign? v (origin = .dotted) path inner).map fun inner =>
        setItem key (.table origin inner) entries
    | some _ => none

def within? (f : Entries → Option Entries) : List String → Entries → Option Entries
  | [], entries => f entries
  | key :: path, entries =>
    match entries.lookup key with
    | some (.table origin inner) =>
      (within? f path inner).map fun inner => setItem key (.table origin inner) entries
    | some (.tables elements) =>
      match elements.getLast? with
      | some last =>
        (within? f path last).map fun last =>
          setItem key (.tables (elements.dropLast ++ [last])) entries
      | none => none
    | _ => none

/-- Opens the table of a header. A table that was only implied becomes defined. -/
def defineTable? : List String → Entries → Option Entries
  | [], _ => none
  | [key], entries =>
    match entries.lookup key with
    | none => some (entries ++ [(key, .table .header [])])
    | some (.table .implied inner) => some (setItem key (.table .header inner) entries)
    | some _ => none
  | key :: path, entries =>
    match entries.lookup key with
    | none => (defineTable? path []).map fun inner => entries ++ [(key, .table .implied inner)]
    | some (.table origin inner) =>
      (defineTable? path inner).map fun inner => setItem key (.table origin inner) entries
    | some (.tables elements) =>
      match elements.getLast? with
      | some last =>
        (defineTable? path last).map fun last =>
          setItem key (.tables (elements.dropLast ++ [last])) entries
      | none => none
    | some (.value _) => none

/-- Adds an element to the array of tables of a header. -/
def appendTable? : List String → Entries → Option Entries
  | [], _ => none
  | [key], entries =>
    match entries.lookup key with
    | none => some (entries ++ [(key, .tables [[]])])
    | some (.tables elements) => some (setItem key (.tables (elements ++ [[]])) entries)
    | some _ => none
  | key :: path, entries =>
    match entries.lookup key with
    | none => (appendTable? path []).map fun inner => entries ++ [(key, .table .implied inner)]
    | some (.table origin inner) =>
      (appendTable? path inner).map fun inner => setItem key (.table origin inner) entries
    | some (.tables elements) =>
      match elements.getLast? with
      | some last =>
        (appendTable? path last).map fun last =>
          setItem key (.tables (elements.dropLast ++ [last])) entries
      | none => none
    | some (.value _) => none

mutual

def Item.toValue : Item → Value
  | .value v => v
  | .table _ entries => .table (entriesToValues entries)
  | .tables elements => .array (elementsToValues elements)

def entriesToValues : List (String × Item) → List (String × Value)
  | [] => []
  | (key, item) :: entries => (key, item.toValue) :: entriesToValues entries

def elementsToValues : List (List (String × Item)) → List Value
  | [] => []
  | entries :: elements => .table (entriesToValues entries) :: elementsToValues elements

end

end Toml
end AwkStartup
