import AwkStartup.Globals
import AwkStartup.Text.Split

/-!
# Globals and the arrays they share

Arrays live apart from the names that hold them, so that a change through one holder is seen by
all. Holders are global names and handles. A registry remembers arrays to be emptied at the end;
it holds none of them and counts every registration.
-/

namespace AwkStartup

/-- The optional parts of a build. -/
structure Features where
  binmode : Bool
  arrayRegistry : Bool
  deriving DecidableEq, Repr

namespace Features

def plain : Features := ⟨false, false⟩

def full : Features := ⟨true, true⟩

end Features

/-- Global names, shared arrays, handles and the registry. -/
structure Workspace where
  globals : Globals
  contents : ArrayId → Table
  fresh : ArrayId
  handles : List (String × ArrayId)
  registered : List ArrayId

namespace Workspace

def initial : Workspace :=
  { globals := Globals.initial
    contents := fun _ => Table.empty
    fresh := 0
    handles := []
    registered := [] }

/-- Whether an array can still be reached: a handle or a global name holds it. -/
def Alive (w : Workspace) (id : ArrayId) : Prop :=
  (∃ handle, w.handles.lookup handle = some id) ∨ ∃ name, w.globals.array? name = some id

def alloc (w : Workspace) (elements : Table) : ArrayId × Workspace :=
  (w.fresh,
    { w with
      contents := fun id => if id = w.fresh then elements else w.contents id
      fresh := w.fresh + 1 })

def update (w : Workspace) (id : ArrayId) (f : Table → Table) : Workspace :=
  { w with contents := fun i => if i = id then f (w.contents i) else w.contents i }

/-- Lets a handle hold an array, in place of the one it held. -/
def hold (w : Workspace) (handle : String) (id : ArrayId) : Workspace :=
  { w with handles := (handle, id) :: w.handles.filter fun h => h.1 != handle }

def newArray (w : Workspace) (handle : String) : Workspace :=
  let (id, w) := w.alloc Table.empty
  w.hold handle id

def drop (w : Workspace) (handle : String) : Workspace :=
  { w with handles := w.handles.filter fun h => h.1 != handle }

/-- Lets a handle hold the array that a name is bound to; without one nothing changes. -/
def takeArray (w : Workspace) (name handle : String) : Workspace :=
  match w.globals.array? name with
  | some id => w.hold handle id
  | none => w

def setScalar (w : Workspace) (name : String) (cell : Cell) : Workspace :=
  { w with globals := w.globals.setScalar name cell }

def insertArray (w : Workspace) (name handle : String) : Workspace :=
  match w.handles.lookup handle with
  | some id => { w with globals := w.globals.setArray name id }
  | none => w

def registerId (w : Workspace) (id : ArrayId) : Workspace :=
  { w with registered := w.registered ++ [id] }

def register (w : Workspace) (handle : String) : Workspace :=
  match w.handles.lookup handle with
  | some id => w.registerId id
  | none => w

def clear (w : Workspace) (id : ArrayId) : Workspace :=
  w.update id fun _ => Table.empty

/-- Empties every registered array, from the newest registration on, and forgets the registrations.
An array that nothing holds is emptied too, but nobody can look at it any more. -/
def release (w : Workspace) : Workspace :=
  { w.registered.reverse.foldl clear w with registered := [] }

/-- Binds a name to a new array, registered when the build has a registry. -/
def seedArray (features : Features) (w : Workspace) (name : String) (elements : Table) : Workspace :=
  let (id, w) := w.alloc elements
  let w := if features.arrayRegistry then w.registerId id else w
  { w with globals := w.globals.setArray name id }

def argumentTable : Nat → List String → Table → Table
  | _, [], t => t
  | index, arg :: args, t =>
    argumentTable (index + 1) args (t.insert (.ofIndex index) (.maybeNumeric arg))

/-- Binds ARGV to the program name, a fixed string, and the arguments, and ARGC to their count. -/
def setArgv (features : Features) (w : Workspace) (programName : String) (args : List String) :
    Workspace :=
  let elements := argumentTable 1 args (Table.empty.insert (.ofIndex 0) (.string programName))
  (w.seedArray features "ARGV" elements).setScalar "ARGC" (.double (.ofInt (args.length + 1)))

/-- The table of environment entries; a later entry of the same name wins. -/
def environmentTable (entries : List String) : Table :=
  entries.foldl
    (fun t entry =>
      match Text.nameValue? entry with
      | some (name, value) => t.insert (.ofText name) (.maybeNumeric value)
      | none => t)
    Table.empty

/-- Binds ENVIRON to the environment entries that contain an equals sign. -/
def loadEnviron (features : Features) (w : Workspace) (entries : List String) : Workspace :=
  w.seedArray features "ENVIRON" (environmentTable entries)

@[simp] theorem globals_seedArray (features : Features) (w : Workspace) (name : String)
    (t : Table) : (w.seedArray features name t).globals = w.globals.setArray name w.fresh := by
  unfold seedArray
  dsimp only
  split <;> rfl

@[simp] theorem fresh_seedArray (features : Features) (w : Workspace) (name : String) (t : Table) :
    (w.seedArray features name t).fresh = w.fresh + 1 := by
  unfold seedArray
  dsimp only
  split <;> rfl

theorem contents_seedArray (features : Features) (w : Workspace) (name : String) (t : Table)
    (id : ArrayId) :
    (w.seedArray features name t).contents id = if id = w.fresh then t else w.contents id := by
  unfold seedArray
  dsimp only
  split <;> rfl

theorem lookup_drop (w : Workspace) (handle h : String) :
    (w.drop handle).handles.lookup h = if h = handle then none else w.handles.lookup h := by
  unfold drop
  simp only
  induction w.handles with
  | nil => simp
  | cons held handles ih =>
    obtain ⟨other, id⟩ := held
    by_cases hother : other = handle
    · rw [List.filter_cons_of_neg (by simp [hother]), ih, hother]
      by_cases hh : h = handle
      · simp [hh]
      · simp [hh, List.lookup_cons, beq_eq_false_iff_ne.2 hh]
    · rw [List.filter_cons_of_pos (by simp [hother]), List.lookup_cons, List.lookup_cons, ih]
      by_cases hh : h = other
      · simp [hh, hother]
      · simp [beq_eq_false_iff_ne.2 hh]

theorem lookup_hold (w : Workspace) (handle h : String) (id : ArrayId) :
    (w.hold handle id).handles.lookup h = if h = handle then some id else w.handles.lookup h := by
  have hdrop := w.lookup_drop handle h
  unfold drop at hdrop
  by_cases hh : h = handle
  · simp [hold, hh]
  · simpa [hold, List.lookup_cons, beq_eq_false_iff_ne.2 hh, hh] using hdrop

theorem foldl_clear (ids : List ArrayId) (w : Workspace) :
    ids.foldl clear w =
      { w with contents := fun id => if id ∈ ids then Table.empty else w.contents id } := by
  induction ids generalizing w with
  | nil => simp
  | cons first ids ih =>
    rw [List.foldl_cons, ih]
    simp only [clear, update, mk.injEq, and_true, true_and]
    funext id
    by_cases hfirst : id = first
    · simp [hfirst]
    · simp [hfirst]

theorem contents_release (w : Workspace) (id : ArrayId) :
    w.release.contents id = if id ∈ w.registered then Table.empty else w.contents id := by
  rw [release, foldl_clear]
  simp

@[simp] theorem globals_release (w : Workspace) : w.release.globals = w.globals := by
  rw [release, foldl_clear]

@[simp] theorem fresh_release (w : Workspace) : w.release.fresh = w.fresh := by
  rw [release, foldl_clear]

@[simp] theorem handles_release (w : Workspace) : w.release.handles = w.handles := by
  rw [release, foldl_clear]

end Workspace
end AwkStartup
