import AwkStartup.Workspace
import Mathlib.Tactic

/-!
# What a release empties

Arrays are shared by handles and global names, and the registry remembers arrays without holding
them. A release empties the arrays that have been registered since the release before it, through
whichever holder they are looked at, and leaves everything else as it is.
-/

namespace AwkStartup

/-- Who can hold an array. -/
inductive Holder where
  | handle (handle : String)
  | name (name : String)
  deriving DecidableEq, Repr

/-- What can happen to names, handles and arrays. -/
inductive ArrayOperation where
  | newArray (handle : String)
  | drop (handle : String)
  | takeArray (name handle : String)
  | insert (handle : String) (key : Subscript) (cell : Cell)
  | clear (handle : String)
  | setScalar (name : String) (cell : Cell)
  | insertArray (name handle : String)
  | register (handle : String)
  | setArgv (programName : String) (args : List String)
  | loadEnviron (entries : List String)
  | release
  deriving DecidableEq, Repr

namespace Workspace

def held? (w : Workspace) : Holder → Option ArrayId
  | .handle handle => w.handles.lookup handle
  | .name name => w.globals.array? name

def seen? (w : Workspace) (holder : Holder) : Option Table :=
  (w.held? holder).map w.contents

theorem alive_iff {w : Workspace} {id : ArrayId} :
    w.Alive id ↔ ∃ holder, w.held? holder = some id := by
  constructor
  · rintro (⟨handle, h⟩ | ⟨name, h⟩)
    · exact ⟨.handle handle, h⟩
    · exact ⟨.name name, h⟩
  · rintro ⟨handle | name, h⟩
    · exact Or.inl ⟨handle, h⟩
    · exact Or.inr ⟨name, h⟩

def change (w : Workspace) (handle : String) (f : Table → Table) : Workspace :=
  match w.handles.lookup handle with
  | some id => w.update id f
  | none => w

def perform (features : Features) (w : Workspace) : ArrayOperation → Workspace
  | .newArray handle => w.newArray handle
  | .drop handle => w.drop handle
  | .takeArray name handle => w.takeArray name handle
  | .insert handle key cell => w.change handle fun t => t.insert key cell
  | .clear handle => w.change handle fun _ => Table.empty
  | .setScalar name cell => w.setScalar name cell
  | .insertArray name handle => w.insertArray name handle
  | .register handle => w.register handle
  | .setArgv programName args => w.setArgv features programName args
  | .loadEnviron entries => w.loadEnviron features entries
  | .release => w.release

/-- Operations one after the other. -/
def performAll (features : Features) (w : Workspace) (operations : List ArrayOperation) :
    Workspace :=
  operations.foldl (perform features) w

/-- The arrays that an operation registers. Seeding registers the array that it makes. -/
def registers (features : Features) (w : Workspace) : ArrayOperation → List ArrayId
  | .register handle => (w.handles.lookup handle).toList
  | .setArgv _ _ | .loadEnviron _ => if features.arrayRegistry then [w.fresh] else []
  | _ => []

def registrations (features : Features) : Workspace → List ArrayOperation → List ArrayId
  | _, [] => []
  | w, operation :: operations =>
    w.registers features operation ++ registrations features (w.perform features operation) operations

section Holders

variable (w : Workspace) (holder : Holder)

theorem held?_hold (handle : String) (id : ArrayId) :
    (w.hold handle id).held? holder =
      if holder = .handle handle then some id else w.held? holder := by
  cases holder with
  | handle h => simpa [held?] using w.lookup_hold handle h id
  | name name => simp [held?, hold]

theorem held?_drop (handle : String) :
    (w.drop handle).held? holder = if holder = .handle handle then none else w.held? holder := by
  cases holder with
  | handle h => simpa [held?] using w.lookup_drop handle h
  | name name => simp [held?, drop]

theorem held?_setScalar (name : String) (cell : Cell) :
    (w.setScalar name cell).held? holder =
      if holder = .name name then none else w.held? holder := by
  cases holder with
  | handle handle => simp [held?, setScalar]
  | name n => simpa [held?, setScalar] using w.globals.array?_setScalar name n cell

theorem held?_setArray (name : String) (id : ArrayId) :
    { w with globals := w.globals.setArray name id }.held? holder =
      if holder = .name name then some id else w.held? holder := by
  cases holder with
  | handle handle => simp [held?]
  | name n => simpa [held?] using w.globals.array?_setArray name n id

theorem held?_seedArray (features : Features) (name : String) (t : Table) :
    (w.seedArray features name t).held? holder =
      if holder = .name name then some w.fresh else w.held? holder := by
  unfold seedArray
  dsimp only
  rw [held?_setArray]
  split_ifs <;> rfl

theorem held?_change (handle : String) (f : Table → Table) :
    (w.change handle f).held? holder = w.held? holder := by
  unfold change
  split
  · cases holder <;> rfl
  · rfl

theorem held?_release : w.release.held? holder = w.held? holder := by
  cases holder <;> simp [held?]

end Holders

section Steps

variable {features : Features} {w : Workspace} {operation : ArrayOperation} {holder : Holder}
  {id : ArrayId}

theorem registered_seedArray (features : Features) (w : Workspace) (name : String) (t : Table) :
    (w.seedArray features name t).registered =
      w.registered ++ if features.arrayRegistry then [w.fresh] else [] := by
  unfold seedArray
  dsimp only
  split_ifs <;> simp [alloc, registerId]

theorem registered_perform (h : operation ≠ .release) :
    (w.perform features operation).registered =
      w.registered ++ w.registers features operation := by
  cases operation with
  | release => exact absurd rfl h
  | setArgv programName args => exact registered_seedArray features w "ARGV" _
  | loadEnviron entries => exact registered_seedArray features w "ENVIRON" _
  | register handle =>
    simp only [perform, register, registers]
    cases w.handles.lookup handle <;> simp [registerId]
  | insert handle key cell | clear handle =>
    simp only [perform, change, registers, List.append_nil]
    cases w.handles.lookup handle <;> rfl
  | insertArray name handle =>
    simp only [perform, insertArray, registers, List.append_nil]
    cases w.handles.lookup handle <;> rfl
  | takeArray name handle =>
    simp only [perform, takeArray, registers, List.append_nil]
    cases w.globals.array? name <;> rfl
  | newArray handle | drop handle | setScalar name cell =>
    simp [perform, newArray, alloc, hold, drop, setScalar, registers]

theorem fresh_le_perform (features : Features) (w : Workspace) (operation : ArrayOperation) :
    w.fresh ≤ (w.perform features operation).fresh := by
  cases operation with
  | setArgv programName args => simp [perform, setArgv, setScalar]
  | loadEnviron entries => simp [perform, loadEnviron]
  | release => simp [perform]
  | register handle =>
    simp only [perform, register]
    cases w.handles.lookup handle <;> simp [registerId]
  | insert handle key cell | clear handle =>
    simp only [perform, change]
    cases w.handles.lookup handle <;> simp [update]
  | insertArray name handle =>
    simp only [perform, insertArray]
    cases w.handles.lookup handle <;> simp
  | takeArray name handle =>
    simp only [perform, takeArray]
    cases w.globals.array? name <;> simp [hold]
  | newArray handle | drop handle | setScalar name cell =>
    simp [perform, newArray, alloc, hold, drop, setScalar]

theorem held?_perform (h : (w.perform features operation).held? holder = some id) :
    (∃ other, w.held? other = some id) ∨
      (id = w.fresh ∧ w.fresh < (w.perform features operation).fresh) := by
  cases operation with
  | newArray handle =>
    rw [perform, newArray, held?_hold] at h
    split_ifs at h
    · exact Or.inr ⟨(Option.some.inj h).symm, Nat.lt_succ_self _⟩
    · exact Or.inl ⟨holder, h⟩
  | drop handle =>
    rw [perform, held?_drop] at h
    split_ifs at h
    exact Or.inl ⟨holder, h⟩
  | takeArray name handle =>
    rw [perform, takeArray] at h
    split at h
    · rename_i held hname
      rw [held?_hold] at h
      split_ifs at h
      · rw [← h]
        exact Or.inl ⟨.name name, hname⟩
      · exact Or.inl ⟨holder, h⟩
    · exact Or.inl ⟨holder, h⟩
  | insert handle key cell | clear handle =>
    rw [perform, held?_change] at h
    exact Or.inl ⟨holder, h⟩
  | setScalar name cell =>
    rw [perform, held?_setScalar] at h
    split_ifs at h
    exact Or.inl ⟨holder, h⟩
  | insertArray name handle =>
    rw [perform, insertArray] at h
    split at h
    · rename_i held hhandle
      rw [held?_setArray] at h
      split_ifs at h
      · rw [← h]
        exact Or.inl ⟨.handle handle, hhandle⟩
      · exact Or.inl ⟨holder, h⟩
    · exact Or.inl ⟨holder, h⟩
  | register handle =>
    rw [perform, register] at h
    split at h
    · exact Or.inl ⟨holder, h⟩
    · exact Or.inl ⟨holder, h⟩
  | setArgv programName args =>
    rw [perform, setArgv, held?_setScalar, held?_seedArray] at h
    split_ifs at h
    · exact Or.inr ⟨(Option.some.inj h).symm, by simp [perform, setArgv, setScalar]⟩
    · exact Or.inl ⟨holder, h⟩
  | loadEnviron entries =>
    rw [perform, loadEnviron, held?_seedArray] at h
    split_ifs at h
    · exact Or.inr ⟨(Option.some.inj h).symm, by simp [perform, loadEnviron]⟩
    · exact Or.inl ⟨holder, h⟩
  | release =>
    rw [perform, held?_release] at h
    exact Or.inl ⟨holder, h⟩

theorem of_mem_registers (h : id ∈ w.registers features operation) :
    (∃ holder, w.held? holder = some id) ∨
      (id = w.fresh ∧ w.fresh < (w.perform features operation).fresh) := by
  cases operation with
  | register handle => exact Or.inl ⟨.handle handle, Option.mem_toList.mp h⟩
  | setArgv programName args =>
    rw [registers] at h
    split_ifs at h
    · exact Or.inr ⟨List.mem_singleton.mp h, by simp [perform, setArgv, setScalar]⟩
    · cases h
  | loadEnviron entries =>
    rw [registers] at h
    split_ifs at h
    · exact Or.inr ⟨List.mem_singleton.mp h, by simp [perform, loadEnviron]⟩
    · cases h
  | _ => cases h

end Steps

/-- Every array that is held or registered has been made, so new arrays are other ones. -/
structure IsSound (w : Workspace) : Prop where
  held : ∀ holder id, w.held? holder = some id → id < w.fresh
  registered : ∀ id ∈ w.registered, id < w.fresh

theorem array?_initial (name : String) : Globals.initial.array? name = none := by
  unfold Globals.array? Globals.initial
  dsimp only
  split_ifs
  · rfl
  · rfl
  · cases Globals.builtinVariables.lookup name with
    | none => rfl
    | some cell => rfl

theorem isSound_initial : initial.IsSound := by
  constructor
  · intro holder id h
    cases holder with
    | handle handle => cases h
    | name name =>
      have hnone : initial.held? (.name name) = none := array?_initial name
      rw [hnone] at h
      cases h
  · intro id h
    cases h

section Runs

variable {features : Features} {w : Workspace} {operations : List ArrayOperation} {id : ArrayId}

theorem IsSound.perform (h : w.IsSound) (features : Features) (operation : ArrayOperation) :
    (w.perform features operation).IsSound := by
  have hle := w.fresh_le_perform features operation
  constructor
  · intro holder id hheld
    rcases held?_perform hheld with ⟨other, hother⟩ | ⟨rfl, hlt⟩
    · exact (h.held other id hother).trans_le hle
    · exact hlt
  · intro id hid
    by_cases hrelease : operation = .release
    · subst hrelease
      cases hid
    · rw [registered_perform hrelease, List.mem_append] at hid
      rcases hid with hid | hid
      · exact (h.registered id hid).trans_le hle
      · rcases of_mem_registers hid with ⟨holder, hheld⟩ | ⟨rfl, hlt⟩
        · exact (h.held holder id hheld).trans_le hle
        · exact hlt

theorem IsSound.performAll (h : w.IsSound) (features : Features)
    (operations : List ArrayOperation) : (w.performAll features operations).IsSound := by
  induction operations generalizing w with
  | nil => exact h
  | cons operation operations ih => exact ih (h.perform features operation)

/-- An array that nothing holds is never held again. -/
theorem alive_of_performAll (h : (w.performAll features operations).Alive id) :
    w.Alive id ∨ w.fresh ≤ id := by
  induction operations generalizing w with
  | nil => exact Or.inl h
  | cons operation operations ih =>
    rcases ih h with halive | hnew
    · obtain ⟨holder, hheld⟩ := alive_iff.mp halive
      rcases held?_perform hheld with hother | ⟨rfl, -⟩
      · exact Or.inl (alive_iff.mpr hother)
      · exact Or.inr le_rfl
    · exact Or.inr ((w.fresh_le_perform features operation).trans hnew)

/-- Without a release, the registry has grown by the registrations of the operations. -/
theorem registered_performAll (h : .release ∉ operations) :
    (w.performAll features operations).registered =
      w.registered ++ w.registrations features operations := by
  induction operations generalizing w with
  | nil => simp [performAll, registrations]
  | cons operation operations ih =>
    rw [List.mem_cons, not_or] at h
    obtain ⟨hoperation, hlater⟩ := h
    have hrun : w.performAll features (operation :: operations) =
        (w.perform features operation).performAll features operations := rfl
    rw [hrun, ih hlater, registered_perform (Ne.symm hoperation), registrations,
      List.append_assoc]

end Runs

/-- A release empties the given arrays and nothing else, whoever they are looked at through, and
forgets all registrations. -/
structure ReleasesExactly (w : Workspace) (since : List ArrayId) : Prop where
  holders : ∀ holder, w.release.held? holder = w.held? holder
  emptied : ∀ holder id, w.held? holder = some id → id ∈ since →
    w.release.seen? holder = some Table.empty
  kept : ∀ holder id, w.held? holder = some id → id ∉ since →
    w.release.seen? holder = w.seen? holder
  globals : w.release.globals = w.globals
  forgotten : w.release.registered.length = 0
  again : w.release.release = w.release

theorem releasesExactly_registered (w : Workspace) : w.ReleasesExactly w.registered := by
  constructor
  · exact w.held?_release
  · intro holder id hheld hid
    rw [seen?, held?_release, hheld, Option.map_some, contents_release, if_pos hid]
  · intro holder id hheld hid
    rw [seen?, seen?, held?_release, hheld, Option.map_some, Option.map_some, contents_release,
      if_neg hid]
  · exact w.globals_release
  · rfl
  · rfl

theorem registered_of_released {operations : List ArrayOperation}
    (h : operations = [] ∨ operations.getLast? = some .release) (features : Features) :
    (initial.performAll features operations).registered = [] := by
  rcases h with rfl | hlast
  · rfl
  · obtain ⟨earlier, rfl⟩ := List.getLast?_eq_some_iff.mp hlast
    rw [performAll, List.foldl_append]
    rfl

/-- After any operations, a release empties exactly the arrays that are held and were registered
since the release before, whoever they are looked at through. The registry counts all these
registrations, also repeated ones and those of arrays that nobody holds any more. An array that
nobody holds is never held again, and a new array is none of those that were held or registered. -/
theorem release_clears_exactly (features : Features) {before since : List ArrayOperation}
    (hbefore : before = [] ∨ before.getLast? = some .release) (hsince : .release ∉ since) :
    let start := initial.performAll features before
    let w := initial.performAll features (before ++ since)
    w.ReleasesExactly (start.registrations features since) ∧
      w.registered.length = (start.registrations features since).length ∧
      w.IsSound ∧ ∀ id, w.Alive id → start.Alive id ∨ start.fresh ≤ id := by
  intro start w
  have hw : w = start.performAll features since := List.foldl_append
  have hregistered : w.registered = start.registrations features since := by
    rw [hw, registered_performAll hsince, registered_of_released hbefore features,
      List.nil_append]
  refine ⟨?_, ?_, isSound_initial.performAll features _, ?_⟩
  · rw [← hregistered]
    exact w.releasesExactly_registered
  · rw [hregistered]
  · intro id halive
    rw [hw] at halive
    exact alive_of_performAll halive

/-- An array that is filled again after its release, and two that are registered since, one of them
twice and the other let go. -/
theorem release_clears_exactly_refilled :
    let before : List ArrayOperation := [.newArray "a", .register "a", .release]
    let since : List ArrayOperation :=
      [.insert "a" (.int 1) (.string "x"), .newArray "b", .insert "b" (.text "k") .unset,
        .register "b", .newArray "c", .register "c", .drop "c", .insertArray "N" "b",
        .register "b", .drop "b"]
    let w := initial.performAll .full (before ++ since)
    before.getLast? = some .release ∧ .release ∉ since ∧ w.registered.length = 3 ∧
      (w.seen? (.name "N")).map Table.size = some 1 ∧
      w.release.seen? (.name "N") = some Table.empty ∧
      (w.release.seen? (.handle "a")).map Table.size = some 1 := by
  intro before since w
  have hlast : before.getLast? = some .release := rfl
  have hsince : .release ∉ since := by decide
  obtain ⟨hrelease, hlength, -⟩ := release_clears_exactly .full (Or.inr hlast) hsince
  have hkept := hrelease.kept (.handle "a") 0 rfl (by decide)
  refine ⟨hlast, hsince, hlength, rfl, hrelease.emptied (.name "N") 1 rfl (by decide), ?_⟩
  rw [hkept]
  rfl

end Workspace
end AwkStartup
