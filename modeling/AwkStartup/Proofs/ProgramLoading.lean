import AwkStartup.Collaborator
import Mathlib.Tactic

/-!
# Loading program files

Program files are loaded all or not at all. A program has one segment for each name, in the order of
the names; when one of them cannot be read, the first such name is reported and the interpreter
keeps the program that it has. Standard input can be read once.
-/

namespace AwkStartup

theorem ProgramFiles.names_foldl_push (names : List String) (files : ProgramFiles) :
    (names.foldl push files).names = files.names ++ names := by
  induction names generalizing files with
  | nil => simp
  | cons name names ih => simp [ih]

namespace Interpreter

variable {files : Files} {input : List UInt8}

/-- The text of a name that is read after others. Standard input gives its text to the first name
that means it, and nothing to later ones. -/
def textAfter (files : Files) (input : List UInt8) (earlier : List String) (name : String) :
    Except SystemError String :=
  if isStandardInput name = false then files.readText name
  else if earlier.any isStandardInput then .ok ""
  else
    match Text.ofBytes? input with
    | some text => .ok text
    | none => .error .notUtf8

/-- What is left of standard input after some names have been read. -/
def inputAfter (input : List UInt8) (earlier : List String) : List UInt8 :=
  if earlier.any isStandardInput then [] else input

/-- Every name can be read as a text after the ones before it. -/
def AllReadable (files : Files) (input : List UInt8) (names : List String) : Prop :=
  ∀ before name after, names = before ++ name :: after →
    ∃ text, textAfter files input before name = .ok text

/-- A name cannot be read, and all names before it can. -/
def FirstUnreadable (files : Files) (input : List UInt8) (names : List String) (name : String)
    (cause : SystemError) : Prop :=
  ∃ before after, names = before ++ name :: after ∧ AllReadable files input before ∧
    textAfter files input before name = .error cause

/-- The program of some names has one segment for each of them, with its name and its text. -/
inductive IsProgramOf (files : Files) (input : List UInt8) :
    List String → List ProgramText → Prop
  | nil : IsProgramOf files input [] []
  | snoc {names program name text} : IsProgramOf files input names program →
      textAfter files input names name = .ok text →
      IsProgramOf files input (names ++ [name]) (program ++ [⟨some name, text⟩])

theorem AllReadable.append {names : List String} {name text : String}
    (h : AllReadable files input names) (hname : textAfter files input names name = .ok text) :
    AllReadable files input (names ++ [name]) := by
  intro before other after hsplit
  rcases List.eq_nil_or_concat after with rfl | ⟨more, last, rfl⟩
  · obtain ⟨rfl, hlast⟩ := List.append_inj' hsplit rfl
    obtain rfl := List.singleton_inj.mp hlast
    exact ⟨text, hname⟩
  · rw [List.concat_eq_append, ← List.cons_append, ← List.append_assoc] at hsplit
    exact h before other more (List.append_inj' hsplit rfl).1

theorem FirstUnreadable.append {names : List String} {name : String} {cause : SystemError}
    (h : FirstUnreadable files input names name cause) (more : List String) :
    FirstUnreadable files input (names ++ more) name cause := by
  obtain ⟨before, after, rfl, hbefore, hname⟩ := h
  exact ⟨before, after ++ more, by simp, hbefore, hname⟩

theorem IsProgramOf.allReadable {names : List String} {program : List ProgramText}
    (h : IsProgramOf files input names program) : AllReadable files input names := by
  induction h with
  | nil =>
    intro before name after hsplit
    simp at hsplit
  | snoc _ hname ih => exact ih.append hname

theorem FirstUnreadable.not_allReadable {names : List String} {name : String} {cause : SystemError}
    (h : FirstUnreadable files input names name cause) : ¬ AllReadable files input names := by
  obtain ⟨before, after, hsplit, -, hname⟩ := h
  intro hall
  obtain ⟨text, htext⟩ := hall before name after hsplit
  rw [hname] at htext
  cases htext

theorem readFile_inputAfter (files : Files) (input : List UInt8) (earlier : List String)
    (name : String) :
    readFile files (inputAfter input earlier) name =
      (textAfter files input earlier name, inputAfter input (earlier ++ [name])) := by
  unfold readFile textAfter inputAfter
  cases hname : isStandardInput name with
  | false => simp [hname]
  | true =>
    cases hearlier : earlier.any isStandardInput with
    | true => simp [hname, hearlier]; rfl
    | false =>
      cases htext : Text.ofBytes? input with
      | some text => simp [hname, hearlier, htext]
      | none => simp [hname, hearlier, htext]

theorem readFiles_append (files : Files) (input : List UInt8) (names more : List String) :
    readFiles files input (names ++ more) =
      match readFiles files input names with
      | (.error fault, rest) => (.error fault, rest)
      | (.ok program, rest) =>
        ((readFiles files rest more).1.map (program ++ ·), (readFiles files rest more).2) := by
  induction names generalizing input with
  | nil =>
    simp only [List.nil_append, readFiles]
    cases readFiles files input more with
    | mk result rest => cases result <;> rfl
  | cons name names ih =>
    simp only [List.cons_append, readFiles]
    cases readFile files input name with
    | mk result rest =>
      cases result with
      | error cause => rfl
      | ok text =>
        simp only [ih]
        cases readFiles files rest names with
        | mk result rest =>
          cases result with
          | error fault => rfl
          | ok program =>
            dsimp only
            cases readFiles files rest more with
            | mk result rest => cases result <;> rfl

/-- Either all names are read, or the first one that cannot be read is reported. -/
theorem readFiles_cases (files : Files) (input : List UInt8) (names : List String) :
    (∃ program, IsProgramOf files input names program ∧
        readFiles files input names = (.ok program, inputAfter input names)) ∨
      ∃ name cause rest, FirstUnreadable files input names name cause ∧
        readFiles files input names = (.error (.programFile name cause), rest) := by
  induction names using List.reverseRecOn with
  | nil => exact Or.inl ⟨[], .nil, rfl⟩
  | append_singleton names name ih =>
    rw [readFiles_append]
    rcases ih with ⟨program, hprogram, hread⟩ | ⟨first, cause, rest, hfirst, hread⟩
    · rw [hread]
      simp only [readFiles, readFile_inputAfter]
      cases htext : textAfter files input names name with
      | ok text => exact Or.inl ⟨_, hprogram.snoc htext, rfl⟩
      | error cause =>
        exact Or.inr ⟨name, cause, _, ⟨names, [], rfl, hprogram.allReadable, htext⟩, rfl⟩
    · rw [hread]
      exact Or.inr ⟨first, cause, rest, hfirst.append [name], rfl⟩

end Interpreter

namespace Host

open Interpreter (AllReadable FirstUnreadable IsProgramOf)

def filesOf (names : List String) : ProgramSource :=
  .files (names.foldl ProgramFiles.push .empty)

theorem readSource_filesOf (files : Files) (input : List UInt8) (names : List String) :
    Interpreter.readSource files input (filesOf names) = Interpreter.readFiles files input names := by
  rw [filesOf, Interpreter.readSource, ProgramFiles.names_foldl_push]
  rfl

/-- Loading program files is all or nothing. It succeeds exactly when every name can be read as a
text, and then only the program of the interpreter has changed: it is that of the names. Otherwise
the first name that cannot be read is reported, and the interpreter is as it was. -/
theorem loading_is_all_or_nothing (files : Files) (host : Host) (names : List String) :
    ((host.scan files (filesOf names)).2 = none ↔ AllReadable files host.input names) ∧
      ((host.scan files (filesOf names)).2 = none →
        ∃ program, IsProgramOf files host.input names program ∧
          (host.scan files (filesOf names)).1.interpreter =
            { host.interpreter with program := program }) ∧
      ∀ fault, (host.scan files (filesOf names)).2 = some fault →
        (host.scan files (filesOf names)).1.interpreter = host.interpreter ∧
          ∃ name cause, fault = .programFile name cause ∧
            FirstUnreadable files host.input names name cause := by
  rcases Interpreter.readFiles_cases files host.input names with
    ⟨program, hprogram, hread⟩ | ⟨name, cause, rest, hfirst, hread⟩
  · have hscan : host.scan files (filesOf names) =
        (⟨{ host.interpreter with program := program },
          Interpreter.inputAfter host.input names⟩, none) := by
      rw [scan, readSource_filesOf, hread]
    rw [hscan]
    refine ⟨⟨fun _ => hprogram.allReadable, fun _ => rfl⟩, fun _ => ⟨program, hprogram, rfl⟩, ?_⟩
    intro fault hfault
    cases hfault
  · have hscan : host.scan files (filesOf names) =
        (⟨host.interpreter, rest⟩, some (.programFile name cause)) := by
      rw [scan, readSource_filesOf, hread]
    rw [hscan]
    refine ⟨⟨fun h => ?_, fun h => absurd h hfirst.not_allReadable⟩, fun h => ?_, ?_⟩
    · cases h
    · cases h
    · intro fault hfault
      exact ⟨rfl, name, cause, (Option.some.inj hfault).symm, hfirst⟩

/-- A file that can be read and one that is missing, when a program has been loaded before. -/
theorem loading_is_all_or_nothing_missing :
    let files := Files.ofPaths [] [("p", .file [0x62])]
    let host := ((Host.initial "awk" [0x61]).scan files (filesOf ["p"])).1
    (host.scan files (filesOf ["p", "q", "-"])).1.interpreter = host.interpreter ∧
      FirstUnreadable files host.input ["p", "q", "-"] "q" .notFound ∧
      ∃ program, IsProgramOf files host.input ["p", "-"] program ∧
        (host.scan files (filesOf ["p", "-"])).1.interpreter =
          { host.interpreter with program := program } := by
  intro files host
  have hmissing : (host.scan files (filesOf ["p", "q", "-"])).2 =
      some (.programFile "q" .notFound) := by
    decide +kernel
  have hread : (host.scan files (filesOf ["p", "-"])).2 = none := by
    decide +kernel
  obtain ⟨-, -, hfails⟩ := loading_is_all_or_nothing files host ["p", "q", "-"]
  obtain ⟨-, hloads, -⟩ := loading_is_all_or_nothing files host ["p", "-"]
  obtain ⟨hsame, name, cause, hfault, hfirst⟩ := hfails _ hmissing
  cases hfault
  exact ⟨hsame, hfirst, hloads hread⟩

-- The second name of standard input finds nothing left of it.
example :
    ((Host.initial "awk" [0x61]).scan (Files.ofPaths [] [("p", .file [0x62])])
      (filesOf ["p", "-", "p", "/dev/stdin"])).1.interpreter.program =
      [⟨some "p", "b"⟩, ⟨some "-", "a"⟩, ⟨some "p", "b"⟩, ⟨some "/dev/stdin", ""⟩] := by
  decide +kernel

end Host
end AwkStartup
