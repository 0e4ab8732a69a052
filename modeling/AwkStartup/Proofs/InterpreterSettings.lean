import AwkStartup.Proofs.CommandLine.AppliedPieces
import AwkStartup.StandardLibraries
import Mathlib.Order.Bounds.Basic

/-!
# What the applied pieces set up

After a command line, the pieces that it applied tell what the interpreter is like: the format buffer
has the largest size that they ask for, in whatever order, each banner shows the largest size before
it, and the last seed counts. They also tell the switches that a program is launched with.
-/

namespace AwkStartup

variable {features : Features} {name : String} {pieces : List (List Char)} {piece : List Char}

namespace Interpreter

/-- The sizes that a format buffer has to have room for: that of the start, and those that pieces ask
for. -/
def sizes (features : Features) (pieces : List (List Char)) : Set Nat :=
  insert 8192
    {n | ∃ piece ∈ pieces, Group.number? features .sprintf piece = some (n : Int)}

/-- The sizes that the banners of pieces show, one for each piece that names the version. It is the
largest size of the pieces before that one. -/
inductive Shows (features : Features) : List (List Char) → List Nat → Prop
  | nil : Shows features [] []
  | banner {pieces piece shown size} : Shows features pieces shown →
      Group.names features .version piece = true → IsGreatest (sizes features pieces) size →
      Shows features (pieces ++ [piece]) (shown ++ [size])
  | other {pieces piece shown} : Shows features pieces shown →
      Group.names features .version piece = false → Shows features (pieces ++ [piece]) shown

/-- The banner of a program that shows the size of its format buffer. -/
def bannerText (name : String) (size : Nat) : String :=
  name ++ " 0.1.0\n\nrandom-funcs:       rand::rngs::StdRng\nregex-funcs:        regex\n\n" ++
    "compiled limits:\nsprintf buffer      " ++ toString size ++ "\n" ++
    "maximum-integer     2147483647\n"

/-- An interpreter that was new, and that pieces have set up since. -/
structure IsSetUpBy (features : Features) (name : String) (pieces : List (List Char))
    (i : Interpreter) : Prop where
  name_eq : i.name = name
  formatBuffer : IsGreatest (sizes features pieces) i.formatBuffer
  output : ∃ shown, Shows features pieces shown ∧
    shown.length = pieces.countP (Group.names features .version) ∧
    i.output = String.join (shown.map (bannerText name))
  interactive : i.interactive = true ↔
    ∃ piece ∈ pieces, Group.names features .interactive piece = true
  seed : i.seed =
    (pieces.filterMap (Group.number? features .random)).getLast?.map Binary64.ofInt
  program : i.program = []

section Sizes

theorem sizes_append_of_ne (h : ∀ n : Nat, Group.number? features .sprintf piece ≠ some (n : Int)) :
    sizes features (pieces ++ [piece]) = sizes features pieces := by
  ext n
  simp [sizes, h, or_and_right, exists_or]

theorem sizes_append_of_eq {n : Nat}
    (h : Group.number? features .sprintf piece = some (n : Int)) :
    sizes features (pieces ++ [piece]) = insert n (sizes features pieces) := by
  ext m
  simp only [sizes, Set.mem_insert_iff, Set.mem_ofPred_eq, List.mem_append, List.mem_singleton]
  constructor
  · rintro (hm | ⟨other, hother | rfl, hm⟩)
    · exact Or.inr (Or.inl hm)
    · exact Or.inr (Or.inr ⟨other, hother, hm⟩)
    · rw [h, Option.some.injEq, Int.natCast_inj] at hm
      exact Or.inl hm.symm
  · rintro (rfl | hm | ⟨other, hother, hm⟩)
    · exact Or.inr ⟨piece, Or.inr rfl, h⟩
    · exact Or.inl hm
    · exact Or.inr ⟨other, Or.inl hother, hm⟩

/-- One more piece: a size that it asks for is one of two to choose from, and a negative one is
none. -/
theorem isGreatest_sizes_append {size : Nat} (h : IsGreatest (sizes features pieces) size) :
    IsGreatest (sizes features (pieces ++ [piece]))
      (max size (((Group.number? features .sprintf piece).map Int.toNat).getD 0)) := by
  cases hnumber : Group.number? features .sprintf piece with
  | none =>
    rw [sizes_append_of_ne (by simp [hnumber])]
    simpa using h
  | some n =>
    cases n with
    | ofNat n =>
      rw [sizes_append_of_eq hnumber, max_comm]
      exact h.insert n
    | negSucc n =>
      rw [sizes_append_of_ne (by simp [hnumber])]
      simpa using h

end Sizes

theorem Shows.length_eq {shown : List Nat} (h : Shows features pieces shown) :
    shown.length = pieces.countP (Group.names features .version) := by
  induction h with
  | nil => rfl
  | banner _ hversion _ ih => simp [ih, hversion]
  | other _ hversion ih => simp [ih, hversion]

theorem versionText_eq (name : String) (size : Nat) :
    Help.versionText name size = bannerText name size := by
  have hhead : " " ++ Help.versionNumber ++ "\n\n" ++ "random-funcs:       rand::rngs::StdRng\n" ++
      "regex-funcs:        regex\n\n" =
        " 0.1.0\n\nrandom-funcs:       rand::rngs::StdRng\nregex-funcs:        regex\n\n" := by
    decide
  have hlimits : "compiled limits:\n" ++ "sprintf buffer      " =
      "compiled limits:\nsprintf buffer      " := by decide
  rw [bannerText, ← hhead, ← hlimits]
  simp only [Help.versionText, String.append_assoc]

namespace IsSetUpBy

theorem initial (features : Features) (name : String) :
    (Interpreter.initial name).IsSetUpBy features name [] where
  name_eq := rfl
  formatBuffer := by simp [sizes, Interpreter.initial, formatBufferLimit]
  output := ⟨[], .nil, rfl, rfl⟩
  interactive := by simp [Interpreter.initial]
  seed := rfl
  program := rfl

variable {i : Interpreter}

theorem output_obey (h : i.IsSetUpBy features name pieces) (piece : List Char) :
    ∃ shown, Shows features (pieces ++ [piece]) shown ∧
      shown.length = (pieces ++ [piece]).countP (Group.names features .version) ∧
      (i.obey features piece).output = String.join (shown.map (bannerText name)) := by
  obtain ⟨shown, hshown, -, houtput⟩ := h.output
  cases hversion : Group.names features .version piece with
  | true =>
    have hbanner := hshown.banner hversion h.formatBuffer
    refine ⟨_, hbanner, hbanner.length_eq, ?_⟩
    simp [Interpreter.obey, hversion, houtput, h.name_eq, versionText_eq]
  | false =>
    have hother := hshown.other hversion
    refine ⟨shown, hother, hother.length_eq, ?_⟩
    simp [Interpreter.obey, hversion, houtput]

theorem obey (h : i.IsSetUpBy features name pieces) (piece : List Char) :
    (i.obey features piece).IsSetUpBy features name (pieces ++ [piece]) where
  name_eq := h.name_eq
  formatBuffer := isGreatest_sizes_append h.formatBuffer
  output := h.output_obey piece
  interactive := by
    simp [Interpreter.obey, h.interactive, or_and_right, exists_or]
  seed := by
    rw [List.filterMap_append, List.getLast?_append, Option.map_or]
    cases hnumber : Group.number? features .random piece with
    | none => simp [Interpreter.obey, hnumber, h.seed]
    | some n => simp [Interpreter.obey, hnumber]
  program := h.program

theorem foldl (features : Features) (name : String) (pieces : List (List Char)) :
    (pieces.foldl (Interpreter.obey features) (.initial name)).IsSetUpBy features name pieces := by
  induction pieces using List.reverseRecOn with
  | nil => exact initial features name
  | append_singleton pieces piece ih =>
    rw [List.foldl_append]
    exact ih.obey piece

theorem withSeparator (h : i.IsSetUpBy features name pieces) (separator : Separator) :
    (i.withSeparator separator).IsSetUpBy features name pieces where
  name_eq := h.name_eq
  formatBuffer := h.formatBuffer
  output := h.output
  interactive := h.interactive
  seed := h.seed
  program := h.program

end IsSetUpBy
end Interpreter

namespace Flags

/-- Switches that are on exactly when a piece names them. -/
structure AreNamed (features : Features) (pieces : List (List Char)) (flags : Flags) : Prop where
  dumpCode : flags.dumpCode = true ↔ ∃ piece ∈ pieces, Group.names features .dump piece = true
  interactive : flags.interactive = true ↔
    ∃ piece ∈ pieces, Group.names features .interactive piece = true
  posixSpace : flags.posixSpace = true ↔
    ∃ piece ∈ pieces, Group.names features .posixSpace piece = true

theorem AreNamed.foldl (features : Features) (pieces : List (List Char)) :
    (pieces.foldl (Flags.obey features) .none).AreNamed features pieces := by
  induction pieces using List.reverseRecOn with
  | nil => constructor <;> simp [Flags.none]
  | append_singleton pieces piece ih =>
    rw [List.foldl_append]
    constructor
    · simp [Flags.obey, ih.dumpCode, or_and_right, exists_or]
    · simp [Flags.obey, ih.interactive, or_and_right, exists_or]
    · simp [Flags.obey, ih.posixSpace, or_and_right, exists_or]

end Flags

namespace CommandLine

-- The buffer only grows, the banners show it growing, and the first group ends before its last piece.
example :
    ((dispatch .plain .reject Globals.initial
        ["awk", "-W", "v,sp=9000,r=1,sp=-1", "-Wsprintf=100,v,random=7,sprintf,v",
          "BEGIN"]).progress.interpreter (.initial "awk")).output =
      Help.versionText "awk" 8192 ++ Help.versionText "awk" 9000 := by
  decide +kernel

end CommandLine
end AwkStartup
