import AwkStartup.CommandLine.Directive
import AwkStartup.CommandLine.ImplementationOption
import AwkStartup.Number.Leading
import AwkStartup.StartupError

/-!
# Groups of implementation options

The value of `-W` is a group of candidates joined by commas. Reading it from the left gives
directives and the way the group ends. The text is cut at byte offsets, and a cut inside a
character is a fault of its own.
-/

namespace AwkStartup
namespace Group

/-- How a group ends. -/
inductive Ending where
  | through
  | exec (glued : Option String)
  | usage
  | refused (fault : StartupError)
  deriving DecidableEq, Repr

/-- What a group asks for. -/
structure Reading where
  directives : List Directive
  ending : Ending
  deriving DecidableEq, Repr

def Reading.after (directives : List Directive) (reading : Reading) : Reading :=
  ⟨directives ++ reading.directives, reading.ending⟩

/-- What one candidate does: it goes on from an offset, or it ends the group. -/
inductive Step where
  | next (directives : List Directive) (offset : Nat)
  | stop (ending : Ending)
  deriving DecidableEq, Repr

/-- The remark on a candidate that stands for several keywords. -/
def doubts : Abbreviation.Resolution ImplementationOption → List Directive
  | .ambiguous _ first second => [.notice (.ambiguous first second)]
  | _ => []

/-- An option that needs a number: the number after the equals sign at an offset. -/
def numeric (group : String) (option : ImplementationOption) (offset : Nat)
    (directive : Int → Directive) : Step :=
  if Abbreviation.hasValue (Text.bytes group) offset then
    match (Text.from? group (offset + 1)).bind Leading.integer?,
      Abbreviation.skipValue? (Text.bytes group) offset with
    | some n, some next => .next [directive n] next
    | _, _ => .stop (.refused (.badOffset (offset + 1)))
  else .stop (.refused (.missingValue option))

/-- The program file of `exec` may be glued to it; it runs to the end of the group. -/
def exec (group : String) (offset : Nat) : Ending :=
  if Abbreviation.hasValue (Text.bytes group) offset then
    match Text.from? group (offset + 1) with
    | some name => .exec (some name)
    | none => .refused (.badOffset (offset + 1))
  else .exec none

/-- What a candidate does whose text ends at an offset. -/
def act (group rest : String) (offset : Nat) : Option ImplementationOption → Step
  | none => .next [.notice (.vacuous rest)] offset
  | some .version => .next [.version] offset
  | some .binmode => numeric group .binmode offset .binmode
  | some .dump => .next [.dump] offset
  | some .help | some .usage => .stop .usage
  | some .interactive => .next [.interactive] offset
  | some .exec => .stop (exec group offset)
  | some .random => numeric group .random offset .random
  | some .sprintf => numeric group .sprintf offset .sprintf
  | some .posixSpace => .next [.posixSpace] offset

/-- A value that no option took is remarked on and skipped. A skipped value ends at a comma or
with the group, so there is one remark at most. -/
def surplus (group rest : String) (offset : Nat) : Option (List Directive × Nat) :=
  if (Text.bytes group)[offset]? = some Abbreviation.equals then
    (Abbreviation.skipValue? (Text.bytes group) offset).map
      fun next => ([.notice (.unexpectedValue rest)], next)
  else some ([], offset)

/-- Reads a group from an offset on. -/
def readFrom (table : List (Abbreviation.Keyword ImplementationOption)) (group : String) :
    Nat → Nat → Reading
  | 0, _ => ⟨[], .through⟩
  | fuel + 1, offset =>
    match Abbreviation.parse? table (Text.bytes group) offset with
    | none => ⟨[], .through⟩
    | some p =>
      match Text.from? group p.start with
      | none => ⟨[], .refused (.badOffset p.start)⟩
      | some rest =>
        match act group rest p.stop p.resolution.code? with
        | .stop ending => ⟨doubts p.resolution, ending⟩
        | .next directives offset =>
          match surplus group rest offset with
          | none => ⟨doubts p.resolution ++ directives, .refused (.badOffset offset)⟩
          | some (remarks, next) =>
            (readFrom table group fuel next).after (doubts p.resolution ++ directives ++ remarks)

/-- Reads a group. Every candidate or its value takes a byte, so there are fewer rounds than
bytes and one. -/
def read (table : List (Abbreviation.Keyword ImplementationOption)) (group : String) : Reading :=
  readFrom table group ((Text.bytes group).length + 1) 0

end Group
end AwkStartup
