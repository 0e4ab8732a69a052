import AwkStartup.CommandLine.Abbreviation
import AwkStartup.Workspace

/-!
# Implementation options

The keywords that may follow `-W`. The order of the table decides which keyword an ambiguous
abbreviation stands for.
-/

namespace AwkStartup

inductive ImplementationOption where
  | version
  | binmode
  | dump
  | help
  | interactive
  | exec
  | random
  | sprintf
  | posixSpace
  | usage
  deriving DecidableEq, Repr

namespace ImplementationOption

/-- The lower-case name, as messages write it. -/
def spelling : ImplementationOption → String
  | version => "version"
  | binmode => "binmode"
  | dump => "dump"
  | help => "help"
  | interactive => "interactive"
  | exec => "exec"
  | random => "random"
  | sprintf => "sprintf"
  | posixSpace => "posix_space"
  | usage => "usage"

def table (features : Features) : List (Abbreviation.Keyword ImplementationOption) :=
  ⟨"VERSION", version⟩ ::
    ((if features.binmode then [⟨"BINMODE", binmode⟩] else []) ++
      [⟨"DUMP", dump⟩, ⟨"HELP", help⟩, ⟨"INTERACTIVE", interactive⟩, ⟨"EXEC", exec⟩,
        ⟨"RANDOM", random⟩, ⟨"SPRINTF", sprintf⟩, ⟨"POSIX_SPACE", posixSpace⟩, ⟨"USAGE", usage⟩])

end ImplementationOption
end AwkStartup
