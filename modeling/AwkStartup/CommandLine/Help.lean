import AwkStartup.Workspace

/-!
# Usage and version texts
-/

namespace AwkStartup
namespace Help

def usageLines (features : Features) : List String :=
  ["Usage: rawk [Options] [Program] [file ...]",
    "",
    "Program:",
    "    The -f option value is the name of a file containing program text.",
    "    If no -f option is given, a \"--\" ends option processing; the following",
    "    parameters are the program text.",
    "",
    "Options:",
    "    -f program-file  Program  text is read from file instead of from the",
    "                     command-line.  Multiple -f options are accepted.",
    "    -F value         sets the field separator, FS, to value.",
    "    -v var=value     assigns value to program variable var.",
    "    --               unambiguous end of options.",
    "",
    "    Implementation-specific options are prefixed with \"-W\".  They can be",
    "    abbreviated:",
    "",
    "    -W version       show version information."] ++
  (if features.binmode then ["    -W binmode=number set binary mode for input and output."] else []) ++
  ["    -W dump          show a listing of the program and exit.",
    "    -W help          show this message and exit.",
    "    -W interactive   set unbuffered output, line-buffered input.",
    "    -W exec file     use file as program as well as last option.",
    "    -W random=number set initial random seed.",
    "    -W sprintf=number adjust size of sprintf buffer.",
    "    -W posix_space   do not consider \"\\n\" a space.",
    "    -W usage         show this message and exit."]

def usageText (features : Features) : String :=
  String.join ((usageLines features).map (· ++ "\n"))

def versionNumber : String := "0.1.0"

/-- The version text: the name, what is compiled in, and the limits. -/
def versionText (name : String) (formatBuffer : Nat) : String :=
  name ++ " " ++ versionNumber ++ "\n\n" ++
    "random-funcs:       rand::rngs::StdRng\n" ++
    "regex-funcs:        regex\n\n" ++
    "compiled limits:\n" ++
    "sprintf buffer      " ++ toString formatBuffer ++ "\n" ++
    "maximum-integer     2147483647\n"

end Help
end AwkStartup
