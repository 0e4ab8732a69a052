import AwkStartup.Environment
import AwkStartup.Toml.Value

/-!
# Libraries that a start relies on

Patterns, configuration documents and the directories of a user are left to libraries. Nothing is
known of their answers except that the same question has the same answer.
-/

namespace AwkStartup

/-- The libraries of a start. -/
class Libraries where
  /-- What is wrong with a text as a pattern, or nothing when it is one. -/
  patternFault? : String → Option String
  /-- A pattern for a text that is taken literally. -/
  escape : String → String
  /-- The value of a document, or what is wrong with it. -/
  readDocument : String → Except String Toml.Value
  /-- The directory of the user for configurations, given the environment of the process. -/
  configDirectory? : Environment → Option String

end AwkStartup
