import AwkStartup.Number.Binary64

/-!
# Values of configuration documents

A document is a table of values. Dates and times are checked but only kept as what they are.
-/

namespace AwkStartup
namespace Toml

inductive Value where
  | string (s : String)
  | integer (n : Int)
  | float (x : Binary64)
  | boolean (b : Bool)
  | dateTime
  | array (values : List Value)
  | table (entries : List (String × Value))

namespace Value

def get? : Value → String → Option Value
  | table entries, key => entries.lookup key
  | _, _ => none

def string? : Value → Option String
  | string s => some s
  | _ => none

def integer? : Value → Option Int
  | integer n => some n
  | _ => none

end Value
end Toml
end AwkStartup
