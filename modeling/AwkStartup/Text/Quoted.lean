import AwkStartup.Text.Hidden

/-!
# Quoted text in messages

A quoted text stands in double quotes. Its quotes and backslashes are escaped, tab, newline,
carriage return and NUL have short forms, and other hidden characters are shown by their code.
-/

namespace AwkStartup
namespace Text

def quoteChar (c : Char) : List Char :=
  if c = '\x00' then ['\\', '0']
  else if c = '\t' then ['\\', 't']
  else if c = '\r' then ['\\', 'r']
  else if c = '\n' then ['\\', 'n']
  else if c = '"' ∨ c = '\\' then ['\\', c]
  else if isHidden c then '\\' :: 'u' :: '\x7b' :: (Nat.toDigits 16 c.toNat ++ ['\x7d'])
  else [c]

def quote (text : String) : String :=
  String.ofList ('"' :: (text.toList.flatMap quoteChar ++ ['"']))

end Text
end AwkStartup
