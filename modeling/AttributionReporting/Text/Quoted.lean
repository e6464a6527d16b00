import AttributionReporting.Text.Visible

/-!
# Quoted text

`quote` shows a text between double quotes so that every character can be told: the quote and the
backslash are escaped, the common controls have letters, and any other character without a visible
form of its own is given by its number.
-/

namespace AttributionReporting.Text

/-- A character between the quotes. -/
def quoteChar (c : Char) : List Char :=
  if c = '"' then ['\\', '"']
  else if c = '\\' then ['\\', '\\']
  else if c = '\n' then ['\\', 'n']
  else if c = '\r' then ['\\', 'r']
  else if c = '\t' then ['\\', 't']
  else if c = '\x00' then ['\\', '0']
  else if isVisible c then [c]
  else '\\' :: 'u' :: '\x7b' :: Nat.toDigits 16 c.toNat ++ ['\x7d']

/-- A text between quotes. -/
def quote (s : String) : String := String.ofList ('"' :: s.toList.flatMap quoteChar ++ ['"'])

end AttributionReporting.Text
