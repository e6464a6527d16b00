import AttributionReporting.Json.Basic

/-!
# Writing JSON text

`render` writes a document without blanks. In a string the quote, the backslash and the control
characters are escaped, the common ones by a letter and the others by four digits; every other
character stands for itself.
-/

namespace AttributionReporting.Json

/-- The four digits of a `\u` escape. -/
def hexDigits4 (n : Nat) : List Char :=
  [(n / 4096 % 16).digitChar, (n / 256 % 16).digitChar, (n / 16 % 16).digitChar,
    (n % 16).digitChar]

/-- A character inside a string. -/
def escapeChar (c : Char) : List Char :=
  if c = '"' then ['\\', '"']
  else if c = '\\' then ['\\', '\\']
  else if c = '\x08' then ['\\', 'b']
  else if c = '\x0c' then ['\\', 'f']
  else if c = '\n' then ['\\', 'n']
  else if c = '\r' then ['\\', 'r']
  else if c = '\t' then ['\\', 't']
  else if c < ' ' then '\\' :: 'u' :: hexDigits4 c.toNat
  else [c]

/-- A unit inside a string. -/
def printUnit : TextUnit → List Char
  | .char c => escapeChar c
  | .high h => '\\' :: 'u' :: hexDigits4 (0xD800 + h.val)
  | .low l => '\\' :: 'u' :: hexDigits4 (0xDC00 + l.val)

/-- A string with its quotes. -/
def printUnits (units : List TextUnit) : List Char :=
  '"' :: units.flatMap printUnit ++ ['"']

/-- The digits after the point, if there are any. -/
def printFraction : List (Fin 10) → List Char
  | [] => []
  | digits => '.' :: digits.map fun d => d.val.digitChar

/-- The exponent, if there is one. -/
def printExponent : Option Int → List Char
  | none => []
  | some power =>
    'e' :: (if power < 0 then ['-'] else []) ++ Nat.toDigits 10 power.natAbs

/-- A number. -/
def printNumber (n : Number) : List Char :=
  (if n.negative then ['-'] else []) ++ Nat.toDigits 10 n.whole ++
    printFraction n.fraction ++ printExponent n.exponent

mutual

/-- A document without blanks. -/
def print : Json → List Char
  | .null => ['n', 'u', 'l', 'l']
  | .bool true => ['t', 'r', 'u', 'e']
  | .bool false => ['f', 'a', 'l', 's', 'e']
  | .number n => printNumber n
  | .string units => printUnits units
  | .array items => '[' :: printItems items ++ [']']
  | .object members => '{' :: printMembers members ++ ['}']

/-- The items of an array, with commas between them. -/
def printItems : List Json → List Char
  | [] => []
  | [item] => print item
  | item :: items => print item ++ ',' :: printItems items

/-- The members of an object, with commas between them. -/
def printMembers : List (List TextUnit × Json) → List Char
  | [] => []
  | [(name, value)] => printUnits name ++ ':' :: print value
  | (name, value) :: members => printUnits name ++ ':' :: print value ++ ',' :: printMembers members

end

/-- The text of a document. -/
def render (document : Json) : String := String.ofList (print document)

end AttributionReporting.Json
