import AttributionReporting.Json.Basic
import AttributionReporting.Text.Digits

/-!
# Reading JSON text

`read?` takes one document from the front of a text and gives it with the text that follows;
`parse?` reads a whole text, which may hold nothing but blanks after the document. The grammar is
the strict one: no comments, no trailing commas, no leading zeros, no raw control character in a
string. An escape may name half of a surrogate pair, and numbers and nesting have no limits here:
what a document means is settled where it is decoded.
-/

namespace AttributionReporting.Json

/-- The characters allowed between the parts of a document. -/
def isBlank (c : Char) : Bool := c == ' ' || c == '\t' || c == '\n' || c == '\r'

/-- The text from the first character that is not blank. -/
def skipBlank (cs : List Char) : List Char := cs.dropWhile isBlank

/-! ## Strings -/

/-- The unit with a 16-bit number. -/
def unitOfCode (n : Nat) : TextUnit :=
  if n < 0xD800 then .char (Char.ofNat n)
  else if n < 0xDC00 then .high ⟨(n - 0xD800) % 1024, Nat.mod_lt _ (by decide)⟩
  else if n < 0xE000 then .low ⟨(n - 0xDC00) % 1024, Nat.mod_lt _ (by decide)⟩
  else .char (Char.ofNat n)

/-- The unit named by the four digits of a `\u` escape. -/
def hexUnit? (a b c d : Char) : Option TextUnit := do
  let a ← Text.hexDigit? a
  let b ← Text.hexDigit? b
  let c ← Text.hexDigit? c
  let d ← Text.hexDigit? d
  some (unitOfCode (((a * 16 + b) * 16 + c) * 16 + d))

/-- The character named by a one-letter escape. -/
def escapedChar? : Char → Option Char
  | '"' => some '"'
  | '\\' => some '\\'
  | '/' => some '/'
  | 'b' => some '\x08'
  | 'f' => some '\x0c'
  | 'n' => some '\n'
  | 'r' => some '\r'
  | 't' => some '\t'
  | _ => none

/-- The rest of a string after its opening quote, and what follows its closing quote. -/
def readUnits : List Char → Option (List TextUnit × List Char)
  | [] => none
  | '"' :: rest => some ([], rest)
  | '\\' :: 'u' :: a :: b :: c :: d :: rest => do
    let unit ← hexUnit? a b c d
    let (units, rest) ← readUnits rest
    some (unit :: units, rest)
  | '\\' :: e :: rest => do
    let c ← escapedChar? e
    let (units, rest) ← readUnits rest
    some (.char c :: units, rest)
  | c :: rest =>
    if c = '\\' ∨ c < ' ' then none
    else do
      let (units, rest) ← readUnits rest
      some (.char c :: units, rest)

/-! ## Numbers -/

/-- The longest run of decimal digits at the front, which must not be empty. -/
def readDigits (cs : List Char) : Option (List Char × List Char) :=
  match cs.takeWhile Char.isDigit with
  | [] => none
  | digits => some (digits, cs.dropWhile Char.isDigit)

/-- The part of a number before point and exponent. -/
def readWhole : List Char → Option (Nat × List Char)
  | '0' :: rest => some (0, rest)
  | cs => (readDigits cs).map fun (digits, rest) => (Nat.ofDigitChars 10 digits 0, rest)

/-- The digits after a point, if there is one. -/
def readFraction : List Char → Option (List (Fin 10) × List Char)
  | '.' :: rest => (readDigits rest).map fun (digits, rest) => (digits.map Text.digitValue, rest)
  | cs => some ([], cs)

/-- The power of ten after an `e`. -/
def readPower : List Char → Option (Int × List Char)
  | '-' :: rest =>
    (readDigits rest).map fun (digits, rest) => (-(Nat.ofDigitChars 10 digits 0 : Int), rest)
  | '+' :: rest => (readDigits rest).map fun (digits, rest) => (Nat.ofDigitChars 10 digits 0, rest)
  | cs => (readDigits cs).map fun (digits, rest) => (Nat.ofDigitChars 10 digits 0, rest)

/-- The exponent, if there is one. -/
def readExponent : List Char → Option (Option Int × List Char)
  | 'e' :: rest => (readPower rest).map fun (power, rest) => (some power, rest)
  | 'E' :: rest => (readPower rest).map fun (power, rest) => (some power, rest)
  | cs => some (none, cs)

/-- A number without its sign. -/
def readMagnitude (negative : Bool) (cs : List Char) : Option (Number × List Char) := do
  let (whole, cs) ← readWhole cs
  let (fraction, cs) ← readFraction cs
  let (exponent, cs) ← readExponent cs
  some (⟨negative, whole, fraction, exponent⟩, cs)

/-- A number and what follows it. -/
def readNumber : List Char → Option (Number × List Char)
  | '-' :: rest => readMagnitude true rest
  | cs => readMagnitude false cs

/-! ## Documents -/

mutual

/-- A document and what follows it. Every step down and every item uses up part of the text, so
twice its length bounds the number of steps. -/
def readValue : Nat → List Char → Option (Json × List Char)
  | 0, _ => none
  | bound + 1, cs =>
    match skipBlank cs with
    | 'n' :: 'u' :: 'l' :: 'l' :: rest => some (.null, rest)
    | 't' :: 'r' :: 'u' :: 'e' :: rest => some (.bool true, rest)
    | 'f' :: 'a' :: 'l' :: 's' :: 'e' :: rest => some (.bool false, rest)
    | '"' :: rest => (readUnits rest).map fun (units, rest) => (.string units, rest)
    | '[' :: rest =>
      match skipBlank rest with
      | ']' :: rest => some (.array [], rest)
      | rest => (readItems bound rest).map fun (items, rest) => (.array items, rest)
    | '{' :: rest =>
      match skipBlank rest with
      | '}' :: rest => some (.object [], rest)
      | rest => (readMembers bound rest).map fun (members, rest) => (.object members, rest)
    | rest => (readNumber rest).map fun (n, rest) => (.number n, rest)

/-- The items of an array from its first one on, and what follows its closing bracket. -/
def readItems : Nat → List Char → Option (List Json × List Char)
  | 0, _ => none
  | bound + 1, cs => do
    let (item, rest) ← readValue bound cs
    match skipBlank rest with
    | ',' :: rest =>
      let (items, rest) ← readItems bound rest
      some (item :: items, rest)
    | ']' :: rest => some ([item], rest)
    | _ => none

/-- The members of an object from its first one on, and what follows its closing brace. -/
def readMembers : Nat → List Char → Option (List (List TextUnit × Json) × List Char)
  | 0, _ => none
  | bound + 1, cs =>
    match skipBlank cs with
    | '"' :: rest => do
      let (name, rest) ← readUnits rest
      match skipBlank rest with
      | ':' :: rest =>
        let (value, rest) ← readValue bound rest
        match skipBlank rest with
        | ',' :: rest =>
          let (members, rest) ← readMembers bound rest
          some ((name, value) :: members, rest)
        | '}' :: rest => some ([(name, value)], rest)
        | _ => none
      | _ => none
    | _ => none

end

/-- The document at the front of a text, and what follows it. -/
def read? (cs : List Char) : Option (Json × List Char) := readValue (2 * cs.length + 2) cs

/-- The document that is the whole of a text, but for blanks around it. -/
def parse? (s : String) : Option Json :=
  match read? s.toList with
  | some (document, rest) => if rest.all isBlank then some document else none
  | none => none

end AttributionReporting.Json
