/-!
# JSON documents

`Json` is a JSON document as written, up to blanks and the choice of escapes: members keep their
order and may repeat a name, and a number keeps its digits. A string is a list of `TextUnit`s, since
an escape may name half of a surrogate pair; `decode` joins the halves and refuses a lone one, so a
document with a lone half is fine until the string is used. `Number` gives the digits of a number
and nothing about the range they fall in.
-/

namespace AttributionReporting

namespace Json

/-- One unit of a string: a character, or one half of a surrogate pair. -/
inductive TextUnit
  | char (c : Char)
  | high (bits : Fin 1024)
  | low (bits : Fin 1024)
deriving DecidableEq

/-- The units of plain text. -/
def unitsOf (s : String) : List TextUnit := s.toList.map .char

/-- The character that a surrogate pair stands for. -/
def pairChar (high low : Fin 1024) : Char := Char.ofNat (0x10000 + high.val * 1024 + low.val)

/-- The characters of a string, unless half of a surrogate pair stands alone. -/
def decodeChars? : List TextUnit → Option (List Char)
  | [] => some []
  | .char c :: rest => (decodeChars? rest).map (c :: ·)
  | .high h :: .low l :: rest => (decodeChars? rest).map (pairChar h l :: ·)
  | .high _ :: _ => none
  | .low _ :: _ => none

/-- The text of a string, unless half of a surrogate pair stands alone. -/
def decode? (units : List TextUnit) : Option String := (decodeChars? units).map String.ofList

@[simp]
theorem decodeChars?_map_char (cs : List Char) : decodeChars? (cs.map .char) = some cs := by
  induction cs with
  | nil => rfl
  | cons c cs ih => simp [decodeChars?, ih]

@[simp]
theorem decode?_unitsOf (s : String) : decode? (unitsOf s) = some s := by
  simp [decode?, unitsOf]

/-- The digits of a number: `-1.50e3` is negative, with whole part 1, fraction 5 0 and exponent
3. -/
structure Number where
  negative : Bool
  whole : Nat
  fraction : List (Fin 10)
  exponent : Option Int
deriving DecidableEq

end Json

/-- A JSON document. -/
inductive Json
  | null
  | bool (b : Bool)
  | number (n : Json.Number)
  | string (units : List Json.TextUnit)
  | array (items : List Json)
  | object (members : List (List Json.TextUnit × Json))
deriving Inhabited

namespace Json

/-- Plain text as a JSON string. -/
def text (s : String) : Json := .string (unitsOf s)

/-- A whole number in JSON. -/
def integer (i : Int) : Json := .number ⟨decide (i < 0), i.natAbs, [], none⟩

/-- An object whose names are plain text. -/
def record (members : List (String × Json)) : Json :=
  .object (members.map fun m => (unitsOf m.1, m.2))

end Json

end AttributionReporting
