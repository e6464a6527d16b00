import AttributionReporting.Decimal.Shortest
import AttributionReporting.Text.Digits

/-!
# Doubles as text

`renderFloat` writes a double with its shortest decimal and never with an exponent, and `readFloat?`
reads one in decimal notation, with or without an exponent, or by name when it is not a number or
infinite.
-/

namespace AttributionReporting

namespace Decimal

/-- The double nearest to `m * 10 ^ e`, if it is finite. Powers far beyond the range of doubles are
settled without being computed. -/
def nearestFloat? (m : Nat) (e : Int) : Option Float :=
  let top := (Nat.toDigits 10 m).length + e
  if m = 0 ∨ top < -400 then some 0
  else if 400 < top then none
  else
    let x := Float.ofScientific m (decide (e < 0)) e.natAbs
    if x.isFinite then some x else none

/-- The text of a decimal without an exponent: at least one digit before the point, and no point
without digits after it. -/
def render (d : Decimal) : String :=
  let chars (digits : List (Fin 10)) : List Char := digits.map fun digit => digit.val.digitChar
  let whole := if d.wholePart.isEmpty then ['0'] else chars d.wholePart
  let fraction := if d.fractionPart.isEmpty then [] else '.' :: chars d.fractionPart
  String.ofList ((if d.negative then ['-'] else []) ++ whole ++ fraction)

end Decimal

/-- The text of a double: its shortest decimal, or what it is instead of a number. -/
def renderFloat (x : Float) : String :=
  if x.isNaN then "NaN"
  else if x.isInf then if x < 0 then "-inf" else "inf"
  else (Decimal.ofFloat x).render

/-- The digits after a point, if there is one, and what follows. -/
def splitFraction : List Char → List Char × List Char
  | '.' :: cs => cs.span Char.isDigit
  | cs => ([], cs)

/-- The power of ten that a number ends with. -/
def readExponent? : List Char → Option Int
  | [] => some 0
  | 'e' :: cs => Text.signed? cs
  | 'E' :: cs => Text.signed? cs
  | _ => none

/-- The size of a double: a name in any case, or digits with a point or an exponent among them. A
number beyond the largest double is infinite. -/
def readMagnitude? (cs : List Char) : Option Float :=
  let infinity : Float := 1 / 0
  match String.ofList (cs.map Char.toLower) with
  | "nan" => some (0 / 0)
  | "inf" => some infinity
  | "infinity" => some infinity
  | _ => do
    let (whole, rest) := cs.span Char.isDigit
    let (fraction, rest) := splitFraction rest
    let power ← readExponent? rest
    if whole.isEmpty && fraction.isEmpty then none
    else
      let m := Nat.ofDigitChars 10 (whole ++ fraction) 0
      some ((Decimal.nearestFloat? m (power - fraction.length)).getD infinity)

/-- Reads a double from text. -/
def readFloat? (s : String) : Option Float :=
  match s.toList with
  | '-' :: cs => (readMagnitude? cs).map fun x => -x
  | '+' :: cs => readMagnitude? cs
  | cs => readMagnitude? cs

end AttributionReporting
