import AttributionReporting.Json.Basic
import AttributionReporting.Decimal.Text

/-!
# Numbers in JSON

A number written without point and exponent is an integer if it fits in 64 bits, signed or unsigned,
and is not minus zero (`Number.toInteger?`); every number has a double (`Number.toFloat?`) unless it
lies beyond the largest one. `Number.ofFloat` writes a double: the fewest digits that read back,
always with a fraction while the point falls within sixteen digits or at most four zeros before the
first one, with an exponent beyond.
-/

namespace AttributionReporting.Json

namespace Number

/-- Whether the number is written with digits only. -/
def isInteger (n : Number) : Bool := n.fraction.isEmpty && n.exponent.isNone

/-- The integer a number stands for, when it is written as one and fits in 64 bits. -/
def toInteger? (n : Number) : Option Int :=
  if n.isInteger then
    if n.negative then
      if n.whole = 0 ∨ 0x8000000000000000 < n.whole then none else some (-n.whole)
    else if n.whole < UInt64.size then some n.whole else none
  else none

/-- The number as the integer `m` and the power of ten `e` of `m * 10 ^ e`, its sign aside. -/
def scientific (n : Number) : Nat × Int :=
  (n.fraction.foldl (fun m d => m * 10 + d.val) n.whole, n.exponent.getD 0 - n.fraction.length)

/-- The double nearest to a number, unless the number is too large. -/
def toFloat? (n : Number) : Option Float :=
  let (m, e) := n.scientific
  (Decimal.nearestFloat? m e).map fun x => if n.negative then -x else x

/-- The form in which a finite double is written. -/
def ofFloat (x : Float) : Number :=
  let d := Decimal.ofFloat x
  let point := d.pointPosition
  if -5 < point ∧ point ≤ 16 then
    let fraction := d.fractionPart
    ⟨d.negative, Decimal.ofDigitList d.wholePart,
      if fraction.isEmpty then [⟨0, by decide⟩] else fraction, none⟩
  else
    ⟨d.negative, Decimal.ofDigitList (d.digitList.take 1), d.digitList.drop 1, some (point - 1)⟩

end Number

/-- A double in JSON. One that is not finite has no number and becomes `null`. -/
def float (x : Float) : Json := if x.isFinite then .number (Number.ofFloat x) else .null

end AttributionReporting.Json
