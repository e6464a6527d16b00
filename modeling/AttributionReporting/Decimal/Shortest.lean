import AttributionReporting.Text.Digits

/-!
# Shortest decimals

`Decimal.ofFloat` gives the decimal with the fewest digits that reads back as a given finite double,
and of those the one nearest to it (of two equally near, the one with the even last digit).
A positive double is `m * 2 ^ q`; the reals that round to it reach half way to its two neighbours,
ends included when `m` is even. On the grid of decimals with `n` digits the only candidates are the
two neighbours of the double itself, so `n = 1, 2, …, 17` are tried in turn, in exact arithmetic.
-/

namespace AttributionReporting

/-- The number `± digits * 10 ^ exponent`. -/
structure Decimal where
  negative : Bool
  digits : Nat
  exponent : Int
deriving DecidableEq

namespace Decimal

/-- A positive double `mantissa * 2 ^ exponent`. Below a power of two (`narrow`) the next double is
only half as far away as above it. -/
structure Binary where
  mantissa : Nat
  exponent : Int
  narrow : Bool
deriving DecidableEq

/-- The size of a finite double. -/
def Binary.ofBits (bits : UInt64) : Binary :=
  let exponent := ((bits >>> 52) &&& 0x7ff).toNat
  let fraction := (bits &&& 0xfffffffffffff).toNat
  if exponent = 0 then ⟨fraction, -1074, false⟩
  else ⟨fraction + 0x10000000000000, exponent - 1075, fraction == 0 && exponent != 1⟩

/-- `a * 2 ^ (b.exponent - 2)` and `c * 10 ^ k` over a common denominator. -/
def Binary.scaled (b : Binary) (a c : Nat) (k : Int) : Nat × Nat :=
  (a * Nat.pow 2 (b.exponent - 2).toNat * Nat.pow 10 (-k).toNat,
    c * Nat.pow 2 (2 - b.exponent).toNat * Nat.pow 10 k.toNat)

/-- Whether the decimal `c * 10 ^ k` reads back as `b`. -/
def Binary.reads (b : Binary) (c : Nat) (k : Int) : Bool :=
  let low := b.scaled (4 * b.mantissa - (if b.narrow then 1 else 2)) c k
  let high := b.scaled (4 * b.mantissa + 2) c k
  if b.mantissa % 2 = 0 then decide (low.1 ≤ low.2 ∧ high.2 ≤ high.1)
  else decide (low.1 < low.2 ∧ high.2 < high.1)

/-- The largest `c` with `c * 10 ^ k` at most `b`. -/
def Binary.floor (b : Binary) (k : Int) : Nat :=
  let (value, unit) := b.scaled (4 * b.mantissa) 1 k
  value / unit

/-- The power of ten of the first digit of `b`. -/
def Binary.magnitude (b : Binary) : Int := (Nat.toDigits 10 (b.floor (-400))).length - 401

/-- The nearer neighbour of `b` on the grid of multiples of `10 ^ k` that reads back as `b`. -/
def Binary.onGrid? (b : Binary) (k : Int) : Option Nat :=
  let c := b.floor k
  match b.reads c k, b.reads (c + 1) k with
  | true, true =>
    let (value, middle) := b.scaled (8 * b.mantissa) (2 * c + 1) k
    if value < middle ∨ (value = middle ∧ c % 2 = 0) then some c else some (c + 1)
  | true, false => some c
  | false, true => some (c + 1)
  | false, false => none

/-- Without zeros at the end. -/
def trim : Nat → Nat × Int → Nat × Int
  | 0, d => d
  | bound + 1, (digits, exponent) =>
    if digits % 10 = 0 then trim bound (digits / 10, exponent + 1) else (digits, exponent)

/-- The shortest decimal that reads back as `b`, as digits and exponent. -/
def Binary.shortest (b : Binary) : Nat × Int :=
  let found := (List.range 17).findSome? fun (n : Nat) =>
    let k := b.magnitude - n
    (b.onGrid? k).map fun c => (c, k)
  trim 20 (found.getD (0, 0))

/-- The shortest decimal that reads back as a finite double. -/
def ofFloat (x : Float) : Decimal :=
  let bits := x.toBits
  let negative := bits >>> 63 == 1
  let size := Binary.ofBits bits
  if size.mantissa = 0 then ⟨negative, 0, 0⟩
  else
    let (digits, exponent) := size.shortest
    ⟨negative, digits, exponent⟩

/-- The digits one by one; zero has none. -/
def digitList (d : Decimal) : List (Fin 10) :=
  if d.digits = 0 then []
  else (Nat.toDigits 10 d.digits).map Text.digitValue

/-- The number of digits before the point; below one when the first digit comes after it. -/
def pointPosition (d : Decimal) : Int := d.digitList.length + d.exponent

/-- The digits before the point when the number is written without an exponent. -/
def wholePart (d : Decimal) : List (Fin 10) :=
  let point := d.pointPosition.toNat
  (d.digitList ++ List.replicate (point - d.digitList.length) 0).take point

/-- The digits after the point when the number is written without an exponent. -/
def fractionPart (d : Decimal) : List (Fin 10) :=
  List.replicate (-d.pointPosition).toNat 0 ++ d.digitList.drop d.pointPosition.toNat

/-- The number that a list of digits stands for. -/
def ofDigitList (digits : List (Fin 10)) : Nat := digits.foldl (fun n d => n * 10 + d.val) 0

end Decimal

end AttributionReporting
