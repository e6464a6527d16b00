/-!
# Random delays

Aggregate reports wait for a random time between two bounds. A `Draws` is the list of 64-bit numbers
that a generator still has to give; when it is used up, zeros follow. `uniform` takes numbers from
it until one falls into the part that is divided evenly among the outcomes, so that every outcome
has the same share.
-/

namespace AttributionReporting

/-- The numbers that a generator still has to give. -/
abbrev Draws := List UInt64

namespace Draws

/-- The largest multiple of `range` by a power of two that fits in 64 bits, less one. -/
def zone (range : Nat) : Nat := range <<< (64 - (Nat.log2 range + 1)) - 1

/-- The outcome among `range` that a number stands for, unless the number has to be drawn again. -/
def outcome? (range : Nat) (draw : UInt64) : Option Nat :=
  let product := draw.toNat * range
  if product % UInt64.size ≤ zone range then some (product / UInt64.size) else none

/-- A number below `range`, which is positive, and the numbers left after it. -/
def uniform (range : Nat) : Draws → Nat × Draws
  | [] => (0, [])
  | draw :: rest =>
    match outcome? range draw with
    | some n => (n, rest)
    | none => uniform range rest

/-- A number from `least` on and below `limit`; when there is none, `least` without a draw. -/
def between (least limit : Int) (draws : Draws) : Int × Draws :=
  if least < limit then
    let (n, draws) := uniform (limit - least).toNat draws
    (least + n, draws)
  else (least, draws)

end Draws

end AttributionReporting
