import AttributionReporting.Store.Backend

/-!
# Failing on purpose

A `Countdown` says how many more calls of some kinds go on before all later ones fail, which shows
how a program copes with a store that breaks down in the middle of its work.
-/

namespace AttributionReporting

/-- The number of calls left for each kind that is armed. -/
abbrev Countdown := List (CallKind × Nat)

namespace Countdown

/-- Lets `calls` more calls of a kind go on. -/
def arm (kind : CallKind) (calls : Nat) (c : Countdown) : Countdown :=
  (kind, calls) :: c.filter (·.1 != kind)

/-- Lets a call go on unless its kind has none left. -/
def gate : Backend.Gate Countdown := fun kind c =>
  match c.lookup kind with
  | none => (true, c)
  | some 0 => (false, c)
  | some (n + 1) => (true, arm kind n c)

end Countdown

end AttributionReporting
