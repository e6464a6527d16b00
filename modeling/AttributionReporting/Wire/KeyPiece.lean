import AttributionReporting.ParseError
import AttributionReporting.Text.Digits

/-!
# Aggregation key pieces

A key piece is a 128-bit number that sources and triggers contribute to a histogram bucket. It is
written in hexadecimal after `0x`: a nonempty text of at most 32 characters that may start with a
plus sign, which leaves no room for a number that does not fit.
-/

namespace AttributionReporting

/-- A 128-bit number that becomes part of a histogram bucket. -/
abbrev KeyPiece := BitVec 128

namespace Wire

/-- The number written after `0x`. -/
def keyPieceDigits? (cs : List Char) : Option Nat :=
  if cs.length ≤ 32 then
    match cs with
    | '+' :: digits => Text.hexNumber? digits
    | digits => Text.hexNumber? digits
  else none

/-- The number that a key piece is written as. -/
def keyPiece? (s : String) : Option KeyPiece :=
  match s.toList with
  | '0' :: 'x' :: digits => (keyPieceDigits? digits).map (BitVec.ofNat 128)
  | '0' :: 'X' :: digits => (keyPieceDigits? digits).map (BitVec.ofNat 128)
  | _ => none

/-- Reads a key piece. -/
def parseKeyPiece (s : String) : Except ParseError KeyPiece :=
  match keyPiece? s with
  | some piece => .ok piece
  | none => .error (.keyPiece s)

end Wire

end AttributionReporting
