import AttributionReporting.Json.Decode
import AttributionReporting.ParseError
import AttributionReporting.Text.Digits

/-!
# Integers in registrations

Registrations give integers as JSON numbers or as text. Unsigned 64-bit identifiers (event ids,
trigger data, dedup and debug keys) admit text of decimal digits alone and are always written as
text, so that readers with double precision keep all their digits. Priorities (`priority?`) and
values (`value?`) admit a sign in the text.
-/

namespace AttributionReporting.Wire

/-- The unsigned 64-bit number written in decimal digits alone. -/
def unsignedText? (s : String) : Option UInt64 :=
  (Text.natural? s.toList).bind fun n => Json.toUInt64? n

/-- Reads an unsigned 64-bit number from text. -/
def parseUnsigned (s : String) : Except ParseError UInt64 :=
  match unsignedText? s with
  | some n => .ok n
  | none => .error (.unsignedLong s)

/-- The text of an unsigned 64-bit number. -/
def unsignedText (n : UInt64) : String := toString n.toNat

/-- An unsigned 64-bit number, as a number or as text. -/
def unsigned? (j : Json) : Option UInt64 :=
  match j with
  | .string _ => j.string?.bind unsignedText?
  | _ => j.uint64?

/-- The form in which an unsigned 64-bit number is written. -/
def unsignedToJson (n : UInt64) : Json := .text (unsignedText n)

/-- A signed 64-bit priority, as a number or as text. -/
def priority? (j : Json) : Option Int :=
  match j with
  | .string _ => do
    let s ← j.string?
    let i ← Text.signed? s.toList
    Json.toSigned64? i
  | _ => j.signed64?

/-- An unsigned 64-bit value, as a number or as text that may start with a plus sign. -/
def value? (j : Json) : Option UInt64 :=
  match j with
  | .string _ => do
    let s ← j.string?
    let n ← Text.unsigned? s.toList
    Json.toUInt64? n
  | _ => j.uint64?

end AttributionReporting.Wire
