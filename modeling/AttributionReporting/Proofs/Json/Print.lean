import AttributionReporting.Json.RoundTrip
import Mathlib.Data.List.Basic

/-!
# What written documents look like

A text of digits is written between quotes as it is, a natural number as its decimal digits, an
array as its items with commas between them, and a record of two fields as both of them after their
names.
-/

namespace AttributionReporting.Json

/-! ## Text -/

theorem text_inj {s s' : String} : text s = text s' ↔ s = s' := by
  refine ⟨fun h => ?_, fun h => h ▸ rfl⟩
  have decoded := congrArg decode? (Json.string.inj h)
  rw [decode?_unitsOf, decode?_unitsOf] at decoded
  exact Option.some.inj decoded

/-- A digit needs no escape. -/
theorem escapeChar_of_isDigit {c : Char} (digit : c.isDigit = true) : escapeChar c = [c] := by
  have other (d : Char) (h : d.isDigit = false) : c ≠ d := by
    rintro rfl
    rw [digit] at h
    cases h
  have range : 48 ≤ c.toNat ∧ c.toNat ≤ 57 := Char.isDigit_iff_toNat.1 digit
  have visible : ¬c < ' ' := by
    rw [Char.lt_def, UInt32.lt_iff_toNat_lt]
    change ¬c.toNat < 32
    omega
  simp [escapeChar, other '"' rfl, other '\\' rfl, other '\x08' rfl, other '\x0c' rfl,
    other '\n' rfl, other '\r' rfl, other '\t' rfl, visible]

theorem print_text_of_isDigit {s : String} (digits : ∀ c ∈ s.toList, c.isDigit = true) :
    print (text s) = '"' :: s.toList ++ ['"'] := by
  have plain : s.toList.flatMap escapeChar = s.toList := by
    rw [List.flatMap_congr fun c mem => escapeChar_of_isDigit (digits c mem)]
    exact List.flatMap_singleton' _
  rw [text, print, printUnits, unitsOf, List.flatMap_map]
  exact congrArg (fun cs => '"' :: cs ++ ['"']) plain

/-! ## Numbers -/

theorem integer_natCast (n : Nat) : integer n = .number ⟨false, n, [], none⟩ := by
  have nonneg : ¬(n : Int) < 0 := by omega
  rw [integer, decide_eq_false nonneg, Int.natAbs_natCast]

theorem integer_natCast_inj {n m : Nat} : integer n = integer m ↔ n = m := by
  simp [integer_natCast]

theorem print_integer (n : Nat) : print (integer n) = Nat.toDigits 10 n := by
  simp [integer_natCast, print, printNumber, printFraction, printExponent]

/-! ## Structured data -/

theorem printItems_eq_intercalate (items : List Json) :
    printItems items = [','].intercalate (items.map print) := by
  match items with
  | [] => rfl
  | [item] => simp [printItems]
  | item :: next :: items =>
    rw [printItems.eq_3 _ _ (by simp), printItems_eq_intercalate (next :: items)]
    simp

theorem print_record_pair (name name' : String) (j j' : Json) :
    print (record [(name, j), (name', j')]) =
      '\x7b' :: print (text name) ++ ':' :: print j ++ ',' :: print (text name') ++
        ':' :: print j' ++ ['\x7d'] := by
  simp [record, text, print, printMembers]

end AttributionReporting.Json
