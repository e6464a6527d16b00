/-!
# Digits

The digits of the decimal and hexadecimal systems as characters. `natural?` reads a number written
in decimal digits alone, with any number of leading zeros; `hexDigit?` gives the value of one
hexadecimal digit and `hexNumber?` that of a row of them.
-/

namespace AttributionReporting.Text

/-- The value of a decimal digit. -/
def digitValue (c : Char) : Fin 10 := ⟨(c.toNat - '0'.toNat) % 10, Nat.mod_lt _ (by decide)⟩

/-- The number that a nonempty row of decimal digits stands for. -/
def natural? (cs : List Char) : Option Nat :=
  if cs ≠ [] ∧ cs.all Char.isDigit then some (Nat.ofDigitChars 10 cs 0) else none

/-- The number that a row of decimal digits with an optional plus sign stands for. -/
def unsigned? : List Char → Option Nat
  | '+' :: cs => natural? cs
  | cs => natural? cs

/-- The number that a row of decimal digits with an optional sign stands for. -/
def signed? : List Char → Option Int
  | '-' :: cs => (natural? cs).map fun n => -(n : Int)
  | '+' :: cs => (natural? cs).map fun n => (n : Int)
  | cs => (natural? cs).map fun n => (n : Int)

/-- The value of a hexadecimal digit in either case. -/
def hexDigit? (c : Char) : Option Nat :=
  if '0' ≤ c ∧ c ≤ '9' then some (c.toNat - '0'.toNat)
  else if 'a' ≤ c ∧ c ≤ 'f' then some (c.toNat - 'a'.toNat + 10)
  else if 'A' ≤ c ∧ c ≤ 'F' then some (c.toNat - 'A'.toNat + 10)
  else none

/-- The number that a nonempty row of hexadecimal digits stands for. -/
def hexNumber? (cs : List Char) : Option Nat :=
  if cs = [] then none
  else cs.foldlM (fun n c => (hexDigit? c).map fun d => 16 * n + d) 0

theorem hexDigit?_lt {c : Char} {d : Nat} (h : hexDigit? c = some d) : d < 16 := by
  simp only [hexDigit?, Char.le_def, UInt32.le_iff_toNat_le, Char.toNat] at h
  split at h
  · next digit =>
    have := digit.2
    have : d = c.val.toNat - 48 := by simpa using h.symm
    change c.val.toNat ≤ 57 at *
    omega
  · split at h
    · next lower =>
      have := lower.2
      have : d = c.val.toNat - 97 + 10 := by simpa using h.symm
      change c.val.toNat ≤ 102 at *
      omega
    · split at h
      · next upper =>
        have := upper.2
        have : d = c.val.toNat - 65 + 10 := by simpa using h.symm
        change c.val.toNat ≤ 70 at *
        omega
      · simp at h

end AttributionReporting.Text
