import AttributionReporting.Proofs.Json.Decode
import AttributionReporting.Proofs.Json.Print
import AttributionReporting.Proofs.Text.Numeral

/-!
# What is read as an unsigned number

As plain text an unsigned 64-bit number is any of its decimal numerals, leading zeros included
(`parseUnsigned_eq_ok_iff`). In JSON it is either the number, written in digits alone, or a string
that holds one of these numerals (`unsigned?_eq_some_iff`). So every number is read back from each
of its written forms, and no other number, text or document is read as one (`unsigned_exact`).
-/

namespace AttributionReporting

variable {v : UInt64}

namespace Json

theorem toUInt64?_eq_some_iff {i : Int} : toUInt64? i = some v ↔ i = v.toNat := by
  refine ⟨fun h => ?_, fun h => h ▸ toUInt64?_toNat v⟩
  unfold toUInt64? at h
  split_ifs at h with fits
  obtain ⟨nonneg, lt⟩ := fits
  have small : i.toNat < UInt64.size := by omega
  rw [← Option.some.inj h, UInt64.toNat_ofNat_of_lt' small]
  omega

/-- Only a number written in digits alone is read as a natural number. -/
theorem toInteger?_eq_natCast_iff {n : Number} {m : Nat} :
    n.toInteger? = some (m : Int) ↔ n = ⟨false, m, [], none⟩ ∧ m < UInt64.size := by
  obtain ⟨negative, whole, fraction, exponent⟩ := n
  unfold Number.toInteger? Number.isInteger
  cases negative <;> cases fraction <;> cases exponent <;> simp <;> omega

theorem uint64?_eq_some_iff {j : Json} :
    j.uint64? = some v ↔ j = .number ⟨false, v.toNat, [], none⟩ := by
  have below : v.toNat < UInt64.size := v.toNat_lt_size
  unfold uint64? integer?
  cases j with
  | number n =>
    simp [Option.bind_eq_some_iff, toUInt64?_eq_some_iff, toInteger?_eq_natCast_iff, below]
  | _ => simp

end Json

namespace Wire

variable {s : String} {j : Json}

/-- A document that stands for an unsigned number: the number in digits alone, or a string that
holds one of its decimal numerals. -/
inductive IsUnsigned (v : UInt64) : Json → Prop
  | number : IsUnsigned v (.number ⟨false, v.toNat, [], none⟩)
  | string {units : List Json.TextUnit} {s : String} (text : Json.decode? units = some s)
    (numeral : Text.IsNumeral 10 s.toList v.toNat) : IsUnsigned v (.string units)

/-! ## Text -/

theorem unsignedText?_eq_some_iff :
    unsignedText? s = some v ↔ Text.IsNumeral 10 s.toList v.toNat := by
  simp only [unsignedText?, Option.bind_eq_some_iff, Json.toUInt64?_eq_some_iff,
    Text.natural?_eq_some_iff, Int.natCast_inj, exists_eq_right]

theorem parseUnsigned_eq_ok_iff :
    parseUnsigned s = .ok v ↔ Text.IsNumeral 10 s.toList v.toNat := by
  rw [← unsignedText?_eq_some_iff, parseUnsigned]
  cases unsignedText? s <;> simp

/-- A text that is no numeral, or one of too large a number, is rejected by name. -/
theorem parseUnsigned_eq_error_iff :
    parseUnsigned s = .error (.unsignedLong s) ↔
      ∀ n < 2 ^ 64, ¬Text.IsNumeral 10 s.toList n := by
  have rejected : parseUnsigned s = .error (.unsignedLong s) ↔ ∀ v, parseUnsigned s ≠ .ok v := by
    unfold parseUnsigned
    cases unsignedText? s <;> simp
  simp only [rejected, ne_eq, parseUnsigned_eq_ok_iff]
  constructor
  · intro none n lt numeral
    refine none (UInt64.ofNat n) ?_
    rwa [UInt64.toNat_ofNat_of_lt' lt]
  · intro none v
    exact none v.toNat v.toNat_lt

/-! ## Documents -/

theorem unsigned?_eq_some_iff : unsigned? j = some v ↔ IsUnsigned v j := by
  cases j with
  | string units =>
    simp only [unsigned?, Json.string?, Option.bind_eq_some_iff, unsignedText?_eq_some_iff]
    constructor
    · rintro ⟨s, text, numeral⟩
      exact .string text numeral
    · intro h
      cases h with
      | string text numeral => exact ⟨_, text, numeral⟩
  | number n =>
    rw [unsigned?, Json.uint64?_eq_some_iff]
    · constructor
      · rintro ⟨⟩
        exact .number
      · rintro ⟨⟩
        rfl
    · simp
  | _ =>
    refine iff_of_false ?_ (by rintro ⟨⟩)
    simp [unsigned?, Json.uint64?_eq_some_iff]

/-- The number itself is what it is written as in text. -/
theorem render_integer (v : UInt64) : (Json.integer v.toNat).render = unsignedText v := by
  rw [Json.render, Json.print_integer, ← String.toList_inj, String.toList_ofList]
  exact Nat.toList_repr.symm

/-- A numeral between quotes is a string in JSON. -/
theorem parse?_quoted {n : Nat} (numeral : Text.IsNumeral 10 s.toList n) :
    Json.parse? ("\"" ++ s ++ "\"") = some (.text s) := by
  have quoted : "\"" ++ s ++ "\"" = (Json.text s).render := by
    rw [Json.render, Json.print_text_of_isDigit numeral.isDigit, ← String.toList_inj]
    simp
  rw [quoted, Json.parse?_render]

/-- A number given in JSON is read exactly when it is written in digits alone and fits in 64
bits. -/
theorem parseDocument_number_eq_error_iff {n : Json.Number} (h : Json.parse? s = some (.number n)) :
    parseDocument unsigned? s = .error .json ↔
      n.negative = true ∨ n.fraction ≠ [] ∨ n.exponent ≠ none ∨ 2 ^ 64 ≤ n.whole := by
  have rejected : parseDocument unsigned? s = .error .json ↔ ∀ v, ¬IsUnsigned v (.number n) := by
    simp only [← unsigned?_eq_some_iff, parseDocument, h, Option.bind_some]
    cases unsigned? (.number n) <;> simp
  rw [rejected]
  obtain ⟨negative, whole, fraction, exponent⟩ := n
  constructor
  · intro none
    by_contra fits
    simp only [not_or, Bool.not_eq_true, ne_eq, not_not, not_le] at fits
    obtain ⟨rfl, rfl, rfl, small⟩ := fits
    have stands := IsUnsigned.number (v := UInt64.ofNat whole)
    rw [UInt64.toNat_ofNat_of_lt' small] at stands
    exact none _ stands
  · intro wrong v stands
    cases stands
    have := v.toNat_lt
    simp at wrong
    omega

/-- Plain text is read as `v` when it is a decimal numeral of it, and rejected by name when it is
none of a number below `2 ^ 64`. Text and stored form of `v` are read back, and `v` in JSON is read
alike as a number and as any of its numerals in a string. A document is read as `v` only if it is
one of these; a number that is negative, has a fraction or an exponent, or is too large, is not
read. -/
theorem unsigned_exact (text document : String) (v : UInt64) :
    (parseUnsigned text = .ok v ↔ Text.IsNumeral 10 text.toList v.toNat) ∧
      (parseUnsigned text = .error (.unsignedLong text) ↔
        ∀ n < 2 ^ 64, ¬Text.IsNumeral 10 text.toList n) ∧
      parseUnsigned (unsignedText v) = .ok v ∧
      parseDocument unsigned? (unsignedToJson v).render = .ok v ∧
      parseDocument unsigned? (unsignedText v) = .ok v ∧
      (Text.IsNumeral 10 text.toList v.toNat →
        parseDocument unsigned? ("\"" ++ text ++ "\"") = .ok v) ∧
      (parseDocument unsigned? document = .ok v ↔
        ∃ j, Json.parse? document = some j ∧ IsUnsigned v j) ∧
      ∀ n, Json.parse? document = some (.number n) →
        (parseDocument unsigned? document = .error .json ↔
          n.negative = true ∨ n.fraction ≠ [] ∨ n.exponent ≠ none ∨ 2 ^ 64 ≤ n.whole) := by
  have read {s : String} {j : Json} (parsed : Json.parse? s = some j) (stands : IsUnsigned v j) :
      parseDocument unsigned? s = .ok v :=
    parseDocument_eq_ok_iff.2 ⟨j, parsed, unsigned?_eq_some_iff.2 stands⟩
  refine ⟨parseUnsigned_eq_ok_iff, parseUnsigned_eq_error_iff, ?_, ?_, ?_, ?_, ?_, ?_⟩
  · rw [parseUnsigned, unsignedText?_unsignedText]
  · exact parseDocument_eq_ok_iff.2 ⟨_, Json.parse?_render _, unsigned?_unsignedToJson v⟩
  · rw [← render_integer]
    exact read (Json.parse?_render _) (Json.integer_natCast v.toNat ▸ .number)
  · intro numeral
    exact read (parse?_quoted numeral) (.string (Json.decode?_unitsOf _) numeral)
  · simp only [parseDocument_eq_ok_iff, unsigned?_eq_some_iff]
  · exact fun n parsed => parseDocument_number_eq_error_iff parsed

/-- The digits of a string may be given as escapes. -/
example : parseDocument unsigned? "\"0\\u0037\"" = .ok 7 := by rfl

end Wire

end AttributionReporting
