import AttributionReporting.Json.RoundTrip
import Mathlib.Data.List.Forall2
import Mathlib.Data.Nat.Digits.Defs

/-!
# Numerals

A numeral is a nonempty row of digits, the one of the highest place first; where the base has
letters among its digits they may be of either case (`IsNumeral`). Whatever its base, a numeral is
read digit by digit (`foldlM_eq_some_iff`), so the decimal and the hexadecimal reader accept the
numerals of their base and nothing else (`natural?_eq_some_iff`, `hexNumber?_eq_some_iff`). The
decimal numerals of a number differ in their leading zeros only (`isNumeral_ten_iff`), and one of
them has none (`isCanonical_iff`).
-/

namespace AttributionReporting.Text

variable {base n d : Nat} {c : Char} {cs : List Char}

/-- The character of a digit, a letter in either case. -/
def IsDigit (base : Nat) (c : Char) (d : Nat) : Prop :=
  d < base ∧ (c = d.digitChar ∨ c = d.digitChar.toUpper)

/-- The characters are a numeral for `n`. -/
def IsNumeral (base : Nat) (cs : List Char) (n : Nat) : Prop :=
  cs ≠ [] ∧ ∃ digits, List.Forall₂ (IsDigit base) cs digits ∧ n = Nat.ofDigits base digits.reverse

theorem IsNumeral.lt_pow (h : IsNumeral base cs n) (two : 1 < base) : n < base ^ cs.length := by
  obtain ⟨-, digits, spelled, rfl⟩ := h
  have below : ∀ d ∈ digits.reverse, d < base := by
    intro d mem
    induction spelled with
    | nil => simp at mem
    | cons first _ ih =>
      rw [List.reverse_cons, List.mem_append, List.mem_singleton] at mem
      rcases mem with later | rfl
      · exact ih later
      · exact first.1
  have := Nat.ofDigits_lt_base_pow_length two below
  rwa [List.length_reverse, ← spelled.length_eq] at this

/-! ## Digits -/

theorem hexDigit?_eq_some_iff : hexDigit? c = some d ↔ IsDigit 16 c d := by
  constructor
  · intro h
    have lower : ∀ d < 16, d.digitChar.toNat = if d < 10 then 48 + d else 87 + d := by decide
    have upper : ∀ d < 16, d.digitChar.toUpper.toNat = if d < 10 then 48 + d else 55 + d := by
      decide
    have lt := hexDigit?_lt h
    refine ⟨lt, ?_⟩
    rw [← Char.toNat_inj, ← Char.toNat_inj, lower d lt, upper d lt]
    simp only [hexDigit?, Char.le_def, UInt32.le_iff_toNat_le] at h
    change (if 48 ≤ c.toNat ∧ c.toNat ≤ 57 then some (c.toNat - 48)
      else if 97 ≤ c.toNat ∧ c.toNat ≤ 102 then some (c.toNat - 97 + 10)
      else if 65 ≤ c.toNat ∧ c.toNat ≤ 70 then some (c.toNat - 65 + 10) else none) = some d at h
    split_ifs at h
    all_goals
      have value := Option.some.inj h
      split_ifs <;> omega
  · have lower : ∀ d < 16, hexDigit? d.digitChar = some d := by decide
    have upper : ∀ d < 16, hexDigit? d.digitChar.toUpper = some d := by decide
    rintro ⟨lt, rfl | rfl⟩
    · exact lower d lt
    · exact upper d lt

theorem digitChar_of_isDigit (h : c.isDigit = true) :
    c.toNat - '0'.toNat < 10 ∧ (c.toNat - '0'.toNat).digitChar = c := by
  have range : 48 ≤ c.toNat ∧ c.toNat ≤ 57 := Char.isDigit_iff_toNat.1 h
  have lt : c.toNat - 48 < 10 := by omega
  refine ⟨lt, Char.toNat_inj.1 ?_⟩
  change (c.toNat - 48).digitChar.toNat = c.toNat
  rw [Nat.toNat_digitChar_of_lt_ten lt]
  omega

/-- The value of a decimal digit, if the character is one. -/
def decimalDigit? (c : Char) : Option Nat := if c.isDigit then some (c.toNat - '0'.toNat) else none

theorem decimalDigit?_eq_some_iff : decimalDigit? c = some d ↔ IsDigit 10 c d := by
  constructor
  · intro h
    unfold decimalDigit? at h
    split_ifs at h with digit
    obtain ⟨lt, char⟩ := digitChar_of_isDigit digit
    rw [Option.some.inj h] at lt char
    exact ⟨lt, .inl char.symm⟩
  · have lower : ∀ d < 10, decimalDigit? d.digitChar = some d := by decide
    have upper : ∀ d < 10, decimalDigit? d.digitChar.toUpper = some d := by decide
    rintro ⟨lt, rfl | rfl⟩
    · exact lower d lt
    · exact upper d lt

/-! ## Readers -/

/-- Reading digit by digit appends the digits to those of the number to start with. -/
theorem foldlM_eq_some_iff {digit? : Char → Option Nat}
    (reads : ∀ {c d}, digit? c = some d ↔ IsDigit base c d) {start : Nat} :
    cs.foldlM (fun n c => (digit? c).map fun d => base * n + d) start = some n ↔
      ∃ digits, List.Forall₂ (IsDigit base) cs digits ∧
        n = Nat.ofDigits base digits.reverse + base ^ cs.length * start := by
  induction cs generalizing start with
  | nil => simp [eq_comm]
  | cons c cs ih =>
    simp only [List.foldlM_cons, Option.bind_eq_bind, Option.bind_eq_some_iff,
      Option.map_eq_some_iff, reads, ih, List.forall₂_cons_left_iff]
    constructor
    · rintro ⟨_, ⟨d, digit, rfl⟩, digits, spelled, rfl⟩
      refine ⟨d :: digits, ⟨d, digits, digit, spelled, rfl⟩, ?_⟩
      rw [Nat.ofDigits_reverse_cons, ← spelled.length_eq, List.length_cons]
      ring
    · rintro ⟨_, ⟨d, digits, digit, spelled, rfl⟩, rfl⟩
      refine ⟨_, ⟨d, digit, rfl⟩, digits, spelled, ?_⟩
      rw [Nat.ofDigits_reverse_cons, ← spelled.length_eq, List.length_cons]
      ring

/-- Reading from zero gives the value of the digits. -/
theorem foldlM_zero_eq_some_iff {digit? : Char → Option Nat}
    (reads : ∀ {c d}, digit? c = some d ↔ IsDigit base c d) :
    cs.foldlM (fun n c => (digit? c).map fun d => base * n + d) 0 = some n ↔
      ∃ digits, List.Forall₂ (IsDigit base) cs digits ∧ n = Nat.ofDigits base digits.reverse := by
  simp only [foldlM_eq_some_iff reads, Nat.mul_zero, Nat.add_zero]

theorem foldlM_decimalDigit? (cs : List Char) (start : Nat) :
    cs.foldlM (fun n c => (decimalDigit? c).map fun d => 10 * n + d) start =
      if cs.all Char.isDigit then some (Nat.ofDigitChars 10 cs start) else none := by
  induction cs generalizing start with
  | nil => rfl
  | cons c cs ih =>
    rw [List.foldlM_cons, List.all_cons, Nat.ofDigitChars_cons, decimalDigit?]
    by_cases digit : c.isDigit = true
    · rw [if_pos digit, Option.map_some, digit, Bool.true_and, ← ih]
      rfl
    · rw [if_neg digit, Option.map_none, Bool.eq_false_iff.2 digit, Bool.false_and]
      rfl

/-- The decimal reader accepts decimal numerals, with their value. -/
theorem natural?_eq_some_iff : natural? cs = some n ↔ IsNumeral 10 cs n := by
  rw [IsNumeral, ← foldlM_zero_eq_some_iff decimalDigit?_eq_some_iff, foldlM_decimalDigit?,
    natural?]
  by_cases empty : cs = []
  · simp [empty]
  · simp [empty]

theorem IsNumeral.isDigit (h : IsNumeral 10 cs n) : ∀ c ∈ cs, c.isDigit = true := by
  rw [← natural?_eq_some_iff, natural?] at h
  split_ifs at h with spelled
  exact List.all_eq_true.1 spelled.2

/-- The hexadecimal reader accepts hexadecimal numerals, with their value. -/
theorem hexNumber?_eq_some_iff : hexNumber? cs = some n ↔ IsNumeral 16 cs n := by
  rw [IsNumeral, ← foldlM_zero_eq_some_iff hexDigit?_eq_some_iff, hexNumber?]
  by_cases empty : cs = []
  · simp [empty]
  · simp [empty]

/-! ## Decimal numerals -/

/-- Digits that follow the numeral of a number other than zero go on that numeral. -/
theorem toDigits_append_of_isDigit {start : Nat} (pos : 0 < start)
    (digits : ∀ c ∈ cs, c.isDigit = true) :
    Nat.toDigits 10 start ++ cs = Nat.toDigits 10 (Nat.ofDigitChars 10 cs start) := by
  induction cs generalizing start with
  | nil => rw [List.append_nil, Nat.ofDigitChars_nil]
  | cons c cs ih =>
    obtain ⟨first, rest⟩ := List.forall_mem_cons.1 digits
    obtain ⟨lt, char⟩ := digitChar_of_isDigit first
    have next := Nat.toDigits_append_toDigits (b := 10) (by decide) pos lt
    rw [Nat.toDigits_of_lt_base lt, char] at next
    calc Nat.toDigits 10 start ++ c :: cs
        = (Nat.toDigits 10 start ++ [c]) ++ cs := by rw [List.append_assoc, List.singleton_append]
      _ = Nat.toDigits 10 (Nat.ofDigitChars 10 (c :: cs) start) := by
          rw [next, ih (by omega) rest, Nat.ofDigitChars_cons]

/-- A row of decimal digits is some zeros followed by what its value is printed as. -/
theorem exists_zeros_append_toDigits (nonempty : cs ≠ []) (digits : ∀ c ∈ cs, c.isDigit = true) :
    ∃ zeros, cs = List.replicate zeros '0' ++ Nat.toDigits 10 (Nat.ofDigitChars 10 cs 0) := by
  induction cs with
  | nil => exact absurd rfl nonempty
  | cons c cs ih =>
    obtain ⟨first, rest⟩ := List.forall_mem_cons.1 digits
    by_cases zero : c = '0'
    · subst zero
      by_cases last : cs = []
      · subst last
        exact ⟨0, by decide⟩
      · obtain ⟨zeros, eq⟩ := ih last rest
        refine ⟨zeros + 1, ?_⟩
        rw [List.replicate_succ, List.cons_append]
        exact congrArg _ eq
    · obtain ⟨lt, char⟩ := digitChar_of_isDigit first
      have pos : 0 < c.toNat - '0'.toNat := by
        rw [Nat.pos_iff_ne_zero]
        intro none
        rw [none] at char
        exact zero char.symm
      refine ⟨0, ?_⟩
      rw [List.replicate_zero, List.nil_append, Nat.ofDigitChars_cons, Nat.mul_zero, Nat.zero_add,
        ← toDigits_append_of_isDigit pos rest, Nat.toDigits_of_lt_base lt, char,
        List.singleton_append]

/-- The decimal numerals of a number are what it is printed as, after any number of zeros. -/
theorem isNumeral_ten_iff :
    IsNumeral 10 cs n ↔ ∃ zeros, cs = List.replicate zeros '0' ++ Nat.toDigits 10 n := by
  rw [← natural?_eq_some_iff, natural?]
  constructor
  · intro h
    split_ifs at h with spelled
    obtain ⟨nonempty, digits⟩ := spelled
    rw [← Option.some.inj h]
    exact exists_zeros_append_toDigits nonempty (List.all_eq_true.1 digits)
  · rintro ⟨zeros, rfl⟩
    have nonempty : List.replicate zeros '0' ++ Nat.toDigits 10 n ≠ [] :=
      List.append_ne_nil_of_right_ne_nil _ Nat.toDigits_ne_nil
    have digits : (List.replicate zeros '0' ++ Nat.toDigits 10 n).all Char.isDigit = true := by
      rw [List.all_append, Bool.and_eq_true]
      exact ⟨by simp, List.all_eq_true.2 Json.isDigit_toDigits⟩
    rw [if_pos ⟨nonempty, digits⟩, Nat.ofDigitChars_append, Nat.ofDigitChars_replicate_zero,
      Nat.mul_zero, Nat.ofDigitChars_toDigits (by decide) (by decide)]

/-- The characters are the decimal numeral for `n` without leading zeros. -/
def IsCanonical (cs : List Char) (n : Nat) : Prop :=
  IsNumeral 10 cs n ∧ (cs.head? = some '0' → cs = ['0'])

theorem isCanonical_iff : IsCanonical cs n ↔ cs = Nat.toDigits 10 n := by
  rw [IsCanonical, isNumeral_ten_iff]
  constructor
  · rintro ⟨⟨zeros, rfl⟩, canonical⟩
    cases zeros with
    | zero => rfl
    | succ zeros =>
      have single := canonical rfl
      simp [List.replicate_succ, Nat.toDigits_ne_nil] at single
  · rintro rfl
    refine ⟨⟨0, rfl⟩, fun zero => ?_⟩
    by_cases h : n = 0
    · rw [h, Nat.toDigits_zero]
    · exact absurd zero (Json.head?_toDigits_ne_zero h)

end AttributionReporting.Text
