import AttributionReporting.Proofs.Text.Numeral
import AttributionReporting.Wire.KeyPiece

/-!
# What is read as a key piece

A key piece is written as `0x` or `0X` and up to 32 hexadecimal digits (`IsKeyPiece`). The reader
takes every such text for the number that its digits stand for; the only other texts it takes have a
plus sign before the digits (`IsSignedKeyPiece`). So it keeps to the digits alone exactly for the
texts without such a sign (`parseKeyPiece_exact_iff`).
-/

namespace AttributionReporting.Wire

variable {s : String} {cs : List Char} {n : Nat}

/-- The text is the prefix of a key piece followed by the given characters. -/
def IsPrefixed (s : String) (cs : List Char) : Prop :=
  s.toList = '0' :: 'x' :: cs ∨ s.toList = '0' :: 'X' :: cs

/-- The text is a key piece for `n`: between one and 32 hexadecimal digits after the prefix. -/
def IsKeyPiece (s : String) (n : Nat) : Prop :=
  ∃ digits, IsPrefixed s digits ∧ digits.length ≤ 32 ∧ Text.IsNumeral 16 digits n

/-- The text has a plus sign and up to 31 hexadecimal digits for `n` after the prefix. -/
def IsSignedKeyPiece (s : String) (n : Nat) : Prop :=
  ∃ digits, IsPrefixed s ('+' :: digits) ∧ digits.length ≤ 31 ∧ Text.IsNumeral 16 digits n

theorem IsPrefixed.inj {cs' : List Char} (h : IsPrefixed s cs) (h' : IsPrefixed s cs') :
    cs = cs' := by
  unfold IsPrefixed at h h'
  grind

theorem not_isNumeral_plus (digits : List Char) : ¬Text.IsNumeral 16 ('+' :: digits) n := by
  rintro ⟨-, values, spelled, -⟩
  obtain ⟨d, _, digit, -, -⟩ := List.forall₂_cons_left_iff.1 spelled
  have none : Text.hexDigit? '+' = none := by decide
  rw [← Text.hexDigit?_eq_some_iff, none] at digit
  cases digit

/-- What follows the prefix is read with or without a sign, which counts among the characters. -/
theorem keyPieceDigits?_eq_some_iff :
    keyPieceDigits? cs = some n ↔
      cs.length ≤ 32 ∧ (Text.IsNumeral 16 cs n ∨
        ∃ digits, cs = '+' :: digits ∧ Text.IsNumeral 16 digits n) := by
  unfold keyPieceDigits?
  split_ifs with short
  · split
    · next digits => simp only [short, Text.hexNumber?_eq_some_iff, not_isNumeral_plus, true_and,
        List.cons.injEq, false_or, exists_eq_left']
    · next unsigned =>
      have none : ¬∃ digits, cs = '+' :: digits ∧ Text.IsNumeral 16 digits n := by
        rintro ⟨digits, eq, -⟩
        exact unsigned digits eq
      simp only [short, none, Text.hexNumber?_eq_some_iff, true_and, or_false]
  · simp [short]

theorem keyPiece?_eq_some_iff {v : KeyPiece} :
    keyPiece? s = some v ↔
      ∃ cs n, IsPrefixed s cs ∧ keyPieceDigits? cs = some n ∧ v = BitVec.ofNat 128 n := by
  unfold keyPiece? IsPrefixed
  split
  · next cs eq =>
    rw [Option.map_eq_some_iff]
    simp [eq, eq_comm]
  · next cs eq =>
    rw [Option.map_eq_some_iff]
    simp [eq, eq_comm]
  · next lower upper =>
    simp only [false_iff, reduceCtorEq]
    rintro ⟨cs, n, eq | eq, -⟩
    · exact lower cs eq
    · exact upper cs eq

/-- The texts that are read, with the numbers they are read as. No number is cut off, since 32
digits stand for 128 bits at most. -/
theorem exists_parseKeyPiece_iff :
    (∃ v : KeyPiece, parseKeyPiece s = .ok v ∧ v.toNat = n) ↔
      IsKeyPiece s n ∨ IsSignedKeyPiece s n := by
  have ok (v : KeyPiece) : parseKeyPiece s = .ok v ↔ keyPiece? s = some v := by
    unfold parseKeyPiece
    cases keyPiece? s <;> simp
  have fits {digits : List Char} {m : Nat} (short : digits.length ≤ 32)
      (spelled : Text.IsNumeral 16 digits m) : (BitVec.ofNat 128 m).toNat = m := by
    rw [BitVec.toNat_ofNat]
    refine Nat.mod_eq_of_lt ((spelled.lt_pow (by decide)).trans_le ?_)
    exact Nat.pow_le_pow_right (n := 16) (by decide) short
  simp only [ok, keyPiece?_eq_some_iff, keyPieceDigits?_eq_some_iff]
  constructor
  · rintro ⟨v, ⟨cs, m, after, ⟨short, spelled | ⟨digits, rfl, spelled⟩⟩, rfl⟩, rfl⟩
    · rw [fits short spelled]
      exact .inl ⟨cs, after, short, spelled⟩
    · rw [List.length_cons] at short
      rw [fits (by omega) spelled]
      exact .inr ⟨digits, after, by omega, spelled⟩
  · rintro (⟨digits, after, short, spelled⟩ | ⟨digits, after, short, spelled⟩)
    · exact ⟨_, ⟨digits, n, after, ⟨short, .inl spelled⟩, rfl⟩, fits short spelled⟩
    · have short' : ('+' :: digits).length ≤ 32 := by rw [List.length_cons]; omega
      exact ⟨_, ⟨_, n, after, ⟨short', .inr ⟨digits, rfl, spelled⟩⟩, rfl⟩, fits (by omega) spelled⟩

/-- Every other text is rejected by name. -/
theorem parseKeyPiece_eq_error_iff :
    parseKeyPiece s = .error (.keyPiece s) ↔
      ∀ n, ¬∃ v : KeyPiece, parseKeyPiece s = .ok v ∧ v.toNat = n := by
  unfold parseKeyPiece
  cases keyPiece? s <;> simp

/-- A text is read as a key piece or as a signed one, and rejected by name when it is neither. So
the reader accepts just the key pieces, each for the number of its digits, and rejects all other
texts exactly where no plus sign stands before the digits. -/
theorem parseKeyPiece_exact_iff (s : String) :
    (∀ n, (∃ v : KeyPiece, parseKeyPiece s = .ok v ∧ v.toNat = n) ↔
        IsKeyPiece s n ∨ IsSignedKeyPiece s n) ∧
      (parseKeyPiece s = .error (.keyPiece s) ↔ ∀ n, ¬IsKeyPiece s n ∧ ¬IsSignedKeyPiece s n) ∧
      (((∀ n, (∃ v : KeyPiece, parseKeyPiece s = .ok v ∧ v.toNat = n) ↔ IsKeyPiece s n) ∧
          (parseKeyPiece s = .error (.keyPiece s) ↔ ∀ n, ¬IsKeyPiece s n)) ↔
        ∀ n, ¬IsSignedKeyPiece s n) := by
  simp only [parseKeyPiece_eq_error_iff, exists_parseKeyPiece_iff, not_or, implies_true, true_and]
  constructor
  · rintro ⟨reads, -⟩ n signed
    obtain ⟨digits, after, -, spelled⟩ := (reads n).1 (.inr signed)
    obtain ⟨_, sign, -, -⟩ := signed
    rw [after.inj sign] at spelled
    exact not_isNumeral_plus _ spelled
  · intro unsigned
    simp only [unsigned, or_false, not_false_eq_true, and_true, implies_true]

/-- A sign before the digits is accepted, though the text is no key piece. -/
theorem signed_keyPiece_accepted :
    parseKeyPiece "0x+1" = .ok 1 ∧ ∀ n, ¬IsKeyPiece "0x+1" n := by
  refine ⟨by rfl, ?_⟩
  rintro n ⟨digits, after, -, spelled⟩
  have sign : IsPrefixed "0x+1" ['+', '1'] := .inl (by decide)
  rw [after.inj sign] at spelled
  exact not_isNumeral_plus _ spelled

end AttributionReporting.Wire
