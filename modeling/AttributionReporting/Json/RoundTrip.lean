import AttributionReporting.Json.Printer
import AttributionReporting.Json.Reader

/-!
# Reading what was written

The reader takes back exactly what the printer writes: `parse?_render` for whole documents, and
`read?_print` before any text that does not go on a number. So a text has at most one document that
is written as it (`render_inj`). The proof goes up from the parts: the units of a string, the three
parts of a number, and then, for the number of steps that the reader may still take, documents
together with the items of arrays and the members of objects (`reads`).
-/

namespace AttributionReporting.Json

open Text

/-! ## Strings -/

theorem skipBlank_cons {c : Char} {cs : List Char} (h : isBlank c = false) :
    skipBlank (c :: cs) = c :: cs := by simp [skipBlank, h]

theorem hexDigit?_digitChar : ∀ n < 16, hexDigit? n.digitChar = some n := by decide

theorem hexUnit?_hexDigits4 {n : Nat} (h : n < 65536) :
    hexUnit? (n / 4096 % 16).digitChar (n / 256 % 16).digitChar (n / 16 % 16).digitChar
      (n % 16).digitChar = some (unitOfCode n) := by
  have digit (m : Nat) : hexDigit? (m % 16).digitChar = some (m % 16) :=
    hexDigit?_digitChar _ (Nat.mod_lt _ (by decide))
  simp only [hexUnit?, digit, Option.bind_eq_bind, Option.bind_some]
  congr 2
  omega

theorem readUnits_hex (n : Nat) (h : n < 65536) (rest : List Char) :
    readUnits ('\\' :: 'u' :: hexDigits4 n ++ rest) =
      (readUnits rest).map fun (units, rest) => (unitOfCode n :: units, rest) := by
  simp only [hexDigits4, List.cons_append, List.nil_append, readUnits, hexUnit?_hexDigits4 h]
  cases readUnits rest <;> rfl

theorem readUnits_printUnit (u : TextUnit) (rest : List Char) :
    readUnits (printUnit u ++ rest) =
      (readUnits rest).map fun (units, rest) => (u :: units, rest) := by
  cases u with
  | char c =>
    simp only [printUnit, escapeChar]
    iterate 7
      split
      · next h => subst h; simp [readUnits, escapedChar?]; cases readUnits rest <;> rfl
    split
    · next h =>
      have lt : c.toNat < 32 := UInt32.lt_iff_toNat_lt.1 (Char.lt_def.1 h)
      rw [readUnits_hex _ (by omega)]
      have : unitOfCode c.toNat = .char c := by
        rw [unitOfCode, if_pos (by omega), Char.ofNat_toNat]
      rw [this]
    · next _ h2 _ _ _ _ _ h8 =>
      simp [readUnits, h2, h8]
      cases readUnits rest <;> rfl
  | high x =>
    have := x.isLt
    rw [printUnit, readUnits_hex _ (by omega)]
    have : unitOfCode (55296 + x.val) = .high x := by
      rw [unitOfCode, if_neg (by omega), if_pos (by omega)]
      exact congrArg _ (Fin.ext (by show (55296 + x.val - 0xD800) % 1024 = x.val; omega))
    rw [this]
  | low x =>
    have := x.isLt
    rw [printUnit, readUnits_hex _ (by omega)]
    have : unitOfCode (56320 + x.val) = .low x := by
      rw [unitOfCode, if_neg (by omega), if_neg (by omega), if_pos (by omega)]
      exact congrArg _ (Fin.ext (by show (56320 + x.val - 0xDC00) % 1024 = x.val; omega))
    rw [this]

theorem readUnits_printUnits (units : List TextUnit) (rest : List Char) :
    readUnits (units.flatMap printUnit ++ '"' :: rest) = some (units, rest) := by
  induction units with
  | nil => simp [readUnits]
  | cons u units ih => simp [readUnits_printUnit, ih]

/-! ## Numbers -/

/-- A text is empty or starts with a character that `p` holds of. -/
def StartsWith (p : Char → Bool) (rest : List Char) : Prop := ∀ c ∈ rest.head?, p c = true

theorem takeWhile_isDigit_append {ds rest : List Char} (hd : ∀ c ∈ ds, c.isDigit = true)
    (hr : StartsWith (fun c => !c.isDigit) rest) :
    (ds ++ rest).takeWhile Char.isDigit = ds ∧ (ds ++ rest).dropWhile Char.isDigit = rest := by
  rw [List.takeWhile_append_of_pos hd, List.dropWhile_append_of_pos hd]
  cases rest with
  | nil => simp
  | cons c rest =>
    have : c.isDigit = false := by simpa [StartsWith] using hr
    simp [this]

theorem readDigits_append {ds rest : List Char} (hne : ds ≠ []) (hd : ∀ c ∈ ds, c.isDigit = true)
    (hr : StartsWith (fun c => !c.isDigit) rest) :
    readDigits (ds ++ rest) = some (ds, rest) := by
  obtain ⟨take, drop⟩ := takeWhile_isDigit_append hd hr
  rw [readDigits, take, drop]
  cases ds with
  | nil => exact absurd rfl hne
  | cons d ds => rfl

theorem isDigit_toDigits {n : Nat} : ∀ c ∈ Nat.toDigits 10 n, c.isDigit = true :=
  fun _ h => Nat.isDigit_of_mem_toDigits (by decide) (by decide) h

theorem head?_toDigits_ne_zero {n : Nat} (h : n ≠ 0) : (Nat.toDigits 10 n).head? ≠ some '0' := by
  induction n using Nat.strongRecOn with
  | ind n ih =>
    rw [Nat.toDigits_eq_if (by decide)]
    split
    · next lt =>
      have : ∀ m < 10, m ≠ 0 → [m.digitChar].head? ≠ some '0' := by decide
      exact this n lt h
    · next ge =>
      have := ih (n / 10) (by omega) (by omega)
      rw [List.head?_append]
      cases hd : (Nat.toDigits 10 (n / 10)).head? with
      | none =>
        have := List.head?_eq_none_iff.1 hd
        exact absurd this Nat.toDigits_ne_nil
      | some c => simpa [hd] using this

theorem toDigits_append_ne_cons {n : Nat} {c : Char} (h : c.isDigit = false) (rest r : List Char) :
    Nat.toDigits 10 n ++ rest ≠ c :: r := by
  intro eq
  cases ds : Nat.toDigits 10 n with
  | nil => exact Nat.toDigits_ne_nil ds
  | cons d ds' =>
    rw [ds] at eq
    have := isDigit_toDigits d (by rw [ds]; exact List.mem_cons_self)
    rw [(List.cons.inj eq).1, h] at this
    exact absurd this (by decide)

theorem readWhole_toDigits (n : Nat) {rest : List Char}
    (hr : StartsWith (fun c => !c.isDigit) rest) :
    readWhole (Nat.toDigits 10 n ++ rest) = some (n, rest) := by
  by_cases h : n = 0
  · subst h; rfl
  · have ne : ∀ r, Nat.toDigits 10 n ++ rest = '0' :: r → False := by
      intro r eq
      have head := head?_toDigits_ne_zero h
      cases ds : Nat.toDigits 10 n with
      | nil => exact Nat.toDigits_ne_nil ds
      | cons d ds' =>
        rw [ds] at head eq
        simp at head eq
        exact head eq.1
    rw [readWhole.eq_2 _ ne, readDigits_append Nat.toDigits_ne_nil isDigit_toDigits hr]
    simp [Nat.ofDigitChars_toDigits]

theorem digitValue_digitChar : ∀ d : Fin 10, digitValue d.val.digitChar = d := by decide

theorem readFraction_printFraction (digits : List (Fin 10)) {rest : List Char}
    (hr : StartsWith (fun c => !c.isDigit && c != '.') rest) :
    readFraction (printFraction digits ++ rest) = some (digits, rest) := by
  cases digits with
  | nil =>
    have ne : ∀ r, rest = '.' :: r → False := by
      intro r eq; subst eq; simp [StartsWith] at hr
    simp [printFraction, readFraction.eq_2 _ ne]
  | cons d ds =>
    simp only [printFraction, List.cons_append, readFraction]
    rw [readDigits_append (by simp) (by simp) (by
      intro c hc; have := hr c hc; simp at this ⊢; exact this.1)]
    simp [digitValue_digitChar, Function.comp_def]

theorem readPower_nat (n : Nat) {rest : List Char} (hr : StartsWith (fun c => !c.isDigit) rest) :
    readPower (Nat.toDigits 10 n ++ rest) = some ((n : Int), rest) := by
  have minus : ∀ r, Nat.toDigits 10 n ++ rest = '-' :: r → False :=
    fun r => toDigits_append_ne_cons rfl rest r
  have plus : ∀ r, Nat.toDigits 10 n ++ rest = '+' :: r → False :=
    fun r => toDigits_append_ne_cons rfl rest r
  rw [readPower.eq_3 _ minus plus, readDigits_append Nat.toDigits_ne_nil isDigit_toDigits hr]
  simp [Nat.ofDigitChars_toDigits]

theorem readExponent_printExponent (power : Option Int) {rest : List Char}
    (hr : StartsWith (fun c => !c.isDigit && c != 'e' && c != 'E') rest) :
    readExponent (printExponent power ++ rest) = some (power, rest) := by
  have hr' : StartsWith (fun c => !c.isDigit) rest := by
    intro c hc; have := hr c hc; simp at this ⊢; exact this.1.1
  cases power with
  | none =>
    have small : ∀ r, rest = 'e' :: r → False := by
      intro r eq; subst eq; simp [StartsWith] at hr
    have large : ∀ r, rest = 'E' :: r → False := by
      intro r eq; subst eq; simp [StartsWith] at hr
    simp [printExponent, readExponent.eq_3 _ small large]
  | some power =>
    simp only [printExponent, List.cons_append, readExponent]
    split
    · next neg =>
      simp only [List.cons_append, List.nil_append, readPower]
      rw [readDigits_append Nat.toDigits_ne_nil isDigit_toDigits hr']
      have : -(power.natAbs : Int) = power := by omega
      simp only [Option.map_some, this, Nat.ofDigitChars_toDigits (by decide : 10 > 1) (by decide)]
    · next nonneg =>
      have : (power.natAbs : Int) = power := by omega
      rw [List.nil_append, readPower_nat _ hr', this]
      rfl

/-- What may follow a number: not a digit, a point or an exponent. -/
def EndsNumber (rest : List Char) : Prop :=
  StartsWith (fun c => !c.isDigit && c != '.' && c != 'e' && c != 'E') rest

theorem StartsWith.mono {p q : Char → Bool} {rest : List Char} (h : StartsWith p rest)
    (hpq : ∀ c, p c = true → q c = true) : StartsWith q rest := fun c hc => hpq c (h c hc)

theorem startsWith_printExponent {p : Char → Bool} (power : Option Int) {rest : List Char}
    (hp : p 'e' = true) (hr : StartsWith p rest) : StartsWith p (printExponent power ++ rest) := by
  cases power with
  | none => simpa [printExponent] using hr
  | some power => simpa [printExponent, StartsWith] using hp

theorem startsWith_printFraction {p : Char → Bool} (digits : List (Fin 10)) {rest : List Char}
    (hp : p '.' = true) (hr : StartsWith p rest) : StartsWith p (printFraction digits ++ rest) := by
  cases digits with
  | nil => simpa [printFraction] using hr
  | cons d digits => simpa [printFraction, StartsWith] using hp

theorem readMagnitude_append (n : Number) {rest : List Char} (hr : EndsNumber rest) :
    readMagnitude n.negative
        (Nat.toDigits 10 n.whole ++
          (printFraction n.fraction ++ (printExponent n.exponent ++ rest))) =
      some (n, rest) := by
  have digit : StartsWith (fun c => !c.isDigit) rest := hr.mono fun c => by simp +contextual
  have point : StartsWith (fun c => !c.isDigit && c != '.') rest :=
    hr.mono fun c => by simp +contextual
  have power : StartsWith (fun c => !c.isDigit && c != 'e' && c != 'E') rest :=
    hr.mono fun c => by simp +contextual
  rw [readMagnitude, readWhole_toDigits _ (startsWith_printFraction _ rfl
    (startsWith_printExponent _ rfl digit))]
  simp only [Option.bind_eq_bind, Option.bind_some]
  rw [readFraction_printFraction _ (startsWith_printExponent _ rfl point)]
  simp only [Option.bind_some]
  rw [readExponent_printExponent _ power]
  rfl

theorem readNumber_printNumber (n : Number) {rest : List Char} (hr : EndsNumber rest) :
    readNumber (printNumber n ++ rest) = some (n, rest) := by
  have read := readMagnitude_append n hr
  cases h : n.negative with
  | true => simpa [printNumber, h, readNumber] using read
  | false =>
    have minus : ∀ r, Nat.toDigits 10 n.whole ++ (printFraction n.fraction ++
        (printExponent n.exponent ++ rest)) = '-' :: r → False :=
      fun r => toDigits_append_ne_cons rfl _ r
    rw [h] at read
    simpa [printNumber, h, readNumber.eq_2 _ minus] using read

/-! ## Documents -/

theorem head?_printNumber (n : Number) :
    ∃ c cs, printNumber n = c :: cs ∧ (c = '-' ∨ c.isDigit = true) := by
  cases h : n.negative with
  | true => exact ⟨'-', _, by rw [printNumber, h]; rfl, .inl rfl⟩
  | false =>
    cases ds : Nat.toDigits 10 n.whole with
    | nil => exact absurd ds Nat.toDigits_ne_nil
    | cons d ds' =>
      have mem : d ∈ Nat.toDigits 10 n.whole := by simp [ds]
      exact ⟨d, _, by rw [printNumber, h, ds]; rfl, .inr (isDigit_toDigits d mem)⟩

theorem isBlank_eq_false_of_number {c : Char} (h : c = '-' ∨ c.isDigit = true) :
    isBlank c = false := by
  rcases h with rfl | digit
  · rfl
  · simp only [isBlank, Bool.or_eq_false_iff, beq_eq_false_iff_ne]
    refine ⟨⟨⟨?_, ?_⟩, ?_⟩, ?_⟩ <;> (rintro rfl; exact absurd digit (by decide))

theorem readValue_printNumber (n : Number) {rest : List Char} (hr : EndsNumber rest) (bound : Nat) :
    readValue (bound + 1) (printNumber n ++ rest) = some (.number n, rest) := by
  have read := readNumber_printNumber n hr
  obtain ⟨c, cs, eq, head⟩ := head?_printNumber n
  rw [eq] at read ⊢
  rw [readValue, List.cons_append, skipBlank_cons (isBlank_eq_false_of_number head)]
  rw [List.cons_append] at read
  have other : ∀ d : Char, d ≠ '-' → d.isDigit = false → c ≠ d := by
    rintro d minus digit rfl
    rcases head with rfl | h
    · exact minus rfl
    · simp [digit] at h
  split
  case h_7 => rw [read]; rfl
  all_goals next eq =>
    simp only [List.cons.injEq] at eq
    exact absurd eq.1 (other _ (by decide) (by decide))

/-- A document starts with a character that is no blank and closes nothing. -/
theorem head?_print (j : Json) :
    ∃ c cs, print j = c :: cs ∧ isBlank c = false ∧ c ≠ ']' := by
  cases j with
  | null => exact ⟨_, _, by rw [print], rfl, by decide⟩
  | bool b => cases b <;> exact ⟨_, _, by rw [print], rfl, by decide⟩
  | string units => exact ⟨_, _, by rw [print, printUnits]; rfl, rfl, by decide⟩
  | array items => exact ⟨_, _, by rw [print]; rfl, rfl, by decide⟩
  | object members => exact ⟨_, _, by rw [print]; rfl, rfl, by decide⟩
  | number n =>
    obtain ⟨c, cs, eq, head⟩ := head?_printNumber n
    refine ⟨c, cs, by rw [print, eq], isBlank_eq_false_of_number head, ?_⟩
    rintro rfl
    rcases head with h | h <;> exact absurd h (by decide)

theorem readValue_string (units : List TextUnit) (rest : List Char) (bound : Nat) :
    readValue (bound + 1) (printUnits units ++ rest) = some (.string units, rest) := by
  simp only [printUnits, List.cons_append, List.append_assoc, readValue]
  rw [skipBlank_cons rfl]
  simp [readUnits_printUnits]

theorem endsNumber_cons {c : Char} (rest : List Char)
    (h : (!c.isDigit && c != '.' && c != 'e' && c != 'E') = true) : EndsNumber (c :: rest) := by
  simpa [EndsNumber, StartsWith] using h

theorem head?_printItems {items : List Json} (hne : items ≠ []) :
    ∃ c cs, printItems items = c :: cs ∧ isBlank c = false ∧ c ≠ ']' := by
  match items with
  | [] => exact absurd rfl hne
  | [item] => exact printItems.eq_2 item ▸ head?_print item
  | item :: next :: items =>
    obtain ⟨c, cs, eq, h⟩ := head?_print item
    exact ⟨c, cs ++ ',' :: printItems (next :: items), by simp [printItems, eq], h⟩

theorem head?_printMembers {members : List (List TextUnit × Json)} (hne : members ≠ []) :
    ∃ cs, printMembers members = '"' :: cs := by
  match members with
  | [] => exact absurd rfl hne
  | [(name, value)] => exact ⟨_, by rw [printMembers, printUnits]; rfl⟩
  | (name, value) :: next :: members => exact ⟨_, by simp only [printMembers, printUnits]; rfl⟩

/-- Documents are taken back in `bound` steps when they are short enough. -/
def ReadsValues (bound : Nat) : Prop :=
  ∀ (j : Json) (rest : List Char), 2 * (print j).length ≤ bound → EndsNumber rest →
    readValue bound (print j ++ rest) = some (j, rest)

/-- Items of arrays are taken back in `bound` steps when they are short enough. -/
def ReadsItems (bound : Nat) : Prop :=
  ∀ (items : List Json) (rest : List Char), items ≠ [] → 2 * (printItems items).length + 1 ≤ bound →
    readItems bound (printItems items ++ ']' :: rest) = some (items, rest)

/-- Members of objects are taken back in `bound` steps when they are short enough. -/
def ReadsMembers (bound : Nat) : Prop :=
  ∀ (members : List (List TextUnit × Json)) (rest : List Char), members ≠ [] →
    2 * (printMembers members).length + 1 ≤ bound →
      readMembers bound (printMembers members ++ '}' :: rest) = some (members, rest)

theorem readsValues_succ {bound : Nat} (readsItems : ReadsItems bound)
    (readsMembers : ReadsMembers bound) : ReadsValues (bound + 1) := by
  intro j rest hb hr
  match j with
  | .null => rw [print]; rfl
  | .bool true => rw [print]; rfl
  | .bool false => rw [print]; rfl
  | .number n => rw [print]; exact readValue_printNumber n hr bound
  | .string units => rw [print]; exact readValue_string units rest bound
  | .array [] => rw [print, printItems]; rfl
  | .object [] => rw [print, printMembers]; rfl
  | .array (item :: items) =>
    have hne : item :: items ≠ [] := by simp
    simp only [print, List.length_cons, List.length_append, List.length_nil] at hb
    have read := readsItems _ rest hne (by omega)
    obtain ⟨c, cs, eq, blank, close⟩ := head?_printItems hne
    simp only [print, List.cons_append, List.append_assoc, List.nil_append]
    rw [eq, List.cons_append] at read ⊢
    rw [readValue, skipBlank_cons rfl]
    simp only [skipBlank_cons blank]
    split
    · next h => exact absurd (List.cons.inj h).1 close
    · rw [read]; rfl
  | .object (member :: members) =>
    have hne : member :: members ≠ [] := by simp
    simp only [print, List.length_cons, List.length_append, List.length_nil] at hb
    have read := readsMembers _ rest hne (by omega)
    obtain ⟨cs, eq⟩ := head?_printMembers hne
    simp only [print, List.cons_append, List.append_assoc, List.nil_append]
    rw [eq, List.cons_append] at read ⊢
    rw [readValue, skipBlank_cons rfl]
    simp only [skipBlank_cons (c := '"') rfl]
    split
    · next h => exact absurd (List.cons.inj h).1 (by decide)
    · rw [read]; rfl

theorem readsItems_succ {bound : Nat} (readsValues : ReadsValues bound)
    (readsItems : ReadsItems bound) : ReadsItems (bound + 1) := by
  intro items rest hne hb
  match items with
  | [] => exact absurd rfl hne
  | [item] =>
    rw [printItems] at hb ⊢
    rw [readItems, readsValues item _ (by omega) (endsNumber_cons _ rfl)]
    rfl
  | item :: next :: items =>
    rw [printItems.eq_3 _ _ (by simp)] at hb ⊢
    simp only [List.length_append, List.length_cons] at hb
    rw [List.append_assoc, List.cons_append, readItems,
      readsValues item _ (by omega) (endsNumber_cons _ rfl)]
    simp only [Option.bind_eq_bind, Option.bind_some, skipBlank_cons (c := ',') rfl]
    rw [readsItems _ rest (by simp) (by omega)]
    rfl

theorem readsMembers_succ {bound : Nat} (readsValues : ReadsValues bound)
    (readsMembers : ReadsMembers bound) : ReadsMembers (bound + 1) := by
  intro members rest hne hb
  match members with
  | [] => exact absurd rfl hne
  | [(name, value)] =>
    simp only [printMembers, printUnits, List.length_append, List.length_cons] at hb
    simp only [printMembers, printUnits, List.append_assoc, List.cons_append, List.nil_append]
    rw [readMembers, skipBlank_cons rfl]
    simp only [readUnits_printUnits, Option.bind_eq_bind, Option.bind_some,
      skipBlank_cons (c := ':') rfl]
    rw [readsValues value _ (by omega) (endsNumber_cons _ rfl)]
    rfl
  | (name, value) :: next :: members =>
    rw [printMembers.eq_3 _ _ _ (by simp)] at hb ⊢
    simp only [printUnits, List.length_append, List.length_cons] at hb
    simp only [printUnits, List.append_assoc, List.cons_append, List.nil_append]
    rw [readMembers, skipBlank_cons rfl]
    simp only [readUnits_printUnits, Option.bind_eq_bind, Option.bind_some,
      skipBlank_cons (c := ':') rfl]
    rw [readsValues value _ (by omega) (endsNumber_cons _ rfl)]
    simp only [Option.bind_some, skipBlank_cons (c := ',') rfl]
    rw [readsMembers _ rest (by simp) (by omega)]
    rfl

theorem reads (bound : Nat) : ReadsValues bound ∧ ReadsItems bound ∧ ReadsMembers bound := by
  induction bound with
  | zero =>
    refine ⟨fun j rest hb _ => ?_, fun _ _ _ hb => by omega, fun _ _ _ hb => by omega⟩
    obtain ⟨c, cs, eq, -⟩ := head?_print j
    simp [eq] at hb
  | succ bound ih =>
    obtain ⟨values, items, members⟩ := ih
    exact ⟨readsValues_succ items members, readsItems_succ values items,
      readsMembers_succ values members⟩

/-- The reader takes back what the printer writes, before any text that does not go on a number. -/
theorem read?_print (j : Json) {rest : List Char} (hr : EndsNumber rest) :
    read? (print j ++ rest) = some (j, rest) :=
  (reads _).1 j rest (by rw [List.length_append]; omega) hr

/-- A document is read back from its text, and nothing follows it. -/
theorem read?_render (j : Json) : read? (render j).toList = some (j, []) := by
  have ends : EndsNumber [] := by simp [EndsNumber, StartsWith]
  have h := read?_print j ends
  rw [List.append_nil] at h
  simp [render, h]

/-- A document is read back from its text. -/
theorem parse?_render (j : Json) : parse? (render j) = some j := by
  simp [parse?, read?_render]

/-- Different documents have different texts. -/
theorem render_inj {a b : Json} (h : render a = render b) : a = b := by
  have := parse?_render a
  rw [h, parse?_render] at this
  exact (Option.some.inj this).symm

end AttributionReporting.Json
