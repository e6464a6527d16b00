/-!
# Time

Points in time are milliseconds since the epoch and durations are milliseconds, both plain `Int` and
both stored in 64 bits. `Fits` says that 64 bits hold a number, and `wrap` is what they keep of one
that they do not hold. Where every sum of times fits it is the same in 64 bits (`wrap_of_fits`); a
definition that adds up times exactly has a counterpart that wraps each sum, and a theorem that says
which sums have to fit for the two to agree.

`minutes`, `hours` and `days` give the length of so many of each, and `roundDownToDay` gives the
start of the UTC day that holds a point in time. The first day that 64 bits reach starts before what
they hold. All the same two points round to one start exactly when they fall in the same day
(`roundDownToDay_eq_iff`).
-/

namespace AttributionReporting.Time

/-! ## 64 bits -/

/-- Whether 64 bits hold `t`. -/
def Fits (t : Int) : Prop := -0x8000000000000000 ≤ t ∧ t < 0x8000000000000000

instance (t : Int) : Decidable (Fits t) := inferInstanceAs (Decidable (_ ∧ _))

/-- What 64 bits keep of `t`. -/
def wrap (t : Int) : Int := (t + 0x8000000000000000) % 0x10000000000000000 - 0x8000000000000000

theorem wrap_eq_toInt (t : Int) : wrap t = (Int64.ofInt t).toInt := by
  rw [wrap, Int64.toInt_ofInt, Int.bmod_def]
  simp only [Int64.size]
  omega

theorem fits_wrap (t : Int) : Fits (wrap t) := by
  unfold Fits wrap
  omega

theorem wrap_of_fits {t : Int} (fits : Fits t) : wrap t = t := by
  unfold Fits at fits
  unfold wrap
  omega

theorem wrap_eq_wrap_iff {s t : Int} : wrap s = wrap t ↔ 0x10000000000000000 ∣ s - t := by
  rw [wrap, wrap, Int.sub_left_inj, Int.emod_eq_emod_iff_emod_sub_eq_zero,
    Int.add_sub_add_right, Int.dvd_iff_emod_eq_zero]

/-- Of two numbers less than two rounds of 64 bits apart, 64 bits keep the same only if they are
equal or one round apart. -/
theorem eq_or_of_wrap_eq {s t : Int} (below : s - t < 0x20000000000000000)
    (above : t - s < 0x20000000000000000) (same : wrap s = wrap t) :
    s = t ∨ s - t = 0x10000000000000000 ∨ t - s = 0x10000000000000000 := by
  obtain ⟨k, apart⟩ := wrap_eq_wrap_iff.1 same
  obtain rfl | rfl | rfl : k = 0 ∨ k = 1 ∨ k = -1 := by omega
  all_goals omega

/-! ## Durations and days -/

/-- The length of one day. -/
def day : Int := 24 * 60 * 60 * 1000

/-- The length of `n` minutes. -/
def minutes (n : Int) : Int := n * (60 * 1000)

/-- The length of `n` hours. -/
def hours (n : Int) : Int := n * (60 * 60 * 1000)

/-- The length of `n` days. -/
def days (n : Int) : Int := n * day

/-- The number of the UTC day that holds `t`, day zero starting at the epoch. -/
def dayOf (t : Int) : Int := t / day

/-- The start of the UTC day that holds `t`, also for times before the epoch. -/
def roundDownToDay (t : Int) : Int := wrap (days (dayOf t))

section

variable {s t : Int}

/-- A point rounds to the start of its day, unless its day is the first that 64 bits reach. -/
theorem roundDownToDay_of_le (fits : Fits t) (le : days (-106751991167) ≤ t) :
    roundDownToDay t = days (dayOf t) := by
  unfold roundDownToDay
  rw [wrap_of_fits]
  unfold Fits days dayOf day at *
  omega

theorem roundDownToDay_le (fits : Fits t) (le : days (-106751991167) ≤ t) :
    roundDownToDay t ≤ t := by
  rw [roundDownToDay_of_le fits le]
  unfold days dayOf day
  omega

theorem lt_roundDownToDay_add_day (fits : Fits t) (le : days (-106751991167) ≤ t) :
    t < roundDownToDay t + day := by
  rw [roundDownToDay_of_le fits le]
  unfold days dayOf day
  omega

theorem days_sub_days_lt (hs : Fits s) (ht : Fits t) :
    days (dayOf s) - days (dayOf t) < 0x20000000000000000 := by
  unfold Fits at hs ht
  unfold days dayOf day
  omega

/-- Two points round to the same start exactly when they fall in the same day. -/
theorem roundDownToDay_eq_iff (hs : Fits s) (ht : Fits t) :
    roundDownToDay s = roundDownToDay t ↔ dayOf s = dayOf t := by
  unfold roundDownToDay
  refine ⟨fun same => ?_, fun same => by rw [same]⟩
  have cases := eq_or_of_wrap_eq (days_sub_days_lt hs ht) (days_sub_days_lt ht hs) same
  -- a round of 64 bits is no whole number of days
  unfold days day at cases
  omega

end

end AttributionReporting.Time
