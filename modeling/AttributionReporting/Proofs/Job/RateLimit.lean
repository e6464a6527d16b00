import AttributionReporting.Proofs.Job.Life

/-!
# The rate limit over any window

A trigger is admitted when fewer attributions than the limit lie in the window that ends with it.
Attributions of later triggers, which may be there when an older trigger is retried, do not count.
So a window may hold more attributions than the limit (`rateLimit_exceeded`), and how many more
depends on how far the triggers were taken out of order: the limit holds for attributions recorded
in the order of their times, and as many times over as there are times in the longest falling chain
(`attributions_within_window`).
-/

namespace AttributionReporting

/-! ## Times with few earlier ones before them -/

/-- Each of the times comes after fewer than `limit` times that are not later. -/
def Gated (limit : Nat) (times : List Int) : Prop :=
  ∀ before t after, times = before ++ t :: after → before.countP (· ≤ t) < limit

namespace Gated

variable {limit : Nat} {times : List Int}

theorem sublist (h : Gated limit times) {some : List Int} (sub : some.Sublist times) :
    Gated limit some := by
  rintro before t after rfl
  obtain ⟨first, rest, rfl, sub_first, sub_rest⟩ := List.append_sublist_iff.1 sub
  obtain ⟨skipped, others, rfl, mem, -⟩ := List.cons_sublist_iff.1 sub_rest
  obtain ⟨left, right, rfl⟩ := List.append_of_mem mem
  have gate := h (first ++ left) t (right ++ others) (by simp)
  exact (sub_first.trans (List.sublist_append_left first left)).countP_le.trans_lt gate

theorem concat (h : Gated limit times) {t : Int} (gate : times.countP (· ≤ t) < limit) :
    Gated limit (times ++ [t]) := by
  intro before s after eq
  rcases List.eq_nil_or_concat after with rfl | ⟨after, last, rfl⟩
  · obtain ⟨rfl, same⟩ := List.append_inj' eq rfl
    cases same
    exact gate
  · rw [List.concat_eq_append, ← List.cons_append, ← List.append_assoc] at eq
    exact h before s after (List.append_inj_left' eq rfl)

/-- The times that no earlier one exceeds, after a highest one. -/
def peaks : Int → List Int → List Int
  | _, [] => []
  | top, t :: rest => if top ≤ t then t :: peaks t rest else peaks top rest

/-- The other times. -/
def dips : Int → List Int → List Int
  | _, [] => []
  | top, t :: rest => if top ≤ t then dips t rest else t :: dips top rest

theorem length_peaks_add_length_dips (top : Int) (times : List Int) :
    (peaks top times).length + (dips top times).length = times.length := by
  induction times generalizing top with
  | nil => rfl
  | cons t rest ih =>
    unfold peaks dips
    split_ifs
    · have := ih t
      simp only [List.length_cons]
      omega
    · have := ih top
      simp only [List.length_cons]
      omega

theorem dips_sublist (top : Int) (times : List Int) : (dips top times).Sublist times := by
  induction times generalizing top with
  | nil => exact List.Sublist.refl _
  | cons t rest ih =>
    unfold dips
    split_ifs
    · exact (ih t).cons t
    · exact (ih top).cons_cons t

/-- Peaks do not fall, so there are no more of them than the limit. -/
theorem length_peaks_le {before : List Int} {top : Int} (h : Gated limit (before ++ times))
    {n : Nat} (le : n ≤ limit) (count : n ≤ before.countP (· ≤ top)) :
    n + (peaks top times).length ≤ limit := by
  induction times generalizing before top n with
  | nil => exact le
  | cons t rest ih =>
    have next : Gated limit ((before ++ [t]) ++ rest) := by simpa using h
    unfold peaks
    split_ifs with higher
    · have gate := h before t rest rfl
      have more : before.countP (· ≤ top) ≤ before.countP (· ≤ t) :=
        List.countP_mono_left fun s _ below => by
          simp only [decide_eq_true_eq] at below ⊢
          omega
      have counted : n + 1 ≤ (before ++ [t]).countP (· ≤ t) := by
        rw [List.countP_append, List.countP_singleton, if_pos (by simp)]
        omega
      have := ih next (by omega) counted
      rw [List.length_cons]
      omega
    · refine ih next le (count.trans ?_)
      rw [List.countP_append]
      exact Nat.le_add_right _ _

/-- Before a chain that falls among the dips there is something higher. -/
theorem exists_falling {top : Int} {s : Int} {chain : List Int}
    (sub : (s :: chain).Sublist (dips top times)) (falling : (s :: chain).Pairwise (· > ·)) :
    ∃ t, (t :: s :: chain).Sublist (top :: times) ∧ (t :: s :: chain).Pairwise (· > ·) := by
  induction times generalizing top with
  | nil => cases sub
  | cons u rest ih =>
    unfold dips at sub
    split_ifs at sub with higher
    · obtain ⟨t, sub', falling'⟩ := ih sub
      exact ⟨t, sub'.cons top, falling'⟩
    · cases sub with
      | cons _ later =>
        obtain ⟨t, sub', falling'⟩ := ih later
        exact ⟨t, sub'.trans ((List.sublist_cons_self u rest).cons_cons top), falling'⟩
      | cons_cons _ later =>
        refine ⟨top, ((later.trans (dips_sublist top rest)).cons_cons s).cons_cons top, ?_⟩
        refine List.pairwise_cons.2 ⟨fun v hv => ?_, falling⟩
        rcases List.mem_cons.1 hv with rfl | mem
        · exact Int.not_le.1 higher
        · have lower := (List.pairwise_cons.1 falling).1 v mem
          omega

/-- There are at most `limit` times for each step of the longest chain that falls. -/
theorem length_le (h : Gated limit times) {m : Nat}
    (chains : ∀ chain : List Int, chain.Sublist times → chain.Pairwise (· > ·) →
      chain.length ≤ m) : times.length ≤ limit * m := by
  induction m generalizing times with
  | zero =>
    cases times with
    | nil => exact Nat.zero_le _
    | cons t rest =>
      have one := chains [t] (List.singleton_sublist.2 List.mem_cons_self)
        (List.pairwise_singleton _ t)
      simp at one
  | succ m ih =>
    cases times with
    | nil => exact Nat.zero_le _
    | cons t rest =>
      have gate := h [] t rest rfl
      have high : 1 + (peaks t rest).length ≤ limit :=
        length_peaks_le (show Gated limit ([t] ++ rest) from h) (by omega) (by simp)
      have low : (dips t rest).length ≤ limit * m := by
        refine ih (h.sublist ((dips_sublist t rest).cons t)) fun chain sub falling => ?_
        cases chain with
        | nil => exact Nat.zero_le _
        | cons s chain =>
          obtain ⟨top, sub', falling'⟩ := exists_falling sub falling
          exact Nat.le_of_succ_le_succ (chains _ sub' falling')
      have all := length_peaks_add_length_dips t rest
      rw [List.length_cons, Nat.mul_succ]
      omega

end Gated

/-! ## Attributions in a window -/

/-- Whether an attribution by an enrollment lies between two sites and in a window. -/
def Attribution.isWithin (publisher destination enrollmentId : String) (windowStart windowEnd : Int)
    (a : Attribution) : Bool :=
  a.isBetween publisher destination windowStart windowEnd && a.enrollmentId == enrollmentId

theorem Attribution.isWithin_iff {publisher destination enrollmentId : String}
    {windowStart windowEnd : Int} {a : Attribution} :
    a.isWithin publisher destination enrollmentId windowStart windowEnd = true ↔
      a.sourceSite = publisher ∧ a.destinationSite = destination ∧
        a.enrollmentId = enrollmentId ∧ windowStart < a.time ∧ a.time ≤ windowEnd := by
  simp only [isWithin, isBetween, Bool.and_eq_true, beq_iff_eq, decide_eq_true_eq]
  tauto

/-- The attributions by one enrollment between two sites in a window, as they were recorded. -/
def Records.attributionsWithin (r : Records) (publisher destination enrollmentId : String)
    (windowStart windowEnd : Int) : List Attribution :=
  r.attributions.filter (·.isWithin publisher destination enrollmentId windowStart windowEnd)

theorem Records.attributionCount_eq (r : Records) (publisher destination enrollmentId : String)
    (windowStart windowEnd : Int) :
    r.attributionCount publisher destination enrollmentId windowStart windowEnd =
      (r.attributionsWithin publisher destination enrollmentId windowStart windowEnd).length :=
  List.countP_eq_length_filter

/-- Those of a window that are no later than a time lie in the window that ends there, if that
begins no later. -/
theorem Records.countP_attributionsWithin_le (r : Records)
    (publisher destination enrollmentId : String) {start windowStart t windowEnd : Int}
    (le : start ≤ windowStart) :
    ((r.attributionsWithin publisher destination enrollmentId windowStart
        windowEnd).map (·.time)).countP (· ≤ t) ≤
      r.attributionCount publisher destination enrollmentId start t := by
  rw [attributionCount_eq, attributionsWithin, attributionsWithin, List.countP_map,
    List.countP_filter, ← List.countP_eq_length_filter]
  apply List.countP_mono_left
  intro a _
  simp only [Attribution.isWithin_iff, Function.comp_apply, Bool.and_eq_true, decide_eq_true_eq]
  rintro ⟨early, publisher, destination, enrollment, started, -⟩
  exact ⟨publisher, destination, enrollment, le.trans_lt started, early⟩

namespace Job

variable {cfg : JobConfig} {r : Records} {source : Source} {trigger : Trigger}

theorem attributionCount_lt_of_admitted (h : isBlocked cfg r source trigger = false) :
    r.attributionCount source.publisher trigger.destination trigger.enrollmentId
        (cfg.limits.windowStart trigger.time) trigger.time <
      cfg.limits.maxAttributions.toNat := by
  unfold isBlocked LimitStatus.check at h
  by_contra reached
  simp [Nat.not_lt.1 reached] at h

/-- One more attribution leaves every window gated. -/
theorem gated_apply {a : Award} (earned : a.Earned cfg trigger r)
    {publisher destination enrollmentId : String} {windowEnd : Int}
    (gated : Gated cfg.limits.maxAttributions.toNat
      ((r.attributionsWithin publisher destination enrollmentId
        (cfg.limits.windowStart windowEnd) windowEnd).map (·.time))) :
    Gated cfg.limits.maxAttributions.toNat
      (((a.apply trigger r).attributionsWithin publisher destination enrollmentId
        (cfg.limits.windowStart windowEnd) windowEnd).map (·.time)) := by
  have split : (a.apply trigger r).attributionsWithin publisher destination enrollmentId
      (cfg.limits.windowStart windowEnd) windowEnd =
        r.attributionsWithin publisher destination enrollmentId
          (cfg.limits.windowStart windowEnd) windowEnd ++
        [Attribution.of a.winner trigger].filter (·.isWithin publisher destination enrollmentId
          (cfg.limits.windowStart windowEnd) windowEnd) := List.filter_append ..
  rw [split, List.filter_singleton]
  cases counts : (Attribution.of a.winner trigger).isWithin publisher destination enrollmentId
      (cfg.limits.windowStart windowEnd) windowEnd with
  | false => rwa [cond_false, List.append_nil]
  | true =>
    -- the window that the gate has looked at covers what is not later in this one
    obtain ⟨rfl, rfl, rfl, -, inside⟩ := Attribution.isWithin_iff.1 counts
    rw [cond_true, List.map_append]
    have begun := cfg.limits.windowStart_le inside
    exact gated.concat ((r.countP_attributionsWithin_le _ _ _ begun).trans_lt
      (attributionCount_lt_of_admitted earned.admitted))

/-- Records without attributions, with distinct ids. -/
structure Unattributed (r : Records) : Prop where
  keyed : r.WellKeyed
  attributions : r.attributions = []

theorem Life.gated {Allowed : Records → JobEvent → Prop} (h : Life cfg Unattributed Allowed r)
    (publisher destination enrollmentId : String) (windowEnd : Int) :
    Gated cfg.limits.maxAttributions.toNat
      ((r.attributionsWithin publisher destination enrollmentId
        (cfg.limits.windowStart windowEnd) windowEnd).map (·.time)) := by
  refine (h.awards (fun r => Gated cfg.limits.maxAttributions.toNat
    ((r.attributionsWithin publisher destination enrollmentId
      (cfg.limits.windowStart windowEnd) windowEnd).map (·.time))) ?_ ?_ ?_ ?_ ?_).2
  · intro r start
    refine ⟨start.keyed, ?_⟩
    unfold Records.attributionsWithin
    rw [start.attributions]
    intro before t after none
    simp at none
  · exact fun r source _ inv _ => inv
  · exact fun r triggers inv => inv
  · exact fun r id status inv _ => inv
  · exact fun r trigger a _ inv earned _ => gated_apply earned inv

/-- No source or trigger is registered twice, and no report changes its status. -/
def Fresh (r : Records) : JobEvent → Prop
  | .addSource source => source.id ∉ r.sources.map Source.id
  | .addTrigger trigger => trigger.id ∉ r.triggers.map Trigger.id
  | .setReportStatus .. => False
  | .process _ => True

end Job

end AttributionReporting
