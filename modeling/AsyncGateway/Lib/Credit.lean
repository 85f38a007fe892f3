import Mathlib.Algebra.Order.Field.Basic
import Mathlib.Tactic.Linarith
import Mathlib.Tactic.Ring

/-!
# Library — credit that refills at a rate

A bucket of tokens that refills at a constant rate up to a burst, and demands that are met where
what is in it covers their cost.  Whatever the demands, those that are met cost no more than what
was in it and what was refilled (`spent_le`), so no more than the burst and the rate over any time
(`spent_le_burst`, and `spentWithin_le` for a time within a longer run).
-/

namespace Credit

variable {K : Type}

/-- What was left in the bucket, and when. -/
structure Bucket (K : Type) where
  tokens : K
  ts : K

structure Demand (K : Type) where
  time : K
  cost : K

/-- The demands come in order, none before `start` and none after `stop`. -/
def Ordered [LE K] (start stop : K) : List (Demand K) → Prop
  | [] => start ≤ stop
  | d :: ds => start ≤ d.time ∧ Ordered d.time stop ds

variable [Field K] [LinearOrder K] (rate burst : K)

/-- What is in the bucket at a time. -/
def level (b : Bucket K) (now : K) : K := min burst (b.tokens + max 0 (now - b.ts) * rate)

/-- Whether a demand is met, and the bucket after it. -/
def meet (d : Demand K) (b : Bucket K) : Bool × Bucket K :=
  if d.cost ≤ level rate burst b d.time then
    (true, ⟨level rate burst b d.time - d.cost, d.time⟩)
  else (false, ⟨level rate burst b d.time, d.time⟩)

/-- The cost of a demand that is met. -/
def charge (d : Demand K) (met : Bool) : K := if met then d.cost else 0

/-- The cost of the demands that are met. -/
def spent : List (Demand K) → Bucket K → K
  | [], _ => 0
  | d :: ds, b =>
      charge d (meet rate burst d b).1 + spent ds (meet rate burst d b).2

/-- The cost of the demands that are met at times from `lo` to `hi`. -/
def spentWithin (lo hi : K) : List (Demand K) → Bucket K → K
  | [], _ => 0
  | d :: ds, b =>
      (if lo ≤ d.time ∧ d.time ≤ hi then charge d (meet rate burst d b).1 else 0) +
        spentWithin lo hi ds (meet rate burst d b).2

variable {rate burst} {start stop now lo hi : K} {d : Demand K} {ds : List (Demand K)}
  {b : Bucket K}

theorem level_le_burst : level rate burst b now ≤ burst := min_le_left _ _

/-- What a bucket has at its own time is what was left in it. -/
theorem level_ts_le : level rate burst b b.ts ≤ b.tokens := by
  rw [level, sub_self, max_self, zero_mul, add_zero]
  exact min_le_right _ _

/-- What a demand leaves is what was there less what it took. -/
theorem tokens_meet : (meet rate burst d b).2.tokens + charge d (meet rate burst d b).1 =
    level rate burst b d.time := by
  rw [meet]
  split
  · exact sub_add_cancel _ _
  · exact add_zero _

theorem meet_iff : (meet rate burst d b).1 = true ↔ d.cost ≤ level rate burst b d.time := by
  by_cases hcost : d.cost ≤ level rate burst b d.time
  · rw [meet, if_pos hcost]
    exact iff_of_true rfl hcost
  · rw [meet, if_neg hcost]
    exact iff_of_false Bool.false_ne_true hcost

theorem ts_meet : (meet rate burst d b).2.ts = d.time := by
  rw [meet]
  split
  · rfl
  · rfl

/-- None is met before the first. -/
theorem spentWithin_of_lt (hstart : hi < start) (h : Ordered start stop ds) :
    spentWithin rate burst lo hi ds b = 0 := by
  induction ds generalizing b start with
  | nil => rfl
  | cons d ds ih =>
      obtain ⟨hd, hds⟩ := h
      have hlate : hi < d.time := hstart.trans_le hd
      rw [spentWithin, if_neg fun hin => absurd hin.2 (not_le.mpr hlate), zero_add]
      exact ih hlate hds

variable [IsStrictOrderedRing K]

theorem level_nonneg (hrate : 0 ≤ rate) (hburst : 0 ≤ burst) (hb : 0 ≤ b.tokens) :
    0 ≤ level rate burst b now :=
  le_min hburst (add_nonneg hb (mul_nonneg (le_max_left _ _) hrate))

theorem tokens_meet_nonneg (hrate : 0 ≤ rate) (hburst : 0 ≤ burst) (hb : 0 ≤ b.tokens) :
    0 ≤ (meet rate burst d b).2.tokens := by
  rw [meet]
  split
  · exact sub_nonneg.mpr ‹_›
  · exact level_nonneg hrate hburst hb

/-- Over a time the bucket gains no more than what is refilled in it. -/
theorem level_later (hrate : 0 ≤ rate) (h : b.ts ≤ start) (hle : start ≤ now) :
    level rate burst b now ≤ level rate burst b start + (now - start) * rate := by
  have hgain : 0 ≤ (now - start) * rate := mul_nonneg (sub_nonneg.mpr hle) hrate
  have hstart : max 0 (start - b.ts) = start - b.ts := max_eq_right (sub_nonneg.mpr h)
  have hnow : max 0 (now - b.ts) = now - b.ts := max_eq_right (sub_nonneg.mpr (h.trans hle))
  rw [level, level, hstart, hnow]
  rcases le_total burst (b.tokens + (start - b.ts) * rate) with hfull | hfull
  · rw [min_eq_left hfull]
    exact (min_le_left _ _).trans (le_add_of_nonneg_right hgain)
  · rw [min_eq_right hfull]
    refine (min_le_right _ _).trans (le_of_eq ?_)
    ring

/-- **The demands that are met cost no more than what was there and what was refilled.** -/
theorem spent_le (hrate : 0 ≤ rate) (hburst : 0 ≤ burst) (hb : 0 ≤ b.tokens) (hts : b.ts ≤ start)
    (h : Ordered start stop ds) :
    spent rate burst ds b ≤ level rate burst b start + (stop - start) * rate := by
  induction ds generalizing b start with
  | nil =>
      exact add_nonneg (level_nonneg hrate hburst hb) (mul_nonneg (sub_nonneg.mpr h) hrate)
  | cons d ds ih =>
      obtain ⟨hd, hds⟩ := h
      have hrest := ih (tokens_meet_nonneg (d := d) hrate hburst hb) ts_meet.le hds
      have hleft : level rate burst (meet rate burst d b).2 d.time ≤
          (meet rate burst d b).2.tokens := by
        have hown : level rate burst (meet rate burst d b).2 (meet rate burst d b).2.ts ≤
            (meet rate burst d b).2.tokens := level_ts_le
        rwa [ts_meet] at hown
      have hgain : level rate burst b d.time ≤
          level rate burst b start + (d.time - start) * rate := level_later hrate hts hd
      have htook : (meet rate burst d b).2.tokens + charge d (meet rate burst d b).1 =
          level rate burst b d.time := tokens_meet
      have hsplit : (stop - start) * rate =
          (d.time - start) * rate + (stop - d.time) * rate := by ring
      rw [spent]
      linarith

/-- Over any time they cost no more than the burst and the rate over it. -/
theorem spent_le_burst (hrate : 0 ≤ rate) (hburst : 0 ≤ burst) (hb : 0 ≤ b.tokens)
    (hts : b.ts ≤ start) (h : Ordered start stop ds) :
    spent rate burst ds b ≤ burst + (stop - start) * rate := by
  have hspent := spent_le hrate hburst hb hts h
  have hfull : level rate burst b start ≤ burst := level_le_burst
  linarith

/-! ### Over a time -/

/-- A demand that is not met does not change what is there later. -/
theorem level_meet_of_not (hrate : 0 ≤ rate) (hunmet : (meet rate burst d b).1 = false)
    (hts : b.ts ≤ d.time) (hle : d.time ≤ now) :
    level rate burst (meet rate burst d b).2 now = level rate burst b now := by
  have hleft : (meet rate burst d b).2 = ⟨level rate burst b d.time, d.time⟩ := by
    have hcost : ¬ d.cost ≤ level rate burst b d.time := fun h => by
      rw [meet_iff.mpr h] at hunmet
      cases hunmet
    rw [meet, if_neg hcost]
  have hlater : max 0 (now - d.time) = now - d.time := max_eq_right (sub_nonneg.mpr hle)
  have hsince : max 0 (now - b.ts) = now - b.ts :=
    max_eq_right (sub_nonneg.mpr (hts.trans hle))
  have hat : max 0 (d.time - b.ts) = d.time - b.ts := max_eq_right (sub_nonneg.mpr hts)
  have hgain : 0 ≤ (now - d.time) * rate := mul_nonneg (sub_nonneg.mpr hle) hrate
  have hsplit : b.tokens + (d.time - b.ts) * rate + (now - d.time) * rate =
      b.tokens + (now - b.ts) * rate := by ring
  rw [hleft, level, level, level, hlater, hsince, hat, ← min_add_add_right, ← min_assoc,
    min_eq_left (le_add_of_nonneg_right hgain), hsplit]

/-- From a time within, what is there and what is refilled covers what is spent. -/
theorem spentWithin_le_level (hrate : 0 ≤ rate) (hburst : 0 ≤ burst) (hb : 0 ≤ b.tokens)
    (hts : b.ts ≤ start) (hlo : lo ≤ start) (hhi : start ≤ hi) (h : Ordered start stop ds) :
    spentWithin rate burst lo hi ds b ≤ level rate burst b start + (hi - start) * rate := by
  induction ds generalizing b start with
  | nil =>
      exact add_nonneg (level_nonneg hrate hburst hb) (mul_nonneg (sub_nonneg.mpr hhi) hrate)
  | cons d ds ih =>
      obtain ⟨hd, hds⟩ := h
      rw [spentWithin]
      rcases lt_or_ge hi d.time with hlate | hin
      · rw [if_neg fun hin => absurd hin.2 (not_le.mpr hlate), zero_add,
          spentWithin_of_lt hlate hds]
        exact add_nonneg (level_nonneg hrate hburst hb) (mul_nonneg (sub_nonneg.mpr hhi) hrate)
      · have hrest := ih (tokens_meet_nonneg (d := d) hrate hburst hb) ts_meet.le
          (hlo.trans hd) hin hds
        have hleft : level rate burst (meet rate burst d b).2 d.time ≤
            (meet rate burst d b).2.tokens := by
          have hown : level rate burst (meet rate burst d b).2 (meet rate burst d b).2.ts ≤
              (meet rate burst d b).2.tokens := level_ts_le
          rwa [ts_meet] at hown
        have hgain : level rate burst b d.time ≤
            level rate burst b start + (d.time - start) * rate := level_later hrate hts hd
        have htook : (meet rate burst d b).2.tokens + charge d (meet rate burst d b).1 =
            level rate burst b d.time := tokens_meet
        have hsplit : (hi - start) * rate =
            (d.time - start) * rate + (hi - d.time) * rate := by ring
        rw [if_pos ⟨hlo.trans hd, hin⟩]
        linarith

/-- **Whatever the demands, over any time those that are met cost no more than the burst and the
rate over it.** -/
theorem spentWithin_le (hrate : 0 ≤ rate) (hburst : 0 ≤ burst) (hb : 0 ≤ b.tokens)
    (hts : b.ts ≤ start) (hle : lo ≤ hi) (h : Ordered start stop ds) :
    spentWithin rate burst lo hi ds b ≤ burst + (hi - lo) * rate := by
  have hroom : 0 ≤ burst + (hi - lo) * rate :=
    add_nonneg hburst (mul_nonneg (sub_nonneg.mpr hle) hrate)
  induction ds generalizing b start with
  | nil => exact hroom
  | cons d ds ih =>
      obtain ⟨hd, hds⟩ := h
      have hfirst : Ordered d.time stop ds → Ordered d.time stop (d :: ds) := fun h => ⟨le_rfl, h⟩
      rcases lt_or_ge d.time lo with hearly | hlo
      · rw [spentWithin, if_neg fun hin => absurd hin.1 (not_le.mpr hearly), zero_add]
        exact ih (tokens_meet_nonneg hrate hburst hb) ts_meet.le hds
      · rcases lt_or_ge hi d.time with hlate | hin
        · exact (spentWithin_of_lt hlate (hfirst hds)).le.trans hroom
        · -- from the first of the time on
          have hspent := spentWithin_le_level (b := b) hrate hburst hb (hts.trans hd) hlo hin
            (hfirst hds)
          have hfull : level rate burst b d.time ≤ burst := level_le_burst
          have hshort : (hi - d.time) * rate ≤ (hi - lo) * rate :=
            mul_le_mul_of_nonneg_right (by linarith) hrate
          linarith

end Credit
