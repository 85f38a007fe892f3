import AsyncGateway.Lib.Cumulative
import Mathlib.Algebra.Order.Ring.Unbundled.Rat
import Mathlib.Data.List.Count
import Mathlib.Data.List.Induction
import Mathlib.Data.List.Nodup
import Mathlib.Data.Prod.Lex
import Mathlib.Data.Rat.Floor
import Mathlib.Tactic.Linarith

/-!
# Infra — the histogram of the durations

The durations of a channel are counted in buckets of ten seconds (`increment`), and a percentile is
read off the counts (`percentile`).  The label of a bucket is its lower edge (`bucketLabel`), and
the percentile is the label, though no less than one bucket; so it bounds the durations from above
only where the quantile is in the first bucket, or on an edge (`upperBound_iff`).  Reals are exact:
the durations and the fraction are rationals, and no product is rounded.
-/

namespace AsyncGateway

/-- `int(seconds // BUCKET_SECONDS) * BUCKET_SECONDS`. -/
def bucketLabel (seconds : ℚ) : ℤ := ⌊seconds / 10⌋ * 10

/-- The buckets by their labels, with what they count. -/
abbrev Histogram := List (ℤ × ℕ)

namespace Histogram

/-- `buckets[label] = buckets.get(label, 0) + 1`, `HINCRBY`. -/
def increment (label : ℤ) : Histogram → Histogram
  | [] => [(label, 1)]
  | (k, n) :: h => if k = label then (k, n + 1) :: h else (k, n) :: increment label h

/-- `sum(v for _, v in buckets)`. -/
def total (h : Histogram) : ℕ := (h.map (·.2)).sum

/-- `sorted(buckets)`, by label and count. -/
def sorted (h : Histogram) : Histogram :=
  h.mergeSort fun a b => decide (a.1 < b.1 ∨ (a.1 = b.1 ∧ a.2 ≤ b.2))

/-- The histogram of the durations recorded so far. -/
def ofDurations (ds : List ℚ) : Histogram :=
  ds.foldl (fun h d => h.increment (bucketLabel d)) []

/-- What the percentile adds up: the counts under their labels. -/
def counts (h : Histogram) : List (ℤ × ℚ) := h.map fun b => (b.1, (b.2 : ℚ))

end Histogram

/-- `_percentile`. -/
def percentile (sortedBuckets : Histogram) (total : ℕ) (q fallback : ℚ) : ℚ :=
  if total = 0 then fallback
  else
    match Cumulative.reach (total * q) 0 sortedBuckets.counts with
    | some bucketEnd => max bucketEnd 10
    | none =>
        match sortedBuckets.getLast? with
        | some (bucketEnd, _) => bucketEnd
        | none => fallback

/-- The percentile of the durations, as `stats` computes it. -/
def percentileOf (fallback : ℚ) (ds : List ℚ) (q : ℚ) : ℚ :=
  let h := Histogram.ofDurations ds
  percentile h.sorted h.sorted.total q fallback

/-- The exact quantile: fewer than the fraction are below it, and no fewer up to it. -/
structure IsQuantile (ds : List ℚ) (q x : ℚ) : Prop where
  mem : x ∈ ds
  below : (ds.countP (fun d => decide (d < x)) : ℚ) < ds.length * q
  upTo : ds.length * q ≤ ds.countP fun d => decide (d ≤ x)

/-- What a percentile is for. -/
structure UpperBound (fallback : ℚ) (ds : List ℚ) (q : ℚ) : Prop where
  /-- It is at least as large as a fraction of the durations. -/
  covers : ds.length * q ≤ ds.countP fun d => decide (d ≤ percentileOf fallback ds q)
  /-- It is above the exact quantile, by one bucket at most. -/
  near : ∀ x, IsQuantile ds q x →
    x ≤ percentileOf fallback ds q ∧ percentileOf fallback ds q ≤ x + 10
  monotone : ∀ q', q ≤ q' → q' ≤ 1 → percentileOf fallback ds q ≤ percentileOf fallback ds q'

/-! ### What the buckets count -/

section Counting

variable {ds : List ℚ} {h s : Histogram} {label : ℤ}

theorem bucketLabel_le (d : ℚ) : (bucketLabel d : ℚ) ≤ d := by
  have hfloor := Int.floor_le (d / 10)
  rw [bucketLabel]
  push_cast
  linarith

theorem bucketLabel_mono {d d' : ℚ} (hle : d ≤ d') : bucketLabel d ≤ bucketLabel d' :=
  mul_le_mul_of_nonneg_right (Int.floor_mono (by linarith)) (by norm_num)

/-- A histogram counts durations: one bucket a label, with the number of those in it. -/
structure Counts (h : Histogram) (ds : List ℚ) : Prop where
  distinct : (h.map (·.1)).Nodup
  count : ∀ k, (h.lookup k).getD 0 = ds.countP fun d => decide (bucketLabel d = k)

theorem lookup_increment (h : Histogram) (label k : ℤ) : ((h.increment label).lookup k).getD 0 =
    (h.lookup k).getD 0 + if k = label then 1 else 0 := by
  induction h with
  | nil =>
      by_cases hk : k = label
      · simp [Histogram.increment, hk]
      · simp [Histogram.increment, List.lookup_cons, beq_false_of_ne hk, hk]
  | cons b h ih =>
      obtain ⟨j, n⟩ := b
      rw [Histogram.increment]
      by_cases hj : j = label
      · subst hj
        rw [if_pos rfl]
        by_cases hk : k = j
        · simp [hk]
        · simp [List.lookup_cons, beq_false_of_ne hk, hk]
      · rw [if_neg hj]
        by_cases hk : k = j
        · subst hk
          simp [hj]
        · simpa [List.lookup_cons, beq_false_of_ne hk] using ih

theorem keys_increment (h : Histogram) (label : ℤ) : (h.increment label).map (·.1) =
    if label ∈ h.map (·.1) then h.map (·.1) else h.map (·.1) ++ [label] := by
  induction h with
  | nil => simp [Histogram.increment]
  | cons b h ih =>
      obtain ⟨j, n⟩ := b
      rw [Histogram.increment]
      by_cases hj : j = label
      · simp [hj]
      · rw [if_neg hj, List.map_cons, ih]
        by_cases hmem : label ∈ h.map (·.1)
        · simp [hmem]
        · simp only [List.map_cons, List.mem_cons, hmem, Ne.symm hj, or_false, if_false,
            List.cons_append]

theorem Counts.increment (hc : Counts h ds) (d : ℚ) :
    Counts (h.increment (bucketLabel d)) (ds ++ [d]) where
  distinct := by
    rw [keys_increment]
    split
    · exact hc.distinct
    · rename_i hnew
      refine List.nodup_append.mpr ⟨hc.distinct, List.nodup_singleton _, fun k hk k' hk' => ?_⟩
      rintro rfl
      exact hnew (List.mem_singleton.mp hk' ▸ hk)
  count := fun k => by
    rw [lookup_increment, hc.count, List.countP_append]
    by_cases hk : k = bucketLabel d
    · simp [hk]
    · simp [hk, Ne.symm hk]

theorem counts_ofDurations (ds : List ℚ) : Counts (Histogram.ofDurations ds) ds := by
  induction ds using List.reverseRecOn with
  | nil => exact ⟨List.nodup_nil, fun k => rfl⟩
  | append_singleton ds d ih =>
      rw [Histogram.ofDurations, List.foldl_append]
      exact ih.increment d

theorem Counts.of_mem (hc : Counts h ds) {b : ℤ × ℕ} (hb : b ∈ h) :
    b.2 = ds.countP fun d => decide (bucketLabel d = b.1) := by
  obtain ⟨before, after, rfl⟩ := List.append_of_mem hb
  have hnodup := hc.distinct
  rw [List.map_append, List.map_cons] at hnodup
  have hlookup : (before ++ b :: after).lookup b.1 = some b.2 := by
    refine List.lookup_eq_some_iff.mpr ⟨before, after, rfl, fun p hp => ?_⟩
    have hne := (List.nodup_append.mp hnodup).2.2 p.1 (List.mem_map_of_mem hp) b.1
      List.mem_cons_self
    simpa using Ne.symm hne
  rw [← hc.count, hlookup]
  rfl

theorem Counts.label_mem (hc : Counts h ds) {d : ℚ} (hd : d ∈ ds) :
    bucketLabel d ∈ h.map (·.1) := by
  have hpos : 0 < ds.countP fun d' => decide (bucketLabel d' = bucketLabel d) :=
    List.countP_pos_iff.mpr ⟨d, hd, by simp⟩
  rw [← hc.count] at hpos
  cases hl : h.lookup (bucketLabel d) with
  | none => simp [hl] at hpos
  | some n =>
      obtain ⟨before, after, rfl, -⟩ := List.lookup_eq_some_iff.mp hl
      simp

/-- The sorted buckets of some durations. -/
structure SortedCounts (s : Histogram) (ds : List ℚ) : Prop where
  ordered : (s.map (·.1)).Pairwise (· < ·)
  count : ∀ b ∈ s, b.2 = ds.countP fun d => decide (bucketLabel d = b.1)
  labels : ∀ d ∈ ds, bucketLabel d ∈ s.map (·.1)

theorem Counts.sorted (hc : Counts h ds) : SortedCounts h.sorted ds := by
  have hperm : h.sorted.Perm h := List.mergeSort_perm _ _
  refine ⟨?_, fun b hb => hc.of_mem (hperm.mem_iff.mp hb),
    fun d hd => (hperm.map _).mem_iff.mpr (hc.label_mem hd)⟩
  have hle : h.sorted.Pairwise fun a b => a.1 ≤ b.1 := by
    refine (List.pairwise_mergeSort ?_ ?_ h).imp fun {a b} hab => ?_
    · intro a b c hab hbc
      simp only [decide_eq_true_eq] at hab hbc ⊢
      omega
    · intro a b
      simp only [Bool.or_eq_true, decide_eq_true_eq]
      omega
    · simp only [decide_eq_true_eq] at hab
      omega
  have hne : (h.sorted.map (·.1)).Nodup := (hperm.map _).nodup_iff.mpr hc.distinct
  exact (List.pairwise_map.mpr hle).imp₂ (fun _ _ => lt_of_le_of_ne) hne

theorem countP_or {p r : ℚ → Bool} (hdisj : ∀ d ∈ ds, p d = true → r d = false) :
    ds.countP (fun d => p d || r d) = ds.countP p + ds.countP r := by
  induction ds with
  | nil => rfl
  | cons d ds ih =>
      obtain ⟨hd, hds⟩ := List.forall_mem_cons.mp hdisj
      rw [List.countP_cons, List.countP_cons, List.countP_cons, ih hds]
      cases hp : p d with
      | true =>
          simp only [hd hp, Bool.or_false, if_true, Bool.false_eq_true, if_false]
          omega
      | false =>
          simp only [Bool.false_or, Bool.false_eq_true, if_false]
          omega

/-- Buckets of different labels add up to the durations under their labels. -/
theorem weight_counts (hs : (s.map (·.1)).Nodup)
    (hc : ∀ b ∈ s, b.2 = ds.countP fun d => decide (bucketLabel d = b.1)) :
    Cumulative.weight s.counts = ds.countP fun d => decide (bucketLabel d ∈ s.map (·.1)) := by
  induction s with
  | nil => simp [Histogram.counts, Cumulative.weight]
  | cons b s ih =>
      obtain ⟨hnew, hs⟩ := List.nodup_cons.mp hs
      have hrest := ih hs fun b' hb' => hc b' (List.mem_cons_of_mem _ hb')
      have hsplit : ds.countP (fun d => decide (bucketLabel d ∈ (b :: s).map (·.1))) =
          ds.countP (fun d => decide (bucketLabel d = b.1)) +
            ds.countP fun d => decide (bucketLabel d ∈ s.map (·.1)) := by
        rw [← countP_or]
        · exact List.countP_congr fun d _ => by simp
        · intro d _ hd
          rw [of_decide_eq_true hd, decide_eq_false]
          exact hnew
      rw [hsplit, Nat.cast_add, ← hrest, ← hc b List.mem_cons_self]
      rfl

theorem weight_counts_eq_total (s : Histogram) : Cumulative.weight s.counts = s.total := by
  induction s with
  | nil => rfl
  | cons b s ih =>
      have htotal : Histogram.total (b :: s) = b.2 + Histogram.total s := rfl
      have hweight : Cumulative.weight (Histogram.counts (b :: s)) =
          b.2 + Cumulative.weight (Histogram.counts s) := rfl
      rw [hweight, htotal, ih, Nat.cast_add]

theorem SortedCounts.total (hs : SortedCounts s ds) : s.total = ds.length := by
  have hnodup : (s.map (·.1)).Nodup := hs.ordered.imp fun h => h.ne
  have hall : ds.countP (fun d => decide (bucketLabel d ∈ s.map (·.1))) = ds.length :=
    List.countP_eq_length.mpr fun d hd => by simpa using hs.labels d hd
  have hsum := weight_counts hnodup hs.count
  rw [weight_counts_eq_total, hall] at hsum
  exact_mod_cast hsum

/-- **The percentile is the label of the exact quantile, but one bucket at least.** -/
theorem SortedCounts.percentile (hs : SortedCounts s ds) {q x : ℚ} (hx : IsQuantile ds q x)
    (fallback : ℚ) : percentile s s.total q fallback = max (bucketLabel x : ℚ) 10 := by
  obtain ⟨b, hb, hlabel⟩ := List.mem_map.mp (hs.labels x hx.mem)
  obtain ⟨before, after, rfl⟩ := List.append_of_mem hb
  have hnodup : ((before ++ b :: after).map (·.1)).Nodup := hs.ordered.imp fun h => h.ne
  have hordered := hs.ordered
  rw [List.map_append, List.map_cons] at hordered hnodup
  obtain ⟨-, hafter, hbefore⟩ := List.pairwise_append.mp hordered
  have hbelow : Cumulative.weight (Histogram.counts before) < ds.length * q := by
    rw [weight_counts (List.nodup_append.mp hnodup).1 fun b' hb' =>
      hs.count b' (List.mem_append_left _ hb')]
    refine lt_of_le_of_lt (Nat.cast_le.mpr (List.countP_mono_left fun d _ hd => ?_)) hx.below
    have hlt := hbefore _ (of_decide_eq_true hd) b.1 List.mem_cons_self
    refine decide_eq_true (lt_of_not_ge fun hle => ?_)
    have hmono := bucketLabel_mono hle
    omega
  have hupTo : ds.length * q ≤ Cumulative.weight (Histogram.counts before) + b.2 := by
    have hsame : Cumulative.weight (Histogram.counts before) + b.2 =
        Cumulative.weight (Histogram.counts (before ++ [b])) := by
      simp [Histogram.counts, Cumulative.weight]
    have hnodup' : ((before ++ [b]).map (·.1)).Nodup := by
      rw [List.append_cons, List.nodup_append] at hnodup
      rw [List.map_append]
      exact hnodup.1
    rw [hsame, weight_counts hnodup' fun b' hb' => hs.count b' (by
      rcases List.mem_append.mp hb' with hb' | hb'
      · exact List.mem_append_left _ hb'
      · exact List.mem_singleton.mp hb' ▸ hb)]
    refine hx.upTo.trans (Nat.cast_le.mpr (List.countP_mono_left fun d hd hle => ?_))
    -- a duration up to the quantile is in its bucket, or in one before it
    have hmono := bucketLabel_mono (of_decide_eq_true hle)
    have hmem := hs.labels d hd
    rw [List.map_append, List.map_cons, List.mem_append, List.mem_cons] at hmem
    rw [decide_eq_true_eq, List.map_append, List.mem_append]
    rcases hmem with hmem | hmem | hmem
    · exact .inl hmem
    · exact .inr (List.mem_singleton.mpr hmem)
    · have hlt := (List.pairwise_cons.mp hafter).1 _ hmem
      omega
  have hreach : Cumulative.reach (ds.length * q) 0 (Histogram.counts (before ++ b :: after)) =
      some b.1 := by
    refine (Cumulative.reach_eq_some fun p hp => ?_).mpr ⟨Histogram.counts before, b.2,
      Histogram.counts after, by simp [Histogram.counts], .inr (by rwa [zero_add]),
      by rwa [zero_add]⟩
    obtain ⟨b', -, rfl⟩ := List.mem_map.mp hp
    exact Nat.cast_nonneg _
  have hne : ds.length ≠ 0 := (List.length_pos_of_mem hx.mem).ne'
  rw [AsyncGateway.percentile, hs.total, if_neg hne, hreach, ← hlabel]

end Counting

/-! ### The percentile and the quantile -/

section Percentile

variable {ds : List ℚ} {fallback q q' x x' : ℚ}

theorem percentileOf_eq (hx : IsQuantile ds q x) (fallback : ℚ) :
    percentileOf fallback ds q = max (bucketLabel x : ℚ) 10 :=
  (counts_ofDurations ds).sorted.percentile hx fallback

theorem percentileOf_nil (fallback q : ℚ) : percentileOf fallback [] q = fallback := by
  simp [percentileOf, Histogram.ofDurations, Histogram.sorted, Histogram.total, percentile]

theorem weight_ones (xs : List ℚ) :
    Cumulative.weight (xs.map fun x => (x, (1 : ℚ))) = xs.length := by
  induction xs with
  | nil => rfl
  | cons x xs ih =>
      rw [List.map_cons, Cumulative.weight_cons, ih, List.length_cons]
      push_cast
      ring

/-- The durations in their order, cut at the one that is reached. -/
theorem isQuantile_of_cut {before after : List ℚ} (hperm : (before ++ x :: after).Perm ds)
    (hsorted : (before ++ x :: after).Pairwise (· ≤ ·))
    (hbelow : (before.length : ℚ) < ds.length * q)
    (hupTo : ds.length * q ≤ before.length + 1) : IsQuantile ds q x := by
  obtain ⟨-, hafter, hbefore⟩ := List.pairwise_append.mp hsorted
  have hx := (List.pairwise_cons.mp hafter).1
  refine ⟨hperm.mem_iff.mp (by simp), lt_of_le_of_lt (Nat.cast_le.mpr ?_) hbelow,
    hupTo.trans ?_⟩
  · have hnone : (x :: after).countP (fun d => decide (d < x)) = 0 := by
      refine List.countP_eq_zero.mpr fun d hd => ?_
      rcases List.mem_cons.mp hd with rfl | hd
      · simp
      · simpa using hx d hd
    rw [← hperm.countP_eq, List.countP_append, hnone, add_zero]
    exact List.countP_le_length
  · have hall : before.countP (fun d => decide (d ≤ x)) = before.length :=
      List.countP_eq_length.mpr fun d hd => by simpa using hbefore d hd x List.mem_cons_self
    have hself : 1 ≤ (x :: after).countP fun d => decide (d ≤ x) :=
      List.countP_pos_iff.mpr ⟨x, List.mem_cons_self, by simp⟩
    rw [← hperm.countP_eq, List.countP_append, hall]
    exact_mod_cast Nat.add_le_add_left hself before.length

/-- Every part of some durations has its quantile. -/
theorem exists_isQuantile (hne : ds ≠ []) (hq : 0 < q) (hle : q ≤ 1) : ∃ x, IsQuantile ds q x := by
  have hperm : (ds.mergeSort fun a b => decide (a ≤ b)).Perm ds := List.mergeSort_perm _ _
  have hsorted : (ds.mergeSort fun a b => decide (a ≤ b)).Pairwise (· ≤ ·) := by
    refine (List.pairwise_mergeSort ?_ ?_ ds).imp fun hab => by simpa using hab
    · intro a b c hab hbc
      simp only [decide_eq_true_eq] at hab hbc ⊢
      exact hab.trans hbc
    · intro a b
      simpa using le_total a b
  have hpos : (0 : ℚ) < ds.length * q :=
    mul_pos (Nat.cast_pos.mpr (List.length_pos_of_ne_nil hne)) hq
  have hscale : (ds.length : ℚ) * q ≤ ds.length := mul_le_of_le_one_right (Nat.cast_nonneg _) hle
  revert hperm hsorted
  generalize ds.mergeSort (fun a b => decide (a ≤ b)) = sorted
  intro hperm hsorted
  -- each duration weighs one, so the weight reached is a count
  have hones : ∀ p ∈ sorted.map fun d => (d, (1 : ℚ)), 0 ≤ p.2 := by
    intro p hp
    obtain ⟨d, -, rfl⟩ := List.mem_map.mp hp
    exact zero_le_one
  have hne' : sorted.map (fun d => (d, (1 : ℚ))) ≠ [] := by
    rw [ne_eq, List.map_eq_nil_iff]
    rintro rfl
    exact hne hperm.symm.eq_nil
  have hreach : (Cumulative.reach (ds.length * q) 0
      (sorted.map fun d => (d, (1 : ℚ)))).isSome = true := by
    rw [Cumulative.reach_isSome_iff hne' hones, weight_ones, zero_add, hperm.length_eq]
    exact hscale
  obtain ⟨x, hx⟩ := Option.isSome_iff_exists.mp hreach
  obtain ⟨before, w, after, hcut, hin⟩ := (Cumulative.reach_eq_some hones).mp hx
  obtain ⟨before, rest, rfl, rfl, hrest⟩ := List.map_eq_append_iff.mp hcut
  obtain ⟨d, after, rfl, hd, rfl⟩ := List.map_eq_cons_iff.mp hrest
  cases hd
  refine ⟨x, isQuantile_of_cut hperm hsorted ?_ ?_⟩
  · rcases hin.above with hnil | habove
    · rw [List.map_eq_nil_iff.mp hnil]
      simpa using hpos
    · rwa [weight_ones, zero_add] at habove
  · have hupTo := hin.upTo
    rwa [weight_ones, zero_add] at hupTo

theorem IsQuantile.mono (hx : IsQuantile ds q x) (hx' : IsQuantile ds q' x') (hle : q ≤ q') :
    x ≤ x' := by
  by_contra hlt
  have hcount : (ds.countP (fun d => decide (d ≤ x')) : ℚ) ≤
      ds.countP fun d => decide (d < x) :=
    Nat.cast_le.mpr (List.countP_mono_left fun d _ hd =>
      decide_eq_true ((of_decide_eq_true hd).trans_lt (not_le.mp hlt)))
  have hscale : (ds.length : ℚ) * q ≤ ds.length * q' :=
    mul_le_mul_of_nonneg_left hle (Nat.cast_nonneg _)
  have hupTo := hx'.upTo
  have hbelow := hx.below
  linarith

theorem percentileOf_mono (hq : 0 < q) (hle : q ≤ q') (hle' : q' ≤ 1) :
    percentileOf fallback ds q ≤ percentileOf fallback ds q' := by
  by_cases hne : ds = []
  · rw [hne, percentileOf_nil, percentileOf_nil]
  · obtain ⟨x, hx⟩ := exists_isQuantile hne hq (hle.trans hle')
    obtain ⟨x', hx'⟩ := exists_isQuantile hne (hq.trans_le hle) hle'
    rw [percentileOf_eq hx, percentileOf_eq hx']
    exact max_le_max_right _ (Int.cast_le.mpr (bucketLabel_mono (hx.mono hx' hle)))

/-- **The percentile bounds the durations exactly where their quantile is in the first bucket or on
the edge of one.** -/
theorem upperBound_iff (hds : ∀ d ∈ ds, 0 ≤ d) (hq : 0 < q) (hle : q ≤ 1) :
    UpperBound fallback ds q ↔ ∀ x, IsQuantile ds q x → x < 10 ∨ (bucketLabel x : ℚ) = x := by
  constructor
  · intro h x hx
    have hnear := (h.near x hx).1
    rw [percentileOf_eq hx] at hnear
    rcases le_max_iff.mp hnear with hlabel | hten
    · exact .inr (le_antisymm (bucketLabel_le x) hlabel)
    · rcases hten.lt_or_eq with hlt | rfl
      · exact .inl hlt
      · exact .inr (by norm_num [bucketLabel])
  · intro h
    have hbound : ∀ x, IsQuantile ds q x → x ≤ percentileOf fallback ds q := by
      intro x hx
      rw [percentileOf_eq hx]
      rcases h x hx with hlt | hedge
      · exact le_max_of_le_right hlt.le
      · exact le_max_of_le_left hedge.ge
    refine ⟨?_, fun x hx => ⟨hbound x hx, ?_⟩, fun q' => percentileOf_mono hq⟩
    · by_cases hne : ds = []
      · simp [hne]
      · obtain ⟨x, hx⟩ := exists_isQuantile hne hq hle
        exact hx.upTo.trans (Nat.cast_le.mpr (List.countP_mono_left fun d _ hd =>
          decide_eq_true ((of_decide_eq_true hd).trans (hbound x hx))))
    · have hx0 := hds x hx.mem
      rw [percentileOf_eq hx]
      exact max_le (by linarith [bucketLabel_le x]) (by linarith)

/-- Durations of less than a bucket are bounded. -/
theorem upperBound_short : UpperBound 5 [3, 7] (1 / 2) := by
  refine (upperBound_iff (by simp) (by norm_num) (by norm_num)).mpr fun x hx => .inl ?_
  have hmem := hx.mem
  simp only [List.mem_cons, List.not_mem_nil, or_false] at hmem
  rcases hmem with rfl | rfl
  · norm_num
  · norm_num

/-- The label of the bucket of 25 seconds is 20. -/
theorem not_upperBound_25 : ¬ UpperBound 5 [25] (1 / 2) := by
  intro h
  have hquantile : IsQuantile [25] (1 / 2) 25 := ⟨by simp, by norm_num, by norm_num⟩
  have hnear := (h.near 25 hquantile).1
  rw [percentileOf_eq hquantile] at hnear
  norm_num [bucketLabel] at hnear

end Percentile

end AsyncGateway
