import Mathlib
import NodeTelemetry.Aggregator
import NodeTelemetry.Proofs.UpdateTotals
import NodeTelemetry.Proofs.HistogramWalk

/-!
# Percentiles of samples

A histogram keeps no samples, only how many fall in each bucket.  Buckets follow the order of
samples, so the bucket that the walk ends in is the bucket of the sample with the wanted rank in
sorted order (`Histogram.Counts.exists_kthSmallest?_percentile_eq`), and the estimate is the
greatest power of two that is at most that sample (`Histogram.Counts.estimates`).
-/

namespace NodeTelemetry

open Binary64

/-! ## The bucket of a sample -/

/-- A shift by one place halves a sample. -/
lemma toNat_shiftRight_one (v : UInt64) : (v >>> 1).toNat = v.toNat / 2 := by
  rw [UInt64.toNat_shiftRight]
  rfl

/-- Halving down to one takes as many steps as the binary logarithm says. -/
lemma halvings_eq_log2 {limit : ℕ} {v : UInt64} (hv : v.toNat.log2 ≤ limit) :
    halvings limit v = v.toNat.log2 := by
  induction limit generalizing v with
  | zero => exact (Nat.le_zero.mp hv).symm
  | succ limit ih =>
    have hone : 1 < v ↔ 2 ≤ v.toNat := UInt64.lt_iff_toNat_lt
    have hhalf := toNat_shiftRight_one v
    rw [Nat.log2_def] at hv ⊢
    unfold halvings
    by_cases h : 2 ≤ v.toNat
    · rw [if_pos h] at hv ⊢
      rw [if_pos (hone.mpr h), ih (by rw [hhalf]; omega), hhalf]
    · rw [if_neg h, if_neg (mt hone.mp h)]

/-- The binary logarithm of a sample is below 64. -/
lemma log2_toNat_le (v : UInt64) : v.toNat.log2 ≤ 63 := by
  rcases Nat.eq_zero_or_pos v.toNat with hzero | hpos
  · rw [hzero, Nat.log2_zero]
    exact Nat.zero_le _
  · exact Nat.le_of_lt_succ ((Nat.log2_lt hpos.ne').mpr v.toNat_lt)

/-- The bucket of a sample is its binary logarithm. -/
lemma val_bucketOf_eq_log2 (v : UInt64) : (bucketOf v).val = v.toNat.log2 :=
  halvings_eq_log2 (log2_toNat_le v)

/-- The sample zero shares its bucket with the sample one. -/
lemma val_bucketOf (v : UInt64) : (bucketOf v).val = (max v.toNat 1).log2 := by
  rw [val_bucketOf_eq_log2]
  rcases Nat.eq_zero_or_pos v.toNat with hzero | hpos
  · rw [hzero]
    rfl
  · rw [max_eq_left hpos]

/-- Buckets follow the order of samples. -/
lemma bucketOf_mono {v w : UInt64} (hvw : v ≤ w) : (bucketOf v).val ≤ (bucketOf w).val := by
  have hle : max v.toNat 1 ≤ max w.toNat 1 :=
    max_le_max (UInt64.le_iff_toNat_le.mp hvw) le_rfl
  rw [val_bucketOf, val_bucketOf, Nat.le_log2 (by omega)]
  exact (Nat.log2_self_le (by omega)).trans hle

/-! ## Samples in order -/

/-- The `k`-th smallest of some samples, counted from one. -/
def kthSmallest? (samples : List UInt64) (k : ℕ) : Option UInt64 :=
  (samples.mergeSort (· ≤ ·))[k - 1]?

/-- In a sorted list what holds of all smaller samples holds of the first ones. -/
lemma lt_countP_iff {l : List UInt64} (hsorted : l.Pairwise (· ≤ ·)) {P : UInt64 → Bool}
    (hlower : ∀ v w, v ≤ w → P w = true → P v = true) {i : ℕ} {x : UInt64} (hx : l[i]? = some x) :
    i < l.countP P ↔ P x = true := by
  induction l generalizing i with
  | nil => cases hx
  | cons v l ih =>
    obtain ⟨hleast, htail⟩ := List.pairwise_cons.mp hsorted
    have hnone : P v = false → l.countP P = 0 := by
      intro hv
      rw [List.countP_eq_zero]
      intro w hw hPw
      rw [hlower v w (hleast w hw) hPw] at hv
      cases hv
    cases hv : P v with
    | true =>
      rw [List.countP_cons_of_pos hv]
      cases i with
      | zero =>
        cases hx
        exact iff_of_true (Nat.succ_pos _) hv
      | succ i => rw [Nat.add_lt_add_iff_right, ih htail hx]
    | false =>
      have hzero : (v :: l).countP P = 0 := by
        rw [List.countP_cons_of_neg (by rw [hv]; exact Bool.false_ne_true), hnone hv]
      rw [hzero]
      refine iff_of_false (Nat.not_lt_zero _) fun hPx => ?_
      have hvx : v ≤ x := by
        cases i with
        | zero =>
          cases hx
          exact UInt64.le_refl _
        | succ i => exact hleast x (List.mem_of_getElem? hx)
      rw [hlower v x hvx hPx] at hv
      cases hv

/-- A sample below a bound in a lower set is the `k`-th smallest exactly when `k` of them are. -/
lemma le_countP_iff_of_kthSmallest? {samples : List UInt64} {P : UInt64 → Bool}
    (hlower : ∀ v w, v ≤ w → P w = true → P v = true) {k : ℕ} (hk : 1 ≤ k) {x : UInt64}
    (hx : kthSmallest? samples k = some x) : k ≤ samples.countP P ↔ P x = true := by
  have htrans : ∀ u v w : UInt64, decide (u ≤ v) = true → decide (v ≤ w) = true →
      decide (u ≤ w) = true := by
    intro u v w huv hvw
    rw [decide_eq_true_iff] at huv hvw ⊢
    exact UInt64.le_trans huv hvw
  have htotal : ∀ v w : UInt64, (decide (v ≤ w) || decide (w ≤ v)) = true := by
    intro v w
    rw [Bool.or_eq_true, decide_eq_true_iff, decide_eq_true_iff]
    exact UInt64.le_total v w
  have hsorted : (samples.mergeSort (· ≤ ·)).Pairwise (· ≤ ·) :=
    (List.pairwise_mergeSort htrans htotal samples).imp of_decide_eq_true
  have hcount : (samples.mergeSort (· ≤ ·)).countP P = samples.countP P :=
    (List.mergeSort_perm samples _).countP_eq P
  have hiff := lt_countP_iff hsorted hlower hx
  rw [hcount] at hiff
  rw [← hiff]
  omega

/-- There is a sample of every rank up to the number of samples. -/
lemma exists_kthSmallest?_eq_some {samples : List UInt64} {k : ℕ} (hk : 1 ≤ k)
    (hlen : k ≤ samples.length) : ∃ x, kthSmallest? samples k = some x := by
  have hlt : k - 1 < (samples.mergeSort (· ≤ ·)).length := by
    rw [List.length_mergeSort]
    omega
  exact ⟨_, List.getElem?_eq_getElem hlt⟩

/-! ## Counted samples -/

/-- A histogram counts some samples, fewer than its buckets can hold. -/
structure Histogram.Counts (h : Histogram) (samples : List UInt64) : Prop where
  length_lt : samples.length < UInt64.size
  bucket : ∀ i : Fin 64, (h.buckets.get i).toNat = samples.countP (bucketOf · = i)

/-- The samples below a position are those before a bucket and those in it. -/
lemma countP_bucketOf_lt_succ (samples : List UInt64) (i : Fin 64) :
    samples.countP (fun v => (bucketOf v).val < i.val + 1) =
      samples.countP (fun v => (bucketOf v).val < i.val) + samples.countP (bucketOf · = i) := by
  induction samples with
  | nil => rfl
  | cons v samples ih =>
    rw [List.countP_cons, List.countP_cons, List.countP_cons, ih]
    have hcases : (bucketOf v).val < i.val ∨ bucketOf v = i ∨ i.val < (bucketOf v).val := by
      rw [Fin.ext_iff]
      omega
    rcases hcases with h | rfl | h
    · have hne : bucketOf v ≠ i := fun heq => h.ne (congrArg Fin.val heq)
      simp [h, hne, Nat.lt_succ_of_lt h]
      omega
    · simp
      omega
    · have hgt : i < bucketOf v := h
      simp [hgt.ne', hgt.not_ge, hgt.le]

namespace Histogram.Counts

variable {h : Histogram} {samples : List UInt64}

/-- The samples before a bucket are those whose own bucket is. -/
lemma before_eq (hc : h.Counts samples) {i : ℕ} (hi : i ≤ 64) :
    h.before i = samples.countP (fun v => (bucketOf v).val < i) := by
  induction i with
  | zero => simp
  | succ i ih =>
    have hstep := h.before_succ ⟨i, hi⟩
    have hsplit := countP_bucketOf_lt_succ samples ⟨i, hi⟩
    rw [hstep, hc.bucket, ih (Nat.le_of_succ_le hi)]
    exact hsplit.symm

lemma count_eq (hc : h.Counts samples) : h.count = samples.length := by
  rw [← h.before_last, hc.before_eq le_rfl, List.countP_eq_length]
  intro v _
  simp

lemma count_lt (hc : h.Counts samples) : h.count < UInt64.size := hc.count_eq ▸ hc.length_lt

lemma toNat_total_eq (hc : h.Counts samples) : h.total.toNat = samples.length := by
  rw [toNat_total hc.count_lt, hc.count_eq]

/-- The estimate is the floor of the bucket of the sample that has the rank. -/
lemma exists_kthSmallest?_percentile_eq (hc : h.Counts samples) {p : Float}
    (hrank : (rankOf h.total p).toNat ≤ samples.length) :
    ∃ x, kthSmallest? samples (rankOf h.total p).toNat = some x ∧
      h.percentile p = bucketFloor (bucketOf x) ∧ h.buckets.get (bucketOf x) ≠ 0 := by
  have hone := one_le_rankOf h.total p
  obtain ⟨x, hx⟩ := exists_kthSmallest?_eq_some hone hrank
  obtain ⟨i, hvalue, hbelow, hreach⟩ :=
    exists_percentile_eq hc.count_lt (hrank.trans_eq hc.count_eq.symm)
  have hlower : ∀ j : ℕ, ∀ v w : UInt64, v ≤ w → decide ((bucketOf w).val < j) = true →
      decide ((bucketOf v).val < j) = true := by
    intro j v w hvw hw
    rw [decide_eq_true_iff] at hw ⊢
    exact (bucketOf_mono hvw).trans_lt hw
  -- The sample is not below the bucket, since fewer samples than its rank are, nor above it.
  have hnot : ¬ (bucketOf x).val < i.val := by
    have hiff := le_countP_iff_of_kthSmallest? (hlower i) hone hx
    rw [← hc.before_eq i.isLt.le, decide_eq_true_iff] at hiff
    exact fun hlt => absurd (hiff.mpr hlt) (not_le.mpr hbelow)
  have hlt : (bucketOf x).val < i.val + 1 := by
    have hiff := le_countP_iff_of_kthSmallest? (hlower (i + 1)) hone hx
    rw [← hc.before_eq i.isLt, decide_eq_true_iff] at hiff
    exact hiff.mp hreach
  obtain rfl : i = bucketOf x := Fin.ext (by omega)
  exact ⟨x, hx, hvalue, getElem_ne_zero_of_before_lt (hbelow.trans_le hreach)⟩

end Histogram.Counts

/-- What the estimate at an integer percentile says of the samples behind a histogram: which rank
it has, and that it is the greatest power of two that is at most the sample of that rank. -/
structure Histogram.Estimates (h : Histogram) (samples : List UInt64) (p : UInt64) : Prop where
  one_le_rank : 1 ≤ (rankOf h.total p.toFloat).toNat
  rank_le : (rankOf h.total p.toFloat).toNat ≤ samples.length
  rank_eq : samples.length ≤ 2 ^ 46 →
    (rankOf h.total p.toFloat).toNat = max 1 (samples.length * p.toNat / 100)
  value : ∃ x e, kthSmallest? samples (rankOf h.total p.toFloat).toNat = some x ∧
    valueOf? (h.percentile p.toFloat) = some e ∧ e = 2 ^ (max x.toNat 1).log2 ∧
    (∃ i : Fin 64, h.buckets.get i ≠ 0 ∧ e = 2 ^ i.val) ∧
    (1 ≤ x.toNat → e ≤ x.toNat ∧ (x.toNat : ℚ) < 2 * e)

/-- A histogram of samples estimates them at every integer percentile up to 99. -/
lemma Histogram.Counts.estimates {h : Histogram} {samples : List UInt64} (hc : h.Counts samples)
    (hne : samples ≠ []) {p : UInt64} (hp : p.toNat ≤ 99) : h.Estimates samples p := by
  have htotal := hc.toNat_total_eq
  have hpos : 1 ≤ h.total.toNat := by
    rw [htotal]
    exact List.length_pos_iff.mpr hne
  have hvalue : valueOf? p.toFloat = some (p.toNat : ℚ) :=
    valueOf?_toFloat_of_le (hp.trans (by norm_num))
  have hrank : (rankOf h.total p.toFloat).toNat ≤ samples.length := by
    rw [← htotal]
    refine rankOf_le_total hpos fun a ha => ?_
    rw [hvalue] at ha
    cases ha
    exact_mod_cast hp
  refine ⟨one_le_rankOf _ _, hrank, fun hfew => ?_, ?_⟩
  · rw [← htotal] at hfew ⊢
    exact rankOf_natCast hfew (hp.trans (by norm_num))
  · obtain ⟨x, hx, hpercentile, hoccupied⟩ := hc.exists_kthSmallest?_percentile_eq hrank
    refine ⟨x, 2 ^ (max x.toNat 1).log2, hx, ?_, rfl,
      ⟨bucketOf x, hoccupied, by rw [val_bucketOf]⟩, fun hone => ?_⟩
    · rw [hpercentile, valueOf?_bucketFloor, val_bucketOf]
    · rw [max_eq_left hone]
      have hlow : 2 ^ x.toNat.log2 ≤ x.toNat := Nat.log2_self_le (by omega)
      have hhigh : x.toNat < 2 ^ (x.toNat.log2 + 1) := Nat.lt_log2_self
      rw [pow_succ'] at hhigh
      exact ⟨by exact_mod_cast hlow, by exact_mod_cast hhigh⟩

/-! ## From updates to snapshots -/

namespace Tables

open TableUpdate

/-- A node in range with a sample has a histogram that counts its samples. -/
lemma exists_histogram_of_applyAll (maxNodes maxDropReasons maxInflight : UInt64)
    {us : List TableUpdate} {node : UInt32} (hnode : node.toNat < maxNodes.toNat)
    (hne : us.filterMap (sample? node) ≠ [])
    (hlen : (us.filterMap (sample? node)).length < UInt64.size) :
    ∃ h, ((ofCapacities maxNodes maxDropReasons maxInflight).applyAll us).histograms.get? node =
      some h ∧ h.Counts (us.filterMap (sample? node)) := by
  have htotals := totals_applyAll maxNodes maxDropReasons maxInflight us
  have hkey : some node ∈ us.map histogramKey? := by
    obtain ⟨v, hv⟩ := List.exists_mem_of_ne_nil _ hne
    obtain ⟨u, hu, hsample⟩ := List.mem_filterMap.mp hv
    refine List.mem_map.mpr ⟨u, hu, ?_⟩
    cases u with
    | observe n value =>
      by_cases hn : n = node
      · rw [← hn]
        rfl
      · simp [sample?, hn] at hsample
    | _ => cases hsample
  obtain ⟨h, hh⟩ := Option.isSome_iff_exists.mp
    ((htotals.histograms_isSome node).mpr ⟨hnode, hkey⟩)
  refine ⟨h, hh, hlen, fun i => ?_⟩
  rw [htotals.bucket node h i hh]
  exact Nat.mod_eq_of_lt (List.countP_le_length.trans_lt hlen)

end Tables

namespace Aggregator

open TableUpdate

/-- A snapshot of a tick is made from the counters and the histogram of its node. -/
lemma exists_of_mem_snapshots {host : String} {cpu : Float} {now : Instant} {tables : Tables}
    {nodes : List UInt32} {rates : KeyMap RateState} {s : Snapshot}
    (hs : s ∈ (snapshots host cpu now tables nodes rates).1) :
    ∃ counters histogram state, tables.snapshot s.nodeId = some (counters, histogram) ∧
      s = snapshotOf host cpu s.nodeId counters histogram state := by
  induction nodes generalizing rates with
  | nil => cases hs
  | cons node nodes ih =>
    unfold snapshots at hs
    cases hsnapshot : tables.snapshot node with
    | none =>
      rw [hsnapshot] at hs
      exact ih hs
    | some pair =>
      obtain ⟨counters, histogram⟩ := pair
      rw [hsnapshot] at hs
      rcases List.mem_cons.mp hs with rfl | htail
      · exact ⟨counters, histogram, _, hsnapshot, rfl⟩
      · exact ih htail

/-- **Percentiles are order statistics.**  Whatever updates lead there from empty tables, the
histogram of a node in range with at least one sample and fewer than `2 ^ 64` estimates the samples
of that node at percentiles 50 and 99, in that order, and these two estimates are what a tick
exports for the node if it exports it at all: a node with samples but no counters is skipped. -/
theorem estimates_of_applyAll (maxNodes maxDropReasons maxInflight : UInt64)
    (us : List TableUpdate) (node : UInt32) (hnode : node.toNat < maxNodes.toNat)
    (hne : us.filterMap (sample? node) ≠ [])
    (hlen : (us.filterMap (sample? node)).length < UInt64.size) :
    let tables := (Tables.ofCapacities maxNodes maxDropReasons maxInflight).applyAll us
    let samples := us.filterMap (sample? node)
    ∃ h, tables.histograms.get? node = some h ∧ h.total.toNat = samples.length ∧
      h.Estimates samples 50 ∧ h.Estimates samples 99 ∧
      h.percentile (50 : UInt64).toFloat ≤ h.percentile (99 : UInt64).toFloat ∧
      ∀ (a : Aggregator) (now : Instant) (kernelText : Option (List Char)),
        ∀ s ∈ (a.tick tables now kernelText).1, s.nodeId = node →
          s.rttP50 = h.percentile (50 : UInt64).toFloat ∧
          s.rttP99 = h.percentile (99 : UInt64).toFloat ∧ s.rttP50 ≤ s.rttP99 := by
  intro tables samples
  obtain ⟨h, hh, hc⟩ :=
    Tables.exists_histogram_of_applyAll maxNodes maxDropReasons maxInflight hnode hne hlen
  have hmedian : h.Estimates samples 50 := hc.estimates hne (by decide)
  have hhigh : h.Estimates samples 99 := hc.estimates hne (by decide)
  have horder : h.percentile (50 : UInt64).toFloat ≤ h.percentile (99 : UInt64).toFloat :=
    Histogram.percentile_le_of_rank_le hc.count_lt
      (rankOf_mono h.total (by decide)) (hhigh.rank_le.trans_eq hc.count_eq.symm)
  refine ⟨h, hh, hc.toNat_total_eq, hmedian, hhigh, horder, fun a now kernelText s hs hid => ?_⟩
  obtain ⟨counters, histogram, state, hsnapshot, hmade⟩ := exists_of_mem_snapshots hs
  have hhistogram : histogram = h := by
    rw [hid, Tables.snapshot, Option.map_eq_some_iff] at hsnapshot
    obtain ⟨c, -, hpair⟩ := hsnapshot
    rw [show tables.histograms.get? node = some h from hh, Prod.mk.injEq] at hpair
    exact hpair.2.symm
  have h50 : s.rttP50 = h.percentile (50 : UInt64).toFloat := by rw [hmade, hhistogram]; rfl
  have h99 : s.rttP99 = h.percentile (99 : UInt64).toFloat := by rw [hmade, hhistogram]; rfl
  refine ⟨h50, h99, ?_⟩
  rw [h50, h99]
  exact horder

/-- Three samples of one node among other updates: the median is estimated by the sample zero, which
is in bucket 0, and percentile 99 by the second sample in order. -/
theorem estimates_of_three_samples :
    let us : List TableUpdate :=
      [.touch 1 7, .observe 1 5, .observe 0 3, .observe 1 0, .observe 7 2, .observe 1 1000]
    let tables := (Tables.ofCapacities 2 1 0).applyAll us
    us.filterMap (sample? 1) = [5, 0, 1000] ∧
      ∃ h, tables.histograms.get? 1 = some h ∧ h.Estimates [5, 0, 1000] 50 ∧
        h.Estimates [5, 0, 1000] 99 ∧ h.percentile (50 : UInt64).toFloat = bucketFloor 0 ∧
        h.percentile (99 : UInt64).toFloat = bucketFloor 2 := by
  intro us tables
  obtain ⟨h, hh, -, hmedian, hhigh, -, -⟩ :=
    estimates_of_applyAll 2 1 0 us 1 (by decide) (by decide) (by decide)
  have hvalues : (tables.histograms.get? 1).map (fun h =>
      (h.percentile (50 : UInt64).toFloat, h.percentile (99 : UInt64).toFloat)) =
      some (bucketFloor 0, bucketFloor 2) := by decide +kernel
  rw [hh, Option.map_some, Option.some.injEq, Prod.mk.injEq] at hvalues
  exact ⟨by decide, h, hh, hmedian, hhigh, hvalues.1, hvalues.2⟩

end Aggregator

end NodeTelemetry
