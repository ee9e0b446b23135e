import Mathlib
import NodeTelemetry.Proofs.PercentileRank

/-!
# The walk over the buckets

A percentile walks the buckets upward until the running count reaches its rank.  Where the rank is
at most the number of samples the walk ends in a bucket that holds samples
(`Histogram.exists_percentile_eq`).  Where it is above, the walk runs past the last bucket and the
estimate is zero (`Histogram.percentile_eq_zero`), which the roundings of the rank allow for very
many samples only.
-/

namespace NodeTelemetry

open Binary64

/-! ## Sums of counts -/

/-- A sum that fits 64 bits does not wrap. -/
lemma toNat_add_of_lt {a b : UInt64} (hlt : a.toNat + b.toNat < UInt64.size) :
    (a + b).toNat = a.toNat + b.toNat := by
  rw [UInt64.toNat_add]
  exact Nat.mod_eq_of_lt hlt

/-- A running sum of counts, modulo `2 ^ 64`. -/
lemma toNat_foldl_add (counts : List UInt64) (a : UInt64) :
    (counts.foldl (· + ·) a).toNat =
      (a.toNat + (counts.map UInt64.toNat).sum) % UInt64.size := by
  induction counts generalizing a with
  | nil => exact (Nat.mod_eq_of_lt a.toNat_lt).symm
  | cons count counts ih =>
    rw [List.foldl_cons, ih, UInt64.toNat_add, List.map_cons, List.sum_cons, ← Nat.add_assoc]
    exact Nat.mod_add_mod _ _ _

namespace Histogram

/-- The number of samples in the buckets below a position. -/
def before (h : Histogram) (i : ℕ) : ℕ := ((h.buckets.toList.take i).map UInt64.toNat).sum

/-- The number of samples. -/
def count (h : Histogram) : ℕ := (h.buckets.toList.map UInt64.toNat).sum

@[simp] lemma before_zero (h : Histogram) : h.before 0 = 0 := rfl

lemma before_succ (h : Histogram) (i : Fin 64) :
    h.before (i + 1) = h.before i + (h.buckets.get i).toNat := by
  have hlt : i.val < h.buckets.toList.length := by simp
  unfold before
  rw [List.take_succ_eq_append_getElem hlt]
  simp only [List.map_append, List.map_cons, List.map_nil, List.sum_append, List.sum_singleton,
    Vector.getElem_toList]
  rfl

lemma before_mono (h : Histogram) : Monotone h.before := by
  intro i j hij
  refine List.Sublist.sum_le_sum ?_ fun _ _ => Nat.zero_le _
  exact (List.take_sublist_take_left hij).map _

lemma before_last (h : Histogram) : h.before 64 = h.count := by
  unfold before count
  rw [List.take_of_length_le (by simp)]

/-- The total is the number of samples while that fits 64 bits. -/
lemma toNat_total {h : Histogram} (hlt : h.count < UInt64.size) : h.total.toNat = h.count := by
  have htotal := toNat_foldl_add h.buckets.toList 0
  rw [UInt64.toNat_zero, Nat.zero_add] at htotal
  exact htotal.trans (Nat.mod_eq_of_lt hlt)

end Histogram

/-! ## The walk -/

/-- The walk does not end while the running count stays below the rank. -/
lemma findRank_eq_none (rank running : UInt64) (counts : List UInt64) (position : ℕ)
    (hlt : running.toNat + (counts.map UInt64.toNat).sum < rank.toNat) :
    findRank rank counts running position = none := by
  induction counts generalizing running position with
  | nil => rfl
  | cons count counts ih =>
    rw [List.map_cons, List.sum_cons, ← Nat.add_assoc] at hlt
    have hrank : rank.toNat < UInt64.size := rank.toNat_lt
    have hsum := toNat_add_of_lt (a := running) (b := count) (by omega)
    have hnot : ¬ rank ≤ running + count := by
      rw [UInt64.le_iff_toNat_le, hsum]
      omega
    unfold findRank
    rw [if_neg hnot]
    exact ih _ _ (by rw [hsum]; exact hlt)

/-- The walk ends at the position at which the running count reaches the rank. -/
lemma exists_findRank_eq_some (rank running : UInt64) (counts : List UInt64) (position : ℕ)
    (hsize : running.toNat + (counts.map UInt64.toNat).sum < UInt64.size)
    (hlow : running.toNat < rank.toNat)
    (hhigh : rank.toNat ≤ running.toNat + (counts.map UInt64.toNat).sum) :
    ∃ k < counts.length, findRank rank counts running position = some (position + k) ∧
      running.toNat + ((counts.take k).map UInt64.toNat).sum < rank.toNat ∧
      rank.toNat ≤ running.toNat + ((counts.take (k + 1)).map UInt64.toNat).sum := by
  induction counts generalizing running position with
  | nil =>
    rw [List.map_nil, List.sum_nil, Nat.add_zero] at hhigh
    omega
  | cons count counts ih =>
    rw [List.map_cons, List.sum_cons, ← Nat.add_assoc] at hsize hhigh
    have hsum := toNat_add_of_lt (a := running) (b := count) (by omega)
    unfold findRank
    by_cases hreached : rank ≤ running + count
    · rw [if_pos hreached]
      rw [UInt64.le_iff_toNat_le, hsum] at hreached
      exact ⟨0, by simp, rfl, by simpa using hlow, by simpa using hreached⟩
    · rw [if_neg hreached]
      rw [UInt64.le_iff_toNat_le, hsum, not_le] at hreached
      obtain ⟨k, hk, hfound, hbelow, hreach⟩ := ih (running + count) (position + 1)
        (by rw [hsum]; exact hsize) (by rw [hsum]; exact hreached) (by rw [hsum]; exact hhigh)
      rw [hsum] at hbelow hreach
      refine ⟨k + 1, by simpa using hk, ?_, ?_, ?_⟩
      · rw [hfound, Nat.add_assoc, Nat.add_comm 1 k]
      · rw [List.take_succ_cons, List.map_cons, List.sum_cons]
        omega
      · rw [List.take_succ_cons, List.map_cons, List.sum_cons]
        omega

/-! ## Estimates -/

/-- The lower bound of a bucket is its power of two. -/
lemma valueOf?_bucketFloor (i : Fin 64) : valueOf? (bucketFloor i) = some (2 ^ i.val) := by
  have hshift : ((1 : UInt64) <<< UInt64.ofNat i.val).toNat = 2 ^ i.val := by
    revert i
    decide
  have hexact := nearest_of_representable (m := 1) (e := i.val) (by norm_num) (by omega)
  rw [Int.cast_one, one_mul, zpow_natCast] at hexact
  unfold bucketFloor
  rw [valueOf?_toFloat, hshift, Nat.cast_pow, Nat.cast_ofNat, hexact]

namespace Histogram

variable {h : Histogram}

/-- Where the rank is among the samples, the estimate is the floor of the bucket with that rank. -/
lemma exists_percentile_eq (hlt : h.count < UInt64.size) {p : Float}
    (hrank : (rankOf h.total p).toNat ≤ h.count) :
    ∃ i : Fin 64, h.percentile p = bucketFloor i ∧ h.before i < (rankOf h.total p).toNat ∧
      (rankOf h.total p).toNat ≤ h.before (i + 1) := by
  have hone := one_le_rankOf h.total p
  have htotal : h.total ≠ 0 := by
    intro hzero
    have := toNat_total hlt
    rw [hzero, UInt64.toNat_zero] at this
    omega
  obtain ⟨k, hk, hfound, hbelow, hreach⟩ :=
    exists_findRank_eq_some (rankOf h.total p) 0 h.buckets.toList 0
      (by rw [UInt64.toNat_zero, Nat.zero_add]; exact hlt) hone
      (by rw [UInt64.toNat_zero, Nat.zero_add]; exact hrank)
  rw [UInt64.toNat_zero, Nat.zero_add] at hbelow hreach
  refine ⟨⟨k, by simpa using hk⟩, ?_, hbelow, hreach⟩
  unfold percentile
  rw [if_neg htotal, hfound, Nat.zero_add]

/-- Where the rank is above the number of samples, the estimate is zero. -/
lemma percentile_eq_zero {p : Float} (hrank : h.count < (rankOf h.total p).toNat) :
    h.percentile p = (0 : UInt64).toFloat := by
  have hnone := findRank_eq_none (rankOf h.total p) 0 h.buckets.toList 0
    (by rw [UInt64.toNat_zero, Nat.zero_add]; exact hrank)
  unfold percentile
  rw [hnone]
  exact ite_self _

/-- A bucket between two different running counts holds samples. -/
lemma getElem_ne_zero_of_before_lt {i : Fin 64} (hlt : h.before i < h.before (i + 1)) :
    h.buckets.get i ≠ 0 := by
  intro hzero
  rw [before_succ, hzero, UInt64.toNat_zero, Nat.add_zero] at hlt
  exact lt_irrefl _ hlt

/-- The estimate is zero exactly where the rank is above the number of samples. -/
lemma valueOf?_percentile_eq_zero_iff (hlt : h.count < UInt64.size) (p : Float) :
    valueOf? (h.percentile p) = some 0 ↔ h.count < (rankOf h.total p).toNat := by
  constructor
  · intro hzero
    by_contra hrank
    obtain ⟨i, hvalue, -, -⟩ := exists_percentile_eq hlt (not_lt.mp hrank)
    rw [hvalue, valueOf?_bucketFloor, Option.some.injEq] at hzero
    exact absurd hzero (pow_ne_zero _ (by norm_num))
  · intro hrank
    rw [percentile_eq_zero hrank, valueOf?_zero]

/-- Two ranks among the samples are estimated in their order. -/
lemma percentile_le_of_rank_le (hlt : h.count < UInt64.size) {p q : Float}
    (hpq : (rankOf h.total p).toNat ≤ (rankOf h.total q).toNat)
    (hq : (rankOf h.total q).toNat ≤ h.count) : h.percentile p ≤ h.percentile q := by
  obtain ⟨i, hi, hbelow, -⟩ := exists_percentile_eq hlt (hpq.trans hq)
  obtain ⟨j, hj, -, hreach⟩ := exists_percentile_eq hlt hq
  have hij : i.val ≤ j.val := by
    by_contra hji
    have hle : h.before (j + 1) ≤ h.before i := h.before_mono (not_le.mp hji)
    omega
  rw [hi, hj, le_iff (valueOf?_bucketFloor i) (valueOf?_bucketFloor j)]
  exact pow_le_pow_right₀ (by norm_num) hij

/-- **When percentiles are right.**  For a histogram of at least one sample and fewer than `2 ^ 64`,
the estimate is the floor of a bucket with samples exactly while the rank is at most the number of
samples, and is zero otherwise; it falls from a percentile to a greater one exactly where the rank
passes the number of samples in between.  That never happens below 5764607523034242 samples nor up
to percentile 99, and for no percentile unless it does at 100. -/
theorem percentile_eq_zero_iff_and_le_iff (hpos : 1 ≤ h.count) (hlt : h.count < UInt64.size) :
    (∀ p, (rankOf h.total p).toNat ≤ h.count →
      ∃ i : Fin 64, h.buckets.get i ≠ 0 ∧ valueOf? (h.percentile p) = some (2 ^ i.val)) ∧
    (∀ p, valueOf? (h.percentile p) = some 0 ↔ h.count < (rankOf h.total p).toNat) ∧
    (∀ p q, p ≤ q → (h.percentile p ≤ h.percentile q ↔
      ¬ ((rankOf h.total p).toNat ≤ h.count ∧ h.count < (rankOf h.total q).toNat))) ∧
    ((∀ p, (rankOf h.total p).toNat ≤ h.count) ↔
      (rankOf h.total (100 : UInt64).toFloat).toNat ≤ h.count) ∧
    (∀ p, (∀ a, valueOf? p = some a → a ≤ 99) → (rankOf h.total p).toNat ≤ h.count) ∧
    (h.count < 5764607523034242 → ∀ p, (rankOf h.total p).toNat ≤ h.count) := by
  have htotal : h.total.toNat = h.count := toNat_total hlt
  refine ⟨fun p hrank => ?_, valueOf?_percentile_eq_zero_iff hlt, fun p q hpq => ?_, ?_, ?_, ?_⟩
  · obtain ⟨i, hvalue, hbelow, hreach⟩ := exists_percentile_eq hlt hrank
    refine ⟨i, getElem_ne_zero_of_before_lt (hbelow.trans_le hreach), ?_⟩
    rw [hvalue, valueOf?_bucketFloor]
  · constructor
    · rintro hle ⟨hp, hq⟩
      obtain ⟨i, hvalue, -, -⟩ := exists_percentile_eq hlt hp
      rw [hvalue, percentile_eq_zero hq, le_iff (valueOf?_bucketFloor i) valueOf?_zero] at hle
      exact absurd hle (not_le.mpr (by positivity))
    · intro hboth
      have hmono := rankOf_mono h.total hpq
      rcases le_or_gt (rankOf h.total q).toNat h.count with hq | hq
      · exact percentile_le_of_rank_le hlt hmono hq
      · have hp : h.count < (rankOf h.total p).toNat := not_le.mp fun hp => hboth ⟨hp, hq⟩
        rw [percentile_eq_zero hp, percentile_eq_zero hq, le_iff valueOf?_zero valueOf?_zero]
  · exact ⟨fun hall => hall _, fun hhundred p => (rankOf_le_rankOf_hundred _ p).trans hhundred⟩
  · intro p hp
    rw [← htotal] at hpos ⊢
    exact rankOf_le_total hpos hp
  · intro hsmall p
    rw [← htotal] at hpos hsmall ⊢
    exact rankOf_le_of_lt hpos hsmall p

/-- Three samples, of which the median is in bucket 4. -/
theorem percentile_fifty_of_three_samples :
    let h : Histogram := ⟨(empty.buckets.set 4 2).set 9 1⟩
    1 ≤ h.count ∧ h.count < UInt64.size ∧
      ∃ i : Fin 64, h.buckets.get i ≠ 0 ∧
        valueOf? (h.percentile (50 : UInt64).toFloat) = some (2 ^ i.val) :=
  ⟨by decide, by decide,
    (percentile_eq_zero_iff_and_le_iff (by decide) (by decide)).1 _ (by decide +kernel)⟩

/-- With 5764607523034242 samples in bucket 0 the estimate at percentile 100 is zero, below the one
at percentile 50. -/
theorem percentile_hundred_eq_zero_of_occupied :
    let h : Histogram := ⟨empty.buckets.set 0 5764607523034242⟩
    h.count = 5764607523034242 ∧ (∀ i : Fin 64, h.buckets.get i ≠ 0 ↔ i = 0) ∧
      valueOf? (h.percentile (100 : UInt64).toFloat) = some 0 ∧
      (50 : UInt64).toFloat ≤ (100 : UInt64).toFloat ∧
      ¬ h.percentile (50 : UInt64).toFloat ≤ h.percentile (100 : UInt64).toFloat := by
  intro h
  have hzero : h.percentile (100 : UInt64).toFloat = (0 : UInt64).toFloat := by
    decide +kernel
  refine ⟨by decide, by decide, ?_, by decide, ?_⟩
  · rw [hzero, valueOf?_zero]
  · rw [hzero]
    decide +kernel

end Histogram

end NodeTelemetry
