import Mathlib
import NodeTelemetry.Proofs.SampleEstimates

/-!
# The halving of a sample

The bucket of a sample is found by a loop that halves the sample while it is above one and counts
the turns, up to the last bucket.  The loop is given here turn by turn (`Halving.EndsIn`).  From
every state it ends in one other only, which `halvings` computes (`Halving.endsIn_iff`), and the
limit does not cut it short, since a sample of 64 bits is down to one after 63 turns at most.  What
follows for the bucket of a sample is `IsBucketOf`, and a histogram that holds nothing but this
sample has the floor of its bucket as every percentile
(`Histogram.Counts.percentile_of_single`).
-/

namespace NodeTelemetry

open Binary64

/-! ## The loop -/

/-- How far the halving of a sample has come: the value that is left, and the bucket reached. -/
@[ext] structure Halving where
  value : UInt64
  bucket : ℕ

namespace Halving

variable {limit : ℕ} {h e : Halving}

/-- The loop goes on while the value is above one and the bucket below the limit. -/
def GoesOn (limit : ℕ) (h : Halving) : Prop := 1 < h.value ∧ h.bucket < limit

/-- A turn of the loop halves the value and goes to the next bucket. -/
def turn (h : Halving) : Halving := ⟨h.value >>> 1, h.bucket + 1⟩

/-- The loop ends in a state, after some turns. -/
inductive EndsIn (limit : ℕ) : Halving → Halving → Prop where
  | stop {h : Halving} (hstop : ¬ h.GoesOn limit) : EndsIn limit h h
  | turn {h e : Halving} (hgoes : h.GoesOn limit) (hends : EndsIn limit h.turn e) : EndsIn limit h e

lemma endsIn_iff_of_goesOn (hgoes : h.GoesOn limit) :
    EndsIn limit h e ↔ EndsIn limit h.turn e := by
  refine ⟨fun hends => ?_, .turn hgoes⟩
  cases hends with
  | stop hstop => exact absurd hgoes hstop
  | turn _ hends => exact hends

lemma endsIn_iff_of_not_goesOn (hstop : ¬ h.GoesOn limit) : EndsIn limit h e ↔ e = h := by
  constructor
  · intro hends
    cases hends with
    | stop _ => rfl
    | turn hgoes _ => exact absurd hgoes hstop
  · rintro rfl
    exact .stop hstop

/-- The loop ends after as many turns as `halvings` says, whatever is left of the limit. -/
lemma endsIn_iff (rest : ℕ) (h : Halving) :
    EndsIn (h.bucket + rest) h e ↔
      e.bucket = h.bucket + halvings rest h.value ∧
        e.value.toNat = h.value.toNat / 2 ^ halvings rest h.value := by
  have hsame : ∀ h : Halving,
      e = h ↔ e.bucket = h.bucket + 0 ∧ e.value.toNat = h.value.toNat / 2 ^ 0 := by
    intro h
    rw [Halving.ext_iff, Nat.add_zero, pow_zero, Nat.div_one, UInt64.toNat_inj, and_comm]
  induction rest generalizing h with
  | zero => exact (endsIn_iff_of_not_goesOn fun hgoes => lt_irrefl _ hgoes.2).trans (hsame h)
  | succ rest ih =>
    unfold halvings
    by_cases habove : 1 < h.value
    · have hgoes : h.GoesOn (h.bucket + (rest + 1)) := ⟨habove, by omega⟩
      -- a turn moves one from the rest of the limit to the bucket, so that their sum stays
      have hlimit : h.bucket + (rest + 1) = h.turn.bucket + rest := by
        simp only [turn]
        omega
      have hhalf : h.turn.value.toNat = h.value.toNat / 2 := toNat_shiftRight_one h.value
      rw [endsIn_iff_of_goesOn hgoes, hlimit]
      refine (ih h.turn).trans ?_
      rw [hhalf, Nat.div_div_eq_div_mul, if_pos habove, ← pow_succ']
      simp only [turn, Nat.add_assoc, Nat.add_comm 1]
    · rw [if_neg habove]
      exact (endsIn_iff_of_not_goesOn fun hgoes => habove hgoes.1).trans (hsame h)

end Halving

/-! ## The bucket -/

/-- A sample that is shifted down to its bucket. -/
lemma toNat_shiftRight_bucket (v : UInt64) (i : Fin 64) :
    (v >>> UInt64.ofNat i).toNat = v.toNat / 2 ^ i.val := by
  have hshift : (UInt64.ofNat i).toNat % 64 = i.val := by
    rw [UInt64.toNat_ofNat', Nat.mod_eq_of_lt (by omega : i.val < 2 ^ 64), Nat.mod_eq_of_lt i.isLt]
  rw [UInt64.toNat_shiftRight, hshift, Nat.shiftRight_eq_div_pow]

/-- What the bucket of a sample is. -/
structure IsBucketOf (v : UInt64) (i : Fin 64) : Prop where
  /-- The loop ends in this bucket and nowhere else, with every limit from the last bucket on. -/
  endsIn_iff : ∀ limit e, 63 ≤ limit →
    (Halving.EndsIn limit ⟨v, 0⟩ e ↔ e = ⟨v >>> UInt64.ofNat i, i⟩)
  /-- It ends since the value left is not above one, and not for the limit. -/
  left_le_one : v >>> UInt64.ofNat i ≤ 1
  /-- The bucket is the integer part of the binary logarithm. -/
  eq_log : i.val = Nat.log 2 v.toNat
  /-- There is no bucket beyond the last. -/
  le_last : i.val ≤ 63
  /-- The sample zero is in bucket 0. -/
  zero : v = 0 → i = 0
  /-- Every other sample lies between the powers of two of its bucket and of the next. -/
  bounds : v ≠ 0 → 2 ^ i.val ≤ v.toNat ∧ v.toNat < 2 ^ (i.val + 1)
  /-- No greater sample has a lesser bucket. -/
  le_bucketOf : ∀ w, v ≤ w → i ≤ bucketOf w

/-- The bucket that is computed is the bucket of the sample. -/
lemma isBucketOf_bucketOf (v : UInt64) : IsBucketOf v (bucketOf v) := by
  have hbucket : ∀ limit, 63 ≤ limit → halvings limit v = (bucketOf v).val := by
    intro limit hlimit
    rw [halvings_eq_log2 ((log2_toNat_le v).trans hlimit), val_bucketOf_eq_log2]
  have hhigh : v.toNat < 2 ^ ((bucketOf v).val + 1) := by
    rw [val_bucketOf_eq_log2]
    exact Nat.lt_log2_self
  constructor
  case endsIn_iff =>
    intro limit e hlimit
    have hends := Halving.endsIn_iff (e := e) limit ⟨v, 0⟩
    rw [Nat.zero_add, Nat.zero_add, hbucket limit hlimit, ← toNat_shiftRight_bucket,
      UInt64.toNat_inj] at hends
    rw [hends, Halving.ext_iff, and_comm]
  case left_le_one =>
    rw [UInt64.le_iff_toNat_le, toNat_shiftRight_bucket]
    rw [pow_succ'] at hhigh
    exact Nat.le_of_lt_succ (Nat.div_lt_of_lt_mul (by rwa [Nat.mul_comm]))
  case eq_log => rw [val_bucketOf_eq_log2, Nat.log2_eq_log_two]
  case le_last => exact Nat.le_of_lt_succ (bucketOf v).isLt
  case zero =>
    rintro rfl
    rfl
  case bounds =>
    intro hne
    have hne' : v.toNat ≠ 0 := fun hzero => hne (UInt64.toNat_inj.mp hzero)
    refine ⟨?_, hhigh⟩
    rw [val_bucketOf_eq_log2]
    exact Nat.log2_self_le hne'
  case le_bucketOf => exact fun w hvw => bucketOf_mono hvw

/-! ## Histograms of one sample -/

namespace Histogram

variable {h : Histogram} {samples : List UInt64} {v : UInt64}

/-- The histogram of no sample counts none. -/
lemma counts_empty : empty.Counts [] where
  length_lt := by decide
  bucket i := by rw [get_empty, List.countP_nil, UInt64.toNat_zero]

/-- A histogram with one more sample counts it with the others. -/
lemma Counts.observe (hc : h.Counts samples) (hlt : samples.length + 1 < UInt64.size) (v : UInt64) :
    (h.observe v).Counts (v :: samples) where
  length_lt := hlt
  bucket i := by
    have hle := List.countP_le_length (p := (bucketOf · = i)) (l := samples)
    rw [get_observe, List.countP_cons, ← hc.bucket i]
    rw [← hc.bucket i] at hle
    by_cases hv : bucketOf v = i
    · have hfits : (h.buckets.get i).toNat + (1 : UInt64).toNat < UInt64.size :=
        (Nat.add_le_add_right hle 1).trans_lt hlt
      simp only [hv, if_true, decide_true]
      exact toNat_add_of_lt hfits
    · simp [hv]

/-- Every percentile of one sample is the floor of its bucket. -/
lemma Counts.percentile_of_single (hc : h.Counts [v]) (p : Float) :
    h.percentile p = bucketFloor (bucketOf v) := by
  have htotal : h.total.toNat = 1 := hc.toNat_total_eq
  have hrank : (rankOf h.total p).toNat ≤ [v].length :=
    (rankOf_le_of_lt htotal.ge (by omega) p).trans htotal.le
  obtain ⟨x, hx, hpercentile, -⟩ := hc.exists_kthSmallest?_percentile_eq hrank
  have hmem : x ∈ [v].mergeSort (· ≤ ·) := List.mem_of_getElem? hx
  rw [List.mem_mergeSort, List.mem_singleton] at hmem
  rw [hpercentile, hmem]

end Histogram

/-- **The bucket of a sample is its binary logarithm.**  The loop that halves a sample ends, after
at most 63 turns and never for its limit, in the bucket between whose powers of two the sample lies;
buckets follow the order of samples; a histogram has the bucket and counts the sample there; and the
power of two of the bucket is every percentile of this one sample. -/
theorem isBucketOf_and_percentile_of_single (v : UInt64) :
    IsBucketOf v (bucketOf v) ∧
      (∀ h : Histogram, halvings 63 v < h.buckets.toList.length ∧
        (h.observe v).buckets.toList = h.buckets.toList.modify (halvings 63 v) (· + 1)) ∧
      ∀ p, valueOf? ((Histogram.empty.observe v).percentile p) = some (2 ^ (bucketOf v).val) := by
  refine ⟨isBucketOf_bucketOf v, fun h => ?_, fun p => ?_⟩
  · have hlt : halvings 63 v < h.buckets.toList.length := by
      rw [Vector.length_toList]
      exact (bucketOf v).isLt
    refine ⟨hlt, ?_⟩
    rw [List.modify_eq_set_get _ hlt]
    rfl
  · have hsingle := Histogram.counts_empty.observe (by decide) v
    rw [hsingle.percentile_of_single p, valueOf?_bucketFloor]

/-- A power of two begins a bucket, and the last bucket ends with the greatest sample. -/
example : (bucketOf 0, bucketOf 1, bucketOf 1023, bucketOf 1024) = (0, 0, 9, 10) ∧
    (bucketOf 9223372036854775807, bucketOf 18446744073709551615) = (62, 63) := by
  decide

end NodeTelemetry
