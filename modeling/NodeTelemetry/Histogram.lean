import NodeTelemetry.SlotTable

/-!
# Power-of-two histograms

Samples are 64-bit numbers and a histogram counts them in 64 buckets: bucket `i` holds the samples
from `2 ^ i` up to, and without, `2 ^ (i + 1)`, and bucket 0 the sample zero too.  The bucket of a
sample is found by halving it down to one (`bucketOf`).  Counts wrap modulo `2 ^ 64`.
-/

namespace NodeTelemetry

/-- How often a sample above one is halved until it is at most one, up to a limit. -/
def halvings : Nat → UInt64 → Nat
  | 0, _ => 0
  | limit + 1, v => if 1 < v then halvings limit (v >>> 1) + 1 else 0

theorem halvings_le (limit : Nat) (v : UInt64) : halvings limit v ≤ limit := by
  induction limit generalizing v with
  | zero => exact Nat.le_refl 0
  | succ limit ih =>
    unfold halvings
    split
    · exact Nat.succ_le_succ (ih _)
    · exact Nat.zero_le _

/-- The bucket of a sample. -/
def bucketOf (v : UInt64) : Fin 64 :=
  ⟨halvings 63 v, Nat.lt_succ_of_le (halvings_le 63 v)⟩

/-- Counts of samples by bucket. -/
structure Histogram where
  buckets : Vector UInt64 64
  deriving DecidableEq, Repr

namespace Histogram

/-- The histogram of no sample. -/
def empty : Histogram := ⟨Vector.replicate 64 0⟩

instance : Inhabited Histogram := ⟨empty⟩

/-- The histogram with one more sample. -/
def observe (h : Histogram) (v : UInt64) : Histogram :=
  ⟨h.buckets.set (bucketOf v) (h.buckets[bucketOf v] + 1)⟩

/-- The number of samples. -/
def total (h : Histogram) : UInt64 := h.buckets.toList.foldl (· + ·) 0

@[simp] theorem getElem_empty (i : Fin 64) : empty.buckets[i] = 0 := by
  simp [empty]

/-- A sample raises the count of its own bucket by one and no other. -/
theorem getElem_observe (h : Histogram) (v : UInt64) (i : Fin 64) :
    (h.observe v).buckets[i] =
      if bucketOf v = i then h.buckets[i] + 1 else h.buckets[i] := by
  unfold observe
  by_cases hi : bucketOf v = i
  · subst hi
    simp
  · have : (bucketOf v).val ≠ i.val := fun he => hi (Fin.ext he)
    simp [this, hi]

end Histogram

/-- The round-trip histogram of each node. -/
abbrev HistogramTable := SlotTable Histogram

namespace HistogramTable

/-- Adds a sample to the histogram of a node. -/
def observe (t : HistogramTable) (node : UInt32) (v : UInt64) : HistogramTable :=
  t.update node .empty fun h => h.observe v

end HistogramTable

end NodeTelemetry
