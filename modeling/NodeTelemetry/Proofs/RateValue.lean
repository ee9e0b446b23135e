import Mathlib
import NodeTelemetry.Rate
import NodeTelemetry.Proofs.Binary64.Sums

/-!
# The value of a rate

A span is taken to seconds with three roundings, and a rate is a difference of two rounded counts
over that, with two more (`valueOf?_toSeconds`, `valueOf?_rate`).  None of them hides that time went
by: a span has more than zero seconds as soon as it has a nanosecond (`toSeconds_le_zero_iff`).
Without the roundings, a rate times the span is the growth of the counter
(`exactRate_mul_exactSeconds`).
-/

namespace NodeTelemetry

open Binary64

/-- Numbers up to `2 ^ 94` are in range. -/
lemma abs_lt_limit {x : ℚ} (h : |x| ≤ 2 ^ (94 : ℤ)) : |x| < limit := by
  rw [limit_eq]
  exact h.trans_lt (zpow_lt_zpow_right₀ (by norm_num) (by norm_num))

namespace Duration

/-- The whole seconds of a span fit in 64 bits. -/
def Fits (d : Duration) : Prop := d.nanos < UInt64.size * nanosPerSecond

instance (d : Duration) : Decidable d.Fits :=
  inferInstanceAs (Decidable (d.nanos < UInt64.size * nanosPerSecond))

/-- The seconds of a span. -/
def exactSeconds (d : Duration) : ℚ := d.nanos / nanosPerSecond

/-- The nanoseconds of a span beyond its whole seconds, in seconds. -/
def secondsFraction (d : Duration) : ℚ := (d.nanos % nanosPerSecond : ℕ) / nanosPerSecond

/-- The seconds of a span, with the roundings of its conversion: of the whole seconds, of the
fraction, and of their sum. -/
def roundedSeconds (d : Duration) : ℚ :=
  nearest (nearest (d.nanos / nanosPerSecond : ℕ) + nearest d.secondsFraction)

variable {d : Duration}

lemma secondsFraction_nonneg (d : Duration) : 0 ≤ d.secondsFraction :=
  div_nonneg (Nat.cast_nonneg _) (Nat.cast_nonneg _)

lemma secondsFraction_le_one (d : Duration) : d.secondsFraction ≤ 1 := by
  have hrest : d.nanos % nanosPerSecond ≤ nanosPerSecond := (Nat.mod_lt _ (by decide)).le
  exact div_le_one_of_le₀ (by exact_mod_cast hrest) (Nat.cast_nonneg _)

lemma abs_nearest_secondsFraction_le (d : Duration) : |nearest d.secondsFraction| ≤ 1 := by
  have hone : |d.secondsFraction| ≤ 2 ^ (0 : ℤ) := by
    rw [abs_of_nonneg d.secondsFraction_nonneg, zpow_zero]
    exact d.secondsFraction_le_one
  simpa using abs_nearest_le_two_zpow (by norm_num) hone

/-- The fraction of a second is rounded once, as its two parts are small. -/
lemma valueOf?_secondsFraction (d : Duration) :
    valueOf? ((UInt64.ofNat (d.nanos % nanosPerSecond)).toFloat /
      (UInt64.ofNat nanosPerSecond).toFloat) = some (nearest d.secondsFraction) := by
  have hsmall : ∀ n : ℕ, n ≤ nanosPerSecond →
      valueOf? (UInt64.ofNat n).toFloat = some (n : ℚ) ∧ |(n : ℚ)| < limit := by
    intro n hn
    have hsize : n < UInt64.size := hn.trans_lt (by decide)
    have hvalue := valueOf?_toFloat_of_le (n := UInt64.ofNat n)
    rw [UInt64.toNat_ofNat_of_lt' hsize] at hvalue
    refine ⟨hvalue (hn.trans (by decide)), abs_lt_limit ?_⟩
    rw [abs_of_nonneg (Nat.cast_nonneg n)]
    have hcast : (n : ℚ) ≤ nanosPerSecond := by exact_mod_cast hn
    exact hcast.trans (by norm_num [nanosPerSecond])
  obtain ⟨hrest, hrest'⟩ := hsmall _ (Nat.mod_lt d.nanos (by decide)).le
  obtain ⟨hbillion, hbillion'⟩ := hsmall nanosPerSecond le_rfl
  have hrange : |d.secondsFraction| < limit := by
    refine abs_lt_limit ?_
    rw [abs_of_nonneg d.secondsFraction_nonneg]
    exact d.secondsFraction_le_one.trans (by norm_num)
  rw [valueOf?_div hrest hbillion hrest' hbillion' (by norm_num [nanosPerSecond])]
  exact congrArg some (rounded_of_abs_le hrange.le)

lemma abs_nearest_wholeSeconds_le (h : d.Fits) :
    |nearest (d.nanos / nanosPerSecond : ℕ)| ≤ 2 ^ (64 : ℤ) := by
  have hsize : d.nanos / nanosPerSecond < UInt64.size := (Nat.div_lt_iff_lt_mul (by decide)).mpr h
  refine abs_nearest_le_two_zpow (by norm_num) ?_
  rw [abs_of_nonneg (Nat.cast_nonneg _)]
  exact_mod_cast hsize.le

lemma abs_seconds_le (h : d.Fits) :
    |nearest (d.nanos / nanosPerSecond : ℕ) + nearest d.secondsFraction| ≤ 2 ^ (65 : ℤ) := by
  refine (abs_add_le _ _).trans
    ((add_le_add (abs_nearest_wholeSeconds_le h) d.abs_nearest_secondsFraction_le).trans ?_)
  norm_num

lemma abs_roundedSeconds_le (h : d.Fits) : |d.roundedSeconds| ≤ 2 ^ (65 : ℤ) :=
  abs_nearest_le_two_zpow (by norm_num) (abs_seconds_le h)

/-- The conversion of a span to seconds rounds the whole seconds, the fraction, and their sum. -/
lemma valueOf?_toSeconds (h : d.Fits) : valueOf? d.toSeconds = some d.roundedSeconds := by
  have hsize : d.nanos / nanosPerSecond < UInt64.size := (Nat.div_lt_iff_lt_mul (by decide)).mpr h
  have hwhole : valueOf? (UInt64.ofNat (d.nanos / nanosPerSecond)).toFloat =
      some (nearest (d.nanos / nanosPerSecond : ℕ)) := by
    rw [valueOf?_toFloat, UInt64.toNat_ofNat_of_lt' hsize]
  have hsum := abs_lt_limit ((abs_seconds_le h).trans (by norm_num))
  unfold toSeconds
  rw [valueOf?_add hwhole d.valueOf?_secondsFraction, rounded_of_abs_le hsum.le]
  · rfl
  · exact abs_lt_limit ((abs_nearest_wholeSeconds_le h).trans (by norm_num))
  · exact abs_lt_limit (d.abs_nearest_secondsFraction_le.trans (by norm_num))

/-- A nanosecond is not rounded away. -/
lemma two_zpow_le_roundedSeconds (hpos : 0 < d.nanos) : 2 ^ (-30 : ℤ) ≤ d.roundedSeconds := by
  refine two_zpow_le_nearest (by norm_num) ?_
  have hwhole : 0 ≤ nearest (d.nanos / nanosPerSecond : ℕ) := nearest_nonneg (Nat.cast_nonneg _)
  have hfraction : 0 ≤ nearest d.secondsFraction := nearest_nonneg d.secondsFraction_nonneg
  rcases Nat.eq_zero_or_pos (d.nanos / nanosPerSecond) with hzero | hsecond
  · have hrest : 1 ≤ d.nanos % nanosPerSecond := by
      have hsplit := Nat.div_add_mod d.nanos nanosPerSecond
      rw [hzero] at hsplit
      omega
    have hleast : (2 : ℚ) ^ (-30 : ℤ) ≤ d.secondsFraction := by
      have hcast : (1 : ℚ) ≤ (d.nanos % nanosPerSecond : ℕ) := by exact_mod_cast hrest
      rw [secondsFraction, le_div_iff₀ (by norm_num [nanosPerSecond])]
      refine le_trans ?_ hcast
      norm_num [nanosPerSecond]
    exact (two_zpow_le_nearest (by norm_num) hleast).trans (le_add_of_nonneg_left hwhole)
  · have hone : 1 ≤ nearest (d.nanos / nanosPerSecond : ℕ) :=
      one_le_nearest (by exact_mod_cast hsecond)
    have hleast : (2 : ℚ) ^ (-30 : ℤ) ≤ 1 := by norm_num
    linarith

/-- A span has no seconds only if no time went by. -/
lemma toSeconds_le_zero_iff (h : d.Fits) :
    d.toSeconds ≤ (0 : UInt64).toFloat ↔ d.nanos = 0 := by
  rw [le_iff (valueOf?_toSeconds h) valueOf?_zero]
  constructor
  · intro hle
    by_contra hne
    have hleast := two_zpow_le_roundedSeconds (Nat.pos_of_ne_zero hne)
    have hpos := two_zpow_pos (-30)
    linarith
  · intro hzero
    simp [roundedSeconds, secondsFraction, hzero]

/-- A span in which time went by has more than zero seconds. -/
lemma zero_lt_toSeconds (h : d.Fits) (hpos : 0 < d.nanos) :
    (0 : UInt64).toFloat < d.toSeconds := by
  rw [lt_iff valueOf?_zero (valueOf?_toSeconds h)]
  exact (two_zpow_pos _).trans_le (two_zpow_le_roundedSeconds hpos)

end Duration

/-- The span between two instants of the clock fits. -/
lemma Instant.fits_since {t u : Instant} (ht : t.Representable) (hu : u.Representable) :
    (t.since u).Fits := by
  obtain ⟨-, ht⟩ := ht
  obtain ⟨hu, -⟩ := hu
  unfold Duration.Fits since
  unfold reach nanosPerSecond at *
  unfold UInt64.size
  simp only at *
  omega

lemma Instant.nanos_since_pos {t u : Instant} (h : u.nanos < t.nanos) : 0 < (t.since u).nanos := by
  simp only [since]
  omega

/-! ## Rates -/

/-- The growth of a counter per second, without rounding. -/
def exactRate (current previous : UInt64) (elapsed : Duration) : ℚ :=
  ((current.toNat : ℚ) - previous.toNat) / elapsed.exactSeconds

/-- The growth of a counter per second, with the roundings of its computation: of each count, of
their difference, of the seconds, and of the quotient. -/
def roundedRate (current previous : UInt64) (elapsed : Duration) : ℚ :=
  nearest (nearest (nearest current.toNat - nearest previous.toNat) / elapsed.roundedSeconds)

/-- An exact rate times the span is the growth of the counter. -/
lemma exactRate_mul_exactSeconds (current previous : UInt64) {elapsed : Duration}
    (hpos : 0 < elapsed.nanos) :
    exactRate current previous elapsed * elapsed.exactSeconds =
      (current.toNat : ℚ) - previous.toNat := by
  refine div_mul_cancel₀ _ (div_ne_zero ?_ (by norm_num [nanosPerSecond]))
  exact_mod_cast hpos.ne'

/-- The rate before counts only if no time went by. -/
lemma rate_eq_div (current previous : UInt64) {elapsed : Float}
    (hpos : (0 : UInt64).toFloat < elapsed) (before : Float) :
    rate current previous elapsed before = (current.toFloat - previous.toFloat) / elapsed :=
  if_pos hpos

/-- The difference of two rounded counts. -/
lemma abs_nearest_sub_nearest_le (m n : UInt64) :
    |nearest m.toNat - nearest n.toNat| ≤ 2 ^ (64 : ℤ) := by
  have hm₀ := nearest_nonneg (Nat.cast_nonneg (α := ℚ) m.toNat)
  have hn₀ := nearest_nonneg (Nat.cast_nonneg (α := ℚ) n.toNat)
  have hm := nearest_toNat_le m
  have hn := nearest_toNat_le n
  rw [zpow_ofNat]
  exact abs_le.mpr ⟨by linarith, by linarith⟩

/-- The value of a rate is the exact one with its roundings. -/
lemma valueOf?_rate (current previous : UInt64) {elapsed : Duration} (h : elapsed.Fits)
    (hpos : 0 < elapsed.nanos) (before : Float) :
    valueOf? (rate current previous elapsed.toSeconds before) =
      some (roundedRate current previous elapsed) := by
  have hcount : ∀ n : UInt64, |nearest n.toNat| < limit := by
    intro n
    rw [abs_of_nonneg (nearest_nonneg (Nat.cast_nonneg _))]
    exact (nearest_toNat_le n).trans_lt two_pow_lt_limit
  have hdifference := abs_nearest_sub_nearest_le current previous
  have hrounded := abs_nearest_le_two_zpow (by norm_num) hdifference
  have hleast := Duration.two_zpow_le_roundedSeconds hpos
  have hseconds : 0 < elapsed.roundedSeconds := (two_zpow_pos _).trans_le hleast
  have hsub : valueOf? (current.toFloat - previous.toFloat) =
      some (nearest (nearest current.toNat - nearest previous.toNat)) := by
    rw [valueOf?_sub (valueOf?_toFloat current) (valueOf?_toFloat previous) (hcount _) (hcount _),
      rounded_of_abs_le (abs_lt_limit (hdifference.trans (by norm_num))).le]
  have hquotient : |nearest (nearest current.toNat - nearest previous.toNat) /
      elapsed.roundedSeconds| ≤ 2 ^ (94 : ℤ) := by
    rw [abs_div, abs_of_pos hseconds, div_le_iff₀ hseconds]
    calc |nearest (nearest current.toNat - nearest previous.toNat)| ≤ 2 ^ (64 : ℤ) := hrounded
      _ = 2 ^ (94 : ℤ) * 2 ^ (-30 : ℤ) := by norm_num
      _ ≤ 2 ^ (94 : ℤ) * elapsed.roundedSeconds :=
        mul_le_mul_of_nonneg_left hleast (two_zpow_pos _).le
  rw [rate_eq_div current previous (Duration.zero_lt_toSeconds h hpos),
    valueOf?_div hsub (Duration.valueOf?_toSeconds h) _ _ hseconds.ne',
    rounded_of_abs_le (abs_lt_limit hquotient).le]
  · rfl
  · exact abs_lt_limit (hrounded.trans (by norm_num))
  · exact abs_lt_limit ((Duration.abs_roundedSeconds_le h).trans (by norm_num))

end NodeTelemetry
