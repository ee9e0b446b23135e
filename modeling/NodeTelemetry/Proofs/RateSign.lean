import Mathlib
import NodeTelemetry.Proofs.RateValue

/-!
# The sign of a rate

A rate should tell which way its counter went.  The division keeps the sign of the difference of the
two counts, as a rounded difference of at least one is far from the smallest numbers
(`roundedRate_pos_iff`).  The counts themselves are rounded before they are subtracted, and two
different counts may be rounded to the same number: then the rate is zero, and else it tells the
direction (`tellsDirection_iff`).  Up to `2 ^ 53` no count is rounded, and counts that are more than
2048 apart are rounded to different numbers (`nearest_toNat_ne`).
-/

namespace NodeTelemetry

open Binary64

/-- A rate tells the direction of its counter: it is positive, negative or zero as the counter grew,
went back or stayed. -/
structure TellsDirection (current previous : UInt64) (r : Float) : Prop where
  pos_iff : (0 : UInt64).toFloat < r ↔ previous < current
  neg_iff : r < (0 : UInt64).toFloat ↔ current < previous
  zero_iff : valueOf? r = some 0 ↔ current = previous

/-! ## Rounded counts -/

/-- Two counts of which one is rounded above the other are at least one apart when rounded. -/
lemma one_le_nearest_sub {m n : ℕ} (h : nearest m < nearest n) : 1 ≤ nearest n - nearest m := by
  obtain ⟨j, hj⟩ := exists_int_nearest m
  obtain ⟨k, hk⟩ := exists_int_nearest n
  rw [hj, hk] at h ⊢
  have hlt : j < k := by exact_mod_cast h
  have hle : 1 ≤ k - j := by omega
  exact_mod_cast hle

/-- A count is rounded to its order among the other counts, or to the same number as another. -/
lemma lt_of_nearest_toNat_lt {m n : UInt64} (h : nearest m.toNat < nearest n.toNat) : m < n := by
  rw [UInt64.lt_iff_toNat_lt]
  by_contra hle
  have hcast : (n.toNat : ℚ) ≤ m.toNat := by exact_mod_cast not_lt.mp hle
  exact absurd h (not_lt.mpr (nearest_mono hcast))

/-- A count of 64 bits is off by at most 1024 when rounded. -/
lemma abs_nearest_toNat_sub_le (n : UInt64) : |nearest n.toNat - n.toNat| ≤ 2 ^ 10 := by
  rcases Nat.eq_zero_or_pos n.toNat with hzero | hpos
  · simp [hzero]
  · have hne : (n.toNat : ℚ) ≠ 0 := by exact_mod_cast hpos.ne'
    have hlt : |(n.toNat : ℚ)| < 2 ^ ((11 : ℤ) + 53) := by
      rw [abs_of_nonneg (Nat.cast_nonneg _)]
      exact_mod_cast n.toNat_lt
    have hplace : lastPlace n.toNat ≤ 11 := lastPlace_le hne hlt (by norm_num)
    calc |nearest n.toNat - n.toNat| ≤ 2 ^ lastPlace n.toNat / 2 := abs_nearest_sub_le_half _
      _ ≤ 2 ^ (11 : ℤ) / 2 :=
        div_le_div_of_nonneg_right (zpow_le_zpow_right₀ (by norm_num) hplace) (by norm_num)
      _ = 2 ^ 10 := by norm_num

/-- Different counts up to `2 ^ 53`, and any two that are more than 2048 apart, are rounded to
different numbers. -/
lemma nearest_toNat_ne {m n : UInt64} (hlt : m < n)
    (h : n.toNat ≤ 2 ^ 53 ∨ m.toNat + 2 ^ 11 < n.toNat) : nearest m.toNat ≠ nearest n.toNat := by
  rw [UInt64.lt_iff_toNat_lt] at hlt
  intro heq
  rcases h with hsmall | hfar
  · rw [nearest_natCast (hlt.le.trans hsmall), nearest_natCast hsmall] at heq
    exact absurd (by exact_mod_cast heq) hlt.ne
  · have hm := (abs_le.mp (abs_nearest_toNat_sub_le m)).2
    have hn := (abs_le.mp (abs_nearest_toNat_sub_le n)).1
    have hcast : (m.toNat : ℚ) + 2 ^ 11 < n.toNat := by exact_mod_cast hfar
    linarith

/-! ## The sign of a rounded quotient -/

variable {elapsed : Duration}

/-- A rate is positive exactly if the later count is rounded above the earlier one. -/
lemma roundedRate_pos_iff (current previous : UInt64) (h : elapsed.Fits)
    (hpos : 0 < elapsed.nanos) :
    0 < roundedRate current previous elapsed ↔
      nearest previous.toNat < nearest current.toNat := by
  have hseconds : 0 < elapsed.roundedSeconds :=
    (two_zpow_pos _).trans_le (Duration.two_zpow_le_roundedSeconds hpos)
  have hlimit : elapsed.roundedSeconds ≤ 2 ^ (65 : ℤ) :=
    (le_abs_self _).trans (Duration.abs_roundedSeconds_le h)
  unfold roundedRate
  constructor
  · intro hrate
    by_contra hle
    have hdifference := nearest_nonpos (sub_nonpos.mpr (not_lt.mp hle))
    have hquotient := nearest_nonpos (div_nonpos_of_nonpos_of_nonneg hdifference hseconds.le)
    exact absurd hrate (not_lt.mpr hquotient)
  · intro hlt
    -- a difference of at least one over at most `2 ^ 65` seconds is too large to vanish by rounding
    have hdifference := one_le_nearest (one_le_nearest_sub hlt)
    have hquotient : (2 : ℚ) ^ (-65 : ℤ) ≤
        nearest (nearest current.toNat - nearest previous.toNat) / elapsed.roundedSeconds := by
      rw [le_div_iff₀ hseconds]
      calc (2 : ℚ) ^ (-65 : ℤ) * elapsed.roundedSeconds ≤ 2 ^ (-65 : ℤ) * 2 ^ (65 : ℤ) :=
            mul_le_mul_of_nonneg_left hlimit (two_zpow_pos _).le
        _ = 1 := by norm_num
        _ ≤ nearest (nearest current.toNat - nearest previous.toNat) := hdifference
    exact (two_zpow_pos _).trans_le (two_zpow_le_nearest (by norm_num) hquotient)

/-- A rate changes its sign with the order of its counts. -/
lemma roundedRate_swap (current previous : UInt64) (elapsed : Duration) :
    roundedRate previous current elapsed = -roundedRate current previous elapsed := by
  unfold roundedRate
  rw [← nearest_neg, ← neg_div, ← nearest_neg, neg_sub]

/-- A rate is negative exactly if the later count is rounded below the earlier one. -/
lemma roundedRate_neg_iff (current previous : UInt64) (h : elapsed.Fits)
    (hpos : 0 < elapsed.nanos) :
    roundedRate current previous elapsed < 0 ↔
      nearest current.toNat < nearest previous.toNat := by
  rw [← roundedRate_pos_iff previous current h hpos, roundedRate_swap current previous elapsed,
    neg_pos]

/-! ## Directions -/

/-- If only equal counts are rounded to the same number, the sign of their rounded difference is
that of their difference. -/
lemma tellsDirection_of_rounded {current previous : UInt64} {r : Float}
    (hup : (0 : UInt64).toFloat < r ↔ nearest previous.toNat < nearest current.toNat)
    (hdown : r < (0 : UInt64).toFloat ↔ nearest current.toNat < nearest previous.toNat)
    (hzero : valueOf? r = some 0 ↔ nearest current.toNat = nearest previous.toNat)
    (hrounded : nearest current.toNat = nearest previous.toNat → current = previous) :
    TellsDirection current previous r := by
  have hlt : ∀ {m n : UInt64}, m < n → (nearest n.toNat = nearest m.toNat → n = m) →
      nearest m.toNat < nearest n.toNat := by
    intro m n hmn hdifferent
    have hle : (m.toNat : ℚ) ≤ n.toNat := by
      exact_mod_cast (UInt64.lt_iff_toNat_lt.mp hmn).le
    refine lt_of_le_of_ne (nearest_mono hle) fun heq => ?_
    exact UInt64.lt_irrefl m (hdifferent heq.symm ▸ hmn)
  constructor
  case pos_iff =>
    rw [hup]
    exact ⟨lt_of_nearest_toNat_lt, fun h => hlt h hrounded⟩
  case neg_iff =>
    rw [hdown]
    exact ⟨lt_of_nearest_toNat_lt, fun h => hlt h fun heq => (hrounded heq.symm).symm⟩
  case zero_iff =>
    rw [hzero]
    exact ⟨hrounded, fun h => h ▸ rfl⟩

/-- **When rates tell the direction.**  Whatever the counts, the rate over a span in which time went
by has the sign of the difference of the rounded counts.  So it tells the direction of the counter
unless two different counts are rounded to the same number, as happens for none up to `2 ^ 53` and
for none that are more than 2048 apart, and it never tells the opposite one. -/
theorem tellsDirection_iff (current previous : UInt64) (h : elapsed.Fits)
    (hpos : 0 < elapsed.nanos) (before : Float) :
    let r := rate current previous elapsed.toSeconds before
    (TellsDirection current previous r ↔
      (nearest current.toNat = nearest previous.toNat → current = previous)) ∧
    ((0 : UInt64).toFloat < r ↔ nearest previous.toNat < nearest current.toNat) ∧
    (r < (0 : UInt64).toFloat ↔ nearest current.toNat < nearest previous.toNat) ∧
    (valueOf? r = some 0 ↔ nearest current.toNat = nearest previous.toNat) ∧
    ((0 : UInt64).toFloat < r → previous < current) ∧
    (r < (0 : UInt64).toFloat → current < previous) ∧
    (current = previous → valueOf? r = some 0) ∧
    (current.toNat ≤ 2 ^ 53 → previous.toNat ≤ 2 ^ 53 → TellsDirection current previous r) ∧
    (current.toNat + 2 ^ 11 < previous.toNat ∨ previous.toNat + 2 ^ 11 < current.toNat →
      TellsDirection current previous r) := by
  intro r
  have hvalue : valueOf? r = some (roundedRate current previous elapsed) :=
    valueOf?_rate current previous h hpos before
  have hup : (0 : UInt64).toFloat < r ↔ nearest previous.toNat < nearest current.toNat := by
    rw [lt_iff valueOf?_zero hvalue, roundedRate_pos_iff current previous h hpos]
  have hdown : r < (0 : UInt64).toFloat ↔ nearest current.toNat < nearest previous.toNat := by
    rw [lt_iff hvalue valueOf?_zero, roundedRate_neg_iff current previous h hpos]
  have hzero : valueOf? r = some 0 ↔ nearest current.toNat = nearest previous.toNat := by
    rw [hvalue, Option.some.injEq, eq_iff_le_not_lt, eq_iff_le_not_lt, ← not_lt, ← not_lt,
      roundedRate_pos_iff current previous h hpos, roundedRate_neg_iff current previous h hpos]
  have htells := tellsDirection_of_rounded hup hdown hzero
  have hdifferent : (current < previous → nearest current.toNat ≠ nearest previous.toNat) →
      (previous < current → nearest previous.toNat ≠ nearest current.toNat) →
      TellsDirection current previous r := by
    refine fun hbelow habove => htells fun heq => ?_
    by_contra hne
    rcases UInt64.lt_or_lt_of_ne hne with hlt | hlt
    · exact hbelow hlt heq
    · exact habove hlt heq.symm
  refine ⟨⟨fun ht heq => ht.zero_iff.mp (hzero.mpr heq), htells⟩, hup, hdown, hzero,
    fun hr => lt_of_nearest_toNat_lt (hup.mp hr), fun hr => lt_of_nearest_toNat_lt (hdown.mp hr),
    fun heq => hzero.mpr (heq ▸ rfl), fun hcurrent hprevious => ?_, fun hfar => ?_⟩
  · exact hdifferent (fun hlt => nearest_toNat_ne hlt (.inl hprevious))
      fun hlt => nearest_toNat_ne hlt (.inl hcurrent)
  · refine hdifferent (fun hlt => nearest_toNat_ne hlt (.inr ?_))
      fun hlt => nearest_toNat_ne hlt (.inr ?_) <;>
    · rw [UInt64.lt_iff_toNat_lt] at hlt
      omega

/-- Counts that are 2048 apart can be rounded to the same number. -/
example : (0x8000000000000c00 : UInt64).toFloat = (0x8000000000001400 : UInt64).toFloat := by decide

/-- A counter that is reset from its last value to `2 ^ 53` has a negative rate, also over the
shortest span. -/
theorem tellsDirection_of_reset_counter :
    let elapsed : Duration := ⟨1⟩
    elapsed.Fits ∧ 0 < elapsed.nanos ∧
      TellsDirection 9007199254740992 18446744073709551615
        (rate 9007199254740992 18446744073709551615 elapsed.toSeconds (0 : UInt64).toFloat) := by
  intro elapsed
  have hfits : elapsed.Fits := by decide
  have hpos : 0 < elapsed.nanos := by decide
  obtain ⟨-, -, -, -, -, -, -, -, hfar⟩ :=
    tellsDirection_iff 9007199254740992 18446744073709551615 hfits hpos (0 : UInt64).toFloat
  exact ⟨hfits, hpos, hfar (.inl (by decide))⟩

/-- A counter that goes back from `2 ^ 53 + 1` by one, or grows to it by one, has the rate zero. -/
theorem not_tellsDirection_of_step_at_two_pow_53 :
    let elapsed := Duration.ofSecs 1
    let r := rate 9007199254740992 9007199254740993 elapsed.toSeconds (0 : UInt64).toFloat
    let s := rate 9007199254740993 9007199254740992 elapsed.toSeconds (0 : UInt64).toFloat
    elapsed.Fits ∧ 0 < elapsed.nanos ∧
      valueOf? r = some 0 ∧ ¬ TellsDirection 9007199254740992 9007199254740993 r ∧
      valueOf? s = some 0 ∧ ¬ TellsDirection 9007199254740993 9007199254740992 s := by
  intro elapsed r s
  have hr : r = (0 : UInt64).toFloat := by decide +kernel
  have hs : s = (0 : UInt64).toFloat := by decide +kernel
  refine ⟨by decide, by decide, ?_, fun h => ?_, ?_, fun h => ?_⟩
  · rw [hr, valueOf?_zero]
  · rw [hr] at h
    exact absurd (h.zero_iff.mp valueOf?_zero) (by decide)
  · rw [hs, valueOf?_zero]
  · rw [hs] at h
    exact absurd (h.zero_iff.mp valueOf?_zero) (by decide)

end NodeTelemetry
