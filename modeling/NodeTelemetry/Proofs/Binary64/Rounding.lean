import Mathlib
import NodeTelemetry.Proofs.Binary64.Nearest
import NodeTelemetry.Proofs.Binary64.Decoding

/-!
# Rounding a result

An operation computes a mantissa, an exponent, and how much of the exact result lies below the
mantissa.  The mantissa is shifted down to the last place; two bits keep what is lost on the way
(`Truncates`), and that is enough to round as `nearest` does.

The result of an operation is described by `Rounds`: a canonical number of the value
`nearest x`.  Packed, it has the value `rounded x`, where what is out of range is infinite.
-/

namespace NodeTelemetry

namespace Binary64

open Float.Model Float.Model.UnpackedFloat

/-! ## Mantissas with their lost bits -/

/-- Twice the mantissa, with the round bit as its last bit. -/
def halves (em : ExtendedMantissa) : ℕ := 2 * em.mantissa + em.roundBit.toNat

/-- The mantissa and the round bit are a number cut off below the half, and the sticky bit says
whether anything was cut off. -/
structure Truncates (em : ExtendedMantissa) (y : ℚ) : Prop where
  le : (halves em : ℚ) ≤ 2 * y
  lt : 2 * y < halves em + 1
  sticky : em.stickyBit = true ↔ (halves em : ℚ) < 2 * y

namespace Truncates

variable {em : ExtendedMantissa} {y : ℚ}

lemma mantissa_le (h : Truncates em y) : (em.mantissa : ℚ) ≤ y := by
  have hhalves : (2 * em.mantissa : ℚ) ≤ halves em := by
    exact_mod_cast Nat.le_add_right _ _
  linarith [h.le]

lemma lt_mantissa_add_one (h : Truncates em y) : y < em.mantissa + 1 := by
  have hbit : em.roundBit.toNat ≤ 1 := Bool.toNat_le _
  have hhalves : (halves em : ℚ) ≤ 2 * em.mantissa + 1 := by
    exact_mod_cast Nat.add_le_add_left hbit _
  linarith [h.lt]

lemma floor_eq (h : Truncates em y) : ⌊y⌋ = (em.mantissa : ℤ) :=
  Int.floor_eq_iff.mpr ⟨by exact_mod_cast h.mantissa_le, by exact_mod_cast h.lt_mantissa_add_one⟩

/-- The two bits decide how the number is rounded. -/
lemma roundedMantissa_eq (h : Truncates em y) : (em.roundedMantissa : ℤ) = roundEven y := by
  have hfract : Int.fract y = y - em.mantissa := by
    rw [Int.fract, h.floor_eq]
    norm_cast
  have hle := h.le
  have hlt := h.lt
  have hsticky := h.sticky
  unfold roundEven
  rw [hfract, h.floor_eq]
  obtain ⟨m, r, s⟩ := em
  cases r <;> cases s <;>
    simp only [halves, Bool.toNat_true, Bool.toNat_false, Nat.add_zero, Nat.cast_mul, Nat.cast_add,
      Nat.cast_ofNat, Nat.cast_one, Bool.false_eq_true, false_iff, true_iff, not_lt,
      ExtendedMantissa.roundedMantissa, ExtendedMantissa.accuracy,
      Accuracy.roundToNearestEven] at hle hlt hsticky ⊢
  · rw [if_pos (by linarith)]
  · rw [if_pos (by linarith)]
  · rw [if_neg (by linarith), if_neg (by linarith)]
    push_cast
    rfl
  · rw [if_neg (by linarith), if_pos (by linarith)]

/-- Shifting by one place halves the number. -/
lemma shiftRightOne (h : Truncates em y) : Truncates em.shiftRightOne (y / 2) := by
  have hhalves : halves em.shiftRightOne = em.mantissa := by
    unfold halves ExtendedMantissa.shiftRightOne
    rcases Nat.mod_two_eq_zero_or_one em.mantissa with h | h <;> simp [h] <;> omega
  have htwice : 2 * (y / 2) = y := by ring
  refine ⟨?_, ?_, ?_⟩
  · rw [hhalves, htwice]
    exact h.mantissa_le
  · rw [hhalves, htwice]
    exact h.lt_mantissa_add_one
  · rw [hhalves, htwice]
    have hle := h.le
    have hsticky := h.sticky
    obtain ⟨m, r, s⟩ := em
    cases r <;> cases s <;>
      simp only [halves, ExtendedMantissa.shiftRightOne, Bool.toNat_true, Bool.toNat_false,
        Bool.or_false, Bool.or_true, Bool.false_eq_true, false_iff, true_iff,
        not_lt] at hle hsticky ⊢ <;>
      push_cast at hle hsticky <;> linarith

/-- Shifting halves the number once for each place. -/
lemma shiftRight (h : Truncates em y) (n : ℕ) : Truncates (em >>> n) (y / 2 ^ n) := by
  induction n with
  | zero =>
    rw [pow_zero, div_one]
    exact h
  | succ n ih =>
    have hstep : y / 2 ^ (n + 1) = y / 2 ^ n / 2 := by rw [pow_succ, div_div]
    rw [hstep]
    exact ih.shiftRightOne

/-- A mantissa from which nothing is lost. -/
lemma exact (m : ℕ) : Truncates (.ofMantissaAndAccuracy m .exact) m := by
  refine ⟨?_, ?_, ?_⟩ <;> simp [halves, ExtendedMantissa.ofMantissaAndAccuracy]

/-- The accuracy of a quotient tells the lost bits of its mantissa. -/
lemma quotient (n : ℕ) {d : ℕ} (hd : 0 < d) :
    Truncates (.ofMantissaAndAccuracy (n / d) (accuracyOfFraction (n % d) d)) (n / d : ℚ) := by
  have hdq : (0 : ℚ) < d := by exact_mod_cast hd
  have hrest : n % d < d := Nat.mod_lt n hd
  obtain ⟨f, hf⟩ : ∃ f : ℚ, f = (n % d : ℕ) / d := ⟨_, rfl⟩
  have hsplit : (n / d : ℚ) = (n / d : ℕ) + f := by
    have hn : ((d * (n / d) + n % d : ℕ) : ℚ) = n := by rw [Nat.div_add_mod]
    rw [hf, ← hn, div_eq_iff hdq.ne', add_mul, div_mul_cancel₀ _ hdq.ne']
    push_cast
    ring
  have hone : f < 1 := by
    rw [hf, div_lt_one hdq]
    exact_mod_cast hrest
  rw [hsplit]
  unfold accuracyOfFraction
  rcases Nat.eq_zero_or_pos (n % d) with hzero | hpos
  · have hfzero : f = 0 := by rw [hf, hzero, Nat.cast_zero, zero_div]
    rw [if_pos hzero, hfzero, add_zero]
    exact exact _
  have hfpos : 0 < f := by
    rw [hf]
    exact div_pos (by exact_mod_cast hpos) hdq
  have htwice : 2 * f = ((2 * (n % d) : ℕ) : ℚ) / d := by
    rw [hf]
    push_cast
    ring
  rw [if_neg hpos.ne']
  rcases lt_trichotomy (2 * (n % d)) d with hcmp | hcmp | hcmp
  · have hhalf : 2 * f < 1 := by
      rw [htwice, div_lt_one hdq]
      exact_mod_cast hcmp
    rw [Nat.compare_eq_lt.mpr hcmp]
    refine ⟨?_, ?_, ?_⟩ <;> simp [halves, ExtendedMantissa.ofMantissaAndAccuracy] <;> linarith
  · have hhalf : 2 * f = 1 := by
      rw [htwice, div_eq_one_iff_eq hdq.ne']
      exact_mod_cast hcmp
    rw [Nat.compare_eq_eq.mpr hcmp]
    refine ⟨?_, ?_, ?_⟩ <;> simp [halves, ExtendedMantissa.ofMantissaAndAccuracy] <;> linarith
  · have hhalf : 1 < 2 * f := by
      rw [htwice, one_lt_div hdq]
      exact_mod_cast hcmp
    rw [Nat.compare_eq_gt.mpr hcmp]
    refine ⟨?_, ?_, ?_⟩ <;> simp [halves, ExtendedMantissa.ofMantissaAndAccuracy] <;> linarith

end Truncates

/-! ## The place to which a result is shifted -/

lemma targetExponent_eq (m : ℕ) (e : ℤ) :
    Format.binary64.targetExponent (totalExponent m e) = max (m.log2 + e - 52) (-1074) := by
  change max ((m.log2 : ℤ) + 1 + e - 53) (3 - 2 ^ 10 - 53) = _
  omega

/-- The last place of a number, from the mantissa that is left when it is cut off. -/
lemma lastPlace_eq {m : ℕ} {e : ℤ} {x : ℚ} (hm : 0 < m) (hle : m * 2 ^ e ≤ x)
    (hlt : x < (m + 1) * 2 ^ e) : lastPlace x = max (m.log2 + e - 52) (-1074) := by
  have hpow : (2 : ℚ) ^ ((m.log2 : ℤ) + e) ≤ x := by
    have hself : 2 ^ m.log2 ≤ m := Nat.log2_self_le hm.ne'
    rw [two_zpow_add, zpow_natCast]
    refine le_trans (mul_le_mul_of_nonneg_right ?_ (two_zpow_pos e).le) hle
    exact_mod_cast hself
  have hxpos : 0 < x := (two_zpow_pos _).trans_le hpow
  have hnext : x < (2 : ℚ) ^ ((m.log2 : ℤ) + e + 1) := by
    have hself : m + 1 ≤ 2 ^ (m.log2 + 1) := Nat.lt_log2_self
    have hexp : (m.log2 : ℤ) + e + 1 = ((m.log2 + 1 : ℕ) : ℤ) + e := by push_cast; ring
    rw [hexp, two_zpow_add, zpow_natCast]
    refine hlt.trans_le (mul_le_mul_of_nonneg_right ?_ (two_zpow_pos e).le)
    exact_mod_cast hself
  have hlow : (m.log2 : ℤ) + e ≤ Int.log 2 x :=
    (Int.zpow_le_iff_le_log (by norm_num) hxpos).mp (by exact_mod_cast hpow)
  have hhigh : Int.log 2 x < (m.log2 : ℤ) + e + 1 :=
    (Int.lt_zpow_iff_log_lt (by norm_num) hxpos).mp (by exact_mod_cast hnext)
  unfold lastPlace
  rw [abs_of_pos hxpos]
  omega

/-- A number cut off at or below its last place is shifted to that place. -/
lemma targetExponent_eq_lastPlace {m : ℕ} {e : ℤ} {x : ℚ} (hx : 0 < x) (hle : m * 2 ^ e ≤ x)
    (hlt : x < (m + 1) * 2 ^ e) (he : e ≤ lastPlace x) :
    Format.binary64.targetExponent (totalExponent m e) = lastPlace x := by
  rw [targetExponent_eq]
  rcases Nat.eq_zero_or_pos m with rfl | hm
  · -- Nothing is left above the exponent, so the last place is the least one.
    have hleast : lastPlace x = -1074 := by
      by_contra hne
      have hfull := two_zpow_lastPlace_le_abs (lt_of_le_of_ne (neg_le_lastPlace x) (Ne.symm hne))
        hx.ne'
      have hsmall : x < 2 ^ e := by simpa using hlt
      have hpow : (2 : ℚ) ^ e ≤ 2 ^ (lastPlace x + 52) :=
        zpow_le_zpow_right₀ (by norm_num) (by omega)
      rw [abs_of_pos hx] at hfull
      linarith
    rw [hleast] at he ⊢
    simp only [Nat.log2_zero, Nat.cast_zero]
    omega
  · exact (lastPlace_eq hm hle hlt).symm

/-- Shifting up to a place ends there. -/
lemma shiftToTargetExponent_of_le {m : ℕ} {e t : ℤ} (acc : Accuracy)
    (ht : Format.binary64.targetExponent (totalExponent m e) = t) (he : e ≤ t) :
    shiftToTargetExponent Format.binary64 m e acc =
      (ExtendedMantissa.ofMantissaAndAccuracy m acc >>> (t - e).toNat, t) := by
  unfold shiftToTargetExponent shiftToExponent
  simp only [ht]
  congr 1
  omega

/-- A mantissa at or above its place is not shifted. -/
lemma shiftToTargetExponent_of_ge {m : ℕ} {e t : ℤ} (acc : Accuracy)
    (ht : Format.binary64.targetExponent (totalExponent m e) = t) (he : t ≤ e) :
    shiftToTargetExponent Format.binary64 m e acc = (.ofMantissaAndAccuracy m acc, e) := by
  have hzero : (t - e).toNat = 0 := by omega
  unfold shiftToTargetExponent shiftToExponent
  simp only [ht, hzero, Nat.cast_zero, add_zero]
  rfl

/-- A rounded mantissa that has grown to 54 bits is shifted once more; its lost bit is zero. -/
lemma canonical_of_shiftToTargetExponent {m : ℕ} {e : ℤ} (hm : m ≤ 2 ^ 53) (he : -1074 ≤ e)
    (hfull : 2 ^ 52 ≤ m ∨ e = -1074) :
    ∃ em e', shiftToTargetExponent Format.binary64 m e .exact = (em, e') ∧
      Canonical em.mantissa e' ∧ (em.mantissa : ℚ) * 2 ^ e' = m * 2 ^ e := by
  rcases hm.lt_or_eq with hlt | rfl
  · have hlog : m.log2 ≤ 52 := by
      rcases Nat.eq_zero_or_pos m with rfl | hpos
      · simp
      · have := (Nat.log2_lt hpos.ne').mpr hlt
        omega
    exact ⟨_, _, shiftToTargetExponent_of_ge _ (targetExponent_eq m e) (by omega),
      ⟨hlt, he, hfull⟩, rfl⟩
  · have hlog : (2 ^ 53 : ℕ).log2 = 53 := Nat.log2_two_pow
    have htarget : Format.binary64.targetExponent (totalExponent (2 ^ 53) e) = e + 1 := by
      rw [targetExponent_eq, hlog]
      omega
    have hone : (e + 1 - e).toNat = 1 := by omega
    have hshift := shiftToTargetExponent_of_le .exact htarget (by omega)
    rw [hone] at hshift
    refine ⟨_, _, hshift, ⟨by decide, by omega, Or.inl (by decide)⟩, ?_⟩
    change ((2 ^ 53 / 2 : ℕ) : ℚ) * _ = _
    rw [two_zpow_add]
    norm_num
    ring

/-- A positive number that is cut off at or below its last place is shifted to that place. -/
lemma exists_shift_to_lastPlace {m : ℕ} {e : ℤ} {acc : Accuracy} {x : ℚ} (hx : 0 < x)
    (h : Truncates (.ofMantissaAndAccuracy m acc) (x / 2 ^ e)) (he : e ≤ lastPlace x) :
    ∃ em, shiftToTargetExponent Format.binary64 m e acc = (em, lastPlace x) ∧
      Truncates em (x / 2 ^ lastPlace x) := by
  have hepos := two_zpow_pos e
  have hmantissa : (ExtendedMantissa.ofMantissaAndAccuracy m acc).mantissa = m := by
    unfold ExtendedMantissa.ofMantissaAndAccuracy
    split <;> rfl
  have hle : m * 2 ^ e ≤ x := by
    have := h.mantissa_le
    rwa [hmantissa, le_div_iff₀ hepos] at this
  have hlt : x < (m + 1) * 2 ^ e := by
    have := h.lt_mantissa_add_one
    rwa [hmantissa, div_lt_iff₀ hepos] at this
  refine ⟨_, shiftToTargetExponent_of_le acc (targetExponent_eq_lastPlace hx hle hlt he) he, ?_⟩
  have hexp : x / 2 ^ lastPlace x = x / 2 ^ e / 2 ^ (lastPlace x - e).toNat := by
    rw [div_div, ← zpow_natCast, ← two_zpow_add]
    congr 2
    omega
  rw [hexp]
  exact h.shiftRight _

/-! ## Rounded results -/

/-- An unpacked result is the number nearest to a magnitude, with a sign. -/
def Rounds (f : UnpackedFloat) (negative : Bool) (x : ℚ) : Prop :=
  ∃ m e, ofUnpacked f = .finite negative m e ∧ Canonical m e ∧ (m : ℚ) * 2 ^ e = nearest x

/-- A positive number that is cut off at or below its last place is rounded as `nearest` does. -/
lemma rounds_roundWithAccuracy (s : Sign) {m : ℕ} {e : ℤ} {acc : Accuracy} {x : ℚ} (hx : 0 < x)
    (h : Truncates (.ofMantissaAndAccuracy m acc) (x / 2 ^ e)) (he : e ≤ lastPlace x) :
    Rounds (roundWithAccuracy Format.binary64 s m e acc) (isNegative s) x := by
  obtain ⟨em, hshift, htrunc⟩ := exists_shift_to_lastPlace hx h he
  have hround := htrunc.roundedMantissa_eq
  have hnearest : (em.roundedMantissa : ℚ) * 2 ^ lastPlace x = nearest x := by
    unfold nearest
    rw [← hround]
    norm_cast
  have hmost : em.roundedMantissa ≤ 2 ^ 53 := by
    have h := roundEven_div_lastPlace_le x
    rw [← hround] at h
    exact_mod_cast h
  have hfull : 2 ^ 52 ≤ em.roundedMantissa ∨ lastPlace x = -1074 := by
    rcases (neg_le_lastPlace x).lt_or_eq with hlarge | hleast
    · have h := le_roundEven_div_lastPlace hlarge hx
      rw [← hround] at h
      exact Or.inl (by exact_mod_cast h)
    · exact Or.inr hleast.symm
  obtain ⟨em', e', hshift', hcanonical, hvalue⟩ :=
    canonical_of_shiftToTargetExponent hmost (neg_le_lastPlace x) hfull
  have hresult := hvalue.trans hnearest
  unfold roundWithAccuracy
  simp only [hshift, hshift']
  split_ifs with hzero
  · refine ⟨0, -1074, rfl, canonical_zero, ?_⟩
    rw [← hresult, hzero]
    simp
  · exact ⟨_, _, rfl, hcanonical, hresult⟩

/-- A positive number given exactly is rounded as `nearest` does, wherever its mantissa ends. -/
lemma rounds_round (s : Sign) {m : ℕ} (hm : 0 < m) (e : ℤ) :
    Rounds (UnpackedFloat.round Format.binary64 s m e) (isNegative s) (m * 2 ^ e) := by
  have hepos := two_zpow_pos e
  have hmpos : (0 : ℚ) < m := by exact_mod_cast hm
  have hplace : lastPlace (m * 2 ^ e) = max (m.log2 + e - 52) (-1074) :=
    lastPlace_eq hm le_rfl (mul_lt_mul_of_pos_right (lt_add_one _) hepos)
  unfold UnpackedFloat.round decreaseExponent
  simp only [targetExponent_eq, ← hplace]
  obtain ⟨k, hk⟩ : ∃ k, k = (e - lastPlace (m * 2 ^ e)).toNat := ⟨_, rfl⟩
  rw [← hk]
  refine rounds_roundWithAccuracy s (mul_pos hmpos hepos) ?_ (by omega)
  have hquot : (m : ℚ) * 2 ^ e / 2 ^ (e - (k : ℤ)) = ((m <<< k : ℕ) : ℚ) := by
    have hexp : e = (k : ℤ) + (e - k) := by ring
    rw [div_eq_iff (two_zpow_pos _).ne', Nat.shiftLeft_eq]
    conv_lhs => rw [hexp, two_zpow_add, zpow_natCast]
    push_cast
    ring
  rw [hquot]
  exact .exact _

/-! ## Packed results -/

/-- A rational held between the two infinities. -/
def cut (x : ℚ) : ℚ := max (-limit) (min limit x)

/-- The value of a rounded result: the nearest number, or infinite where that is out of range. -/
def rounded (x : ℚ) : ℚ := cut (nearest x)

lemma limit_pos : 0 < limit := by
  unfold limit
  positivity

/-- What is in range is not cut. -/
lemma cut_of_abs_le {x : ℚ} (h : |x| ≤ limit) : cut x = x := by
  obtain ⟨h₁, h₂⟩ := abs_le.mp h
  unfold cut
  rw [min_eq_right h₂, max_eq_right h₁]

lemma limit_eq : limit = 2 ^ (1024 : ℤ) := rfl

/-- A number in range is rounded in range. -/
lemma rounded_of_abs_le {x : ℚ} (h : |x| ≤ limit) : rounded x = nearest x := by
  rw [limit_eq] at h
  refine cut_of_abs_le ?_
  rw [limit_eq]
  exact abs_nearest_le_two_zpow (by norm_num) h

/-- A magnitude that is out of range is cut at the infinity of its sign. -/
lemma cut_signed_of_le (negative : Bool) {x : ℚ} (h : limit ≤ x) :
    cut (signed negative x) = signed negative limit := by
  have hpos := limit_pos
  cases negative <;> simp only [signed, cut, Bool.false_eq_true, if_false, if_true]
  · rw [min_eq_left h, max_eq_right (by linarith)]
  · rw [min_eq_right (by linarith), max_eq_left (by linarith)]

lemma signed_nearest (negative : Bool) (x : ℚ) :
    signed negative (nearest x) = nearest (signed negative x) := by
  cases negative <;> simp [signed, nearest_neg]

/-- A canonical number in range is below the infinities. -/
lemma Canonical.lt_limit {m : ℕ} {e : ℤ} (h : Canonical m e) (he : e ≤ 971) :
    (m : ℚ) * 2 ^ e < limit := by
  have hm : (m : ℚ) < 2 ^ 53 := by exact_mod_cast h.lt
  calc (m : ℚ) * 2 ^ e < 2 ^ 53 * 2 ^ e := mul_lt_mul_of_pos_right hm (two_zpow_pos e)
    _ ≤ 2 ^ 53 * 2 ^ (971 : ℤ) :=
      mul_le_mul_of_nonneg_left (zpow_le_zpow_right₀ (by norm_num) he) (by norm_num)
    _ = limit := by
      rw [limit, zpow_ofNat, ← pow_add]

/-- A canonical number out of range is at least the infinity. -/
lemma Canonical.limit_le {m : ℕ} {e : ℤ} (h : Canonical m e) (he : 971 < e) :
    limit ≤ (m : ℚ) * 2 ^ e := by
  have hm : (2 ^ 52 : ℚ) ≤ m := by exact_mod_cast h.full.resolve_right (by omega)
  calc limit = 2 ^ 52 * 2 ^ (972 : ℤ) := by
        rw [limit, zpow_ofNat, ← pow_add]
    _ ≤ 2 ^ 52 * 2 ^ e :=
      mul_le_mul_of_nonneg_left (zpow_le_zpow_right₀ (by norm_num) he) (by norm_num)
    _ ≤ (m : ℚ) * 2 ^ e := mul_le_mul_of_nonneg_right hm (two_zpow_pos e).le

/-- The value of a packed result is the rounded exact one. -/
lemma valueOf?_pack {f : UnpackedFloat} {negative : Bool} {x : ℚ} (h : Rounds f negative x) :
    valueOf? (.ofModel (.pack f)) = some (rounded (signed negative x)) := by
  obtain ⟨m, e, hf, hcanonical, hvalue⟩ := h
  unfold valueOf? rounded
  rw [ofFloat_pack hf hcanonical, ← signed_nearest, ← hvalue]
  split_ifs with hlarge
  · rw [cut_signed_of_le negative (hcanonical.limit_le hlarge)]
    rfl
  · have hnonneg : (0 : ℚ) ≤ m * 2 ^ e := mul_nonneg (Nat.cast_nonneg m) (two_zpow_pos e).le
    rw [cut_of_abs_le]
    · rfl
    · rw [abs_signed, abs_of_nonneg hnonneg]
      exact (hcanonical.lt_limit (not_lt.mp hlarge)).le

end Binary64

end NodeTelemetry
