import Mathlib
import NodeTelemetry.Percentile
import NodeTelemetry.Proofs.Binary64.Arithmetic

/-!
# The rank of a percentile

The rank is computed with three roundings: the number of samples, its product with the percentile,
and the hundredth part of that.  `toNat_rankOf` says so in exact arithmetic, for every percentile.
The rank grows with the percentile (`rankOf_mono`) and is exact for few samples
(`rankOf_natCast`).  Up to percentile 99 it is never above the number of samples
(`rankOf_le_total`); at percentile 100 it can be, from 5764607523034242 samples on
(`rankOf_le_of_lt`).
-/

namespace NodeTelemetry

open Binary64

/-! ## The percentile held in range -/

/-- A rational held between 0 and 100. -/
def clampHundred (a : ℚ) : ℚ := max 0 (min 100 a)

lemma clampHundred_nonneg (a : ℚ) : 0 ≤ clampHundred a := le_max_left _ _

lemma clampHundred_le (a : ℚ) : clampHundred a ≤ 100 :=
  max_le (by norm_num) (min_le_left _ _)

lemma clampHundred_mono : Monotone clampHundred :=
  fun _ _ h => max_le_max le_rfl (min_le_min le_rfl h)

lemma clampHundred_of_mem {a : ℚ} (h₀ : 0 ≤ a) (h₁ : a ≤ 100) : clampHundred a = a := by
  rw [clampHundred, min_eq_right h₁, max_eq_right h₀]

lemma valueOf?_hundred : valueOf? (100 : UInt64).toFloat = some 100 :=
  valueOf?_toFloat_of_le (by decide)

/-- A percentile is held between 0 and 100 without rounding. -/
lemma valueOf?_clampPercentile {p : Float} {a : ℚ} (hp : valueOf? p = some a) :
    valueOf? (clampPercentile p) = some (clampHundred a) := by
  unfold clampPercentile clampHundred
  simp only [lt_iff hp valueOf?_zero, lt_iff valueOf?_hundred hp]
  split_ifs with h₁ h₂
  · rw [valueOf?_zero, min_eq_right (by linarith), max_eq_left h₁.le]
  · rw [valueOf?_hundred, min_eq_left h₂.le, max_eq_right (by norm_num)]
  · rw [hp, min_eq_right (not_lt.mp h₂), max_eq_right (not_lt.mp h₁)]

/-- What is not a number is left alone. -/
lemma valueOf?_clampPercentile_eq_none {p : Float} (hp : valueOf? p = none) :
    valueOf? (clampPercentile p) = none := by
  unfold clampPercentile
  rw [if_neg (not_lt_of_eq_none (Or.inl hp)), if_neg (not_lt_of_eq_none (Or.inr hp))]
  exact hp

/-! ## The rank in exact arithmetic -/

/-- The part of a number of samples at a percentile, with the roundings of the three steps. -/
def roundedShare (n : ℕ) (a : ℚ) : ℚ := nearest (nearest (nearest n * a) / 100)

lemma roundedShare_nonneg (n : ℕ) {a : ℚ} (ha : 0 ≤ a) : 0 ≤ roundedShare n a :=
  nearest_nonneg (div_nonneg
    (nearest_nonneg (mul_nonneg (nearest_nonneg (Nat.cast_nonneg n)) ha)) (by norm_num))

lemma roundedShare_mono (n : ℕ) {a b : ℚ} (hab : a ≤ b) : roundedShare n a ≤ roundedShare n b :=
  nearest_mono (div_le_div_of_nonneg_right
    (nearest_mono (mul_le_mul_of_nonneg_left hab (nearest_nonneg (Nat.cast_nonneg n))))
    (by norm_num))

/-- What is far below the infinities is rounded in range. -/
lemma rounded_of_nonneg_of_le {x : ℚ} (h₀ : 0 ≤ x) (h₁ : x ≤ 2 ^ (71 : ℤ)) :
    rounded x = nearest x := by
  refine rounded_of_abs_le ?_
  rw [abs_of_nonneg h₀, limit_eq]
  exact h₁.trans (zpow_le_zpow_right₀ (by norm_num) (by norm_num))

/-- The quotient from which the rank is cut has the rounded share as its value. -/
lemma valueOf?_share (total : UInt64) {p : Float} {a : ℚ} (hp : valueOf? p = some a) (h₀ : 0 ≤ a)
    (h₁ : a ≤ 100) :
    valueOf? (total.toFloat * p / (100 : UInt64).toFloat) =
      some (roundedShare total.toNat a) := by
  have hlimit : (2 : ℚ) ^ (71 : ℤ) < limit := by
    rw [limit, zpow_ofNat]
    exact pow_lt_pow_right₀ (by norm_num) (by norm_num)
  have hn₀ : 0 ≤ nearest total.toNat := nearest_nonneg (Nat.cast_nonneg _)
  have hproduct₀ : 0 ≤ nearest total.toNat * a := mul_nonneg hn₀ h₀
  have hproduct₁ : nearest total.toNat * a ≤ 2 ^ (71 : ℤ) := by
    calc nearest total.toNat * a ≤ 2 ^ 64 * 100 :=
          mul_le_mul (nearest_toNat_le _) h₁ h₀ (by norm_num)
      _ ≤ 2 ^ (71 : ℤ) := by norm_num
  have hrounded₀ : 0 ≤ nearest (nearest total.toNat * a) := nearest_nonneg hproduct₀
  have hrounded₁ : nearest (nearest total.toNat * a) ≤ 2 ^ (71 : ℤ) :=
    nearest_le_two_zpow (by norm_num) hproduct₁
  have hmul : valueOf? (total.toFloat * p) = some (nearest (nearest total.toNat * a)) := by
    rw [valueOf?_mul (valueOf?_toFloat total) hp, rounded_of_nonneg_of_le hproduct₀ hproduct₁]
    · rw [abs_of_nonneg hn₀]
      exact (nearest_toNat_le _).trans_lt two_pow_lt_limit
    · rw [abs_of_nonneg h₀]
      exact h₁.trans_lt (lt_trans (by norm_num) two_pow_lt_limit)
  rw [valueOf?_div hmul valueOf?_hundred _ _ (by norm_num)]
  · rw [rounded_of_nonneg_of_le (div_nonneg hrounded₀ (by norm_num))]
    · rfl
    · exact (div_le_self hrounded₀ (by norm_num)).trans hrounded₁
  · rw [abs_of_nonneg hrounded₀]
    exact hrounded₁.trans_lt hlimit
  · rw [abs_of_nonneg (by norm_num)]
    exact lt_trans (by norm_num) two_pow_lt_limit

/-- A number held at one or above. -/
lemma toNat_of_lt_one (n : UInt64) : (if n < 1 then 1 else n).toNat = max 1 n.toNat := by
  have hone : n < 1 ↔ n.toNat < 1 := UInt64.lt_iff_toNat_lt
  split_ifs with h
  · rw [hone] at h
    rw [max_eq_left h.le]
    rfl
  · rw [hone] at h
    rw [max_eq_right (not_lt.mp h)]

/-- The rank is the rounded share, cut to an integer of 64 bits, and at least one. -/
lemma toNat_rankOf (total : UInt64) {p : Float} {a : ℚ} (hp : valueOf? p = some a) :
    (rankOf total p).toNat =
      max 1 (min ⌊roundedShare total.toNat (clampHundred a)⌋₊ (UInt64.size - 1)) := by
  unfold rankOf
  rw [toNat_of_lt_one, toNat_toUInt64 (valueOf?_share total (valueOf?_clampPercentile hp)
    (clampHundred_nonneg a) (clampHundred_le a))]

/-- The rank of what is not a number is one. -/
lemma rankOf_of_eq_none (total : UInt64) {p : Float} (hp : valueOf? p = none) :
    rankOf total p = 1 := by
  unfold rankOf
  simp only
  rw [toUInt64_of_eq_none (valueOf?_div_eq_none
    (valueOf?_mul_eq_none (valueOf?_clampPercentile_eq_none hp)))]
  rfl

/-- A greater percentile has at least the rank. -/
lemma rankOf_mono (total : UInt64) {p q : Float} (hpq : p ≤ q) :
    (rankOf total p).toNat ≤ (rankOf total q).toNat := by
  obtain ⟨a, b, hp, hq, hab⟩ := exists_le_of_le hpq
  rw [toNat_rankOf total hp, toNat_rankOf total hq]
  exact max_le_max le_rfl (min_le_min
    (Nat.floor_mono (roundedShare_mono _ (clampHundred_mono hab))) le_rfl)

/-- There is no rank below one. -/
lemma one_le_rankOf (total : UInt64) (p : Float) : 1 ≤ (rankOf total p).toNat := by
  unfold rankOf
  rw [toNat_of_lt_one]
  exact le_max_left _ _

/-! ## The rank of few samples -/

/-- Above the subnormal numbers a rounding adds at most one part in `2 ^ 53`. -/
lemma nearest_le_mul {x : ℚ} (hx : 1 / 100 ≤ x) : nearest x ≤ x * (1 + 1 / 2 ^ 53) := by
  have hleast : (2 : ℚ) ^ (-1022 : ℤ) ≤ 2 ^ (-7 : ℤ) :=
    zpow_le_zpow_right₀ (by norm_num) (by norm_num)
  have hnormal : (2 : ℚ) ^ (-1022 : ℤ) ≤ |x| := by
    rw [abs_of_nonneg (le_trans (by norm_num) hx)]
    refine hleast.trans (le_trans ?_ hx)
    norm_num
  have herror := (abs_le.mp (abs_nearest_sub_le hnormal)).2
  rw [abs_of_nonneg (le_trans (by norm_num) hx)] at herror
  linarith

/-- The hundredth part of an integer is cut as if it had not been rounded, while the error is less
than one hundredth. -/
lemma floor_nearest_div_hundred {n : ℕ} (hn : n ≤ 100 * 2 ^ 46) :
    ⌊nearest ((n : ℚ) / 100)⌋₊ = n / 100 := by
  have hsplit : (n : ℚ) = 100 * (n / 100 : ℕ) + (n % 100 : ℕ) := by
    exact_mod_cast (Nat.div_add_mod n 100).symm
  have hrest : ((n % 100 : ℕ) : ℚ) ≤ 99 := by
    exact_mod_cast Nat.le_of_lt_succ (Nat.mod_lt n (by norm_num))
  have hrest₀ : (0 : ℚ) ≤ (n % 100 : ℕ) := Nat.cast_nonneg _
  have hlow : ((n / 100 : ℕ) : ℚ) ≤ nearest (n / 100) := by
    have hquotient : n / 100 ≤ 2 ^ 53 := by omega
    rw [← nearest_natCast hquotient]
    exact nearest_mono (by linarith)
  have hhigh : nearest ((n : ℚ) / 100) < (n / 100 : ℕ) + 1 := by
    rcases Nat.eq_zero_or_pos n with rfl | hpos
    · norm_num
    · have hpos' : (1 : ℚ) ≤ n := by exact_mod_cast hpos
      have hbound : (n : ℚ) ≤ 100 * 2 ^ 46 := by exact_mod_cast hn
      have hmul := nearest_le_mul (x := (n : ℚ) / 100) (by linarith)
      linarith
  refine (Nat.floor_eq_iff (le_trans (Nat.cast_nonneg _) hlow)).mpr ⟨hlow, ?_⟩
  exact hhigh

/-- For few samples and an integer percentile no step of the rank has a visible error. -/
lemma rankOf_natCast {total k : UInt64} (htotal : total.toNat ≤ 2 ^ 46) (hk : k.toNat ≤ 100) :
    (rankOf total k.toFloat).toNat = max 1 (total.toNat * k.toNat / 100) := by
  have hvalue : valueOf? k.toFloat = some (k.toNat : ℚ) :=
    valueOf?_toFloat_of_le (hk.trans (by norm_num))
  have hproduct : total.toNat * k.toNat ≤ 100 * 2 ^ 46 := by
    rw [Nat.mul_comm]
    exact Nat.mul_le_mul hk htotal
  have hshare : roundedShare total.toNat k.toNat =
      nearest (((total.toNat * k.toNat : ℕ) : ℚ) / 100) := by
    unfold roundedShare
    rw [nearest_natCast (htotal.trans (by norm_num)), ← Nat.cast_mul,
      nearest_natCast (hproduct.trans (by norm_num))]
  have hsmall : total.toNat * k.toNat / 100 ≤ UInt64.size - 1 := by
    refine (Nat.div_le_self _ _).trans (hproduct.trans ?_)
    norm_num [UInt64.size]
  rw [toNat_rankOf total hvalue, clampHundred_of_mem (Nat.cast_nonneg _) (by exact_mod_cast hk),
    hshare, floor_nearest_div_hundred hproduct, min_eq_left hsmall]

/-! ## Ranks above the number of samples -/

/-- Up to percentile 99 the three roundings together cannot make up for the missing part. -/
lemma rankOf_le_total {total : UInt64} (htotal : 1 ≤ total.toNat) {p : Float}
    (hp : ∀ a, valueOf? p = some a → a ≤ 99) : (rankOf total p).toNat ≤ total.toNat := by
  cases hvalue : valueOf? p with
  | none =>
    rw [rankOf_of_eq_none total hvalue]
    exact htotal
  | some a =>
    have hn : (1 : ℚ) ≤ total.toNat := by exact_mod_cast htotal
    have hclamp : clampHundred a ≤ 99 :=
      max_le (by norm_num) ((min_le_right _ _).trans (hp a hvalue))
    have h₁ : 1 ≤ nearest total.toNat := one_le_nearest hn
    have h₂ : 1 ≤ nearest (nearest total.toNat * 99) := one_le_nearest (by linarith)
    have hshare : roundedShare total.toNat (clampHundred a) ≤ total.toNat := by
      refine (roundedShare_mono _ hclamp).trans ?_
      have hfirst := nearest_le_mul (x := total.toNat) (by linarith)
      have hsecond := nearest_le_mul (x := nearest total.toNat * 99) (by linarith)
      have hthird := nearest_le_mul (x := nearest (nearest total.toNat * 99) / 100) (by linarith)
      unfold roundedShare
      linarith
    rw [toNat_rankOf total hvalue]
    exact max_le htotal ((min_le_left _ _).trans (Nat.floor_le_of_le hshare))

/-- Below `2 ^ 59` the hundredfold of a number is rounded by at most 32, which is less than half of
one hundred. -/
lemma roundedShare_hundred_lt {n : ℕ} (hn : 100 * n < 2 ^ 59) : roundedShare n 100 < n + 1 := by
  rcases Nat.eq_zero_or_pos n with rfl | hpos
  · simp [roundedShare]
  have hexact : nearest (n : ℚ) = n := nearest_natCast (by omega)
  have hnpos : (0 : ℚ) < n := by exact_mod_cast hpos
  have hbound : (n : ℚ) * 100 < 2 ^ 59 := by
    rw [mul_comm]
    exact_mod_cast hn
  have hproduct : nearest ((n : ℚ) * 100) ≤ n * 100 + 32 := by
    have hplace : lastPlace ((n : ℚ) * 100) ≤ 6 := by
      refine lastPlace_le (by positivity) ?_ (by norm_num)
      rw [abs_of_pos (by positivity)]
      exact_mod_cast hbound
    have herror := (abs_le.mp (abs_nearest_sub_le_half ((n : ℚ) * 100))).2
    have hhalf : (2 : ℚ) ^ lastPlace ((n : ℚ) * 100) ≤ 2 ^ (6 : ℤ) :=
      zpow_le_zpow_right₀ (by norm_num) hplace
    norm_num at hhalf
    linarith
  have hproduct₀ : 1 ≤ nearest ((n : ℚ) * 100) := by
    refine one_le_nearest ?_
    have hone : (1 : ℚ) ≤ n := by exact_mod_cast hpos
    linarith
  have hquotient : nearest (nearest ((n : ℚ) * 100) / 100) ≤
      nearest ((n : ℚ) * 100) / 100 + 1 / 2 := by
    have hplace : lastPlace (nearest ((n : ℚ) * 100) / 100) ≤ 0 := by
      refine lastPlace_le (by positivity) ?_ (by norm_num)
      rw [abs_of_pos (by positivity)]
      norm_num at hbound ⊢
      linarith
    have herror := (abs_le.mp (abs_nearest_sub_le_half (nearest ((n : ℚ) * 100) / 100))).2
    have hhalf : (2 : ℚ) ^ lastPlace (nearest ((n : ℚ) * 100) / 100) ≤ 2 ^ (0 : ℤ) :=
      zpow_le_zpow_right₀ (by norm_num) hplace
    rw [zpow_zero] at hhalf
    linarith
  unfold roundedShare
  rw [hexact]
  linarith

/-- No percentile has a greater rank than 100. -/
lemma rankOf_le_rankOf_hundred (total : UInt64) (p : Float) :
    (rankOf total p).toNat ≤ (rankOf total (100 : UInt64).toFloat).toNat := by
  cases hp : valueOf? p with
  | none =>
    rw [rankOf_of_eq_none total hp]
    exact one_le_rankOf total _
  | some a =>
    rw [toNat_rankOf total hp, toNat_rankOf total valueOf?_hundred]
    refine max_le_max le_rfl (min_le_min (Nat.floor_mono (roundedShare_mono _ ?_)) le_rfl)
    rw [clampHundred_of_mem (by norm_num) le_rfl]
    exact clampHundred_le a

/-- Below 5764607523034242 samples no rank is above the number of samples.  The last seven numbers,
whose hundredfold passes `2 ^ 59`, are computed. -/
lemma rankOf_le_of_lt {total : UInt64} (h₁ : 1 ≤ total.toNat) (h₂ : total.toNat < 5764607523034242)
    (p : Float) : (rankOf total p).toNat ≤ total.toNat := by
  refine (rankOf_le_rankOf_hundred total p).trans ?_
  rcases lt_or_ge (100 * total.toNat) (2 ^ 59) with hsmall | hlarge
  · have hhundred : valueOf? (100 : UInt64).toFloat = some 100 :=
      valueOf?_toFloat_of_le (by decide)
    have hshare := roundedShare_hundred_lt hsmall
    have hfloor : ⌊roundedShare total.toNat 100⌋₊ < total.toNat + 1 := by
      rw [Nat.floor_lt (roundedShare_nonneg _ (by norm_num))]
      exact_mod_cast hshare
    rw [toNat_rankOf total valueOf?_hundred, clampHundred_of_mem (by norm_num) le_rfl]
    exact max_le h₁ ((min_le_left _ _).trans (Nat.le_of_lt_succ hfloor))
  · have hcases : ∀ k : Fin 7,
        (rankOf (5764607523034235 + UInt64.ofNat k.val) (100 : UInt64).toFloat).toNat ≤
          (5764607523034235 + UInt64.ofNat k.val).toNat := by decide
    obtain ⟨k, hk⟩ : ∃ k, k = total.toNat - 5764607523034235 := ⟨_, rfl⟩
    have htotal : total = 5764607523034235 + UInt64.ofNat k := by
      rw [← UInt64.toNat_inj, UInt64.toNat_add, UInt64.toNat_ofNat']
      change total.toNat = (5764607523034235 + k % 2 ^ 64) % 2 ^ 64
      omega
    rw [htotal]
    exact hcases ⟨k, by omega⟩

/-- The bound is sharp. -/
example : rankOf 5764607523034242 (100 : UInt64).toFloat = 5764607523034243 := by decide

end NodeTelemetry
