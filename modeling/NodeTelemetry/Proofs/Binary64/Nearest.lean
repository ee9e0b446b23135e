import Mathlib
import NodeTelemetry.Binary64

/-!
# The nearest binary64 number to a rational

Rounding is described on exact rationals.  The last place of a number is worth `2 ^ e`, where `e`
leaves 53 significant bits and is at least `-1074` (`lastPlace`).  `nearest` rounds to a multiple of
that, and to an even one from the middle; numbers above the range are not cut off here.

Rounding is odd and monotone (`nearest_neg`, `nearest_mono`), leaves alone what 53 bits can hold
(`nearest_of_representable`), and is off by at most one part in `2 ^ 53` above the subnormal numbers
(`abs_nearest_sub_le`).
-/

namespace NodeTelemetry

namespace Binary64

/-! ## Rounding to an integer -/

/-- The integer nearest to a rational; of two equally near ones, the even one. -/
def roundEven (x : ℚ) : ℤ :=
  if Int.fract x < 1 / 2 then ⌊x⌋
  else if 1 / 2 < Int.fract x then ⌊x⌋ + 1
  else ⌊x⌋ + ⌊x⌋ % 2

lemma floor_le_roundEven (x : ℚ) : ⌊x⌋ ≤ roundEven x := by
  unfold roundEven
  split_ifs <;> omega

lemma roundEven_le_floor_add_one (x : ℚ) : roundEven x ≤ ⌊x⌋ + 1 := by
  unfold roundEven
  split_ifs <;> omega

@[simp] lemma roundEven_intCast (k : ℤ) : roundEven (k : ℚ) = k := by
  simp [roundEven]

@[simp] lemma roundEven_zero : roundEven 0 = 0 := by
  simpa using roundEven_intCast 0

/-- Rounding to an integer is monotone. -/
lemma roundEven_mono : Monotone roundEven := by
  intro x y hxy
  rcases (Int.floor_mono hxy).lt_or_eq with hlt | heq
  · calc roundEven x ≤ ⌊x⌋ + 1 := roundEven_le_floor_add_one x
      _ ≤ ⌊y⌋ := hlt
      _ ≤ roundEven y := floor_le_roundEven y
  · have hfract : Int.fract x ≤ Int.fract y := by
      have hcast : (⌊x⌋ : ℚ) = (⌊y⌋ : ℚ) := by rw [heq]
      simp only [Int.fract]
      linarith
    unfold roundEven
    rw [heq]
    split_ifs <;> first | omega | linarith

/-- The rounded integer is at most one half away. -/
lemma abs_roundEven_sub_le (x : ℚ) : |(roundEven x : ℚ) - x| ≤ 1 / 2 := by
  have hsplit : (⌊x⌋ : ℚ) + Int.fract x = x := Int.floor_add_fract x
  have hnonneg := Int.fract_nonneg x
  have hlt := Int.fract_lt_one x
  have hparity : ⌊x⌋ % 2 = 0 ∨ ⌊x⌋ % 2 = 1 := by omega
  unfold roundEven
  split_ifs with h₁ h₂
  · rw [abs_le]; constructor <;> linarith
  · push_cast
    rw [abs_le]; constructor <;> linarith
  · rcases hparity with h | h <;> rw [h] <;> push_cast <;> rw [abs_le] <;> constructor <;> linarith

/-- Rounding to an integer is odd. -/
lemma roundEven_neg (x : ℚ) : roundEven (-x) = -roundEven x := by
  rcases (Int.fract_nonneg x).eq_or_lt with hint | hpos
  · have hx : x = (⌊x⌋ : ℚ) := by
      have := Int.floor_add_fract x
      linarith
    rw [hx, ← Int.cast_neg, roundEven_intCast, roundEven_intCast]
  · have hfract : Int.fract (-x) = 1 - Int.fract x := Int.fract_neg hpos.ne'
    have hfloor : ⌊-x⌋ = -⌊x⌋ - 1 := by
      have h₁ := Int.floor_add_fract (-x)
      have h₂ := Int.floor_add_fract x
      have h₃ : ((⌊-x⌋ : ℤ) : ℚ) = ((-⌊x⌋ - 1 : ℤ) : ℚ) := by push_cast; linarith
      exact_mod_cast h₃
    unfold roundEven
    rw [hfract, hfloor]
    split_ifs <;> first | omega | linarith

/-! ## The last place -/

/-- The exponent of the last place of a number: 53 significant bits, but not below `-1074`. -/
def lastPlace (x : ℚ) : ℤ := max (Int.log 2 |x| - 52) (-1074)

/-- The binary64 number nearest to a rational, ties to even, with no upper end of the range. -/
def nearest (x : ℚ) : ℚ := roundEven (x / 2 ^ lastPlace x) * 2 ^ lastPlace x

lemma two_zpow_pos (e : ℤ) : (0 : ℚ) < 2 ^ e := zpow_pos (by norm_num) e

lemma two_zpow_add (e f : ℤ) : (2 : ℚ) ^ (e + f) = 2 ^ e * 2 ^ f :=
  zpow_add₀ (by norm_num) e f

@[simp] lemma lastPlace_neg (x : ℚ) : lastPlace (-x) = lastPlace x := by
  simp [lastPlace]

lemma neg_le_lastPlace (x : ℚ) : -1074 ≤ lastPlace x := le_max_right _ _

lemma lastPlace_mono {x y : ℚ} (hx : 0 < x) (hxy : x ≤ y) : lastPlace x ≤ lastPlace y := by
  have hlog : Int.log 2 |x| ≤ Int.log 2 |y| := by
    rw [abs_of_pos hx, abs_of_pos (hx.trans_le hxy)]
    exact Int.log_mono_right hx hxy
  unfold lastPlace
  omega

/-- A number has at most 53 bits above its last place. -/
lemma abs_lt_two_zpow_lastPlace (x : ℚ) : |x| < 2 ^ (lastPlace x + 53) := by
  have hlog : |x| < ((2 : ℕ) : ℚ) ^ (Int.log 2 |x| + 1) := Int.lt_zpow_succ_log_self (by norm_num) _
  rw [Nat.cast_ofNat] at hlog
  refine hlog.trans_le (zpow_le_zpow_right₀ (by norm_num) ?_)
  unfold lastPlace
  omega

/-- Above the least last place, a number has at least 53 bits above its last place. -/
lemma two_zpow_lastPlace_le_abs {x : ℚ} (h : -1074 < lastPlace x) (hx : x ≠ 0) :
    (2 : ℚ) ^ (lastPlace x + 52) ≤ |x| := by
  have hlog : ((2 : ℕ) : ℚ) ^ Int.log 2 |x| ≤ |x| :=
    Int.zpow_log_le_self (by norm_num) (abs_pos.mpr hx)
  rw [Nat.cast_ofNat] at hlog
  have hplace : lastPlace x + 52 = Int.log 2 |x| := by
    unfold lastPlace at h ⊢
    omega
  rw [hplace]
  exact hlog

/-- Rounded to its last place, a number has at most 53 bits, or is `2 ^ 53`. -/
lemma roundEven_div_lastPlace_le (x : ℚ) : roundEven (x / 2 ^ lastPlace x) ≤ 2 ^ 53 := by
  have hbound : x / 2 ^ lastPlace x ≤ ((2 ^ 53 : ℤ) : ℚ) := by
    rw [div_le_iff₀ (two_zpow_pos _)]
    calc x ≤ |x| := le_abs_self x
      _ ≤ 2 ^ (lastPlace x + 53) := (abs_lt_two_zpow_lastPlace x).le
      _ = ((2 ^ 53 : ℤ) : ℚ) * 2 ^ lastPlace x := by
        rw [two_zpow_add]
        norm_num
        ring
  have h := roundEven_mono hbound
  rwa [roundEven_intCast] at h

/-- Rounded to its last place, a number above the subnormal ones has at least 53 bits. -/
lemma le_roundEven_div_lastPlace {x : ℚ} (h : -1074 < lastPlace x) (hx : 0 < x) :
    2 ^ 52 ≤ roundEven (x / 2 ^ lastPlace x) := by
  have hbound : ((2 ^ 52 : ℤ) : ℚ) ≤ x / 2 ^ lastPlace x := by
    rw [le_div_iff₀ (two_zpow_pos _)]
    calc ((2 ^ 52 : ℤ) : ℚ) * 2 ^ lastPlace x = 2 ^ (lastPlace x + 52) := by
          rw [two_zpow_add]
          norm_num
          ring
      _ ≤ |x| := two_zpow_lastPlace_le_abs h hx.ne'
      _ = x := abs_of_pos hx
  have h := roundEven_mono hbound
  rwa [roundEven_intCast] at h

/-! ## Rounding to the last place -/

@[simp] lemma nearest_zero : nearest 0 = 0 := by
  simp [nearest]

lemma nearest_neg (x : ℚ) : nearest (-x) = -nearest x := by
  unfold nearest
  rw [lastPlace_neg, neg_div, roundEven_neg]
  push_cast
  ring

lemma nearest_nonneg {x : ℚ} (hx : 0 ≤ x) : 0 ≤ nearest x := by
  have hquot : 0 ≤ x / 2 ^ lastPlace x := div_nonneg hx (two_zpow_pos _).le
  have hround : 0 ≤ roundEven (x / 2 ^ lastPlace x) :=
    (Int.floor_nonneg.mpr hquot).trans (floor_le_roundEven _)
  exact mul_nonneg (by exact_mod_cast hround) (two_zpow_pos _).le

/-- Rounding is monotone.  Inside one binade this is rounding to an integer; otherwise the power of
two between the two numbers separates their roundings. -/
lemma nearest_mono : Monotone nearest := by
  refine monotone_of_odd_of_monotoneOn_nonneg nearest_neg fun x hx y hy hxy => ?_
  rcases (show (0 : ℚ) ≤ x from hx).eq_or_lt with hzero | hpos
  · rw [← hzero, nearest_zero]
    exact nearest_nonneg hy
  have hypos : 0 < y := hpos.trans_le hxy
  rcases (lastPlace_mono hpos hxy).eq_or_lt with heq | hlt
  · have hround : roundEven (x / 2 ^ lastPlace x) ≤ roundEven (y / 2 ^ lastPlace x) :=
      roundEven_mono (div_le_div_of_nonneg_right hxy (two_zpow_pos _).le)
    unfold nearest
    rw [← heq]
    exact mul_le_mul_of_nonneg_right (by exact_mod_cast hround) (two_zpow_pos _).le
  · set e := lastPlace x with he
    set f := lastPlace y with hf
    have hxround : roundEven (x / 2 ^ e) ≤ 2 ^ 53 := roundEven_div_lastPlace_le x
    have hyround : 2 ^ 52 ≤ roundEven (y / 2 ^ f) :=
      le_roundEven_div_lastPlace ((neg_le_lastPlace x).trans_lt hlt) hypos
    calc nearest x ≤ ((2 ^ 53 : ℤ) : ℚ) * 2 ^ e :=
          mul_le_mul_of_nonneg_right (by exact_mod_cast hxround) (two_zpow_pos e).le
      _ = 2 ^ 52 * 2 ^ (e + 1) := by rw [two_zpow_add]; norm_num; ring
      _ ≤ 2 ^ 52 * 2 ^ f :=
          mul_le_mul_of_nonneg_left (zpow_le_zpow_right₀ (by norm_num) hlt) (by norm_num)
      _ ≤ nearest y :=
          mul_le_mul_of_nonneg_right (by exact_mod_cast hyround) (two_zpow_pos f).le

lemma nearest_nonpos {x : ℚ} (hx : x ≤ 0) : nearest x ≤ 0 := by
  rw [← nearest_zero]
  exact nearest_mono hx

/-! ## Numbers that need no rounding -/

/-- A multiple of its own last place is left alone. -/
lemma nearest_of_multiple {x : ℚ} (k : ℤ) (hx : x = k * 2 ^ lastPlace x) : nearest x = x := by
  have hquot : x / 2 ^ lastPlace x = (k : ℚ) := by
    rw [div_eq_iff (two_zpow_pos _).ne']
    exact hx
  unfold nearest
  rw [hquot, roundEven_intCast]
  exact hx.symm

/-- The last place of a number that fewer than 54 bits above `2 ^ e` can hold is at most `2 ^ e`. -/
lemma lastPlace_le {x : ℚ} {e : ℤ} (hx : x ≠ 0) (hlt : |x| < 2 ^ (e + 53)) (he : -1074 ≤ e) :
    lastPlace x ≤ e := by
  have hlog : Int.log 2 |x| < e + 53 :=
    (Int.lt_zpow_iff_log_lt (by norm_num) (abs_pos.mpr hx)).mp (by exact_mod_cast hlt)
  unfold lastPlace
  omega

lemma nearest_of_lt {m e : ℤ} (hm : |m| < 2 ^ 53) (he : -1074 ≤ e) :
    nearest (m * 2 ^ e) = m * 2 ^ e := by
  rcases eq_or_ne m 0 with rfl | hne
  · simp
  set x : ℚ := m * 2 ^ e with hx
  have hxne : x ≠ 0 := mul_ne_zero (by exact_mod_cast hne) (two_zpow_pos e).ne'
  have hlt : |x| < 2 ^ (e + 53) := by
    rw [hx, abs_mul, abs_of_pos (two_zpow_pos e), add_comm, two_zpow_add]
    exact mul_lt_mul_of_pos_right (by exact_mod_cast hm) (two_zpow_pos e)
  obtain ⟨d, hd⟩ := Int.eq_ofNat_of_zero_le (sub_nonneg.mpr (lastPlace_le hxne hlt he))
  refine nearest_of_multiple (m * 2 ^ d) ?_
  have hexp : e = (d : ℤ) + lastPlace x := by omega
  calc x = m * 2 ^ ((d : ℤ) + lastPlace x) := by rw [← hexp]
    _ = ((m * 2 ^ d : ℤ) : ℚ) * 2 ^ lastPlace x := by
      rw [two_zpow_add, zpow_natCast]
      push_cast
      ring

/-- What 53 bits can hold, at or above the least last place, is left alone.  The mantissa `2 ^ 53`
itself is `2 ^ 52` one place higher. -/
lemma nearest_of_representable {m e : ℤ} (hm : |m| ≤ 2 ^ 53) (he : -1074 ≤ e) :
    nearest (m * 2 ^ e) = m * 2 ^ e := by
  rcases hm.lt_or_eq with hlt | heq
  · exact nearest_of_lt hlt he
  obtain ⟨k, rfl⟩ : ∃ k, m = 2 * k := by
    rcases (abs_eq (by norm_num)).mp heq with rfl | rfl
    · exact ⟨2 ^ 52, by norm_num⟩
    · exact ⟨-2 ^ 52, by norm_num⟩
  have hshift : ((2 * k : ℤ) : ℚ) * 2 ^ e = k * 2 ^ (e + 1) := by
    rw [two_zpow_add]
    push_cast
    ring
  rw [hshift]
  refine nearest_of_lt ?_ (by omega)
  rw [abs_mul] at heq
  norm_num at heq
  omega

/-- Rounding does not pass a power of two. -/
lemma nearest_le_two_zpow {x : ℚ} {e : ℤ} (he : -1074 ≤ e) (hx : x ≤ 2 ^ e) :
    nearest x ≤ 2 ^ e := by
  have hexact := nearest_of_representable (m := 1) (by norm_num) he
  rw [Int.cast_one, one_mul] at hexact
  rw [← hexact]
  exact nearest_mono hx

/-- Rounding does not fall below a power of two. -/
lemma two_zpow_le_nearest {x : ℚ} {e : ℤ} (he : -1074 ≤ e) (hx : 2 ^ e ≤ x) :
    2 ^ e ≤ nearest x := by
  have hexact := nearest_of_representable (m := 1) (by norm_num) he
  rw [Int.cast_one, one_mul] at hexact
  rw [← hexact]
  exact nearest_mono hx

/-- What is at least one stays so. -/
lemma one_le_nearest {x : ℚ} (hx : 1 ≤ x) : 1 ≤ nearest x := by
  simpa using two_zpow_le_nearest (e := 0) (by norm_num) (by simpa using hx)

lemma abs_nearest_le_two_zpow {x : ℚ} {e : ℤ} (he : -1074 ≤ e) (hx : |x| ≤ 2 ^ e) :
    |nearest x| ≤ 2 ^ e := by
  obtain ⟨hlow, hhigh⟩ := abs_le.mp hx
  have hneg := nearest_le_two_zpow he (neg_le.mp hlow)
  rw [nearest_neg] at hneg
  exact abs_le.mpr ⟨neg_le.mp hneg, nearest_le_two_zpow he hhigh⟩

/-- Natural numbers up to `2 ^ 53` are left alone. -/
lemma nearest_natCast {n : ℕ} (hn : n ≤ 2 ^ 53) : nearest n = n := by
  have h := nearest_of_representable (m := n) (e := 0) (by simpa using hn) (by norm_num)
  simpa using h

/-- Natural numbers are rounded to integers. -/
lemma exists_int_nearest (n : ℕ) : ∃ k : ℤ, nearest n = k := by
  rcases le_or_gt n (2 ^ 53) with hsmall | hlarge
  · exact ⟨n, nearest_natCast hsmall⟩
  · have hplace : 0 ≤ lastPlace n := by
      by_contra hneg
      have hbits : |(n : ℚ)| < 2 ^ (53 : ℤ) :=
        (abs_lt_two_zpow_lastPlace n).trans_le
          (zpow_le_zpow_right₀ (by norm_num) (by omega))
      rw [abs_of_nonneg (Nat.cast_nonneg n)] at hbits
      have hcast : (n : ℚ) < 2 ^ 53 := by exact_mod_cast hbits
      exact absurd (by exact_mod_cast hcast) (Nat.lt_asymm hlarge)
    obtain ⟨d, hd⟩ := Int.eq_ofNat_of_zero_le hplace
    refine ⟨roundEven (n / 2 ^ lastPlace n) * 2 ^ d, ?_⟩
    unfold nearest
    rw [hd, zpow_natCast]
    push_cast
    rfl

/-! ## The error of a rounding -/

lemma abs_nearest_sub_le_half (x : ℚ) : |nearest x - x| ≤ 2 ^ lastPlace x / 2 := by
  have hpos := two_zpow_pos (lastPlace x)
  have hsplit : nearest x - x =
      (roundEven (x / 2 ^ lastPlace x) - x / 2 ^ lastPlace x) * 2 ^ lastPlace x := by
    unfold nearest
    rw [sub_mul, div_mul_cancel₀ _ hpos.ne']
  calc |nearest x - x|
      = |(roundEven (x / 2 ^ lastPlace x) : ℚ) - x / 2 ^ lastPlace x| * 2 ^ lastPlace x := by
        rw [hsplit, abs_mul, abs_of_pos hpos]
    _ ≤ 1 / 2 * 2 ^ lastPlace x :=
        mul_le_mul_of_nonneg_right (abs_roundEven_sub_le _) hpos.le
    _ = 2 ^ lastPlace x / 2 := by ring

/-- Above the subnormal numbers a rounding is off by at most one part in `2 ^ 53`. -/
lemma abs_nearest_sub_le {x : ℚ} (hx : 2 ^ (-1022 : ℤ) ≤ |x|) :
    |nearest x - x| ≤ |x| / 2 ^ 53 := by
  have habs : 0 < |x| := (two_zpow_pos _).trans_le hx
  have hlog : -1022 ≤ Int.log 2 |x| :=
    (Int.zpow_le_iff_le_log (by norm_num) habs).mp (by exact_mod_cast hx)
  have hplace : lastPlace x + 52 = Int.log 2 |x| := by
    unfold lastPlace
    omega
  have hle : (2 : ℚ) ^ (lastPlace x + 52) ≤ |x| := by
    rw [hplace]
    exact_mod_cast Int.zpow_log_le_self (by norm_num) habs
  calc |nearest x - x| ≤ 2 ^ lastPlace x / 2 := abs_nearest_sub_le_half x
    _ = 2 ^ (lastPlace x + 52) / 2 ^ 53 := by
      rw [two_zpow_add]
      norm_num
      ring
    _ ≤ |x| / 2 ^ 53 := div_le_div_of_nonneg_right hle (by norm_num)

end Binary64

end NodeTelemetry
