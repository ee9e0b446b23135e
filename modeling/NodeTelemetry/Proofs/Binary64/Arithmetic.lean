import Mathlib
import NodeTelemetry.Proofs.Binary64.Rounding

/-!
# Operations on binary64 numbers

The operations on `Float` are described by what they do to values: a product or a quotient of
finite numbers has the exact value, rounded (`valueOf?_mul`, `valueOf?_div`); a comparison compares
the values (`lt_iff`, `le_iff`); a natural number is taken in rounded (`valueOf?_toFloat`) and comes
out cut to the integer below, in the range of the type (`toNat_toUInt64`).
-/

namespace NodeTelemetry

namespace Binary64

open Float.Model Float.Model.UnpackedFloat

/-! ## Unpacked operands -/

/-- The sign of a product. -/
lemma isNegative_mul (s t : Sign) : isNegative (s * t) = (isNegative s ^^ isNegative t) := by
  cases s <;> cases t <;> rfl

/-- The sign of a quotient. -/
lemma isNegative_div (s t : Sign) : isNegative (s / t) = (isNegative s ^^ isNegative t) := by
  cases s <;> cases t <;> rfl

lemma signed_mul (b c : Bool) (x y : ℚ) : signed (b ^^ c) (x * y) = signed b x * signed c y := by
  cases b <;> cases c <;> simp [signed]

lemma signed_div (b c : Bool) (x y : ℚ) : signed (b ^^ c) (x / y) = signed b x / signed c y := by
  cases b <;> cases c <;> simp [signed, neg_div, div_neg]

/-- The value of a number, by its unpacked form. -/
lemma valueOf?_eq (x : Float) : valueOf? x = (ofUnpacked x.toModel.unpack).value? := by
  rw [valueOf?, ofFloat_eq_ofUnpacked]

/-- An unpacked finite number is canonical and in range. -/
lemma canonical_of_unpack {x : Float} {s : Sign} {m : ℕ} {e : ℤ} {hm : 0 < m}
    (h : x.toModel.unpack = .finite s m e hm) : Canonical m e ∧ e ≤ 971 := by
  have hx : ofBits x.toBits = .finite (isNegative s) m e := by
    change ofFloat x = _
    rw [ofFloat_eq_ofUnpacked, h]
    rfl
  exact canonical_of_ofBits hx

/-- What is not a number has no value. -/
lemma unpack_of_valueOf?_eq_none {x : Float} (h : valueOf? x = none) :
    x.toModel.unpack = .notANumber := by
  rw [valueOf?_eq] at h
  cases hf : x.toModel.unpack <;> rw [hf] at h <;> first | rfl | cases h

/-- A number with a value is an infinity, a zero, or has a mantissa. -/
lemma unpack_of_valueOf? {x : Float} {a : ℚ} (h : valueOf? x = some a) :
    (∃ s, x.toModel.unpack = .infinity s ∧ a = signed (isNegative s) limit) ∨
      (∃ s, x.toModel.unpack = .zero s ∧ a = 0) ∨
      ∃ s m e, ∃ hm : 0 < m, x.toModel.unpack = .finite s m e hm ∧ Canonical m e ∧
        a = signed (isNegative s) (m * 2 ^ e) := by
  rw [valueOf?_eq] at h
  cases hf : x.toModel.unpack with
  | notANumber =>
    rw [hf] at h
    cases h
  | infinity s =>
    rw [hf] at h
    exact Or.inl ⟨s, rfl, (Option.some.inj h).symm⟩
  | zero s =>
    rw [hf] at h
    exact Or.inr (Or.inl ⟨s, rfl, by simpa [ofUnpacked, value?] using h.symm⟩)
  | finite s m e hm =>
    rw [hf] at h
    exact Or.inr (Or.inr
      ⟨s, m, e, hm, rfl, (canonical_of_unpack hf).1, (Option.some.inj h).symm⟩)

/-- A number of finite value is no infinity. -/
lemma unpack_of_abs_lt {x : Float} {a : ℚ} (h : valueOf? x = some a) (ha : |a| < limit) :
    (∃ s, x.toModel.unpack = .zero s ∧ a = 0) ∨
      ∃ s m e, ∃ hm : 0 < m, x.toModel.unpack = .finite s m e hm ∧ Canonical m e ∧
        a = signed (isNegative s) (m * 2 ^ e) := by
  rcases unpack_of_valueOf? h with ⟨s, -, rfl⟩ | hfinite
  · rw [abs_signed, abs_of_pos limit_pos] at ha
    exact absurd ha (lt_irrefl _)
  · exact hfinite

/-! ## Multiplication and division -/

@[simp] lemma rounded_zero : rounded 0 = 0 := by
  rw [rounded, nearest_zero, cut_of_abs_le]
  rw [abs_zero]
  exact limit_pos.le

lemma valueOf?_pack_zero (s : Sign) : valueOf? (.ofModel (.pack (.zero s))) = some 0 := by
  have hrounds : Rounds (.zero s) (isNegative s) 0 := ⟨0, -1074, rfl, canonical_zero, by simp⟩
  rw [valueOf?_pack hrounds, signed_zero, rounded_zero]

/-- The product of two mantissas ends at or below the last place. -/
lemma add_le_lastPlace {m₁ m₂ : ℕ} {e₁ e₂ : ℤ} (hm₁ : 0 < m₁) (hm₂ : 0 < m₂)
    (h₁ : Canonical m₁ e₁) (h₂ : Canonical m₂ e₂) :
    e₁ + e₂ ≤ lastPlace (((m₁ * m₂ : ℕ) : ℚ) * 2 ^ (e₁ + e₂)) := by
  rw [lastPlace_eq (Nat.mul_pos hm₁ hm₂) le_rfl
    (mul_lt_mul_of_pos_right (lt_add_one _) (two_zpow_pos _))]
  have hfull : 2 ^ 52 ≤ m₁ * m₂ ∨ e₁ + e₂ ≤ -1074 := by
    rcases h₁.full with h | h
    · exact Or.inl (h.trans (Nat.le_mul_of_pos_right m₁ hm₂))
    rcases h₂.full with h' | h'
    · exact Or.inl (h'.trans (Nat.le_mul_of_pos_left m₂ hm₁))
    · exact Or.inr (by omega)
  rcases hfull with h | h
  · have := (Nat.le_log2 (Nat.mul_pos hm₁ hm₂).ne').mpr h
    omega
  · omega

/-- The product of two finite numbers has the exact value, rounded. -/
lemma valueOf?_mul {x y : Float} {a b : ℚ} (hx : valueOf? x = some a) (hy : valueOf? y = some b)
    (ha : |a| < limit) (hb : |b| < limit) : valueOf? (x * y) = some (rounded (a * b)) := by
  change valueOf? (.ofModel (.pack (UnpackedFloat.mul _ x.toModel.unpack y.toModel.unpack))) = _
  rcases unpack_of_abs_lt hx ha with ⟨s, hs, rfl⟩ | ⟨s, m, e, hm, hs, hcanonical, rfl⟩
  · rcases unpack_of_abs_lt hy hb with ⟨t, ht, rfl⟩ | ⟨t, m', e', hm', ht, hcanonical', rfl⟩ <;>
      rw [hs, ht, zero_mul, rounded_zero] <;> exact valueOf?_pack_zero _
  rcases unpack_of_abs_lt hy hb with ⟨t, ht, rfl⟩ | ⟨t, m', e', hm', ht, hcanonical', rfl⟩
  · rw [hs, ht, mul_zero, rounded_zero]
    exact valueOf?_pack_zero _
  have hproduct : ((m * m' : ℕ) : ℚ) * 2 ^ (e + e') = m * 2 ^ e * (m' * 2 ^ e') := by
    rw [two_zpow_add]
    push_cast
    ring
  have hpos : (0 : ℚ) < ((m * m' : ℕ) : ℚ) * 2 ^ (e + e') :=
    mul_pos (by exact_mod_cast Nat.mul_pos hm hm') (two_zpow_pos _)
  rw [hs, ht, ← signed_mul, ← isNegative_mul, ← hproduct]
  refine valueOf?_pack (rounds_roundWithAccuracy (s * t) hpos ?_
    (add_le_lastPlace hm hm' hcanonical hcanonical'))
  rw [mul_div_cancel_right₀ _ (two_zpow_pos _).ne']
  exact .exact _

/-- The quotient of two mantissas is computed down to the last place. -/
lemma le_lastPlace_div {m₁ m₂ : ℕ} {e₁ e₂ : ℤ} (hm₁ : 0 < m₁) (hm₂ : 0 < m₂) :
    Format.binary64.targetExponent (totalExponent m₁ e₁ - totalExponent m₂ e₂) ≤
      lastPlace ((m₁ : ℚ) * 2 ^ e₁ / (m₂ * 2 ^ e₂)) := by
  have hm₁' : (2 : ℚ) ^ (m₁.log2 : ℤ) ≤ m₁ := by
    rw [zpow_natCast]
    exact_mod_cast Nat.log2_self_le hm₁.ne'
  have hm₂' : (m₂ : ℚ) ≤ 2 ^ ((m₂.log2 : ℤ) + 1) := by
    have h : m₂ ≤ 2 ^ (m₂.log2 + 1) := Nat.lt_log2_self.le
    exact_mod_cast h
  have hm₂pos : (0 : ℚ) < m₂ := by exact_mod_cast hm₂
  have hlow : (2 : ℚ) ^ ((m₁.log2 : ℤ) + e₁ - (m₂.log2 + 1 + e₂)) ≤
      (m₁ : ℚ) * 2 ^ e₁ / (m₂ * 2 ^ e₂) := by
    rw [zpow_sub₀ (by norm_num), two_zpow_add, two_zpow_add _ e₂]
    gcongr
  have hpos : 0 < (m₁ : ℚ) * 2 ^ e₁ / (m₂ * 2 ^ e₂) := (two_zpow_pos _).trans_le hlow
  have hlog := (Int.zpow_le_iff_le_log (b := 2) (by norm_num) hpos).mp (by exact_mod_cast hlow)
  unfold lastPlace
  rw [abs_of_pos hpos]
  change max ((m₁.log2 : ℤ) + 1 + e₁ - (m₂.log2 + 1 + e₂) - 53) (3 - 2 ^ 10 - 53) ≤ _
  omega

/-- The quotient of two finite numbers has the exact value, rounded. -/
lemma valueOf?_div {x y : Float} {a b : ℚ} (hx : valueOf? x = some a) (hy : valueOf? y = some b)
    (ha : |a| < limit) (hb : |b| < limit) (hne : b ≠ 0) :
    valueOf? (x / y) = some (rounded (a / b)) := by
  change valueOf? (.ofModel (.pack (UnpackedFloat.div _ x.toModel.unpack y.toModel.unpack))) = _
  rcases unpack_of_abs_lt hy hb with ⟨t, ht, rfl⟩ | ⟨t, m', e', hm', ht, hcanonical', rfl⟩
  · exact absurd rfl hne
  rcases unpack_of_abs_lt hx ha with ⟨s, hs, rfl⟩ | ⟨s, m, e, hm, hs, hcanonical, rfl⟩
  · rw [hs, ht, zero_div, rounded_zero]
    exact valueOf?_pack_zero _
  obtain ⟨t', ht'⟩ : ∃ t', t' = min (e - e')
      (Format.binary64.targetExponent (totalExponent m e - totalExponent m' e')) := ⟨_, rfl⟩
  obtain ⟨k, hk⟩ : ∃ k, k = (e - e' - t').toNat := ⟨_, rfl⟩
  have hm'pos : (0 : ℚ) < m' := by exact_mod_cast hm'
  have hpos : (0 : ℚ) < m * 2 ^ e / (m' * 2 ^ e') :=
    div_pos (mul_pos (by exact_mod_cast hm) (two_zpow_pos _)) (mul_pos hm'pos (two_zpow_pos _))
  have hquot : (m : ℚ) * 2 ^ e / (m' * 2 ^ e') / 2 ^ t' = ((m <<< k : ℕ) : ℚ) / m' := by
    have hexp : e = (k : ℤ) + e' + t' := by omega
    rw [hexp, two_zpow_add, two_zpow_add, zpow_natCast, Nat.shiftLeft_eq]
    have h₁ := (two_zpow_pos e').ne'
    have h₂ := (two_zpow_pos t').ne'
    push_cast
    field_simp
  have hdiv : UnpackedFloat.div Format.binary64 (.finite s m e hm) (.finite t m' e' hm') =
      roundWithAccuracy Format.binary64 (s / t) ((m <<< k) / m') t'
        (accuracyOfFraction ((m <<< k) % m') m') := by
    rw [hk, ht']
    rfl
  rw [hs, ht, ← signed_div, ← isNegative_div, hdiv]
  refine valueOf?_pack (rounds_roundWithAccuracy (s / t) hpos ?_ ?_)
  · rw [hquot]
    exact .quotient _ hm'
  · rw [ht']
    exact (min_le_right _ _).trans (le_lastPlace_div hm hm')

/-! ## Natural numbers -/

/-- A natural number of 64 bits is rounded to at most `2 ^ 64`. -/
lemma nearest_toNat_le (n : UInt64) : nearest n.toNat ≤ 2 ^ 64 := by
  have hle : (n.toNat : ℚ) ≤ 2 ^ (64 : ℤ) := by exact_mod_cast n.toNat_lt.le
  exact_mod_cast nearest_le_two_zpow (by norm_num) hle

lemma two_pow_lt_limit : (2 : ℚ) ^ 64 < limit :=
  pow_lt_pow_right₀ (by norm_num) (by norm_num)

/-- A natural number is taken in rounded. -/
lemma valueOf?_toFloat (n : UInt64) : valueOf? n.toFloat = some (nearest n.toNat) := by
  have hinRange : cut (nearest n.toNat) = nearest n.toNat := by
    refine cut_of_abs_le ?_
    rw [abs_of_nonneg (nearest_nonneg (Nat.cast_nonneg _))]
    exact (nearest_toNat_le n).trans two_pow_lt_limit.le
  change valueOf? (.ofModel (.pack (UnpackedFloat.normalize _ (n.toNat : ℤ) 0 .positive))) = _
  rcases Nat.eq_zero_or_pos n.toNat with hzero | hpos
  · simp only [hzero, Nat.cast_zero, nearest_zero]
    exact valueOf?_pack_zero _
  · have hround : UnpackedFloat.normalize Format.binary64 (n.toNat : ℤ) 0 .positive =
        UnpackedFloat.round Format.binary64 .positive n.toNat 0 := by
      unfold UnpackedFloat.normalize
      rw [compare_gt_iff_gt.mpr (by exact_mod_cast hpos)]
      rfl
    have h := rounds_round .positive hpos 0
    rw [zpow_zero, mul_one] at h
    rw [hround, valueOf?_pack h, isNegative, signed_false, rounded, hinRange]

/-- Small natural numbers are taken in exactly. -/
lemma valueOf?_toFloat_of_le {n : UInt64} (hn : n.toNat ≤ 2 ^ 53) :
    valueOf? n.toFloat = some (n.toNat : ℚ) := by
  rw [valueOf?_toFloat, nearest_natCast hn]

lemma valueOf?_zero : valueOf? (0 : UInt64).toFloat = some 0 := valueOf?_toFloat_of_le (by decide)

/-- Shifting an exact mantissa cuts it to the integer below. -/
lemma mantissa_shiftToExponent_zero (m : ℕ) (e : ℤ) :
    (shiftToExponent (decreaseExponent m e 0).1 (decreaseExponent m e 0).2 .exact 0).1.mantissa =
      ⌊(m : ℚ) * 2 ^ e⌋₊ := by
  unfold shiftToExponent decreaseExponent
  simp only [sub_zero]
  obtain ⟨k, hk⟩ : ∃ k, k = e.toNat := ⟨_, rfl⟩
  obtain ⟨l, hl⟩ : ∃ l, l = (0 - (e - (k : ℤ))).toNat := ⟨_, rfl⟩
  rw [← hk, ← hl]
  have htrunc := (Truncates.exact (m <<< k)).shiftRight l
  have hvalue : ((m <<< k : ℕ) : ℚ) / 2 ^ l = m * 2 ^ e := by
    have hexp : e + (l : ℤ) = k := by omega
    rw [div_eq_iff (by positivity), mul_assoc, ← zpow_natCast, ← two_zpow_add, hexp, zpow_natCast,
      Nat.shiftLeft_eq]
    push_cast
    ring
  rw [hvalue] at htrunc
  have hfloor := htrunc.floor_eq
  rw [← Int.natCast_floor_eq_floor (mul_nonneg (Nat.cast_nonneg m) (two_zpow_pos e).le)] at hfloor
  exact_mod_cast hfloor.symm

lemma toNat_ofNatClamp (n : ℕ) : (UInt64.ofNatClamp n).toNat = min n (UInt64.size - 1) := by
  unfold UInt64.ofNatClamp
  split_ifs with h
  · rw [UInt64.toNat_ofNatLT]
    omega
  · rw [UInt64.toNat_ofNatLT]
    omega

/-- A number comes out cut to the integer below, in the range of the type. -/
lemma toNat_toUInt64 {x : Float} {a : ℚ} (hx : valueOf? x = some a) :
    x.toUInt64.toNat = min ⌊a⌋₊ (UInt64.size - 1) := by
  change (UInt64.ofNatClamp (x.toModel.unpack.toInt 0 (UInt64.size - 1)).toNat).toNat = _
  rw [toNat_ofNatClamp]
  rcases unpack_of_valueOf? hx with ⟨s, hs, rfl⟩ | ⟨s, hs, rfl⟩ | ⟨s, m, e, hm, hs, -, rfl⟩ <;>
    rw [hs]
  · cases s with
    | negative =>
      rw [isNegative, signed_true, Nat.floor_of_nonpos (neg_nonpos.mpr limit_pos.le)]
      rfl
    | positive =>
      have hlarge : UInt64.size - 1 ≤ ⌊limit⌋₊ := by
        refine Nat.le_floor (le_trans ?_ two_pow_lt_limit.le)
        norm_num [UInt64.size]
      rw [isNegative, signed_false, min_eq_right hlarge]
      rfl
  · rw [Nat.floor_zero]
    rfl
  · have hint : (UnpackedFloat.finite s m e hm).toInt 0 (UInt64.size - 1) =
        s.apply (⌊(m : ℚ) * 2 ^ e⌋₊ : ℕ) := by
      rw [← mantissa_shiftToExponent_zero]
      rfl
    have hnonneg : (0 : ℚ) ≤ m * 2 ^ e := mul_nonneg (Nat.cast_nonneg m) (two_zpow_pos e).le
    rw [hint]
    congr 1
    cases s with
    | negative =>
      rw [isNegative, signed_true, Nat.floor_of_nonpos (neg_nonpos.mpr hnonneg)]
      exact Int.toNat_of_nonpos (neg_nonpos.mpr (Int.natCast_nonneg _))
    | positive =>
      rw [isNegative, signed_false]
      exact Int.toNat_natCast _

/-- What is not a number comes out as zero. -/
lemma toUInt64_of_eq_none {x : Float} (hx : valueOf? x = none) : x.toUInt64 = 0 := by
  change UInt64.ofNatClamp (x.toModel.unpack.toInt 0 (UInt64.size - 1)).toNat = 0
  rw [unpack_of_valueOf?_eq_none hx]
  rfl

/-! ## Operations on what is not a number -/

lemma valueOf?_mul_eq_none {x y : Float} (hy : valueOf? y = none) : valueOf? (x * y) = none := by
  change valueOf? (.ofModel (.pack (UnpackedFloat.mul _ x.toModel.unpack y.toModel.unpack))) = _
  rw [unpack_of_valueOf?_eq_none hy]
  cases x.toModel.unpack <;> exact congrArg value? ofFloat_pack_notANumber

lemma valueOf?_div_eq_none {x y : Float} (hx : valueOf? x = none) : valueOf? (x / y) = none := by
  change valueOf? (.ofModel (.pack (UnpackedFloat.div _ x.toModel.unpack y.toModel.unpack))) = _
  rw [unpack_of_valueOf?_eq_none hx]
  cases y.toModel.unpack <;> exact congrArg value? ofFloat_pack_notANumber

/-! ## Comparisons -/

/-- Canonical magnitudes are compared by their exponents first. -/
lemma compare_canonical {m₁ m₂ : ℕ} {e₁ e₂ : ℤ} (h₁ : Canonical m₁ e₁) (h₂ : Canonical m₂ e₂) :
    compare ((m₁ : ℚ) * 2 ^ e₁) (m₂ * 2 ^ e₂) = (compare e₁ e₂).then (compare m₁ m₂) := by
  have hlt : ∀ {m m' : ℕ} {e e' : ℤ}, Canonical m e → Canonical m' e' → e < e' →
      (m : ℚ) * 2 ^ e < m' * 2 ^ e' := by
    intro m m' e e' h h' hee
    have hm : (m : ℚ) < 2 ^ 53 := by exact_mod_cast h.lt
    have hm' : (2 ^ 52 : ℚ) ≤ m' := by
      exact_mod_cast h'.full.resolve_right (by have := h.least_le; omega)
    calc (m : ℚ) * 2 ^ e < 2 ^ 53 * 2 ^ e := mul_lt_mul_of_pos_right hm (two_zpow_pos e)
      _ = 2 ^ 52 * 2 ^ (e + 1) := by
        rw [two_zpow_add]
        norm_num
        ring
      _ ≤ 2 ^ 52 * 2 ^ e' :=
        mul_le_mul_of_nonneg_left (zpow_le_zpow_right₀ (by norm_num) hee) (by norm_num)
      _ ≤ m' * 2 ^ e' := mul_le_mul_of_nonneg_right hm' (two_zpow_pos e').le
  rcases lt_trichotomy e₁ e₂ with he | rfl | he
  · rw [compare_lt_iff_lt.mpr (hlt h₁ h₂ he), compare_lt_iff_lt.mpr he]
    rfl
  · rw [compare_eq_iff_eq.mpr (rfl : e₁ = e₁)]
    have hpos := two_zpow_pos e₁
    rcases lt_trichotomy m₁ m₂ with hm | rfl | hm
    · rw [compare_lt_iff_lt.mpr hm]
      exact compare_lt_iff_lt.mpr (mul_lt_mul_of_pos_right (by exact_mod_cast hm) hpos)
    · rw [compare_eq_iff_eq.mpr (rfl : m₁ = m₁)]
      exact compare_eq_iff_eq.mpr rfl
    · rw [compare_gt_iff_gt.mpr hm]
      exact compare_gt_iff_gt.mpr (mul_lt_mul_of_pos_right (by exact_mod_cast hm) hpos)
  · rw [compare_gt_iff_gt.mpr (hlt h₂ h₁ he), compare_gt_iff_gt.mpr he]
    rfl

lemma compare_neg_neg (x y : ℚ) : compare (-x) (-y) = (compare x y).swap := by
  rcases lt_trichotomy x y with h | rfl | h
  · rw [compare_lt_iff_lt.mpr h]
    exact compare_gt_iff_gt.mpr (neg_lt_neg h)
  · rw [compare_eq_iff_eq.mpr (rfl : x = x)]
    exact compare_eq_iff_eq.mpr rfl
  · rw [compare_gt_iff_gt.mpr h]
    exact compare_lt_iff_lt.mpr (neg_lt_neg h)

/-- The comparison of numbers is that of their values.  Only two finite numbers of one sign need
more than the sign and the kind. -/
lemma compare_unpack {x y : Float} {a b : ℚ} (hx : valueOf? x = some a) (hy : valueOf? y = some b) :
    x.toModel.unpack.compare y.toModel.unpack = some (compare a b) := by
  have hlimit := limit_pos
  have hmagnitude : ∀ {z : Float} {s : Sign} {m : ℕ} {e : ℤ} {hm : 0 < m},
      z.toModel.unpack = .finite s m e hm → 0 < (m : ℚ) * 2 ^ e ∧ (m : ℚ) * 2 ^ e < limit := by
    intro z s m e hm hz
    obtain ⟨hcanonical, he⟩ := canonical_of_unpack hz
    exact ⟨mul_pos (by exact_mod_cast hm) (two_zpow_pos e), hcanonical.lt_limit he⟩
  have hlt : ∀ {p q : ℚ}, p < q → some Ordering.lt = some (compare p q) :=
    fun h => congrArg some (compare_lt_iff_lt.mpr h).symm
  have hgt : ∀ {p q : ℚ}, q < p → some Ordering.gt = some (compare p q) :=
    fun h => congrArg some (compare_gt_iff_gt.mpr h).symm
  have heq : ∀ {p : ℚ}, some Ordering.eq = some (compare p p) :=
    congrArg some (compare_eq_iff_eq.mpr rfl).symm
  rcases unpack_of_valueOf? hx with
    ⟨s, hs, rfl⟩ | ⟨s, hs, rfl⟩ | ⟨s, m, e, hm, hs, hcanonical, rfl⟩ <;>
  rcases unpack_of_valueOf? hy with
    ⟨t, ht, rfl⟩ | ⟨t, ht, rfl⟩ | ⟨t, m', e', hm', ht, hcanonical', rfl⟩ <;>
  rw [hs, ht]
  · cases s <;> cases t <;> simp only [isNegative, signed_true, signed_false]
    · exact heq
    · exact hlt (by linarith)
    · exact hgt (by linarith)
    · exact heq
  · cases s <;> simp only [isNegative, signed_true, signed_false]
    · exact hlt (by linarith)
    · exact hgt hlimit
  · obtain ⟨hpos, hsmall⟩ := hmagnitude ht
    cases s <;> cases t <;> simp only [isNegative, signed_true, signed_false]
    · exact hlt (by linarith)
    · exact hlt (by linarith)
    · exact hgt (by linarith)
    · exact hgt (by linarith)
  · cases t <;> simp only [isNegative, signed_true, signed_false]
    · exact hgt (by linarith)
    · exact hlt hlimit
  · exact heq
  · obtain ⟨hpos, hsmall⟩ := hmagnitude ht
    cases t <;> simp only [isNegative, signed_true, signed_false]
    · exact hgt (by linarith)
    · exact hlt hpos
  · obtain ⟨hpos, hsmall⟩ := hmagnitude hs
    cases s <;> cases t <;> simp only [isNegative, signed_true, signed_false]
    · exact hgt (by linarith)
    · exact hlt (by linarith)
    · exact hgt (by linarith)
    · exact hlt (by linarith)
  · obtain ⟨hpos, hsmall⟩ := hmagnitude hs
    cases s <;> simp only [isNegative, signed_true, signed_false]
    · exact hlt (by linarith)
    · exact hgt hpos
  · obtain ⟨hpos, hsmall⟩ := hmagnitude hs
    obtain ⟨hpos', hsmall'⟩ := hmagnitude ht
    have hmagnitudes := compare_canonical hcanonical hcanonical'
    cases s <;> cases t <;> simp only [isNegative, signed_true, signed_false]
    · rw [compare_neg_neg, hmagnitudes]
      rfl
    · exact hlt (by linarith)
    · exact hgt (by linarith)
    · rw [hmagnitudes]
      rfl

lemma lt_iff_compare (x y : Float) :
    x < y ↔ x.toModel.unpack.compare y.toModel.unpack = some .lt := by
  change decide (x.toModel < y.toModel) = true ↔ _
  rw [decide_eq_true_iff]
  exact beq_iff_eq

lemma le_iff_compare (x y : Float) :
    x ≤ y ↔ (x.toModel.unpack.compare y.toModel.unpack).any (·.isLE) = true := by
  change decide (x.toModel ≤ y.toModel) = true ↔ _
  rw [decide_eq_true_iff]
  rfl

/-- One number is below another as its value is. -/
lemma lt_iff {x y : Float} {a b : ℚ} (hx : valueOf? x = some a) (hy : valueOf? y = some b) :
    x < y ↔ a < b := by
  rw [lt_iff_compare, compare_unpack hx hy, Option.some.injEq, compare_lt_iff_lt]

/-- One number is at most another as its value is. -/
lemma le_iff {x y : Float} {a b : ℚ} (hx : valueOf? x = some a) (hy : valueOf? y = some b) :
    x ≤ y ↔ a ≤ b := by
  rw [le_iff_compare, compare_unpack hx hy, Option.any_some, ← compare_le_iff_le]
  exact Ordering.ne_gt_iff_isLE.symm

/-- Numbers that compare have values. -/
lemma exists_le_of_le {x y : Float} (h : x ≤ y) :
    ∃ a b, valueOf? x = some a ∧ valueOf? y = some b ∧ a ≤ b := by
  cases hx : valueOf? x with
  | none =>
    rw [le_iff_compare, unpack_of_valueOf?_eq_none hx] at h
    cases h
  | some a =>
    cases hy : valueOf? y with
    | none =>
      rw [le_iff_compare, unpack_of_valueOf?_eq_none hy] at h
      cases hf : x.toModel.unpack <;> rw [hf] at h <;> cases h
    | some b => exact ⟨a, b, rfl, rfl, (le_iff hx hy).mp h⟩

/-- What is not a number is not below anything, and nothing is below it. -/
lemma not_lt_of_eq_none {x y : Float} (h : valueOf? x = none ∨ valueOf? y = none) : ¬ x < y := by
  rw [lt_iff_compare]
  rcases h with h | h <;> rw [unpack_of_valueOf?_eq_none h]
  · exact nofun
  · cases x.toModel.unpack <;> exact nofun

end Binary64

end NodeTelemetry
