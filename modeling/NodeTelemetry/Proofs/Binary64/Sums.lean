import Mathlib
import NodeTelemetry.Proofs.Binary64.Arithmetic

/-!
# Sums and differences of binary64 numbers

The mantissas of two finite numbers are brought to the smaller exponent and added as integers, so
the sum is exact before it is rounded (`valueOf?_add`).  A difference is the sum with the sign of
the second number changed (`sub_eq_add_of_neg`), and so it is rounded in the same way
(`valueOf?_sub`).
-/

namespace NodeTelemetry

namespace Binary64

open Float.Model Float.Model.UnpackedFloat

/-! ## Unpacked numbers of finite value -/

/-- An unpacked number is a zero or has a canonical mantissa in range, and stands for a rational. -/
inductive Denotes : UnpackedFloat → ℚ → Prop
  | zero (s : Sign) : Denotes (.zero s) 0
  | finite (s : Sign) {m : ℕ} {e : ℤ} (hm : 0 < m) (hcanonical : Canonical m e) :
    Denotes (.finite s m e hm) (signed (isNegative s) (m * 2 ^ e))

/-- A number of finite value unpacks to one that stands for that value. -/
lemma denotes_unpack {x : Float} {a : ℚ} (hx : valueOf? x = some a) (ha : |a| < limit) :
    Denotes x.toModel.unpack a := by
  rcases unpack_of_abs_lt hx ha with ⟨s, hs, rfl⟩ | ⟨s, m, e, hm, hs, hcanonical, rfl⟩
  · rw [hs]
    exact .zero s
  · rw [hs]
    exact .finite s hm hcanonical

/-- Changing the sign of an unpacked number changes that of its value. -/
lemma Denotes.neg {f : UnpackedFloat} {a : ℚ} (h : Denotes f a) : Denotes f.neg (-a) := by
  cases h with
  | zero s =>
    rw [neg_zero]
    exact .zero (-s)
  | finite s hm hcanonical =>
    have hsigned : ∀ x : ℚ, -signed (isNegative s) x = signed (isNegative (-s)) x := by
      intro x
      cases s
      · exact neg_neg x
      · rfl
    rw [hsigned]
    exact .finite (-s) hm hcanonical

/-- Packing an unpacked number again keeps its value up to the range. -/
lemma Denotes.valueOf?_pack {f : UnpackedFloat} {a : ℚ} (h : Denotes f a) :
    valueOf? (.ofModel (.pack f)) = some (rounded a) := by
  cases h with
  | zero s => rw [valueOf?_pack_zero, rounded_zero]
  | finite s hm hcanonical =>
    rename_i m e
    have hexact : nearest ((m : ℚ) * 2 ^ e) = m * 2 ^ e := by
      have hbits : |(m : ℤ)| < 2 ^ 53 := by
        rw [abs_of_nonneg (Int.natCast_nonneg m)]
        exact_mod_cast hcanonical.lt
      exact_mod_cast nearest_of_lt hbits hcanonical.least_le
    exact Binary64.valueOf?_pack ⟨m, e, rfl, hcanonical, hexact.symm⟩

/-! ## Integer mantissas -/

lemma cast_apply (s : Sign) (m : ℕ) : ((s.apply m : ℤ) : ℚ) = signed (isNegative s) m := by
  cases s <;> simp [Sign.apply, isNegative, signed]

lemma signed_mul_right (b : Bool) (x y : ℚ) : signed b x * y = signed b (x * y) := by
  cases b <;> simp [signed]

/-- Bringing a mantissa to a smaller exponent keeps the value. -/
lemma apply_decreaseExponent (s : Sign) (m : ℕ) {e t : ℤ} (ht : t ≤ e) :
    ((s.apply (decreaseExponent m e t).1 : ℤ) : ℚ) * 2 ^ t =
      signed (isNegative s) (m * 2 ^ e) := by
  obtain ⟨k, rfl⟩ : ∃ k : ℕ, e = k + t := ⟨(e - t).toNat, by omega⟩
  have hshift : (decreaseExponent m (k + t) t).1 = m * 2 ^ k := by
    have hk : (k + t - t).toNat = k := by omega
    unfold decreaseExponent
    simp only [hk, Nat.shiftLeft_eq]
  rw [hshift, cast_apply, signed_mul_right, two_zpow_add, zpow_natCast]
  push_cast
  rw [mul_assoc]

/-- An integer mantissa of either sign is rounded as `nearest` does. -/
lemma valueOf?_pack_normalize (k e : ℤ) (s : Sign) :
    valueOf? (.ofModel (.pack (UnpackedFloat.normalize Format.binary64 k e s))) =
      some (rounded (k * 2 ^ e)) := by
  unfold UnpackedFloat.normalize
  rcases lt_trichotomy k 0 with hneg | rfl | hpos
  · obtain ⟨m, rfl⟩ : ∃ m : ℕ, k = -m := ⟨(-k).toNat, by omega⟩
    have hm : 0 < m := by omega
    rw [compare_lt_iff_lt.mpr hneg]
    simp only [neg_neg, Int.toNat_natCast]
    rw [valueOf?_pack (rounds_round .negative hm e), isNegative, signed_true]
    push_cast
    rw [neg_mul]
  · rw [compare_eq_iff_eq.mpr rfl, Int.cast_zero, zero_mul, rounded_zero]
    exact valueOf?_pack_zero s
  · obtain ⟨m, rfl⟩ : ∃ m : ℕ, k = m := ⟨k.toNat, by omega⟩
    have hm : 0 < m := by omega
    rw [compare_gt_iff_gt.mpr hpos]
    simp only [Int.toNat_natCast]
    rw [valueOf?_pack (rounds_round .positive hm e), isNegative, signed_false]
    push_cast
    rfl

/-! ## Addition and subtraction -/

/-- The sum of two unpacked numbers has the exact value, rounded. -/
lemma Denotes.valueOf?_add {f g : UnpackedFloat} {a b : ℚ} (hf : Denotes f a) (hg : Denotes g b) :
    valueOf? (.ofModel (.pack (UnpackedFloat.add Format.binary64 f g))) =
      some (rounded (a + b)) := by
  cases hf with
  | zero s =>
    rw [zero_add]
    cases hg with
    | zero t => cases s <;> cases t <;> exact (Denotes.zero _).valueOf?_pack
    | finite t hm hcanonical => exact (Denotes.finite t hm hcanonical).valueOf?_pack
  | finite s hm hcanonical =>
    rename_i m e
    cases hg with
    | zero t =>
      rw [add_zero]
      exact (Denotes.finite s hm hcanonical).valueOf?_pack
    | finite t hm' hcanonical' =>
      rename_i m' e'
      rw [← apply_decreaseExponent s m (min_le_left e e'),
        ← apply_decreaseExponent t m' (min_le_right e e'), ← add_mul, ← Int.cast_add]
      exact valueOf?_pack_normalize _ _ .positive

/-- The sum of two finite numbers has the exact value, rounded. -/
lemma valueOf?_add {x y : Float} {a b : ℚ} (hx : valueOf? x = some a) (hy : valueOf? y = some b)
    (ha : |a| < limit) (hb : |b| < limit) : valueOf? (x + y) = some (rounded (a + b)) :=
  (denotes_unpack hx ha).valueOf?_add (denotes_unpack hy hb)

/-- A difference of unpacked numbers is a sum with the sign of the second one changed. -/
lemma sub_eq_add_of_neg (f g : UnpackedFloat) :
    UnpackedFloat.sub Format.binary64 f g = UnpackedFloat.add Format.binary64 f g.neg := by
  have happly : ∀ (t : Sign) (k l : ℤ), k - t.apply l = k + (-t).apply l := by
    intro t k l
    cases t
    · exact sub_neg_eq_add k l
    · exact Int.sub_eq_add_neg
  cases f <;> cases g <;> first | rfl | simp only [UnpackedFloat.sub, UnpackedFloat.add,
    UnpackedFloat.neg, happly]

/-- The difference of two finite numbers has the exact value, rounded. -/
lemma valueOf?_sub {x y : Float} {a b : ℚ} (hx : valueOf? x = some a) (hy : valueOf? y = some b)
    (ha : |a| < limit) (hb : |b| < limit) : valueOf? (x - y) = some (rounded (a - b)) := by
  change valueOf? (.ofModel (.pack (UnpackedFloat.sub _ x.toModel.unpack y.toModel.unpack))) = _
  rw [sub_eq_add_of_neg, sub_eq_add_neg a b]
  exact (denotes_unpack hx ha).valueOf?_add (denotes_unpack hy hb).neg

end Binary64

end NodeTelemetry
