import Mathlib
import NodeTelemetry.Binary64

/-!
# Decoding and packing binary64 numbers

A `Float` is known by its bits.  `ofBits` decodes them, and the operations on a `Float` decode them
on their own, into a sign, a mantissa and an exponent.  Here the two decodings are shown to agree
(`ofFloat_eq_ofUnpacked`), and a packed result is decoded again (`ofFloat_pack`).

A decoded number stands for a rational (`value?`).  An infinity stands for the first power of two
above the range, so that numbers are compared as their values are.
-/

namespace NodeTelemetry

namespace Binary64

open Float.Model Float.Model.UnpackedFloat

/-! ## Values -/

/-- A magnitude with a sign. -/
def signed (negative : Bool) (x : ℚ) : ℚ := if negative then -x else x

/-- The first power of two above the range. -/
def limit : ℚ := 2 ^ 1024

/-- The value of a decoded number; what is not a number has none. -/
def value? : Binary64 → Option ℚ
  | .nan => none
  | .infinite negative => some (signed negative limit)
  | .finite negative m e => some (signed negative (m * 2 ^ e))

/-- The value of a number. -/
def valueOf? (x : Float) : Option ℚ := (ofFloat x).value?

@[simp] lemma signed_zero (negative : Bool) : signed negative 0 = 0 := by
  cases negative <;> simp [signed]

@[simp] lemma abs_signed (negative : Bool) (x : ℚ) : |signed negative x| = |x| := by
  cases negative <;> simp [signed]

lemma signed_false (x : ℚ) : signed false x = x := if_neg Bool.false_ne_true

lemma signed_true (x : ℚ) : signed true x = -x := if_pos rfl

/-- A mantissa of at most 53 bits that is full unless the exponent is the least. -/
structure Canonical (m : ℕ) (e : ℤ) : Prop where
  lt : m < 2 ^ 53
  least_le : -1074 ≤ e
  full : 2 ^ 52 ≤ m ∨ e = -1074

/-- Zero has the least exponent. -/
lemma canonical_zero : Canonical 0 (-1074) :=
  ⟨by norm_num, le_rfl, Or.inr rfl⟩

/-- What is decoded is canonical and in range. -/
lemma canonical_of_ofBits {bits : UInt64} {negative : Bool} {m : ℕ} {e : ℤ}
    (h : ofBits bits = .finite negative m e) : Canonical m e ∧ e ≤ 971 := by
  have hfraction : bits.toNat % normal < normal := Nat.mod_lt _ (by decide)
  have hfield : bits.toNat / normal % 0x800 < 0x800 := Nat.mod_lt _ (by decide)
  unfold ofBits at h
  simp only at h
  unfold normal at *
  split_ifs at h with h₁ h₂ h₃ <;> simp only [finite.injEq] at h <;>
    obtain ⟨-, rfl, rfl⟩ := h
  · exact ⟨⟨by omega, le_rfl, Or.inr rfl⟩, by norm_num⟩
  · exact ⟨⟨by omega, by omega, Or.inl (by omega)⟩, by omega⟩

/-! ## Decoding -/

/-- The sign as a truth value. -/
def isNegative : Sign → Bool
  | .negative => true
  | .positive => false

/-- The decoded number that an unpacked one is. -/
def ofUnpacked : UnpackedFloat → Binary64
  | .notANumber => .nan
  | .infinity s => .infinite (isNegative s)
  | .zero s => .finite (isNegative s) 0 (-1074)
  | .finite s m e _ => .finite (isNegative s) m e

/-- The mantissa field is the low 52 bits. -/
lemma toNat_unpackMantissa (b : BitVec Format.binary64.numBits) :
    (unpackMantissa b).toNat = b.toNat % normal := by
  simp [unpackMantissa, normal]

/-- The exponent field is the 11 bits above the mantissa. -/
lemma toNat_unpackExponent (b : BitVec Format.binary64.numBits) :
    (unpackExponent b).toNat = b.toNat / normal % 0x800 := by
  simp [unpackExponent, normal, Nat.shiftRight_eq_div_pow]

/-- The sign is the highest bit. -/
lemma isNegative_unpackSign (b : BitVec Format.binary64.numBits) :
    isNegative (Sign.ofBitVec (unpackSign b)) = decide (0x8000000000000000 ≤ b.toNat) := by
  have hlt : b.toNat < 2 ^ 64 := b.isLt
  have hbit : (unpackSign b).toNat = b.toNat / 2 ^ 63 % 2 := by
    simp [unpackSign, Nat.shiftRight_eq_div_pow]
  have hzero : unpackSign b = 0#1 ↔ b.toNat / 2 ^ 63 % 2 = 0 := by
    rw [← hbit, ← BitVec.toNat_inj]
    rfl
  unfold Sign.ofBitVec
  by_cases h : unpackSign b = 0#1
  · have := hzero.mp h
    rw [if_pos h]
    symm
    simp only [isNegative, decide_eq_false_iff_not]
    omega
  · have := mt hzero.mpr h
    rw [if_neg h]
    symm
    simp only [isNegative, decide_eq_true_eq]
    omega

/-- The implicit bit stands above the mantissa field. -/
lemma toNat_one_append (m : BitVec 52) : (1#1 ++ m).toNat = normal + m.toNat := by
  rw [BitVec.toNat_append, BitVec.toNat_one (by decide), ← Nat.shiftLeft_add_eq_or_of_lt m.isLt]
  rfl

/-- The two decodings of a bit pattern agree. -/
lemma ofUnpacked_unpack (b : BitVec Format.binary64.numBits) :
    ofUnpacked (UnpackedFloat.unpack Format.binary64 b) = ofBits (UInt64.ofBitVec b) := by
  have hbits : (UInt64.ofBitVec b).toNat = b.toNat := rfl
  have hzero : unpackMantissa b = 0#_ ↔ b.toNat % normal = 0 := by
    rw [← BitVec.toNat_inj, toNat_unpackMantissa]
    rfl
  have hall : unpackExponent b = -1#_ ↔ b.toNat / normal % 0x800 = 0x7ff := by
    rw [← BitVec.toNat_inj, toNat_unpackExponent]
    rfl
  have hnone : unpackExponent b = 0#_ ↔ b.toNat / normal % 0x800 = 0 := by
    rw [← BitVec.toNat_inj, toNat_unpackExponent]
    rfl
  have happend : (1#1 ++ unpackMantissa b).toNat = normal + b.toNat % normal := by
    rw [← toNat_unpackMantissa]
    exact toNat_one_append _
  unfold UnpackedFloat.unpack ofBits
  simp only [hzero, hall, hnone, hbits]
  split_ifs with h₁ h₂ h₂ h₃ <;>
    simp [ofUnpacked, isNegative_unpackSign, toNat_unpackMantissa, toNat_unpackExponent,
      Format.exponentBias, *]

/-- Decoding a number is unpacking it. -/
lemma ofFloat_eq_ofUnpacked (x : Float) : ofFloat x = ofUnpacked x.toModel.unpack :=
  (ofUnpacked_unpack x.toModel.toBits.toBitVec).symm

/-! ## Packing -/

/-- The fields of packed components side by side. -/
lemma toNat_packComponents (s : Sign) (e : BitVec 11) (m : BitVec 52) :
    (packComponents Format.binary64 s e m).toNat =
      ((isNegative s).toNat * 0x800 + e.toNat) * normal + m.toNat := by
  have hsign : s.toBitVec.toNat = (isNegative s).toNat := by cases s <;> rfl
  unfold packComponents
  rw [BitVec.toNat_append, BitVec.toNat_append, ← Nat.shiftLeft_add_eq_or_of_lt e.isLt,
    ← Nat.shiftLeft_add_eq_or_of_lt m.isLt, hsign, Nat.shiftLeft_eq, Nat.shiftLeft_eq]
  rfl

/-- The decoding of a bit pattern given by its fields. -/
lemma ofBits_of_fields {bits : UInt64} {negative : Bool} {field fraction : ℕ}
    (hfield : field < 0x800) (hfraction : fraction < normal)
    (hbits : bits.toNat = (negative.toNat * 0x800 + field) * normal + fraction) :
    ofBits bits =
      if field = 0x7ff then if fraction = 0 then .infinite negative else .nan
      else if field = 0 then .finite negative fraction (-1074)
      else .finite negative (normal + fraction) ((field : Int) - 1075) := by
  have hsign : decide (0x8000000000000000 ≤ bits.toNat) = negative := by
    cases negative <;> simp only [Bool.toNat_true, Bool.toNat_false] at hbits <;>
      simp only [decide_eq_true_eq, decide_eq_false_iff_not] <;> unfold normal at * <;> omega
  have hdiv : bits.toNat / normal = negative.toNat * 0x800 + field := by
    rw [hbits, Nat.mul_comm, Nat.mul_add_div (by decide), Nat.div_eq_of_lt hfraction, Nat.add_zero]
  have hmod : bits.toNat % normal = fraction := by
    rw [hbits, Nat.mul_comm, Nat.mul_add_mod, Nat.mod_eq_of_lt hfraction]
  unfold ofBits
  simp only [hsign, hdiv, hmod, Nat.mul_add_mod', Nat.mod_eq_of_lt hfield]

lemma ofBits_packComponents (s : Sign) (e : BitVec 11) (m : BitVec 52) :
    ofBits (UInt64.ofBitVec (packComponents Format.binary64 s e m)) =
      if e.toNat = 0x7ff then if m.toNat = 0 then .infinite (isNegative s) else .nan
      else if e.toNat = 0 then .finite (isNegative s) m.toNat (-1074)
      else .finite (isNegative s) (normal + m.toNat) ((e.toNat : Int) - 1075) :=
  ofBits_of_fields e.isLt m.isLt (toNat_packComponents s e m)

/-- A packed canonical number is decoded to itself while its exponent fits the field. -/
lemma ofBits_pack_finite {s : Sign} {m : ℕ} {e : ℤ} (hpos : 0 < m) (h : Canonical m e) :
    ofBits (UInt64.ofBitVec (UnpackedFloat.pack Format.binary64 (.finite s m e hpos))) =
      if 971 < e then .infinite (isNegative s) else .finite (isNegative s) m e := by
  have hleast := h.least_le
  have hlt := h.lt
  have hbias : e + (Format.binary64.exponentBias : ℤ)
      + (Format.binary64.mantissaBitsWithoutImplicit : ℤ) = e + 1075 := by
    change e + 1023 + 52 = e + 1075
    ring
  unfold UnpackedFloat.pack
  simp only [hbias]
  by_cases hlarge : 971 < e
  · have hover : 2 ^ Format.binary64.exponentBits ≤ (e + 1075).toNat + 1 := by
      change 2048 ≤ _
      omega
    rw [if_pos hover, if_pos hlarge]
    exact ofBits_packComponents s _ _
  have hover : ¬ 2 ^ Format.binary64.exponentBits ≤ (e + 1075).toNat + 1 := by
    change ¬ 2048 ≤ _
    omega
  rw [if_neg hover, if_neg hlarge]
  have hlog : m.log2 + 1 = Format.binary64.mantissaBits ↔ normal ≤ m := by
    change m.log2 + 1 = 53 ↔ 2 ^ 52 ≤ m
    rw [← Nat.le_log2 hpos.ne']
    have : m.log2 < 53 := (Nat.log2_lt hpos.ne').mpr hlt
    omega
  by_cases hnormal : normal ≤ m
  · rw [if_pos (hlog.mpr hnormal), ofBits_packComponents]
    have hfield : (BitVec.ofNat 11 (e + 1075).toNat).toNat = (e + 1075).toNat :=
      Nat.mod_eq_of_lt (by omega)
    have hfraction : normal + (BitVec.ofNat 52 m).toNat = m := by
      change normal + m % normal = m
      unfold normal at *
      omega
    rw [hfield, hfraction, if_neg (by omega), if_neg (by omega)]
    congr 1
    omega
  · rw [if_neg (mt hlog.mp hnormal), ofBits_packComponents]
    have hfraction : (BitVec.ofNat 52 m).toNat = m :=
      Nat.mod_eq_of_lt (not_le.mp hnormal)
    have he : e = -1074 := h.full.resolve_left hnormal
    rw [hfraction, he]
    rfl

/-- A packed finite number is decoded to itself, or to an infinity where it is out of range. -/
lemma ofFloat_pack {f : UnpackedFloat} {negative : Bool} {m : ℕ} {e : ℤ}
    (hf : ofUnpacked f = .finite negative m e) (h : Canonical m e) :
    ofFloat (.ofModel (.pack f)) =
      if 971 < e then .infinite negative else .finite negative m e := by
  cases f with
  | notANumber => cases hf
  | infinity s => cases hf
  | zero s =>
    cases hf
    exact ofBits_packComponents s 0#11 0#52
  | finite s m e hpos =>
    cases hf
    exact ofBits_pack_finite hpos h

@[simp] lemma ofFloat_pack_notANumber : ofFloat (.ofModel (.pack .notANumber)) = .nan :=
  ofBits_packComponents .positive _ _

end Binary64

end NodeTelemetry
