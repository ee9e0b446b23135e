import Mathlib
import NodeTelemetry.Config.Writing
import NodeTelemetry.Config.Reading
import NodeTelemetry.Proofs.DecimalNumerals

/-!
# Written numbers are read back

Natural numbers are written in decimal digits without superfluous zeros, and code points in a fixed
number of hexadecimal digits.  Both are read back digit by digit, most significant digit first.
-/

namespace NodeTelemetry

/-! ## Numbers of a configuration -/

lemma writeNat_eq (n : ℕ) : writeNat n = Nat.toDigits 10 n := by
  rw [writeNat, Nat.toString_eq_repr, Nat.toList_repr]

lemma writeNat_ne_nil (n : ℕ) : writeNat n ≠ [] := by
  rw [writeNat_eq]
  exact toDigits_ne_nil n

lemma isDigit_of_mem_writeNat {n : ℕ} {c : Char} (h : c ∈ writeNat n) : c.isDigit = true := by
  rw [writeNat_eq] at h
  exact isDigit_of_mem_toDigits h

/-- A written number starts with a digit. -/
lemma exists_writeNat_eq_cons (n : ℕ) :
    ∃ c rest, writeNat n = c :: rest ∧ c.isDigit = true := by
  obtain ⟨c, rest, heq⟩ := List.exists_cons_of_ne_nil (writeNat_ne_nil n)
  exact ⟨c, rest, heq, isDigit_of_mem_writeNat (heq ▸ List.mem_cons_self)⟩

/-- A written number has no superfluous zero. -/
lemma isPadded_writeNat (n : ℕ) : Yaml.Value.isPadded (writeNat n) = false := by
  obtain ⟨c, rest, heq, hdigit⟩ := exists_writeNat_eq_cons n
  have hsigned : Yaml.Value.isSigned (writeNat n) = false := by
    rw [heq]
    simp only [Yaml.Value.isSigned, List.head?_cons, Bool.or_eq_false_iff, beq_eq_false_iff_ne]
    constructor <;> (intro hc; obtain rfl := Option.some.inj hc; revert hdigit; decide)
  rw [Yaml.Value.isPadded, hsigned, if_neg Bool.false_ne_true]
  rcases Nat.eq_zero_or_pos n with rfl | hpos
  · rfl
  · have hhead := head?_toDigits_ne_zero hpos
    rw [← writeNat_eq] at hhead
    simp [hhead]

/-- A number below a bound is read back from its text. -/
lemma natural?_writeNat {bound n : ℕ} (h : n < bound) :
    Yaml.Value.natural? bound (writeNat n) = some n := by
  have hunsigned : Decimal.unplus (writeNat n) = writeNat n :=
    Decimal.unplus_of_isDigit fun _ => isDigit_of_mem_writeNat
  have hbase : Yaml.Value.base? (writeNat n) = none := by
    unfold Yaml.Value.base?
    split
    case h_4 => rfl
    all_goals
      rename_i heq'
      have hmem := isDigit_of_mem_writeNat (heq' ▸ List.mem_cons_of_mem _ List.mem_cons_self)
      revert hmem
      decide
  have hvalue : Decimal.natural? 10 (writeNat n) = some n := by
    rw [writeNat_eq, Decimal.natural?_toDigits]
  simp only [Yaml.Value.natural?, isPadded_writeNat, Bool.false_eq_true, if_false, hunsigned,
    Yaml.Value.magnitude?, hbase, hvalue, Option.filter_some, h, decide_true, if_true]

/-! ## Code points in hexadecimal digits -/

namespace Yaml.QuotedScalar

@[simp] lemma length_hexDigits (places n : ℕ) : (hexDigits places n).length = places := by
  induction places generalizing n with
  | zero => rfl
  | succ places ih => simp [hexDigits, ih]

lemma digitValue?_hexDigit {d : ℕ} (h : d < 16) :
    Decimal.digitValue? 16 (("0123456789ABCDEF".toList)[d]?.getD '0') = some d := by
  interval_cases d <;> rfl

/-- A number is read back from enough hexadecimal digits. -/
lemma digitsValue?_hexDigits {places n : ℕ} (h : n < 16 ^ places) :
    Decimal.digitsValue? 16 0 (hexDigits places n) = some n := by
  induction places generalizing n with
  | zero => rw [pow_zero, Nat.lt_one_iff] at h; rw [h]; rfl
  | succ places ih =>
    have hrest : n / 16 < 16 ^ places := by
      rw [Nat.div_lt_iff_lt_mul (by norm_num)]
      rwa [pow_succ] at h
    have hdigit := digitValue?_hexDigit (Nat.mod_lt n (by norm_num : 0 < 16))
    rw [hexDigits, Decimal.digitsValue?_append, ih hrest]
    simp only [Decimal.digitsValue?, hdigit, Option.bind_some, Option.some.injEq]
    omega

lemma natural?_hexDigits {places n : ℕ} (hplaces : 0 < places) (h : n < 16 ^ places) :
    Decimal.natural? 16 (hexDigits places n) = some n := by
  have hne : (hexDigits places n).isEmpty = false := by
    rw [List.isEmpty_eq_false_iff, ← List.length_pos_iff, length_hexDigits]
    exact hplaces
  rw [Decimal.natural?, hne, if_neg Bool.false_ne_true, digitsValue?_hexDigits h]

end Yaml.QuotedScalar

end NodeTelemetry
