import Mathlib
import NodeTelemetry.Decimal.Numeral

/-!
# Decimal numerals

Digits are read from the most significant one on, and what is read is the number that they write
(`Decimal.natural?_eq_some_iff`).  So the words that are read as numbers of 64 bits are the numerals
(`Decimal.bounded?_eq_some_iff`), and the digits of a number are read back
(`Decimal.natural?_toDigits`).
-/

namespace NodeTelemetry

/-- A word is a numeral: decimal digits after an optional plus sign, of a value that fits 64
bits. -/
def IsNumeral (word : List Char) (n : ℕ) : Prop :=
  ∃ digits : List Char, (word = digits ∨ word = '+' :: digits) ∧ digits ≠ [] ∧
    (∀ c ∈ digits, c.isDigit = true) ∧ Nat.ofDigitChars 10 digits 0 = n ∧ n < UInt64.size

lemma toDigits_ne_nil (n : ℕ) : Nat.toDigits 10 n ≠ [] :=
  List.ne_nil_of_length_pos Nat.length_toDigits_pos

lemma isDigit_of_mem_toDigits {n : ℕ} {c : Char} (h : c ∈ Nat.toDigits 10 n) : c.isDigit = true :=
  Nat.isDigit_of_mem_toDigits (by norm_num) le_rfl h

/-- The digits of a positive number do not start with a zero. -/
lemma head?_toDigits_ne_zero {n : ℕ} (h : 0 < n) : (Nat.toDigits 10 n).head? ≠ some '0' := by
  induction n using Nat.strong_induction_on with
  | h n ih =>
    rcases Nat.lt_or_ge n 10 with hsmall | hlarge
    · rw [Nat.toDigits_of_lt_base hsmall]
      interval_cases n <;> decide
    · have hpos : 0 < n / 10 := Nat.div_pos hlarge (by norm_num)
      rw [Nat.toDigits_of_base_le (by norm_num) hlarge,
        List.head?_append_of_ne_nil _ (toDigits_ne_nil _)]
      exact ih _ (Nat.div_lt_self (by omega) (by norm_num)) hpos

namespace Decimal

/-! ## Digits -/

/-- Digits are read one part after the other. -/
lemma digitsValue?_append (base value : ℕ) (first second : List Char) :
    digitsValue? base value (first ++ second) =
      (digitsValue? base value first).bind fun v => digitsValue? base v second := by
  induction first generalizing value with
  | nil => rfl
  | cons c first ih =>
    simp only [List.cons_append, digitsValue?, Option.bind_assoc, ih]

/-- The decimal digits are those with a value. -/
lemma digitValue?_ten (c : Char) :
    digitValue? 10 c = if c.isDigit = true then some (c.toNat - '0'.toNat) else none := by
  unfold digitValue?
  by_cases hc : c.isDigit = true
  · have hlt : c.toNat - '0'.toNat < 10 := by
      have hnine : c.toNat ≤ 57 := (Char.isDigit_iff_toNat.mp hc).2
      change c.toNat - 48 < 10
      omega
    simp only [hc, if_true, Option.filter_some, hlt, decide_true]
  · -- the letters that are digits of a greater base have values from ten on
    simp only [hc, if_false, Bool.false_eq_true]
    split_ifs <;> simp

/-- Digits are read from the most significant one on. -/
lemma digitsValue?_eq_some_iff {value n : ℕ} {digits : List Char} :
    digitsValue? 10 value digits = some n ↔
      (∀ c ∈ digits, c.isDigit = true) ∧ Nat.ofDigitChars 10 digits value = n := by
  induction digits generalizing value with
  | nil => simp [digitsValue?]
  | cons c digits ih =>
    rw [digitsValue?, digitValue?_ten, Nat.ofDigitChars_cons, Nat.mul_comm 10 value]
    by_cases hc : c.isDigit = true
    · simp [hc, ih]
    · simp [hc]

/-! ## Numerals -/

/-- The number that digits write is read from them. -/
lemma natural?_eq_some_iff {digits : List Char} {n : ℕ} :
    natural? 10 digits = some n ↔
      digits ≠ [] ∧ (∀ c ∈ digits, c.isDigit = true) ∧ Nat.ofDigitChars 10 digits 0 = n := by
  rw [natural?]
  by_cases hempty : digits = []
  · simp [hempty]
  · simp [hempty, digitsValue?_eq_some_iff]

/-- A number is read back from its digits. -/
lemma natural?_toDigits (n : ℕ) : natural? 10 (Nat.toDigits 10 n) = some n :=
  natural?_eq_some_iff.mpr ⟨toDigits_ne_nil n, fun _ => isDigit_of_mem_toDigits,
    Nat.ofDigitChars_ten_toDigits⟩

/-- A plus sign is not a digit. -/
lemma unplus_of_isDigit {digits : List Char} (h : ∀ c ∈ digits, c.isDigit = true) :
    unplus digits = digits := by
  rw [unplus, if_neg]
  intro hplus
  rw [beq_iff_eq] at hplus
  exact absurd (h '+' (List.mem_of_head? hplus)) (by decide)

/-- What is taken off a text is one plus sign at most. -/
lemma eq_or_eq_cons_unplus (text : List Char) : text = unplus text ∨ text = '+' :: unplus text := by
  rw [unplus]
  split
  · next hplus =>
    cases text with
    | nil => simp at hplus
    | cons c rest =>
      obtain rfl : c = '+' := by simpa using hplus
      exact .inr rfl
  · exact .inl rfl

/-- The numerals are read, each with its value. -/
lemma bounded?_eq_some_iff {word : List Char} {n : ℕ} :
    bounded? UInt64.size word = some n ↔ IsNumeral word n := by
  rw [bounded?, Option.filter_eq_some_iff, natural?_eq_some_iff, decide_eq_true_eq]
  constructor
  · rintro ⟨⟨hne, hdigits, hvalue⟩, hlt⟩
    exact ⟨_, eq_or_eq_cons_unplus word, hne, hdigits, hvalue, hlt⟩
  · rintro ⟨digits, rfl | rfl, hne, hdigits, hvalue, hlt⟩
    · rw [unplus_of_isDigit hdigits]
      exact ⟨⟨hne, hdigits, hvalue⟩, hlt⟩
    · exact ⟨⟨hne, hdigits, hvalue⟩, hlt⟩

/-- Words are read one by one. -/
lemma mapM_bounded?_eq_some_iff {words : List (List Char)} {ns : List ℕ} :
    words.mapM (bounded? UInt64.size) = some ns ↔ List.Forall₂ IsNumeral words ns := by
  induction words generalizing ns with
  | nil => simp [eq_comm]
  | cons word words ih =>
    simp only [List.mapM_cons, Option.bind_eq_bind, Option.bind_eq_some_iff, Option.pure_def,
      Option.some.injEq, bounded?_eq_some_iff, ih]
    constructor
    · rintro ⟨n, hn, more, hmore, rfl⟩
      exact .cons hn hmore
    · rintro (_ | ⟨hn, hmore⟩)
      exact ⟨_, hn, _, hmore, rfl⟩

end Decimal

/-- The decimal digits of a number are a numeral. -/
lemma isNumeral_toDigits {n : ℕ} (h : n < UInt64.size) : IsNumeral (Nat.toDigits 10 n) n :=
  ⟨_, .inl rfl, toDigits_ne_nil n, fun _ => isDigit_of_mem_toDigits,
    Nat.ofDigitChars_ten_toDigits, h⟩

/-- The values of numerals fit in 64 bits. -/
lemma map_toNat_of_isNumeral {words : List (List Char)} {ns : List ℕ}
    (h : List.Forall₂ IsNumeral words ns) : (ns.map UInt64.ofNat).map UInt64.toNat = ns := by
  induction h with
  | nil => rfl
  | cons hn _ ih =>
    obtain ⟨_, _, _, _, _, hlt⟩ := hn
    rw [List.map_cons, List.map_cons, ih, UInt64.toNat_ofNat_of_lt' hlt]

end NodeTelemetry
