import Mathlib
import NodeTelemetry.Proofs.Binary64.Decoding
import NodeTelemetry.Proofs.Binary64.Nearest
import NodeTelemetry.Proofs.DecimalNumerals
import NodeTelemetry.Proofs.RecordReading

/-!
# Printed values

A finite number is printed as the multiple of one hundredth that is nearest to its exact value, and
as the even multiple from the middle between two.  Being nearest is described without a rounding
function (`IsNearestEven`), and there is exactly one such integer, `roundEven`
(`isNearestEven_roundEven`, `IsNearestEven.eq_roundEven`); so a greater number is not printed as a
smaller decimal (`Decimal.IsRounded.readBack?_le`).

The hundredths of a number are computed on natural numbers, for all exponents
(`Decimal.hundredths_eq_roundEven`).  Their text is the digits before the point and two after it
(`Decimal.toList_hundredthsText`), from which the hundredths are read back
(`Decimal.readBack?_twoPlaces`).  The six fields of a snapshot are printed in this way where they
are finite, each under the name of its gauge (`Exposition.printedFields`,
`Exposition.givesRounded_render`).
-/

namespace NodeTelemetry

/-! ## The nearest integer -/

namespace Binary64

/-- An integer is nearest to a rational, and it is even if another one is as near. -/
structure IsNearestEven (x : ℚ) (n : ℤ) : Prop where
  nearest : ∀ k : ℤ, |x - n| ≤ |x - k|
  even : ∀ k : ℤ, k ≠ n → |x - k| = |x - n| → Even n

variable {x : ℚ} {n : ℤ}

/-- No rational is less than one half away from two integers. -/
lemma one_le_abs_sub_add_abs_sub (x : ℚ) {j k : ℤ} (h : j ≠ k) : 1 ≤ |x - j| + |x - k| := by
  have hint : 1 ≤ |j - k| := Int.one_le_abs (sub_ne_zero.mpr h)
  calc (1 : ℚ) ≤ |(j : ℚ) - k| := by exact_mod_cast hint
    _ ≤ |(j : ℚ) - x| + |x - k| := abs_sub_le _ _ _
    _ = |x - j| + |x - k| := by rw [abs_sub_comm]

/-- In the middle between two integers the even one is taken. -/
lemma even_roundEven (h : |x - roundEven x| = 1 / 2) : Even (roundEven x) := by
  have hsplit : (⌊x⌋ : ℚ) + Int.fract x = x := Int.floor_add_fract x
  have hnonneg := Int.fract_nonneg x
  have hlt := Int.fract_lt_one x
  unfold roundEven at h ⊢
  split_ifs at h ⊢ with hlow hhigh
  · rw [abs_of_nonneg (by linarith)] at h
    linarith
  · push_cast at h
    rw [abs_of_nonpos (by linarith)] at h
    linarith
  · rw [Int.even_iff]
    omega

lemma isNearestEven_roundEven (x : ℚ) : IsNearestEven x (roundEven x) := by
  have hhalf : |x - roundEven x| ≤ 1 / 2 := by
    rw [abs_sub_comm]
    exact abs_roundEven_sub_le x
  constructor
  · intro k
    rcases eq_or_ne k (roundEven x) with rfl | hne
    · rfl
    · have hsum := one_le_abs_sub_add_abs_sub x hne
      linarith
  · intro k hne heq
    have hsum := one_le_abs_sub_add_abs_sub x hne
    exact even_roundEven (by linarith)

/-- Two integers that are both nearest and even would be one apart. -/
lemma IsNearestEven.eq_roundEven (h : IsNearestEven x n) : n = roundEven x := by
  by_contra hne
  have hround := isNearestEven_roundEven x
  have heq : |x - n| = |x - roundEven x| := le_antisymm (h.nearest _) (hround.nearest _)
  have hclose : |n - roundEven x| ≤ 1 := by
    have hhalf := abs_roundEven_sub_le x
    have hsum := abs_sub_le (n : ℚ) x (roundEven x)
    rw [abs_sub_comm (n : ℚ) x, heq, abs_sub_comm x] at hsum
    have hcast : |(n : ℚ) - roundEven x| ≤ 1 := by linarith
    exact_mod_cast hcast
  obtain ⟨a, ha⟩ := h.even _ (Ne.symm hne) heq.symm
  obtain ⟨b, hb⟩ := hround.even n hne heq
  rw [abs_le] at hclose
  omega

/-- The rounded quotient of natural numbers is the integer nearest to the exact one. -/
lemma roundHalfEven_eq_roundEven (num : ℕ) {den : ℕ} (h : 0 < den) :
    (roundHalfEven num den : ℤ) = roundEven (num / den) := by
  have hfloor : ⌊(num / den : ℚ)⌋ = ((num / den : ℕ) : ℤ) := Rat.floor_natCast_div_natCast num den
  have hden : (0 : ℚ) < den := by exact_mod_cast h
  have hlow : ((num % den : ℕ) : ℚ) / den < 1 / 2 ↔ 2 * (num % den) < den := by
    rw [div_lt_div_iff₀ hden (by norm_num), one_mul, mul_comm]
    exact_mod_cast Iff.rfl
  have hhigh : 1 / 2 < ((num % den : ℕ) : ℚ) / den ↔ den < 2 * (num % den) := by
    rw [div_lt_div_iff₀ (by norm_num) hden, one_mul, mul_comm]
    exact_mod_cast Iff.rfl
  unfold roundHalfEven roundEven
  simp only [hfloor, Int.fract_div_natCast_eq_div_natCast_mod, hlow, hhigh]
  split_ifs <;> omega

/-! ## The exact value -/

/-- The highest bit, which is set for negative numbers and for the negative zero. -/
def signBit (x : Float) : Bool := x.toBits.toNat.testBit 63

/-- The exact value of a finite number. -/
def finiteValue? (x : Float) : Option ℚ :=
  match ofFloat x with
  | .finite negative m e => some (signed negative (m * 2 ^ e))
  | _ => none

/-- A finite number is decoded with its sign bit. -/
lemma ofFloat_of_finiteValue? {x : Float} {v : ℚ} (h : finiteValue? x = some v) :
    ∃ m e, ofFloat x = .finite (signBit x) m e ∧ v = signed (signBit x) (m * 2 ^ e) := by
  have hlt : x.toBits.toNat < 2 ^ 64 := x.toBits.toNat_lt
  have hbit : signBit x = decide (0x8000000000000000 ≤ x.toBits.toNat) := by
    rw [signBit, Nat.testBit_eq_decide_div_mod_eq, decide_eq_decide]
    omega
  unfold finiteValue? at h
  split at h
  · next negative m e hfinite =>
    obtain rfl : negative = signBit x := by
      rw [hbit]
      unfold ofFloat ofBits at hfinite
      simp only at hfinite
      split_ifs at hfinite <;> exact (finite.inj hfinite).1.symm
    exact ⟨m, e, hfinite, (Option.some.inj h).symm⟩
  · cases h

end Binary64

namespace Decimal

open Binary64

/-! ## Decimals with two places -/

/-- A decimal with two places: an optional minus sign, one digit or more without superfluous zeros
at their start, a point and two digits. -/
def IsTwoPlaces (text : List Char) : Prop :=
  ∃ sign whole cents : List Char, text = sign ++ (whole ++ '.' :: cents) ∧
    (sign = [] ∨ sign = ['-']) ∧
    whole ≠ [] ∧ (∀ c ∈ whole, c.isDigit = true) ∧ (whole.head? = some '0' → whole = ['0']) ∧
    cents.length = 2 ∧ ∀ c ∈ cents, c.isDigit = true

/-- The number that a decimal is read as. -/
def readBack? (text : String) : Option ℚ :=
  (fraction? text.toList).map fun f => signed f.negative (f.coefficient * 10 ^ f.exponent)

/-- A text is the decimal for a finite number `x` of the exact value `v`, rounded to hundredths.
The sign is that of the number, also where it is rounded to zero, and an integer is written with all
its digits. -/
structure IsRounded (x : Float) (v : ℚ) (text : String) : Prop where
  shape : IsTwoPlaces text.toList
  sign : '-' ∈ text.toList ↔ signBit x = true
  nearest : ∃ n : ℤ, readBack? text = some ((n : ℚ) / 100) ∧ IsNearestEven (100 * v) n
  integer : ∀ k : ℤ, v = k → readBack? text = some v ∧
    text = (if signBit x then "-" else "") ++ toString k.natAbs ++ ".00"

/-- A greater number is not printed as a smaller decimal. -/
lemma IsRounded.readBack?_le {x y : Float} {v w : ℚ} {text text' : String}
    (h : IsRounded x v text) (h' : IsRounded y w text') (hle : v ≤ w) :
    ∃ a b, readBack? text = some a ∧ readBack? text' = some b ∧ a ≤ b := by
  obtain ⟨n, hread, hn⟩ := h.nearest
  obtain ⟨n', hread', hn'⟩ := h'.nearest
  have hround : n ≤ n' := by
    rw [hn.eq_roundEven, hn'.eq_roundEven]
    exact roundEven_mono (by linarith)
  have hcast : (n : ℚ) ≤ n' := by exact_mod_cast hround
  exact ⟨_, _, hread, hread', div_le_div_of_nonneg_right hcast (by norm_num)⟩

/-! ## Hundredths -/

/-- The hundredths of a number are those nearest to it. -/
lemma hundredths_eq_roundEven (m : ℕ) (q : ℤ) :
    (hundredths m q : ℤ) = roundEven (100 * (m * 2 ^ q)) := by
  unfold hundredths
  split_ifs with hq
  · obtain ⟨d, rfl⟩ := Int.eq_ofNat_of_zero_le hq
    have hint : (100 * (m * 2 ^ (d : ℤ)) : ℚ) = ((m * 2 ^ d * 100 : ℤ) : ℚ) := by
      push_cast
      rw [zpow_natCast]
      ring
    rw [hint, roundEven_intCast, Int.toNat_natCast, Nat.shiftLeft_eq]
    push_cast
    rfl
  · obtain ⟨d, hd⟩ := Int.eq_ofNat_of_zero_le (neg_nonneg.mpr (not_le.mp hq).le)
    have hquot : (100 * (m * 2 ^ q) : ℚ) = ((m * 100 : ℕ) : ℚ) / ((2 ^ d : ℕ) : ℚ) := by
      rw [← neg_neg q, hd, zpow_neg, zpow_natCast]
      push_cast
      ring
    rw [hquot, hd, Int.toNat_natCast, Nat.one_shiftLeft,
      roundHalfEven_eq_roundEven _ (Nat.two_pow_pos d)]

/-- The last two digits of a number. -/
def cents (n : ℕ) : List Char := [Nat.digitChar (n / 10 % 10), Nat.digitChar (n % 10)]

lemma isDigit_of_mem_cents {n : ℕ} : ∀ c ∈ cents n, c.isDigit = true := by
  simp [cents, Nat.isDigit_digitChar, Nat.mod_lt]

/-- A number of hundredths is written as the whole part, a point and two digits. -/
lemma toList_hundredthsText (n : ℕ) :
    (hundredthsText n).toList = Nat.toDigits 10 (n / 100) ++ '.' :: cents n := by
  have htens : n % 100 / 10 = n / 10 % 10 := by omega
  have hones : n % 100 % 10 = n % 10 := by omega
  have hcents :
      (if n % 100 < 10 then "0" else "").toList ++ Nat.toDigits 10 (n % 100) = cents n := by
    unfold cents
    split_ifs with hsmall
    · rw [Nat.toDigits_of_lt_base hsmall, ← htens, Nat.div_eq_of_lt hsmall,
        ← Nat.mod_eq_of_lt hsmall, hones]
      rfl
    · rw [Nat.toDigits_of_base_le (by norm_num) (not_lt.mp hsmall),
        Nat.toDigits_of_lt_base (by omega), htens, hones]
      rfl
  simp only [hundredthsText, String.toList_append, Nat.toString_eq_repr, Nat.toList_repr]
  rw [List.append_assoc, List.append_assoc, hcents]
  rfl

/-- Whole numbers have two zeros after the point. -/
lemma hundredthsText_mul (n : ℕ) : hundredthsText (100 * n) = toString n ++ ".00" := by
  have hwhole : 100 * n / 100 = n := Nat.mul_div_cancel_left n (by norm_num)
  have hcents : 100 * n % 100 = 0 := Nat.mul_mod_right 100 n
  simp only [hundredthsText, hwhole, hcents]
  rw [String.append_assoc, String.append_assoc]
  rfl

/-- The digits around the point are those of the number. -/
lemma ofDigitChars_cents (n : ℕ) :
    Nat.ofDigitChars 10 (Nat.toDigits 10 (n / 100) ++ cents n) 0 = n := by
  have htens : n / 10 % 10 < 10 := Nat.mod_lt _ (by norm_num)
  have hones : n % 10 < 10 := Nat.mod_lt _ (by norm_num)
  rw [Nat.ofDigitChars_append, Nat.ofDigitChars_ten_toDigits, cents,
    Nat.ofDigitChars_cons_digitChar_of_lt_ten htens,
    Nat.ofDigitChars_cons_digitChar_of_lt_ten hones, Nat.ofDigitChars_nil]
  omega

/-- Only zero has a zero as first digit. -/
lemma toDigits_of_head?_eq_zero {n : ℕ} (h : (Nat.toDigits 10 n).head? = some '0') :
    Nat.toDigits 10 n = ['0'] := by
  rcases Nat.eq_zero_or_pos n with rfl | hpos
  · rfl
  · exact absurd h (head?_toDigits_ne_zero hpos)

/-! ## Reading a decimal back -/

/-- The sign in front of a decimal. -/
def signText (negative : Bool) : List Char := if negative then ['-'] else []

/-- Digits on both sides of a point are read as those of one number. -/
lemma fraction?_of_pointed (negative : Bool) {whole cents : List Char} (hne : whole ≠ [])
    (hwhole : ∀ c ∈ whole, c.isDigit = true) (hcents : ∀ c ∈ cents, c.isDigit = true) :
    fraction? (signText negative ++ (whole ++ '.' :: cents)) =
      some ⟨negative, Nat.ofDigitChars 10 (whole ++ cents) 0, 0 - (cents.length : ℤ)⟩ := by
  have hminus : (whole ++ '.' :: cents).head? ≠ some '-' := by
    rw [List.head?_append_of_ne_nil _ hne]
    intro h
    exact absurd (hwhole '-' (List.mem_of_mem_head? h)) (by decide)
  have hsign : ((signText negative ++ (whole ++ '.' :: cents)).head? == some '-') = negative := by
    cases negative
    · exact beq_false_of_ne hminus
    · rfl
  have hdrop : (if negative = true then (signText negative ++ (whole ++ '.' :: cents)).drop 1
      else signText negative ++ (whole ++ '.' :: cents)) = whole ++ '.' :: cents := by
    cases negative <;> rfl
  have htake : (whole ++ '.' :: cents).takeWhile Char.isDigit = whole := by
    rw [List.takeWhile_append_of_pos hwhole]
    simp
  have hrest : (whole ++ '.' :: cents).dropWhile Char.isDigit = '.' :: cents := by
    rw [List.dropWhile_append_of_pos hwhole]
    simp
  have hcoefficient : natural? 10 (whole ++ cents) =
      some (Nat.ofDigitChars 10 (whole ++ cents) 0) :=
    natural?_eq_some_iff.mpr ⟨by simp [hne], List.forall_mem_append.mpr ⟨hwhole, hcents⟩, rfl⟩
  have hdecimals : cents.takeWhile Char.isDigit = cents := List.takeWhile_eq_self_iff.mpr hcents
  have hend : cents.dropWhile Char.isDigit = [] := List.dropWhile_eq_nil_iff.mpr hcents
  unfold fraction?
  simp only [hsign, hdrop, htake, hrest, List.head?_cons, beq_self_eq_true, if_true]
  simp only [List.drop_one, List.tail_cons, hdecimals, hend, hcoefficient]
  rfl

section

variable {x : Float} {negative : Bool} {m : ℕ} {e : ℤ}

/-- The text of a finite number in characters. -/
lemma toList_twoPlaces (h : ofFloat x = .finite negative m e) :
    (twoPlaces x).toList = signText negative ++
      (Nat.toDigits 10 (hundredths m e / 100) ++ '.' :: cents (hundredths m e)) := by
  have hsign : (if negative = true then "-" else "").toList = signText negative := by
    cases negative <;> rfl
  simp only [twoPlaces, h]
  rw [String.toList_append, hsign, toList_hundredthsText]

/-- The hundredths with their sign are those nearest to the exact value. -/
lemma signed_hundredths (negative : Bool) (m : ℕ) (e : ℤ) :
    signed negative (hundredths m e) = roundEven (100 * signed negative (m * 2 ^ e)) := by
  have hround : (hundredths m e : ℚ) = roundEven (100 * (m * 2 ^ e)) := by
    exact_mod_cast hundredths_eq_roundEven m e
  cases negative
  · rw [signed_false, signed_false, hround]
  · rw [signed_true, signed_true, mul_neg, roundEven_neg, hround, Int.cast_neg]

/-- An integer is a whole number of hundredths. -/
lemma roundEven_hundred_mul (k : ℤ) : roundEven (100 * (k : ℚ)) = 100 * k := by
  have hcast : 100 * (k : ℚ) = ((100 * k : ℤ) : ℚ) := by
    push_cast
    rfl
  rw [hcast, roundEven_intCast]

/-- What is read back is the nearest number of hundredths. -/
lemma readBack?_twoPlaces (h : ofFloat x = .finite negative m e) :
    readBack? (twoPlaces x) =
      some ((roundEven (100 * signed negative (m * 2 ^ e)) : ℚ) / 100) := by
  have hread := fraction?_of_pointed negative (toDigits_ne_nil (hundredths m e / 100))
    (fun c hc => isDigit_of_mem_toDigits hc) (isDigit_of_mem_cents (n := hundredths m e))
  have hscale : (hundredths m e : ℚ) * 10 ^ (0 - ((cents (hundredths m e)).length : ℤ)) =
      hundredths m e / 100 := by
    norm_num [cents]
    ring
  have hsigned :
      signed negative (hundredths m e / 100) = signed negative (hundredths m e) / 100 := by
    cases negative
    · rfl
    · exact neg_div' _ _
  rw [readBack?, toList_twoPlaces h, hread, Option.map_some, ofDigitChars_cents, hscale, hsigned,
    signed_hundredths]

/-- The text of a finite number is a decimal with two places, and signed as the number is. -/
lemma isTwoPlaces_twoPlaces (h : ofFloat x = .finite negative m e) :
    IsTwoPlaces (twoPlaces x).toList ∧ ('-' ∈ (twoPlaces x).toList ↔ negative = true) := by
  have hwhole : ∀ c ∈ Nat.toDigits 10 (hundredths m e / 100), c.isDigit = true :=
    fun c hc => isDigit_of_mem_toDigits hc
  rw [toList_twoPlaces h]
  constructor
  · refine ⟨_, _, _, rfl, ?_, toDigits_ne_nil _, hwhole, toDigits_of_head?_eq_zero, rfl,
      isDigit_of_mem_cents⟩
    cases negative
    · exact .inl rfl
    · exact .inr rfl
  · have hdigits :
        '-' ∉ Nat.toDigits 10 (hundredths m e / 100) ++ '.' :: cents (hundredths m e) := by
      intro hmem
      rcases List.mem_append.mp hmem with hmem | hmem
      · exact absurd (hwhole _ hmem) (by decide)
      · rcases List.mem_cons.mp hmem with hpoint | hmem
        · exact absurd hpoint (by decide)
        · exact absurd (isDigit_of_mem_cents _ hmem) (by decide)
    rw [List.mem_append, or_iff_left hdigits]
    cases negative <;> simp [signText]

/-- The text of an integer is its digits and two zeros. -/
lemma twoPlaces_of_eq_intCast (h : ofFloat x = .finite negative m e) {k : ℤ}
    (hk : signed negative (m * 2 ^ e) = k) :
    twoPlaces x = (if negative then "-" else "") ++ toString k.natAbs ++ ".00" := by
  have hround : signed negative (hundredths m e) = ((100 * k : ℤ) : ℚ) := by
    rw [signed_hundredths, hk, roundEven_hundred_mul]
  have hhundredths : hundredths m e = 100 * k.natAbs := by
    have habs := congrArg abs hround
    rw [abs_signed, Nat.abs_cast, ← Int.cast_abs, abs_mul, ← Int.natCast_natAbs k] at habs
    exact_mod_cast habs
  simp only [twoPlaces, h, hhundredths, hundredthsText_mul]
  rw [String.append_assoc]

/-- A finite number is printed as the nearest decimal with two places. -/
lemma isRounded_twoPlaces {v : ℚ} (h : finiteValue? x = some v) : IsRounded x v (twoPlaces x) := by
  obtain ⟨m, e, hfinite, hv⟩ := ofFloat_of_finiteValue? h
  obtain ⟨hshape, hsign⟩ := isTwoPlaces_twoPlaces hfinite
  have hread := readBack?_twoPlaces hfinite
  rw [← hv] at hread
  constructor
  · exact hshape
  · exact hsign
  · exact ⟨_, hread, isNearestEven_roundEven _⟩
  · intro k hk
    constructor
    · have hexact : ((100 * k : ℤ) : ℚ) / 100 = k := by
        push_cast
        ring
      rw [hread, hk, roundEven_hundred_mul, hexact]
    · exact twoPlaces_of_eq_intCast hfinite (hv.symm.trans hk)

/-- The eighths `0.125` and `0.375` lie in the middle between two hundredths. -/
example : twoPlaces (Float.ofBits 0x3FC0000000000000) = "0.12" ∧
    twoPlaces (Float.ofBits 0x3FD8000000000000) = "0.38" := by decide +kernel

end

end Decimal

namespace Exposition

open Binary64

/-! ## The values of a record -/

/-- The six values of a snapshot, each under the name of its gauge, in the order of a record. -/
def printedFields : List (String × (Snapshot → Float)) :=
  [ ("ebpf_rtt_p50_milliseconds", Snapshot.rttP50),
    ("ebpf_rtt_p99_milliseconds", Snapshot.rttP99),
    ("ebpf_tcp_retrans_rate", Snapshot.retransRate),
    ("ebpf_drop_rate", Snapshot.dropRate),
    ("ebpf_runqlat_p95_milliseconds", Snapshot.runqlat),
    ("ebpf_cpu_utilization", Snapshot.cpu) ]

/-- A reading of a field gives the snapshots in their order: for each the name of its node, and the
value of the field, rounded to hundredths, where it is finite. -/
structure GivesRounded (snapshots : List Snapshot) (field : String × (Snapshot → Float))
    (reading : GaugeReading) : Prop where
  name : reading.name = field.1
  values : List.Forall₂ (fun s value => value.1 = s.nodeName ∧
    ∀ v, finiteValue? (field.2 s) = some v → Decimal.IsRounded (field.2 s) v value.2)
    snapshots reading.values
  /-- A value ends the line that starts with the name of the gauge and the label of the node. -/
  lines : ∀ value ∈ reading.values,
    (field.1 ++ "\x7bnode=\"" ++ String.ofList (escapeLabel value.1.toList) ++ "\"\x7d "
      ++ value.2).toList ∈ linesOf '\n' (render snapshots).toList

/-- The decimal that a text has in its first record under the name of a gauge, for the node at a
position. -/
def decimalAt? (text name : String) (i : ℕ) : Option ℚ :=
  (readRecords text).bind fun records => records.head?.bind fun record =>
    (record.find? fun reading => reading.name == name).bind fun reading =>
      reading.values[i]?.bind fun value => Decimal.readBack? value.2

section Fields

variable {snapshots : List Snapshot} {s : Snapshot} {i : ℕ} {field : String × (Snapshot → Float)}

/-- What is read of a field. -/
def readingOf (snapshots : List Snapshot) (field : String × (Snapshot → Float)) : GaugeReading :=
  ⟨field.1, snapshots.map fun s => (s.nodeName, Decimal.twoPlaces (field.2 s))⟩

/-- The lines of a record are those of its gauges, and an empty one. -/
lemma linesOf_render (hne : snapshots ≠ []) :
    linesOf '\n' (render snapshots).toList = bodyLines snapshots ++ [[]] := by
  rw [toList_render hne, linesOf_terminated]
  intro line hline
  rcases List.mem_append.mp hline with hbody | hempty
  · exact (lineFeed_notMem_bodyLines snapshots line hbody).2
  · rw [List.mem_singleton.mp hempty]
    exact List.not_mem_nil

/-- A snapshot has a value line for each field. -/
lemma valueLine_mem_linesOf_render (hfield : field ∈ printedFields) (hs : s ∈ snapshots) :
    (field.1 ++ "\x7bnode=\"" ++ String.ofList (escapeLabel s.nodeName.toList) ++ "\"\x7d "
      ++ Decimal.twoPlaces (field.2 s)).toList ∈ linesOf '\n' (render snapshots).toList := by
  have hfields : printedFields = gauges.map fun g => (g.name, g.value) := rfl
  rw [hfields] at hfield
  obtain ⟨g, hg, rfl⟩ := List.mem_map.mp hfield
  rw [linesOf_render (List.ne_nil_of_mem hs)]
  refine List.mem_append_left _ (List.mem_map_of_mem (List.mem_flatMap.mpr ⟨g, hg, ?_⟩))
  exact List.mem_cons_of_mem _ (List.mem_cons_of_mem _ (List.mem_map_of_mem (f := valueLine g) hs))

/-- The gauges of a record are its fields. -/
lemma readings_eq_map_readingOf (snapshots : List Snapshot) :
    readings snapshots = printedFields.map (readingOf snapshots) := rfl

/-- A field is found by its name where names differ. -/
lemma find?_map_readingOf {fields : List (String × (Snapshot → Float))}
    (hnodup : (fields.map Prod.fst).Nodup) (hfield : field ∈ fields) :
    (fields.map (readingOf snapshots)).find? (fun reading => reading.name == field.1) =
      some (readingOf snapshots field) := by
  induction fields with
  | nil => cases hfield
  | cons first fields ih =>
    obtain ⟨hfirst, hrest⟩ := List.nodup_cons.mp hnodup
    rw [List.map_cons, List.find?_cons]
    rcases List.mem_cons.mp hfield with rfl | hmem
    · rw [show ((readingOf snapshots field).name == field.1) = true from beq_self_eq_true _]
    · have hne : first.1 ≠ field.1 := by
        intro heq
        exact hfirst (heq ▸ List.mem_map_of_mem hmem)
      rw [show ((readingOf snapshots first).name == field.1) = false from beq_false_of_ne hne]
      exact ih hrest hmem

/-- The decimal under the name of a gauge is the printed value of its field. -/
lemma decimalAt?_render (hfield : field ∈ printedFields) (hs : snapshots[i]? = some s) :
    decimalAt? (render snapshots) field.1 i =
      Decimal.readBack? (Decimal.twoPlaces (field.2 s)) := by
  have hne : snapshots ≠ [] := by
    rintro rfl
    cases hs
  have hnames : (printedFields.map Prod.fst).Nodup := by decide +kernel
  rw [decimalAt?, readRecords_render hne, Option.bind_some, List.head?_cons, Option.bind_some,
    readings_eq_map_readingOf, find?_map_readingOf hnames hfield, Option.bind_some, readingOf,
    List.getElem?_map, hs]
  rfl

/-- Decimals of greater numbers are not smaller. -/
lemma decimalAt?_le (hfield : field ∈ printedFields) {field' : String × (Snapshot → Float)}
    (hfield' : field' ∈ printedFields) (hs : snapshots[i]? = some s) {snapshots' : List Snapshot}
    {s' : Snapshot} {j : ℕ} (hs' : snapshots'[j]? = some s') {v w : ℚ}
    (hv : finiteValue? (field.2 s) = some v) (hw : finiteValue? (field'.2 s') = some w)
    (hle : v ≤ w) :
    ∃ a b, decimalAt? (render snapshots) field.1 i = some a ∧
      decimalAt? (render snapshots') field'.1 j = some b ∧ a ≤ b := by
  rw [decimalAt?_render hfield hs, decimalAt?_render hfield' hs']
  exact (Decimal.isRounded_twoPlaces hv).readBack?_le (Decimal.isRounded_twoPlaces hw) hle

end Fields

/-- **Every value of a record is printed correctly rounded.**  A record is read back as one reading
for each of the six fields, in which every finite value is the decimal with two places that is
nearest to its exact value, ties to even, with the sign of the number; an integer is printed
exactly, whatever its size.  The decimals are ordered as the numbers are, across fields, nodes and
records. -/
theorem givesRounded_render {snapshots : List Snapshot} (hne : snapshots ≠ []) :
    (∃ record, readRecords (render snapshots) = some [record] ∧
      List.Forall₂ (GivesRounded snapshots) printedFields record) ∧
    ∀ field ∈ printedFields, ∀ field' ∈ printedFields,
      ∀ (r r' : List Snapshot) (i j : ℕ) (s s' : Snapshot) (v w : ℚ),
      r[i]? = some s → r'[j]? = some s' → finiteValue? (field.2 s) = some v →
      finiteValue? (field'.2 s') = some w → v ≤ w →
      ∃ a b, decimalAt? (render r) field.1 i = some a ∧
        decimalAt? (render r') field'.1 j = some b ∧ a ≤ b := by
  constructor
  · refine ⟨readings snapshots, readRecords_render hne, ?_⟩
    rw [readings_eq_map_readingOf, List.forall₂_map_right_iff, List.forall₂_same]
    intro field hfield
    constructor
    case name => rfl
    case values =>
      rw [readingOf, List.forall₂_map_right_iff, List.forall₂_same]
      intro s _
      exact ⟨rfl, fun v hv => Decimal.isRounded_twoPlaces hv⟩
    case lines =>
      intro value hvalue
      obtain ⟨s, hs, rfl⟩ := List.mem_map.mp hvalue
      exact valueLine_mem_linesOf_render hfield hs
  · intro field hfield field' hfield' r r' i j s s' v w hs hs' hv hw hle
    exact decimalAt?_le hfield hfield' hs hs' hv hw hle

/-- A value of `-1 / 1024` rounds to zero and keeps its sign. -/
theorem isRounded_of_negative_value :
    let s : Snapshot := ⟨0, "host", Float.ofBits 0xBF50000000000000, Float.ofBits 0,
      Float.ofBits 0, Float.ofBits 0, Float.ofBits 0, Float.ofBits 0x7FEFFFFFFFFFFFFF⟩
    [s] ≠ [] ∧ finiteValue? s.rttP50 = some (-1 / 1024) ∧
      ∃ record text, readRecords (render [s]) = some [record] ∧
        record.head? = some ⟨"ebpf_rtt_p50_milliseconds", [("host", text)]⟩ ∧
        Decimal.IsRounded s.rttP50 (-1 / 1024) text := by
  intro s
  have hfinite : ofFloat s.rttP50 = .finite true (2 ^ 52) (-62) := by decide +kernel
  have hvalue : finiteValue? s.rttP50 = some (-1 / 1024) := by
    simp only [finiteValue?, hfinite, signed_true]
    norm_num
  have hne : [s] ≠ [] := List.cons_ne_nil _ _
  obtain ⟨⟨record, hread, hrecord⟩, -⟩ := givesRounded_render hne
  obtain ⟨reading, later, hfirst, -, rfl⟩ := List.forall₂_cons_left_iff.mp hrecord
  obtain ⟨⟨node, text⟩, rest, ⟨hnode, hrounded⟩, hrest, hvalues⟩ :=
    List.forall₂_cons_left_iff.mp hfirst.values
  obtain rfl := List.forall₂_nil_left_iff.mp hrest
  have hhost : node = "host" := hnode
  have hreading : reading = ⟨"ebpf_rtt_p50_milliseconds", [("host", text)]⟩ := by
    calc reading = ⟨reading.name, reading.values⟩ := rfl
      _ = ⟨"ebpf_rtt_p50_milliseconds", [("host", text)]⟩ := by
        rw [hfirst.name, hvalues, hhost]
  exact ⟨hne, hvalue, _, text, hread, congrArg some hreading, hrounded _ hvalue⟩

end Exposition

end NodeTelemetry
