import Mathlib
import NodeTelemetry.Files
import NodeTelemetry.Proofs.CpuLine
import NodeTelemetry.Proofs.PercentileRank

/-!
# Histories of processor times

The utilization is asked for again and again while the text of the kernel changes, is missing or
cannot be read.  The source keeps the times of the last reading that succeeded and nothing else
(`CpuSource.after_eq`), so a reading that fails leaves no trace (`CpuSource.filter_answersFrom`),
and each answer compares the times with those of the success before it.  What it answers then is a
quotient of two growths with four roundings, which is never above 100 and never undefined, since the
total is not zero where it is divided by (`CpuTimes.valueOf?_utilizationSince`).  The times are
those that the text lists (`CpuTimes.ofReading?_eq_some_iff`).
-/

namespace NodeTelemetry

open Binary64

/-! ## The utilization between two readings -/

/-- The ticks by which a count grew; none if it went back. -/
def ticksSince (previous current : UInt64) : ℕ := current.toNat - previous.toNat

/-- A part of a total in percent, with the roundings of its computation: of both numbers, of their
quotient, and of the product with 100. -/
def roundedPercent (part total : ℕ) : ℚ := nearest (nearest (nearest part / nearest total) * 100)

/-- A percentage is held in range as a percentile is. -/
lemma clampPercent_eq (x : Float) : clampPercent x = clampPercentile x := rfl

/-- The growth of a count is computed without wrapping. -/
lemma toNat_ticksSince (previous current : UInt64) :
    (if previous < current then current - previous else 0).toNat = ticksSince previous current := by
  unfold ticksSince
  split
  · next hlt => exact UInt64.toNat_sub_of_le _ _ (UInt64.le_of_lt hlt)
  · next hge =>
    have hle := UInt64.le_iff_toNat_le.mp (UInt64.not_lt.mp hge)
    rw [Nat.sub_eq_zero_of_le hle]
    rfl

/-- A count grew by no tick exactly if it is not above the one before. -/
lemma ticksSince_eq_zero_iff {previous current : UInt64} :
    ticksSince previous current = 0 ↔ current ≤ previous := by
  rw [ticksSince, Nat.sub_eq_zero_iff_le, UInt64.le_iff_toNat_le]

lemma one_le_nearest_natCast {n : ℕ} (h : 0 < n) : 1 ≤ nearest n :=
  one_le_nearest (by exact_mod_cast h)

/-- A quotient in percent has its rounded value. -/
lemma valueOf?_percent (part total : UInt64) (htotal : 0 < total.toNat) :
    valueOf? (part.toFloat / total.toFloat * (100 : UInt64).toFloat) =
      some (roundedPercent part.toNat total.toNat) := by
  have hone := one_le_nearest_natCast htotal
  have hpos : 0 < nearest total.toNat := one_pos.trans_le hone
  have hpart : 0 ≤ nearest part.toNat := nearest_nonneg (Nat.cast_nonneg _)
  have hquotient₀ : 0 ≤ nearest part.toNat / nearest total.toNat := div_nonneg hpart hpos.le
  have hquotient₁ : nearest part.toNat / nearest total.toNat ≤ 2 ^ (64 : ℤ) :=
    (div_le_self hpart hone).trans (by exact_mod_cast nearest_toNat_le part)
  have hrounded₁ := nearest_le_two_zpow (by norm_num) hquotient₁
  have hrounded₀ := nearest_nonneg hquotient₀
  have hlimit : ∀ n : UInt64, |nearest n.toNat| < limit := by
    intro n
    rw [abs_of_nonneg (nearest_nonneg (Nat.cast_nonneg _))]
    exact (nearest_toNat_le n).trans_lt two_pow_lt_limit
  have hdiv : valueOf? (part.toFloat / total.toFloat) =
      some (nearest (nearest part.toNat / nearest total.toNat)) := by
    rw [valueOf?_div (valueOf?_toFloat part) (valueOf?_toFloat total) (hlimit part) (hlimit total)
      hpos.ne', rounded_of_nonneg_of_le hquotient₀ (hquotient₁.trans (by norm_num))]
  rw [valueOf?_mul hdiv valueOf?_hundred, rounded_of_nonneg_of_le]
  · rfl
  · positivity
  · calc nearest (nearest part.toNat / nearest total.toNat) * 100 ≤ 2 ^ (64 : ℤ) * 100 :=
          mul_le_mul_of_nonneg_right hrounded₁ (by norm_num)
      _ ≤ 2 ^ (71 : ℤ) := by norm_num
  · rw [abs_of_nonneg hrounded₀]
    exact hrounded₁.trans_lt (by exact_mod_cast two_pow_lt_limit)
  · rw [abs_of_nonneg (by norm_num)]
    exact lt_trans (by norm_num) two_pow_lt_limit

lemma roundedPercent_zero (total : ℕ) : roundedPercent 0 total = 0 := by
  simp [roundedPercent]

/-- One half of the ticks is 50 percent without an error. -/
lemma roundedPercent_half : roundedPercent 100 200 = 50 := by
  have hhalf : nearest ((100 : ℕ) / (200 : ℕ) : ℚ) = (100 : ℕ) / (200 : ℕ) := by
    have hexact : ((100 : ℕ) / (200 : ℕ) : ℚ) = (1 : ℤ) * 2 ^ (-1 : ℤ) := by norm_num
    rw [hexact, nearest_of_lt (by norm_num) (by norm_num)]
  have hproduct : ((100 : ℕ) / (200 : ℕ) * 100 : ℚ) = (50 : ℕ) := by norm_num
  rw [roundedPercent, nearest_natCast (by norm_num), nearest_natCast (by norm_num), hhalf, hproduct,
    nearest_natCast (by norm_num)]
  rfl

/-- A part that is not smaller than the total is at least 100 percent. -/
lemma hundred_le_roundedPercent {part total : ℕ} (htotal : 0 < total) (hle : total ≤ part) :
    100 ≤ roundedPercent part total := by
  have hpos : 0 < nearest total := one_pos.trans_le (one_le_nearest_natCast htotal)
  have hcast : (total : ℚ) ≤ part := by exact_mod_cast hle
  have hquotient : 1 ≤ nearest part / nearest total :=
    (one_le_div hpos).mpr (nearest_mono hcast)
  have hproduct : (100 : ℕ) ≤ nearest (nearest part / nearest total) * 100 := by
    have := one_le_nearest hquotient
    push_cast
    linarith
  have hrounded := nearest_mono hproduct
  rw [nearest_natCast (by norm_num)] at hrounded
  exact_mod_cast hrounded

namespace CpuTimes

variable {current previous : CpuTimes}

/-- The value of the utilization between two readings. -/
lemma valueOf?_utilizationSince (current previous : CpuTimes) :
    valueOf? (current.utilizationSince previous) =
      some (if ticksSince previous.total current.total = 0 then 0
        else clampHundred (roundedPercent (ticksSince previous.busy current.busy)
          (ticksSince previous.total current.total))) := by
  have htotal := toNat_ticksSince previous.total current.total
  have hbusy := toNat_ticksSince previous.busy current.busy
  unfold utilizationSince
  generalize (if previous.total < current.total then current.total - previous.total else 0) = total
    at htotal
  generalize (if previous.busy < current.busy then current.busy - previous.busy else 0) = busy
    at hbusy
  rw [← htotal, ← hbusy]
  have hzero : total = 0 ↔ total.toNat = 0 := by
    rw [← UInt64.toNat_inj, UInt64.toNat_zero]
  simp only [hzero]
  split
  · exact valueOf?_zero
  · next hne =>
    rw [clampPercent_eq]
    exact valueOf?_clampPercentile (valueOf?_percent busy total (Nat.pos_of_ne_zero hne))

/-- Where the total or the busy ticks did not grow, nothing was used. -/
lemma valueOf?_utilizationSince_of_le
    (h : current.total ≤ previous.total ∨ current.busy ≤ previous.busy) :
    valueOf? (current.utilizationSince previous) = some 0 := by
  rw [valueOf?_utilizationSince]
  rcases h with htotal | hbusy
  · rw [if_pos (ticksSince_eq_zero_iff.mpr htotal)]
  · rw [ticksSince_eq_zero_iff.mpr hbusy, roundedPercent_zero,
      clampHundred_of_mem le_rfl (by norm_num), ite_self]

/-- Where the total grew, the utilization is the share of the busy ticks. -/
lemma valueOf?_utilizationSince_of_lt (h : previous.total < current.total) :
    valueOf? (current.utilizationSince previous) = some (clampHundred (roundedPercent
      (ticksSince previous.busy current.busy) (ticksSince previous.total current.total))) := by
  have hgrown : ticksSince previous.total current.total ≠ 0 := by
    rw [Ne, ticksSince_eq_zero_iff]
    exact UInt64.not_le.mpr h
  rw [valueOf?_utilizationSince, if_neg hgrown]

/-- Where the busy ticks grew at least as much as the total, all was used. -/
lemma valueOf?_utilizationSince_eq_hundred (h : previous.total < current.total)
    (hle : ticksSince previous.total current.total ≤ ticksSince previous.busy current.busy) :
    valueOf? (current.utilizationSince previous) = some 100 := by
  have hgrown : 0 < ticksSince previous.total current.total := by
    rw [Nat.pos_iff_ne_zero, Ne, ticksSince_eq_zero_iff]
    exact UInt64.not_le.mpr h
  have hall := hundred_le_roundedPercent hgrown hle
  rw [valueOf?_utilizationSince_of_lt h, clampHundred, min_eq_left hall,
    max_eq_right (by norm_num)]

/-- The utilization is a number from 0 to 100. -/
lemma exists_valueOf?_utilizationSince (current previous : CpuTimes) :
    ∃ a, valueOf? (current.utilizationSince previous) = some a ∧ 0 ≤ a ∧ a ≤ 100 := by
  rw [valueOf?_utilizationSince]
  split
  · exact ⟨0, rfl, le_rfl, by norm_num⟩
  · exact ⟨_, rfl, clampHundred_nonneg _, clampHundred_le _⟩

/-- The times in the text of the kernel, unless it cannot be read or has no times. -/
def ofReading? (reading : Except FileError String) : Option CpuTimes :=
  (reading.toOption.map String.toList).bind ofText?

/-- A reading has the times that the first line with the word `cpu` lists, if the text is there. -/
lemma ofReading?_eq_some_iff {reading : Except FileError String} {t : CpuTimes} :
    ofReading? reading = some t ↔ ∃ text line times, reading = .ok text ∧
      IsFirstCpuLine text.toList line ∧ ListsTicks line times ∧
      t.busy.toNat = times.busy ∧ t.total.toNat = times.total := by
  constructor
  · intro h
    cases reading with
    | error e => cases h
    | ok text =>
      have htext : ofText? text.toList = some t := h
      obtain ⟨line, times, htimes⟩ := ofText?_eq_some_iff.mp htext
      exact ⟨text, line, times, rfl, htimes⟩
  · rintro ⟨text, line, times, rfl, htimes⟩
    exact ofText?_eq_some_iff.mpr ⟨line, times, htimes⟩

end CpuTimes

/-! ## Histories -/

namespace CpuSource

/-- Asks for the utilization, given what reading the text of the kernel came to. -/
def ask (source : CpuSource) (reading : Except FileError String) : Float × CpuSource :=
  source.sample (reading.toOption.map String.toList)

/-- The source after a history of readings, from the first one on. -/
def after (readings : List (Except FileError String)) : CpuSource :=
  readings.foldl (fun source reading => (source.ask reading).2) unread

/-- What a source answers in a history of readings. -/
def answersFrom : CpuSource → List (Except FileError String) → List Float
  | _, [] => []
  | source, reading :: rest => (source.ask reading).1 :: answersFrom (source.ask reading).2 rest

/-- What is answered in a history of readings, from the first one on. -/
def answers (readings : List (Except FileError String)) : List Float := answersFrom unread readings

/-- The readings of a history that succeed. -/
def successes (readings : List (Except FileError String)) : List (Except FileError String) :=
  readings.filter fun reading => (CpuTimes.ofReading? reading).isSome

/-- The times of the last reading of a history that succeeded. -/
def lastTimes? (readings : List (Except FileError String)) : Option CpuTimes :=
  (readings.filterMap CpuTimes.ofReading?).getLast?

variable {source : CpuSource} {readings : List (Except FileError String)}
  {reading : Except FileError String} {previous : Option CpuTimes} {times : CpuTimes}

/-! ### One reading -/

/-- A reading that fails is answered with zero and leaves no trace. -/
lemma ask_of_failure (h : CpuTimes.ofReading? reading = none) :
    (kernelText previous).ask reading = ((0 : UInt64).toFloat, kernelText previous) :=
  sample_of_unreadable h

/-- A reading that succeeds is compared with the one before it, and kept. -/
lemma ask_of_success (h : CpuTimes.ofReading? reading = some times) :
    (kernelText previous).ask reading =
      (previous.elim (0 : UInt64).toFloat times.utilizationSince, kernelText (some times)) := by
  have hbind : (reading.toOption.map String.toList).bind CpuTimes.ofText? = some times := h
  unfold ask sample
  rw [hbind]
  cases previous <;> rfl

/-! ### Runs of readings -/

lemma after_concat (readings : List (Except FileError String)) (reading : Except FileError String) :
    after (readings ++ [reading]) = ((after readings).ask reading).2 := by
  simp [after]

lemma answersFrom_append (source : CpuSource) (readings more : List (Except FileError String)) :
    answersFrom source (readings ++ more) = answersFrom source readings ++
      answersFrom (readings.foldl (fun source reading => (source.ask reading).2) source) more := by
  induction readings generalizing source with
  | nil => rfl
  | cons reading readings ih => simp [answersFrom, ih]

/-- One more reading is answered by what the source is after those before it. -/
lemma answers_concat (readings : List (Except FileError String))
    (reading : Except FileError String) :
    answers (readings ++ [reading]) = answers readings ++ [((after readings).ask reading).1] :=
  answersFrom_append unread readings [reading]

lemma lastTimes?_concat (readings : List (Except FileError String))
    (reading : Except FileError String) :
    lastTimes? (readings ++ [reading]) =
      (CpuTimes.ofReading? reading).or (lastTimes? readings) := by
  unfold lastTimes?
  cases htimes : CpuTimes.ofReading? reading <;> simp [htimes]

/-- The source keeps the times of the last reading that succeeded, and nothing else. -/
lemma after_eq (readings : List (Except FileError String)) :
    after readings = kernelText (lastTimes? readings) := by
  induction readings using List.reverseRecOn with
  | nil => rfl
  | append_singleton readings reading ih =>
    rw [after_concat, ih, lastTimes?_concat]
    cases htimes : CpuTimes.ofReading? reading with
    | none => rw [ask_of_failure htimes, Option.none_or]
    | some times => rw [ask_of_success htimes, Option.some_or]

/-- Leaving out the readings that fail changes no other answer. -/
lemma filter_answersFrom (previous : Option CpuTimes)
    (readings : List (Except FileError String)) :
    ((readings.zip (answersFrom (kernelText previous) readings)).filter fun x =>
        (CpuTimes.ofReading? x.1).isSome) =
      (successes readings).zip (answersFrom (kernelText previous) (successes readings)) := by
  -- only the times of the last success carry over, and a failure leaves them as they are
  induction readings generalizing previous with
  | nil => rfl
  | cons reading readings ih =>
    cases htimes : CpuTimes.ofReading? reading with
    | none =>
      have hkept : successes (reading :: readings) = successes readings := by
        simp [successes, htimes]
      rw [hkept, answersFrom, ask_of_failure htimes, List.zip_cons_cons,
        List.filter_cons_of_neg (by simp [htimes]), ih]
    | some times =>
      have hkept : successes (reading :: readings) = reading :: successes readings := by
        simp [successes, htimes]
      rw [hkept, answersFrom, answersFrom, ask_of_success htimes, List.zip_cons_cons,
        List.zip_cons_cons, List.filter_cons_of_pos (by simp [htimes]), ih]

/-! ## Answers -/

/-- How an answer compares the times of a reading with those of the readings before it. -/
structure IsGrowthShare (earlier : List (Except FileError String))
    (reading : Except FileError String) (answer : Float) : Prop where
  /-- It is a number from 0 to 100. -/
  in_range : ∃ a, valueOf? answer = some a ∧ 0 ≤ a ∧ a ≤ 100
  /-- It is zero for a reading that fails, which leaves the source as it was. -/
  of_failure : CpuTimes.ofReading? reading = none →
    valueOf? answer = some 0 ∧ after (earlier ++ [reading]) = after earlier
  /-- It is zero for the first reading that succeeds. -/
  of_first : (CpuTimes.ofReading? reading).isSome → lastTimes? earlier = none →
    valueOf? answer = some 0
  /-- It is zero if the total or the busy ticks did not grow since the success before. -/
  of_no_growth : ∀ previous current, lastTimes? earlier = some previous →
    CpuTimes.ofReading? reading = some current →
    current.total ≤ previous.total ∨ current.busy ≤ previous.busy → valueOf? answer = some 0
  /-- It is 100 if the busy ticks grew at least as much as the total, which grew. -/
  of_busy_growth : ∀ previous current, lastTimes? earlier = some previous →
    CpuTimes.ofReading? reading = some current → previous.total < current.total →
    ticksSince previous.total current.total ≤ ticksSince previous.busy current.busy →
    valueOf? answer = some 100
  /-- It is the rounded share of the growth, held in range, if the total grew. -/
  of_growth : ∀ previous current, lastTimes? earlier = some previous →
    CpuTimes.ofReading? reading = some current → previous.total < current.total →
    valueOf? answer = some (clampHundred (roundedPercent
      (ticksSince previous.busy current.busy) (ticksSince previous.total current.total)))

namespace IsGrowthShare

variable {earlier : List (Except FileError String)} {current : CpuTimes}

/-- A reading that fails. -/
lemma of_failed (h : CpuTimes.ofReading? reading = none) :
    IsGrowthShare earlier reading (0 : UInt64).toFloat where
  in_range := ⟨0, valueOf?_zero, le_rfl, by norm_num⟩
  of_failure _ := by
    refine ⟨valueOf?_zero, ?_⟩
    rw [after_eq, after_eq, lastTimes?_concat, h, Option.none_or]
  of_first hsome := by simp [h] at hsome
  of_no_growth _ _ _ hsome := by simp [h] at hsome
  of_busy_growth _ _ _ hsome := by simp [h] at hsome
  of_growth _ _ _ hsome := by simp [h] at hsome

/-- The first reading that succeeds. -/
lemma of_first_success (h : CpuTimes.ofReading? reading = some current)
    (hfirst : lastTimes? earlier = none) : IsGrowthShare earlier reading (0 : UInt64).toFloat where
  in_range := ⟨0, valueOf?_zero, le_rfl, by norm_num⟩
  of_failure hnone := by simp [h] at hnone
  of_first _ _ := valueOf?_zero
  of_no_growth _ _ hlast := by simp [hfirst] at hlast
  of_busy_growth _ _ hlast := by simp [hfirst] at hlast
  of_growth _ _ hlast := by simp [hfirst] at hlast

/-- The times of a reading and of the success before it are determined. -/
lemma eq_of_readings {previous previous' current' : CpuTimes}
    (h : CpuTimes.ofReading? reading = some current) (hlast : lastTimes? earlier = some previous)
    (h' : CpuTimes.ofReading? reading = some current')
    (hlast' : lastTimes? earlier = some previous') : previous' = previous ∧ current' = current :=
  ⟨Option.some.inj (hlast'.symm.trans hlast), Option.some.inj (h'.symm.trans h)⟩

/-- A reading that succeeds after another one. -/
lemma of_utilizationSince {previous : CpuTimes} (h : CpuTimes.ofReading? reading = some current)
    (hlast : lastTimes? earlier = some previous) :
    IsGrowthShare earlier reading (current.utilizationSince previous) where
  in_range := CpuTimes.exists_valueOf?_utilizationSince current previous
  of_failure hnone := by simp [h] at hnone
  of_first _ hfirst := by simp [hlast] at hfirst
  of_no_growth previous' current' hlast' h' hle := by
    obtain ⟨rfl, rfl⟩ := eq_of_readings h hlast h' hlast'
    exact CpuTimes.valueOf?_utilizationSince_of_le hle
  of_busy_growth previous' current' hlast' h' hlt hle := by
    obtain ⟨rfl, rfl⟩ := eq_of_readings h hlast h' hlast'
    exact CpuTimes.valueOf?_utilizationSince_eq_hundred hlt hle
  of_growth previous' current' hlast' h' hlt := by
    obtain ⟨rfl, rfl⟩ := eq_of_readings h hlast h' hlast'
    exact CpuTimes.valueOf?_utilizationSince_of_lt hlt

end IsGrowthShare

/-- **Utilization over any history.**  Whatever the text of the kernel was at each reading, missing,
unreadable, without times, or with any times, each answer is the share of the busy ticks among those
that went by since the success before, and the readings that fail can be left out.  A reading
succeeds exactly if the first line with the word `cpu` lists seven times, which are its own. -/
theorem isGrowthShare_of_readings :
    (∀ earlier reading, ∃ answer, answers (earlier ++ [reading]) = answers earlier ++ [answer] ∧
      IsGrowthShare earlier reading answer) ∧
    (∀ readings, ((readings.zip (answers readings)).filter fun x =>
        (CpuTimes.ofReading? x.1).isSome) =
      (successes readings).zip (answers (successes readings))) ∧
    ∀ reading t, CpuTimes.ofReading? reading = some t ↔ ∃ text line times, reading = .ok text ∧
      IsFirstCpuLine text.toList line ∧ ListsTicks line times ∧
      t.busy.toNat = times.busy ∧ t.total.toNat = times.total := by
  refine ⟨fun earlier reading => ⟨_, answers_concat earlier reading, ?_⟩, filter_answersFrom none,
    fun reading t => CpuTimes.ofReading?_eq_some_iff⟩
  rw [after_eq]
  cases htimes : CpuTimes.ofReading? reading with
  | none =>
    rw [ask_of_failure htimes]
    exact .of_failed htimes
  | some current =>
    rw [ask_of_success htimes]
    cases hlast : lastTimes? earlier with
    | none => exact .of_first_success htimes hlast
    | some previous => exact .of_utilizationSince htimes hlast

/-- A text that is missing at first, and grows by 100 busy ticks in 200. -/
theorem isGrowthShare_of_growing_text :
    let earlier : List (Except FileError String) :=
      [.error .notFound, .ok "cpu 100 0 100 700 100 0 0\n"]
    let reading : Except FileError String := .ok "cpu  160 0 140 800 100 0 0\n"
    ∃ answer, answers (earlier ++ [reading]) = answers earlier ++ [answer] ∧
      IsGrowthShare earlier reading answer ∧ valueOf? answer = some 50 := by
  intro earlier reading
  obtain ⟨answer, hanswers, hshare⟩ := isGrowthShare_of_readings.1 earlier reading
  have hearlier : lastTimes? earlier = some ⟨200, 1000⟩ := by decide +kernel
  have hreading : CpuTimes.ofReading? reading = some ⟨300, 1200⟩ := by decide +kernel
  have hvalue := hshare.of_growth _ _ hearlier hreading (by decide)
  have hbusy : ticksSince 200 300 = 100 := by decide
  have htotal : ticksSince 1000 1200 = 200 := by decide
  simp only [hbusy, htotal, roundedPercent_half] at hvalue
  rw [clampHundred_of_mem (by norm_num) (by norm_num)] at hvalue
  exact ⟨answer, hanswers, hshare, hvalue⟩

/-- A missing text, 100 busy ticks of 200 around a text without times, a reset, and busy ticks that
grow faster than the total. -/
example :
    answers [.error .notFound, .ok "cpu 100 0 100 700 100 0 0\n", .ok "cpu 1 2 3\n",
      .ok "cpu  160 0 140 800 100 0 0\n", .ok "cpu 1 0 0 9 0 0 0\n", .ok "cpu 9 0 0 5 0 0 0\n"] =
    [0, 0, 0, 50, 0, 100] := by
  decide +kernel

end CpuSource

end NodeTelemetry
