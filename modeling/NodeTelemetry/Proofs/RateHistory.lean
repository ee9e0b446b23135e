import Mathlib
import NodeTelemetry.Proofs.RateValue

/-!
# Histories of counter readings

A reading counts if it is later than all readings before it.  The state of the rates after a history
is made by its last counting reading and the rates between the last two: a reading that does not
count leaves it alone (`after_concat_of_not_counts`), and so the other ones can be left out
(`after_counting`, `countingAnswers_eq`).  What is reported for the counting readings is a rate for
each interval between two of them that follow each other (`answers_counting`).  The intervals
follow each other without a gap, so the growth of a counter over all of them is that from the first
counting reading to the last (`sum_growth`).  All this together is `RateState.CoversOnce`.
-/

namespace NodeTelemetry

/-- The counters of a node, read at an instant. -/
structure CounterReading where
  counters : NodeCounters
  instant : Instant
  deriving DecidableEq, Repr

namespace CounterReading

/-- What the rates keep of a reading that counted. -/
def baseline (r : CounterReading) : RateBaseline :=
  ⟨r.counters.retransCount, r.counters.dropCount, r.instant⟩

/-- A reading counts after others if it is later than all of them. -/
def Counts (earlier : List CounterReading) (r : CounterReading) : Prop :=
  ∀ e ∈ earlier, e.instant.nanos < r.instant.nanos

instance (earlier : List CounterReading) (r : CounterReading) : Decidable (Counts earlier r) :=
  inferInstanceAs (Decidable (∀ e ∈ earlier, e.instant.nanos < r.instant.nanos))

/-- The span from one reading to another. -/
def elapsed (previous current : CounterReading) : Duration := current.instant.since previous.instant

/-- The rates from one reading to another, given those reported before. -/
def rates (before : Rates) (previous current : CounterReading) : Rates where
  retrans := rate current.counters.retransCount previous.counters.retransCount
    (elapsed previous current).toSeconds before.retrans
  drop := rate current.counters.dropCount previous.counters.dropCount
    (elapsed previous current).toSeconds before.drop

/-- Each reading of a history with the readings before it, given those before the history. -/
def historyFrom (earlier : List CounterReading) :
    List CounterReading → List (List CounterReading × CounterReading)
  | [] => []
  | r :: rest => (earlier, r) :: historyFrom (earlier ++ [r]) rest

/-- Each reading of a history with the readings before it. -/
def history (readings : List CounterReading) : List (List CounterReading × CounterReading) :=
  historyFrom [] readings

/-- The readings of a history that count. -/
def counting (readings : List CounterReading) : List CounterReading :=
  ((history readings).filter fun h => Counts h.1 h.2).map Prod.snd

/-- The intervals between the readings of a history that follow each other. -/
def intervals (readings : List CounterReading) : List (CounterReading × CounterReading) :=
  readings.zip readings.tail

end CounterReading

open Binary64 CounterReading

namespace RateState

/-- Takes in a reading. -/
def read (s : RateState) (r : CounterReading) : RateState := s.update r.counters r.instant

/-- The state after a history, from the first reading on. -/
def after (readings : List CounterReading) : RateState := readings.foldl read initial

/-- The rates reported for a reading of a history, given the readings before it. -/
def answer (h : List CounterReading × CounterReading) : Rates := ((after h.1).read h.2).rates

/-- The rates reported in a history. -/
def answers (readings : List CounterReading) : List Rates := (history readings).map answer

/-- The rates reported in a history for the readings that count. -/
def countingAnswers (readings : List CounterReading) : List Rates :=
  ((history readings).filter fun h => Counts h.1 h.2).map answer

end RateState

/-! ## One more reading -/

namespace CounterReading

lemma historyFrom_concat (earlier readings : List CounterReading) (r : CounterReading) :
    historyFrom earlier (readings ++ [r]) =
      historyFrom earlier readings ++ [(earlier ++ readings, r)] := by
  induction readings generalizing earlier with
  | nil => simp [historyFrom]
  | cons x readings ih => simp [historyFrom, ih]

lemma history_concat (readings : List CounterReading) (r : CounterReading) :
    history (readings ++ [r]) = history readings ++ [(readings, r)] :=
  historyFrom_concat [] readings r

lemma counting_concat_of_counts {readings : List CounterReading} {r : CounterReading}
    (h : Counts readings r) : counting (readings ++ [r]) = counting readings ++ [r] := by
  simp [counting, history_concat, h]

lemma counting_concat_of_not_counts {readings : List CounterReading} {r : CounterReading}
    (h : ¬ Counts readings r) : counting (readings ++ [r]) = counting readings := by
  simp [counting, history_concat, h]

lemma intervals_concat {readings : List CounterReading} {last : CounterReading}
    (hlast : readings.getLast? = some last) (r : CounterReading) :
    intervals (readings ++ [r]) = intervals readings ++ [(last, r)] := by
  induction readings with
  | nil => cases hlast
  | cons x readings ih =>
    cases readings with
    | nil =>
      obtain rfl := Option.some.inj hlast
      rfl
    | cons y readings =>
      have hrest := ih hlast
      simp only [intervals, List.cons_append, List.tail_cons, List.zip_cons_cons] at hrest ⊢
      rw [hrest]

/-- The first reading counts. -/
lemma counts_nil (r : CounterReading) : Counts [] r := fun _ he => absurd he List.not_mem_nil

/-- A reading that does not count is not later than the latest one before it. -/
lemma le_of_not_counts {readings : List CounterReading} {last r : CounterReading}
    (hle : ∀ e ∈ readings, e.instant.nanos ≤ last.instant.nanos) (h : ¬ Counts readings r) :
    r.instant.nanos ≤ last.instant.nanos := by
  by_contra hlater
  exact h fun e he => (hle e he).trans_lt (not_le.mp hlater)

/-- The last counting reading of a history is its latest one. -/
lemma exists_last_counting {readings : List CounterReading} (hne : readings ≠ []) :
    ∃ last ∈ readings, (counting readings).getLast? = some last ∧
      ∀ e ∈ readings, e.instant.nanos ≤ last.instant.nanos := by
  induction readings using List.reverseRecOn with
  | nil => exact absurd rfl hne
  | append_singleton readings r ih =>
    by_cases h : Counts readings r
    · refine ⟨r, List.mem_append_right _ List.mem_cons_self, ?_, ?_⟩
      · rw [counting_concat_of_counts h, List.getLast?_concat]
      · refine List.forall_mem_append.mpr ⟨fun e he => (h e he).le, ?_⟩
        exact List.forall_mem_singleton.mpr le_rfl
    · have hbefore : readings ≠ [] := fun hnil => h (hnil ▸ counts_nil r)
      obtain ⟨last, hmem, hlast, hle⟩ := ih hbefore
      refine ⟨last, List.mem_append_left _ hmem, ?_, ?_⟩
      · rw [counting_concat_of_not_counts h, hlast]
      · refine List.forall_mem_append.mpr ⟨hle, ?_⟩
        exact List.forall_mem_singleton.mpr (le_of_not_counts hle h)

/-- Each interval between counting readings ends after it starts. -/
lemma lt_of_mem_intervals_counting {readings : List CounterReading}
    {i : CounterReading × CounterReading} (hi : i ∈ intervals (counting readings)) :
    i.1 ∈ readings ∧ i.2 ∈ readings ∧ i.1.instant.nanos < i.2.instant.nanos := by
  induction readings using List.reverseRecOn with
  | nil => cases hi
  | append_singleton readings r ih =>
    by_cases h : Counts readings r
    · rw [counting_concat_of_counts h] at hi
      rcases eq_or_ne readings [] with rfl | hne
      · cases hi
      · obtain ⟨last, hmem, hlast, -⟩ := exists_last_counting hne
        rw [intervals_concat hlast, List.mem_append, List.mem_singleton] at hi
        rcases hi with hbefore | rfl
        · obtain ⟨hfirst, hsecond, hlt⟩ := ih hbefore
          exact ⟨List.mem_append_left _ hfirst, List.mem_append_left _ hsecond, hlt⟩
        · exact ⟨List.mem_append_left _ hmem, List.mem_append_right _ List.mem_cons_self,
            h last hmem⟩
    · rw [counting_concat_of_not_counts h] at hi
      obtain ⟨hfirst, hsecond, hlt⟩ := ih hi
      exact ⟨List.mem_append_left _ hfirst, List.mem_append_left _ hsecond, hlt⟩

end CounterReading

namespace RateState

variable {s : RateState} {previous r : CounterReading} {readings : List CounterReading}

lemma after_concat (readings : List CounterReading) (r : CounterReading) :
    after (readings ++ [r]) = (after readings).read r := by
  simp [after]

/-! ## The state after a reading -/

/-- The first reading only starts the record. -/
lemma read_of_baseline_eq_none (h : s.baseline = none) (r : CounterReading) :
    s.read r = ⟨some r.baseline, s.rates⟩ := by
  unfold read update observe
  rw [h]
  rfl

/-- A reading that is not later than the last one that counted is ignored. -/
lemma read_of_le (h : s.baseline = some previous.baseline)
    (hle : r.instant.nanos ≤ previous.instant.nanos) : s.read r = s := by
  have hzero : r.instant.since previous.instant = ⟨0⟩ := Instant.since_eq_zero hle
  have hseconds : (r.instant.since previous.instant).toSeconds ≤ (0 : UInt64).toFloat := by
    rw [hzero, Duration.toSeconds_le_zero_iff (by decide)]
  unfold read update observe
  rw [h]
  exact if_pos hseconds

/-- A later reading is kept, with the rates since the last one that counted. -/
lemma read_of_lt (h : s.baseline = some previous.baseline)
    (hlt : previous.instant.nanos < r.instant.nanos) (hprevious : previous.instant.Representable)
    (hr : r.instant.Representable) :
    s.read r = ⟨some r.baseline, CounterReading.rates s.rates previous r⟩ := by
  have hseconds : ¬ (r.instant.since previous.instant).toSeconds ≤ (0 : UInt64).toFloat := by
    rw [Duration.toSeconds_le_zero_iff (Instant.fits_since hr hprevious)]
    exact (Instant.nanos_since_pos hlt).ne'
  unfold read update observe
  rw [h]
  exact if_neg hseconds

/-- The state after a history holds the last counting reading. -/
lemma baseline_after (hclock : ∀ r ∈ readings, r.instant.Representable) :
    (after readings).baseline = (counting readings).getLast?.map CounterReading.baseline := by
  induction readings using List.reverseRecOn with
  | nil => rfl
  | append_singleton readings r ih =>
    obtain ⟨hbefore, hr⟩ := List.forall_mem_append.mp hclock
    have hstate := ih hbefore
    rw [after_concat]
    rcases eq_or_ne readings [] with rfl | hne
    · rw [counting_concat_of_counts (counts_nil r), List.getLast?_concat,
        read_of_baseline_eq_none hstate]
      rfl
    obtain ⟨last, hmem, hlast, hle⟩ := exists_last_counting hne
    rw [hlast] at hstate
    by_cases h : Counts readings r
    · rw [counting_concat_of_counts h, List.getLast?_concat,
        read_of_lt hstate (h last hmem) (hbefore last hmem) (hr r List.mem_cons_self)]
      rfl
    · rw [counting_concat_of_not_counts h, read_of_le hstate (le_of_not_counts hle h), hlast]
      exact hstate

/-- A reading that does not count changes nothing. -/
lemma after_concat_of_not_counts (hclock : ∀ r ∈ readings, r.instant.Representable)
    (h : ¬ Counts readings r) : after (readings ++ [r]) = after readings := by
  have hne : readings ≠ [] := fun hnil => h (hnil ▸ counts_nil r)
  obtain ⟨last, -, hlast, hle⟩ := exists_last_counting hne
  have hstate := baseline_after hclock
  rw [hlast] at hstate
  rw [after_concat]
  exact read_of_le hstate (le_of_not_counts hle h)

/-- Where time went by, the rates reported before do not matter. -/
lemma rates_congr (hlt : previous.instant.nanos < r.instant.nanos)
    (hprevious : previous.instant.Representable) (hr : r.instant.Representable)
    (before before' : Rates) :
    CounterReading.rates before previous r = CounterReading.rates before' previous r := by
  have hseconds := Duration.zero_lt_toSeconds (Instant.fits_since hr hprevious)
    (Instant.nanos_since_pos hlt)
  simp only [CounterReading.rates, elapsed, rate_eq_div _ _ hseconds]

/-- The rates after a counting reading are those since the counting reading before it. -/
lemma rates_read_of_counts (hclock : ∀ e ∈ readings, e.instant.Representable)
    (hr : r.instant.Representable) (h : Counts readings r) {last : CounterReading}
    (hmem : last ∈ readings) (hlast : (counting readings).getLast? = some last) :
    ((after readings).read r).rates = CounterReading.rates (after readings).rates last r := by
  have hstate := baseline_after hclock
  rw [hlast] at hstate
  rw [read_of_lt hstate (h last hmem) (hclock last hmem) hr]

/-! ## Leaving out what does not count -/

/-- The readings that do not count leave no trace in the state. -/
lemma after_counting (hclock : ∀ r ∈ readings, r.instant.Representable) :
    after (counting readings) = after readings := by
  induction readings using List.reverseRecOn with
  | nil => rfl
  | append_singleton readings r ih =>
    obtain ⟨hbefore, -⟩ := List.forall_mem_append.mp hclock
    by_cases h : Counts readings r
    · rw [counting_concat_of_counts h, after_concat, after_concat, ih hbefore]
    · rw [counting_concat_of_not_counts h, ih hbefore, after_concat_of_not_counts hbefore h]

/-- The counting readings are answered as if the other ones had been left out. -/
lemma countingAnswers_eq (hclock : ∀ r ∈ readings, r.instant.Representable) :
    countingAnswers readings = answers (counting readings) := by
  induction readings using List.reverseRecOn with
  | nil => rfl
  | append_singleton readings r ih =>
    obtain ⟨hbefore, -⟩ := List.forall_mem_append.mp hclock
    by_cases h : Counts readings r
    · have hlast : answer (readings, r) = answer (counting readings, r) := by
        unfold answer
        rw [after_counting hbefore]
      have hrest := ih hbefore
      unfold countingAnswers answers at hrest ⊢
      rw [counting_concat_of_counts h, history_concat, history_concat, List.filter_append,
        List.map_append, hrest, List.map_append, List.filter_cons_of_pos (by simpa using h)]
      simp [hlast]
    · have hrest := ih hbefore
      unfold countingAnswers at hrest ⊢
      rw [counting_concat_of_not_counts h, history_concat, List.filter_append, List.map_append,
        hrest, List.filter_cons_of_neg (by simpa using h)]
      simp

/-- The first counting reading is answered with zero rates, and each later one with the rates since
the counting reading before it, whatever rates were reported before. -/
lemma answers_counting (hclock : ∀ r ∈ readings, r.instant.Representable) (before : Rates) :
    answers (counting readings) =
      (if readings = [] then [] else [initial.rates]) ++
        (intervals (counting readings)).map fun i => CounterReading.rates before i.1 i.2 := by
  induction readings using List.reverseRecOn with
  | nil => rfl
  | append_singleton readings r ih =>
    obtain ⟨hbefore, hr⟩ := List.forall_mem_append.mp hclock
    have hnonempty : readings ++ [r] ≠ [] := by simp
    rw [if_neg hnonempty]
    rcases eq_or_ne readings [] with rfl | hne
    · rw [counting_concat_of_counts (counts_nil r)]
      rfl
    have hrest := ih hbefore
    rw [if_neg hne] at hrest
    by_cases h : Counts readings r
    · obtain ⟨last, hmem, hlast, -⟩ := exists_last_counting hne
      have hanswer : answer (counting readings, r) = CounterReading.rates before last r := by
        unfold answer
        rw [after_counting hbefore,
          rates_read_of_counts hbefore (hr r List.mem_cons_self) h hmem hlast]
        exact rates_congr (h last hmem) (hbefore last hmem) (hr r List.mem_cons_self) _ _
      unfold answers at hrest ⊢
      rw [counting_concat_of_counts h, history_concat, intervals_concat hlast, List.map_append,
        hrest, List.map_append, List.append_assoc, List.map_singleton, List.map_singleton, hanswer]
    · rw [counting_concat_of_not_counts h]
      exact hrest

end RateState

/-! ## The growth of a counter -/

namespace CounterReading

/-- The growth of a counter over an interval: its exact rate times the seconds. -/
def growth (field : CounterField) (i : CounterReading × CounterReading) : ℚ :=
  exactRate (i.2.counters.get field) (i.1.counters.get field) (elapsed i.1 i.2) *
    (elapsed i.1 i.2).exactSeconds

/-- Intervals that follow each other have the growth from the first reading to the last. -/
lemma sum_growth (field : CounterField) {readings : List CounterReading}
    (hlt : ∀ i ∈ intervals readings, i.1.instant.nanos < i.2.instant.nanos)
    {first last : CounterReading} (hfirst : readings.head? = some first)
    (hlast : readings.getLast? = some last) :
    ((intervals readings).map (growth field)).sum =
      ((last.counters.get field).toNat : ℚ) - (first.counters.get field).toNat := by
  induction readings generalizing first with
  | nil => cases hfirst
  | cons x readings ih =>
    obtain rfl := Option.some.inj hfirst
    cases readings with
    | nil =>
      obtain rfl := Option.some.inj hlast
      simp [intervals]
    | cons y readings =>
      have hsplit : intervals (x :: y :: readings) = (x, y) :: intervals (y :: readings) := rfl
      rw [hsplit] at hlt ⊢
      obtain ⟨hxy, hrest⟩ := List.forall_mem_cons.mp hlt
      have hlater := ih hrest rfl hlast
      have hgrowth : growth field (x, y) =
          ((y.counters.get field).toNat : ℚ) - (x.counters.get field).toNat :=
        exactRate_mul_exactSeconds _ _ (Instant.nanos_since_pos hxy)
      rw [List.map_cons, List.sum_cons, hlater, hgrowth]
      ring

end CounterReading

/-! ## Histories -/

namespace RateState

/-- What the rates make of a history: which readings they ignore, what they report for the others,
and that the reported intervals cover the time from the first counting reading to the last once. -/
structure CoversOnce (readings : List CounterReading) : Prop where
  /-- A reading that does not count changes nothing, and the rates before it are reported again. -/
  ignored : ∀ earlier r, earlier ++ [r] <+: readings → ¬ Counts earlier r →
    after (earlier ++ [r]) = after earlier ∧ answer (earlier, r) = (after earlier).rates
  /-- Leaving out the readings that do not count changes no other answer, and not the state. -/
  left_out : countingAnswers readings = answers (counting readings) ∧
    after readings = after (counting readings)
  /-- The first answer is zero, and each later one that counts is the rate since the counting
  reading before it. -/
  reported : ∀ before, countingAnswers readings =
    (if readings = [] then [] else [⟨0, 0⟩]) ++
      (intervals (counting readings)).map fun i => CounterReading.rates before i.1 i.2
  /-- Time goes by in each interval, and its rates are the exact ones up to rounding. -/
  rounding : ∀ i ∈ intervals (counting readings), i.1.instant.nanos < i.2.instant.nanos ∧
    ∀ before,
      valueOf? (CounterReading.rates before i.1 i.2).retrans =
        some (roundedRate i.2.counters.retransCount i.1.counters.retransCount (elapsed i.1 i.2)) ∧
      valueOf? (CounterReading.rates before i.1 i.2).drop =
        some (roundedRate i.2.counters.dropCount i.1.counters.dropCount (elapsed i.1 i.2))
  /-- The exact rates times the seconds add up to the growth from the first counting reading to the
  last. -/
  growth : ∀ field first last, (counting readings).head? = some first →
    (counting readings).getLast? = some last →
    ((intervals (counting readings)).map (CounterReading.growth field)).sum =
      ((last.counters.get field).toNat : ℚ) - (first.counters.get field).toNat

/-- **No increment is lost or counted twice.**  Whatever counters are read at whatever instants of
the clock, also at the same one again or at earlier ones, the reported rates cover the growth of the
counters from the first reading to the latest one once. -/
theorem coversOnce_of_representable (readings : List CounterReading)
    (hclock : ∀ r ∈ readings, r.instant.Representable) : CoversOnce readings := by
  have hintervals : ∀ i ∈ intervals (counting readings),
      i.1.instant.nanos < i.2.instant.nanos := fun i hi => (lt_of_mem_intervals_counting hi).2.2
  refine ⟨?_, ⟨countingAnswers_eq hclock, (after_counting hclock).symm⟩, ?_, ?_, ?_⟩
  · rintro earlier r hearly hnot
    have hearlier : ∀ e ∈ earlier, e.instant.Representable := fun e he =>
      hclock e (hearly.subset (List.mem_append_left _ he))
    have hafter := after_concat_of_not_counts hearlier hnot
    refine ⟨hafter, ?_⟩
    rw [after_concat] at hafter
    exact congrArg RateState.rates hafter
  · intro before
    have hzero : initial.rates = ⟨0, 0⟩ := by decide
    rw [countingAnswers_eq hclock, answers_counting hclock before, hzero]
  · intro i hi
    obtain ⟨hfirst, hsecond, hlt⟩ := lt_of_mem_intervals_counting hi
    have hfits := Instant.fits_since (hclock _ hsecond) (hclock _ hfirst)
    have hpos := Instant.nanos_since_pos hlt
    exact ⟨hlt, fun before =>
      ⟨valueOf?_rate _ _ hfits hpos before.retrans, valueOf?_rate _ _ hfits hpos before.drop⟩⟩
  · intro field first last hfirst hlast
    exact sum_growth field hintervals hfirst hlast

/-- Five readings, the third at the instant of the second, the fourth before it, and the last after
a reset of the drop counter: the third and the fourth are ignored, and the last reports what
happened since the second. -/
theorem coversOnce_of_repeated_and_earlier_instants :
    let reading : UInt64 → UInt64 → Int → CounterReading := fun retrans drops seconds =>
      ⟨{ NodeCounters.zero with retransCount := retrans, dropCount := drops },
        ⟨seconds * 1000000000⟩⟩
    let readings := [reading 10 4 0, reading 60 14 5, reading 80 14 5, reading 90 20 3,
      reading 90 12 15]
    (∀ r ∈ readings, r.instant.Representable) ∧ CoversOnce readings ∧
      counting readings = [reading 10 4 0, reading 60 14 5, reading 90 12 15] ∧
      answers readings = [⟨0, 0⟩, ⟨10, 2⟩, ⟨10, 2⟩, ⟨10, 2⟩, ⟨3, -0.2⟩] :=
  ⟨by decide, coversOnce_of_representable _ (by decide), by decide, by decide +kernel⟩

end RateState

end NodeTelemetry
