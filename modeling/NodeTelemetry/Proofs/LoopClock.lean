import Mathlib
import NodeTelemetry.Proofs.ConfiguredNodes
import NodeTelemetry.Proofs.TickSchedule

/-!
# What the clock has to hold

After a tick the loop adds the interval to the instant at which the tick was due and, if that is
past already, to the reading of the tick (`nextDueSums`).  It breaks off exactly if the clock cannot
hold one of these sums (`AggregationLoop.staysOnClock_iff_ending`).

For readings between the start and a latest instant there is an exact condition on the interval
(`FitsClock`): the clock holds the instant an interval after the start and, if that is not behind
the latest reading, the instant an interval after that one.  A tick keeps the condition for the next
one (`FitsClock.exists_nextDue`), and without it there is a run of one or two ticks that breaks off.
`Config.validate` bounds the interval from below only, so it does not imply the condition.
-/

namespace NodeTelemetry

/-! ## The sums of a tick -/

/-- The instants that are computed for the next tick, after one that was due at `due` and came at
`now`. -/
def nextDueSums (interval : Duration) (due now : Instant) : List Instant :=
  let next : Instant := ⟨due.nanos + interval.nanos⟩
  if next.nanos < now.nanos then [next, ⟨now.nanos + interval.nanos⟩] else [next]

/-- The instant an interval after the due one is always computed. -/
lemma next_mem_nextDueSums (interval : Duration) (due now : Instant) :
    (⟨due.nanos + interval.nanos⟩ : Instant) ∈ nextDueSums interval due now := by
  rw [nextDueSums]
  split <;> exact List.mem_cons_self

lemma Instant.add?_eq_none_iff {t : Instant} {d : Duration} :
    t.add? d = none ↔ ¬ (⟨t.nanos + d.nanos⟩ : Instant).Representable := by
  simp [Instant.add?]

/-- There is no next due instant exactly if the clock cannot hold what is computed for it. -/
lemma nextDue_eq_none_iff {interval : Duration} {due now : Instant} :
    nextDue interval due now = none ↔
      ∃ t ∈ nextDueSums interval due now, ¬ t.Representable := by
  by_cases hholds : (⟨due.nanos + interval.nanos⟩ : Instant).Representable
  · have hnext : due.add? interval = some ⟨due.nanos + interval.nanos⟩ := by
      simp only [Instant.add?, hholds, if_true]
    rw [nextDue, hnext, Option.bind_some, nextDueSums]
    split
    · simp [Instant.add?_eq_none_iff, hholds]
    · simp [hholds]
  · have hnone := Instant.add?_eq_none_iff.mpr hholds
    rw [nextDue, hnone, Option.bind_none]
    simp only [true_iff]
    exact ⟨_, next_mem_nextDueSums interval due now, hholds⟩

section Beyond

variable {interval : Duration} {due now : Instant}

lemma Instant.not_representable_of_reach_le {t : Instant} (h : (Instant.reach : ℤ) ≤ t.nanos) :
    ¬ t.Representable :=
  fun hholds => absurd hholds.2 (Int.not_lt.mpr h)

lemma nextDue_eq_none_of_reach_le (h : (Instant.reach : ℤ) ≤ due.nanos + interval.nanos) :
    nextDue interval due now = none := by
  have hbeyond := Instant.not_representable_of_reach_le (t := ⟨due.nanos + interval.nanos⟩) h
  exact nextDue_eq_none_iff.mpr ⟨_, next_mem_nextDueSums interval due now, hbeyond⟩

lemma nextDue_eq_none_of_late (hlate : due.nanos + interval.nanos < now.nanos)
    (h : (Instant.reach : ℤ) ≤ now.nanos + interval.nanos) : nextDue interval due now = none := by
  refine nextDue_eq_none_iff.mpr ⟨⟨now.nanos + interval.nanos⟩, ?_,
    Instant.not_representable_of_reach_le h⟩
  rw [nextDueSums, if_pos hlate]
  exact List.mem_cons_of_mem _ List.mem_cons_self

end Beyond

namespace AggregationLoop

/-- All that a run computes for its next ticks are instants that the clock can hold. -/
def Run.StaysOnClock (interval : Duration) (started : Instant) (r : Run) : Prop :=
  ∀ (k : ℕ) tick due, r.ticks[k]? = some tick →
    dueAfter (some started) (r.ticks.take k) = some due →
    ∀ t ∈ nextDueSums interval due tick.now, t.Representable

/-- A run breaks off exactly if one of its ticks has no next due instant. -/
lemma ending_eq_beyondClock_iff (loop : AggregationLoop) (turns : List Turn) :
    (loop.run turns).ending = .beyondClock ↔
      ∃ tick ∈ (loop.run turns).ticks, tick.due = none := by
  induction turns generalizing loop with
  | nil =>
    cases hcancelled : loop.cancelled <;> simp [run, hcancelled, Run.ticks]
  | cons t rest ih =>
    cases hcancelled : loop.cancelled with
    | true =>
      rw [run_of_cancelled hcancelled]
      simp [Run.ticks]
    | false =>
      obtain ⟨record, -, -, hticked, hdue, ⟨hnone, hturn⟩ | ⟨due, after, hsome, hturn, -⟩⟩ :=
        loop.schedule_of_turn t
      · -- only a tick leaves no due instant
        have hreached : loop.due.nanos ≤ t.now.nanos := by
          by_contra hearly
          rw [if_neg hearly, hnone] at hdue
          cases hdue
        rw [(run_of_cut_turn hcancelled hturn rest).1]
        simp [Run.ticks, hticked.mpr hreached, hnone]
      · have hlater := ih after
        rw [(run_of_whole_turn hcancelled hturn rest).1]
        simp only [Run.ticks, List.mem_filter, List.mem_cons] at hlater ⊢
        rw [hlater]
        constructor
        · rintro ⟨tick, ⟨hmem, hexported⟩, hnone⟩
          exact ⟨tick, ⟨.inr hmem, hexported⟩, hnone⟩
        · rintro ⟨tick, ⟨rfl | hmem, hexported⟩, hnone⟩
          · rw [hsome] at hnone
            cases hnone
          · exact ⟨tick, ⟨hmem, hexported⟩, hnone⟩

/-- A run stays on the clock exactly if it does not break off. -/
lemma staysOnClock_iff_ending (loop : AggregationLoop) (turns : List Turn) :
    (loop.run turns).StaysOnClock loop.interval loop.due ↔
      (loop.run turns).ending ≠ .beyondClock := by
  have hschedule := isSchedule_run loop turns
  rw [Ne, ending_eq_beyondClock_iff]
  constructor
  · rintro hstays ⟨tick, hmem, hnone⟩
    obtain ⟨k, htick⟩ := List.mem_iff_getElem?.mp hmem
    obtain ⟨due, hdue, -, hnext, -⟩ := hschedule.of_getElem? htick
    rw [hnext, nextDue_eq_none_iff] at hnone
    obtain ⟨t, ht, hbeyond⟩ := hnone
    exact hbeyond (hstays k tick due htick hdue t ht)
  · intro hsome k tick due htick hdue t ht
    obtain ⟨due', hdue', -, hnext, -⟩ := hschedule.of_getElem? htick
    obtain rfl : due = due' := Option.some.inj (hdue.symm.trans hdue')
    by_contra hbeyond
    refine hsome ⟨tick, List.mem_of_getElem? htick, ?_⟩
    rw [hnext, nextDue_eq_none_iff]
    exact ⟨t, ht, hbeyond⟩

/-- A run whose first turn has a tick without a next due instant breaks off. -/
lemma ending_of_nextDue_eq_none {loop : AggregationLoop} {t : Turn}
    (hcancelled : loop.cancelled = false) (hdue : loop.due.nanos ≤ t.now.nanos)
    (hnone : nextDue loop.interval loop.due t.now = none) (rest : List Turn) :
    (loop.run (t :: rest)).ending = .beyondClock := by
  obtain ⟨record, -, -, -, hrecord, ⟨-, hturn⟩ | ⟨due, after, hsome, -⟩⟩ := loop.schedule_of_turn t
  · rw [(run_of_cut_turn hcancelled hturn rest).1]
  · rw [if_pos hdue, hnone, hsome] at hrecord
    cases hrecord

end AggregationLoop

/-! ## Readings up to a latest one -/

/-- The readings of the clock in some turns, in order. -/
def clockReadings (turns : List Turn) : List Instant := turns.flatMap fun t => [t.now, t.later]

/-- The clock does not go back, and it goes from one instant to another. -/
def ReadsClock (started latest : Instant) (turns : List Turn) : Prop :=
  (started :: clockReadings turns ++ [latest]).Pairwise fun t u => t.nanos ≤ u.nanos

instance (started latest : Instant) (turns : List Turn) :
    Decidable (ReadsClock started latest turns) :=
  inferInstanceAs (Decidable (List.Pairwise _ _))

/-- While the clock does not pass `latest`, it can hold what is computed after a tick that is due at
`due`, and after the ticks that follow. -/
def FitsClock (interval : Duration) (due latest : Instant) : Prop :=
  due.nanos + interval.nanos < (Instant.reach : ℤ) ∧
    (due.nanos + interval.nanos ≤ latest.nanos →
      latest.nanos + interval.nanos < (Instant.reach : ℤ))

instance (interval : Duration) (due latest : Instant) : Decidable (FitsClock interval due latest) :=
  inferInstanceAs (Decidable (_ ∧ _))

/-- Each reading lies between the two instants. -/
lemma ReadsClock.bounds {started latest : Instant} {turns : List Turn}
    (h : ReadsClock started latest turns) :
    ∀ t ∈ turns, started.nanos ≤ t.now.nanos ∧ t.now.nanos ≤ latest.nanos := by
  intro t ht
  have hreading : t.now ∈ clockReadings turns :=
    List.mem_flatMap.mpr ⟨t, ht, List.mem_cons_self⟩
  obtain ⟨hlower, -, hupper⟩ := List.pairwise_append.mp h
  constructor
  · exact (List.pairwise_cons.mp hlower).1 _ hreading
  · exact hupper _ (List.mem_cons_of_mem _ hreading) _ List.mem_cons_self

namespace FitsClock

variable {interval : Duration} {due latest now : Instant}

/-- A tick has a next due instant, which fits the clock too or is behind the latest reading. -/
lemma exists_nextDue (h : FitsClock interval due latest) (hlow : -(Instant.reach : ℤ) ≤ due.nanos)
    (hdue : due.nanos ≤ now.nanos) (hnow : now.nanos ≤ latest.nanos) :
    ∃ next, nextDue interval due now = some next ∧ -(Instant.reach : ℤ) ≤ next.nanos ∧
      (next.nanos ≤ latest.nanos → FitsClock interval next latest) := by
  obtain ⟨hnext, hlatest⟩ := h
  rcases le_or_gt (due.nanos + interval.nanos) latest.nanos with hsoon | hlate
  · -- the tick that follows may come, and none that comes passes the latest sum
    have hhigh := hlatest hsoon
    have hsum : now.nanos + interval.nanos < (Instant.reach : ℤ) := by omega
    obtain ⟨next, hsome, hnextLow⟩ := AggregationLoop.exists_nextDue hlow hdue hsum
    refine ⟨next, hsome, hnextLow, ?_⟩
    intro hle
    exact ⟨by omega, fun _ => hhigh⟩
  · -- the tick that follows is due behind the latest reading
    have hadd : due.add? interval = some ⟨due.nanos + interval.nanos⟩ := by
      simp only [Instant.add?, ite_eq_left_iff, reduceCtorEq, imp_false, not_not]
      constructor <;> simp only <;> omega
    refine ⟨⟨due.nanos + interval.nanos⟩, ?_, by simp only; omega, ?_⟩
    · rw [nextDue, hadd, Option.bind_some, if_neg (by simp only; omega)]
    · intro hle
      exact absurd hle (by simp only; omega)

end FitsClock

/-- The interval of an admitted configuration is bounded from below only. -/
lemma Config.validate_of_longer_interval {c : Config} (hc : c.validate = .ok ()) {secs : UInt64}
    (hsecs : c.intervalSecs ≤ secs) :
    ({ c with intervalSecs := secs } : Config).validate = .ok () := by
  rw [validate_eq_ok_iff, fault?_eq_none_iff] at hc ⊢
  have hle := UInt64.le_iff_toNat_le.mp hsecs
  exact { hc with
    interval_pos := hc.interval_pos.trans hle
    pollTimeout_lt := hc.pollTimeout_lt.trans_le (Nat.mul_le_mul_left _ hle) }

namespace AggregationLoop

/-- A run that fits the clock does not break off. -/
lemma ending_ne_of_fitsClock {loop : AggregationLoop} {latest : Instant} {turns : List Turn}
    (hlow : -(Instant.reach : ℤ) ≤ loop.due.nanos)
    (hfits : loop.due.nanos ≤ latest.nanos → FitsClock loop.interval loop.due latest)
    (hturns : ∀ t ∈ turns, t.now.nanos ≤ latest.nanos) :
    (loop.run turns).ending ≠ .beyondClock := by
  induction turns generalizing loop with
  | nil => cases hcancelled : loop.cancelled <;> simp [run, hcancelled]
  | cons t rest ih =>
    cases hcancelled : loop.cancelled with
    | true =>
      rw [run_of_cancelled hcancelled]
      simp
    | false =>
      obtain ⟨hnow, hrest⟩ := List.forall_mem_cons.mp hturns
      obtain ⟨record, -, -, -, hdue, ⟨hnone, -⟩ |
        ⟨due, after, hsome, hturn, rfl, hinterval, -⟩⟩ := loop.schedule_of_turn t
      · -- a tick that fits the clock has a next due instant
        rw [hnone] at hdue
        split at hdue
        · next hreached =>
          obtain ⟨next, hnext, -⟩ :=
            (hfits (hreached.trans hnow)).exists_nextDue hlow hreached hnow
          rw [hnext] at hdue
          cases hdue
        · cases hdue
      · rw [(run_of_whole_turn hcancelled hturn rest).1]
        rw [hsome] at hdue
        split at hdue
        · next hreached =>
          obtain ⟨next, hnext, hnextLow, hnextFits⟩ :=
            (hfits (hreached.trans hnow)).exists_nextDue hlow hreached hnow
          obtain rfl : after.due = next := Option.some.inj (hdue.trans hnext)
          exact ih hnextLow (by rwa [hinterval]) hrest
        · have hsame := Option.some.inj hdue
          exact ih (by rwa [hsame]) (by rwa [hsame, hinterval]) hrest

/-- A turn in which nothing happens but what the loop does. -/
def idleTurn (now : Instant) : Turn := ⟨now, none, [], [], now, false⟩

/-- Where an interval does not fit the clock, there is a run of one or two ticks that breaks off. -/
lemma exists_ending_of_not_fitsClock (p : Pipeline) {interval : Duration} (pollTimeout : Duration)
    {started latest : Instant} (hlatest : latest.Representable)
    (hle : started.nanos ≤ latest.nanos) (hfits : ¬ FitsClock interval started latest) :
    ∃ turns, ReadsClock started latest turns ∧
      ((start p interval pollTimeout started false []).run turns).ending = .beyondClock := by
  let loop := start p interval pollTimeout started false []
  rcases le_or_gt (Instant.reach : ℤ) (started.nanos + interval.nanos) with hbeyond | hstart
  · refine ⟨[idleTurn started], by simp [ReadsClock, clockReadings, idleTurn, hle], ?_⟩
    have hnone : nextDue interval started started = none := nextDue_eq_none_of_reach_le hbeyond
    exact ending_of_nextDue_eq_none (t := idleTurn started) rfl le_rfl hnone []
  obtain ⟨hsoon, hlate⟩ : started.nanos + interval.nanos ≤ latest.nanos ∧
      (Instant.reach : ℤ) ≤ latest.nanos + interval.nanos := by
    rw [FitsClock, not_and_or, Classical.not_imp, Int.not_lt, Int.not_lt] at hfits
    exact hfits.resolve_left (Int.not_le.mpr hstart)
  rcases hsoon.lt_or_eq with hlt | heq
  · -- a first tick at the latest reading comes more than an interval late
    refine ⟨[idleTurn latest], by simp [ReadsClock, clockReadings, idleTurn, hle], ?_⟩
    have hnone : nextDue interval started latest = none := nextDue_eq_none_of_late hlt hlate
    exact ending_of_nextDue_eq_none (t := idleTurn latest) rfl hle hnone []
  · -- a tick at the start makes the next one due at the latest reading
    refine ⟨[idleTurn started, idleTurn latest],
      by simp [ReadsClock, clockReadings, idleTurn, hle], ?_⟩
    have hnext : nextDue interval started started = some latest := by
      have hadd : started.add? interval = some latest := by
        simp only [Instant.add?, heq, hlatest, if_true]
      rw [nextDue, hadd, Option.bind_some, if_neg (Int.not_lt.mpr hle)]
    obtain ⟨after, hafter, hdue, hinterval, hcancelled⟩ : ∃ after,
        (loop.turn (idleTurn started)).2 = some after ∧ after.due = latest ∧
          after.interval = interval ∧ after.cancelled = false := by
      simp [loop, turn, start, idleTurn, finishTurn, hnext]
    have hnone : nextDue after.interval after.due latest = none := by
      rw [hinterval, hdue]
      exact nextDue_eq_none_of_reach_le hlate
    have hrunning : loop.cancelled = false := rfl
    rw [(run_of_whole_turn hrunning (Prod.ext rfl hafter) _).1]
    exact ending_of_nextDue_eq_none (t := idleTurn latest) hcancelled (by rw [hdue]; rfl) hnone []

/-- **When the loop stays on the clock.**  What the runs of a configuration compute for their ticks
are instants that the clock can hold, so that no run breaks off, exactly if the interval fits the
clock.  An interval that takes the start beyond the clock breaks every run off at its first tick,
and `Config.validate` admits such intervals: with one interval it admits all longer ones. -/
theorem staysOnClock_iff_fitsClock (c : Config) (p : Pipeline) (started latest : Instant)
    (hstarted : started.Representable) (hlatest : latest.Representable)
    (hle : started.nanos ≤ latest.nanos) :
    ((∀ cancelled replies turns, ReadsClock started latest turns →
        let r := (start p c.interval c.pollTimeout started cancelled replies).run turns
        r.StaysOnClock c.interval started ∧ r.ending ≠ .beyondClock) ↔
      FitsClock c.interval started latest) ∧
    ((Instant.reach : ℤ) ≤ started.nanos + c.interval.nanos →
      ∀ replies t rest, started.nanos ≤ t.now.nanos →
        let r := (start p c.interval c.pollTimeout started false replies).run (t :: rest)
        ¬ r.StaysOnClock c.interval started ∧ r.ending = .beyondClock) ∧
    (c.validate = .ok () → ∀ secs, c.intervalSecs ≤ secs →
      ({ c with intervalSecs := secs } : Config).validate = .ok ()) := by
  refine ⟨⟨?_, ?_⟩, ?_, fun hc secs => Config.validate_of_longer_interval hc⟩
  · intro hstays
    by_contra hfits
    obtain ⟨turns, hreads, hending⟩ :=
      exists_ending_of_not_fitsClock p c.pollTimeout hlatest hle hfits
    exact (hstays false [] turns hreads).2 hending
  · intro hfits cancelled replies turns hreads
    have hending : ((start p c.interval c.pollTimeout started cancelled replies).run turns).ending ≠
        .beyondClock :=
      ending_ne_of_fitsClock hstarted.1 (fun _ => hfits) fun t ht => (hreads.bounds t ht).2
    exact ⟨(staysOnClock_iff_ending _ turns).mpr hending, hending⟩
  · intro hbeyond replies t rest hnow
    have hending : ((start p c.interval c.pollTimeout started false replies).run
        (t :: rest)).ending = .beyondClock :=
      ending_of_nextDue_eq_none rfl hnow (nextDue_eq_none_of_reach_le hbeyond) rest
    refine ⟨?_, hending⟩
    intro hstays
    exact (staysOnClock_iff_ending _ _).mp hstays hending

/-- The standard interval fits a clock that reads up to ten thousand million seconds. -/
theorem staysOnClock_of_standard :
    let started : Instant := ⟨0⟩
    let latest : Instant := ⟨0x8ac7230489e80000⟩
    let p := Pipeline.initial Config.standard.tables 1 .unsampled [] "web" .unread
    started.Representable ∧ latest.Representable ∧ started.nanos ≤ latest.nanos ∧
      ∀ cancelled replies turns, ReadsClock started latest turns →
        ((start p Config.standard.interval Config.standard.pollTimeout started cancelled
          replies).run turns).ending ≠ .beyondClock := by
  intro started latest p
  have hstarted : started.Representable := by decide
  have hlatest : latest.Representable := by decide
  have hle : started.nanos ≤ latest.nanos := by decide
  have hstays := (staysOnClock_iff_fitsClock Config.standard p started latest hstarted hlatest
    hle).1.mpr (by decide)
  refine ⟨hstarted, hlatest, hle, ?_⟩
  intro cancelled replies turns hreads
  exact (hstays cancelled replies turns hreads).2

/-- An interval of `2 ^ 63` seconds is admitted, and a run that starts at the origin of the clock
breaks off at its first tick. -/
theorem not_staysOnClock_of_interval_two_pow_63 :
    let c : Config := { Config.standard with intervalSecs := 0x8000000000000000 }
    let p := Pipeline.initial c.tables c.channelCapacity.toNat c.sampling [] "web" .unread
    let r := (start p c.interval c.pollTimeout ⟨0⟩ false []).run [idleTurn ⟨0⟩]
    c.validate = .ok () ∧ (⟨0⟩ : Instant).Representable ∧
      ReadsClock ⟨0⟩ ⟨0⟩ [idleTurn ⟨0⟩] ∧ r.exports.length = 1 ∧
      ¬ r.StaysOnClock c.interval ⟨0⟩ ∧ r.ending = .beyondClock := by
  intro c p r
  have hending : r.ending = .beyondClock := by decide +kernel
  refine ⟨by decide +kernel, by decide, by decide, by decide +kernel, ?_, hending⟩
  intro hstays
  exact (staysOnClock_iff_ending _ _).mp hstays hending

end AggregationLoop

end NodeTelemetry
