import Mathlib
import NodeTelemetry.Proofs.LoopRun

/-!
# When the loop ticks

The clock may jump as it likes, so all that is known of a tick is that it does not come before it is
due.  That is enough: the next due instant is at least one interval after the last one, and between
the reading of the tick and an interval later (`nextDue_eq_some`).  The ticks of a run, each due
when the tick before it says (`IsSchedule`), then keep their distance whatever the clock does, and
they do not drift as long as none is later than an interval.  The pipeline plays no part in it.
-/

namespace NodeTelemetry

lemma Duration.nanos_min (a b : Duration) : (a.min b).nanos = Min.min a.nanos b.nanos := by
  unfold Duration.min
  split
  · next hle => exact (min_eq_left hle).symm
  · next hgt => exact (min_eq_right (Nat.le_of_not_le hgt)).symm

/-! ## The next due instant -/

section NextDue

variable {interval : Duration} {due now next : Instant}

/-- The clock holds the instant to which it adds up, which lies a span later. -/
lemma Instant.add?_eq_some {t u : Instant} {d : Duration} (h : t.add? d = some u) :
    u.nanos = t.nanos + d.nanos ∧ u.Representable := by
  simp only [Instant.add?] at h
  split at h
  · next hholds =>
    cases h
    exact ⟨rfl, hholds⟩
  · cases h

/-- The next tick is due between now and an interval from now, an interval or more after the last
one was due, and just an interval after it unless that is past. -/
lemma nextDue_eq_some (h : nextDue interval due now = some next)
    (hdue : due.nanos ≤ now.nanos) :
    now.nanos ≤ next.nanos ∧ next.nanos ≤ now.nanos + interval.nanos ∧
      due.nanos + interval.nanos ≤ next.nanos ∧
      (now.nanos ≤ due.nanos + interval.nanos → next.nanos = due.nanos + interval.nanos) ∧
      next.Representable := by
  obtain ⟨step, hstep, hnext⟩ := Option.bind_eq_some_iff.mp h
  obtain ⟨hnanos, hholds⟩ := Instant.add?_eq_some hstep
  split at hnext
  · next hlate =>
    obtain ⟨hfrom, hnextHolds⟩ := Instant.add?_eq_some hnext
    exact ⟨by omega, by omega, by omega, by omega, hnextHolds⟩
  · next hearly =>
    cases hnext
    exact ⟨by omega, by omega, by omega, fun _ => hnanos, hholds⟩

/-- There is no next due instant only if an interval from now lies beyond the clock. -/
lemma nextDue_eq_none (h : nextDue interval due now = none) (hdue : due.nanos ≤ now.nanos)
    (hlow : -(Instant.reach : ℤ) ≤ due.nanos) :
    (Instant.reach : ℤ) ≤ now.nanos + interval.nanos := by
  by_contra hhigh
  obtain ⟨next, hsome, -⟩ := AggregationLoop.exists_nextDue hlow hdue (Int.not_le.mp hhigh)
  rw [h] at hsome
  cases hsome

end NextDue

/-! ## Schedules -/

/-- When the next tick is due after some turns: as the last tick among them says, and as it was if
there was none. -/
def dueAfter (due : Option Instant) (records : List TurnRecord) : Option Instant :=
  records.foldl (fun due record => if record.exported.isSome then record.due else due) due

/-- Ticks that come when they are due or later, where each tick says when the next one is due. -/
def IsSchedule (interval : Duration) : Option Instant → List TurnRecord → Prop
  | _, [] => True
  | due, record :: rest => record.exported.isSome ∧
      (∃ d, due = some d ∧ d.nanos ≤ record.now.nanos ∧
        record.due = nextDue interval d record.now) ∧
      IsSchedule interval record.due rest

namespace IsSchedule

variable {interval : Duration} {due : Option Instant} {ticks : List TurnRecord}

/-- The ticks after some ticks keep the schedule from where these leave it. -/
lemma drop (h : IsSchedule interval due ticks) (k : ℕ) :
    IsSchedule interval (dueAfter due (ticks.take k)) (ticks.drop k) := by
  induction k generalizing due ticks with
  | zero => exact h
  | succ k ih =>
    cases ticks with
    | nil => trivial
    | cons record rest =>
      obtain ⟨hticked, -, hrest⟩ := h
      have hdue : dueAfter due ((record :: rest).take (k + 1)) =
          dueAfter record.due (rest.take k) := by
        rw [List.take_succ_cons, dueAfter, List.foldl_cons, if_pos hticked]
        rfl
      rw [hdue, List.drop_succ_cons]
      exact ih hrest

/-- A tick comes when it is due or later, and says when the next one is due. -/
lemma of_getElem? (h : IsSchedule interval due ticks) {k : ℕ} {record : TurnRecord}
    (hrecord : ticks[k]? = some record) :
    ∃ d, dueAfter due (ticks.take k) = some d ∧ d.nanos ≤ record.now.nanos ∧
      record.due = nextDue interval d record.now ∧
      dueAfter due (ticks.take (k + 1)) = record.due ∧
      IsSchedule interval record.due (ticks.drop (k + 1)) := by
  have hdrop := h.drop k
  rw [List.drop_eq_getElem?_toList_append, hrecord] at hdrop
  obtain ⟨hticked, ⟨d, hd, hle, hnext⟩, hrest⟩ := hdrop
  refine ⟨d, hd, hle, hnext, ?_, hrest⟩
  rw [List.take_add_one, hrecord, dueAfter, List.foldl_append]
  exact if_pos hticked

variable {first : Instant}

/-- The due instants are an interval or more apart. -/
lemma le_of_dueAfter (h : IsSchedule interval (some first) ticks) {k : ℕ} (hk : k ≤ ticks.length)
    {d : Instant} (hd : dueAfter (some first) (ticks.take k) = some d) :
    first.nanos + k * interval.nanos ≤ d.nanos := by
  induction k generalizing d with
  | zero =>
    cases hd
    simp
  | succ k ih =>
    have hrecord := List.getElem?_eq_getElem (Nat.lt_of_succ_le hk)
    obtain ⟨e, he, hle, hnext, hafter, -⟩ := h.of_getElem? hrecord
    rw [hafter, hnext] at hd
    obtain ⟨-, -, hstep, -⟩ := nextDue_eq_some hd hle
    have hsofar := ih (Nat.le_of_succ_le hk) he
    push_cast
    linarith

/-- As long as no tick is later than an interval, the due instants are just an interval apart. -/
lemma eq_of_dueAfter (h : IsSchedule interval (some first) ticks) {k : ℕ} (hk : k ≤ ticks.length)
    (hpunctual : ∀ i < k, ∀ record d, ticks[i]? = some record →
      dueAfter (some first) (ticks.take i) = some d →
      record.now.nanos ≤ d.nanos + interval.nanos)
    {d : Instant} (hd : dueAfter (some first) (ticks.take k) = some d) :
    d.nanos = first.nanos + k * interval.nanos := by
  induction k generalizing d with
  | zero =>
    cases hd
    simp
  | succ k ih =>
    have hrecord := List.getElem?_eq_getElem (Nat.lt_of_succ_le hk)
    obtain ⟨e, he, hle, hnext, hafter, -⟩ := h.of_getElem? hrecord
    have hsoon := hpunctual k (Nat.lt_succ_self k) _ e hrecord he
    rw [hafter, hnext] at hd
    obtain ⟨-, -, -, hstep, -⟩ := nextDue_eq_some hd hle
    have hsofar := ih (Nat.le_of_succ_le hk)
      (fun i hi => hpunctual i (hi.trans (Nat.lt_succ_self k))) he
    rw [hstep hsoon, hsofar]
    push_cast
    ring

/-- A due instant is one that the clock can hold, if the first one is. -/
lemma representable_of_dueAfter (h : IsSchedule interval (some first) ticks)
    (hfirst : first.Representable) {k : ℕ} (hk : k ≤ ticks.length) {d : Instant}
    (hd : dueAfter (some first) (ticks.take k) = some d) : d.Representable := by
  cases k with
  | zero =>
    cases hd
    exact hfirst
  | succ k =>
    have hrecord := List.getElem?_eq_getElem (Nat.lt_of_succ_le hk)
    obtain ⟨e, -, hle, hnext, hafter, -⟩ := h.of_getElem? hrecord
    rw [hafter, hnext] at hd
    obtain ⟨-, -, -, -, hholds⟩ := nextDue_eq_some hd hle
    exact hholds

/-- There is no tick without a due instant. -/
lemma eq_nil_of_none (h : IsSchedule interval none ticks) : ticks = [] := by
  cases ticks with
  | nil => rfl
  | cons record rest =>
    obtain ⟨-, ⟨d, hd, -⟩, -⟩ := h
    cases hd

/-- From a tick to the second one after it takes an interval or more. -/
lemma now_add_le (h : IsSchedule interval due ticks) {k : ℕ} {record later : TurnRecord}
    (hrecord : ticks[k]? = some record) (hlater : ticks[k + 2]? = some later) :
    record.now.nanos + interval.nanos ≤ later.now.nanos := by
  obtain ⟨d, -, hle, hnext, -, hrest⟩ := h.of_getElem? hrecord
  -- the ticks after this one are a schedule from the instant that it says
  have hsecond : (ticks.drop (k + 1))[1]? = some later := by
    rw [List.getElem?_drop]
    exact hlater
  cases hdue : record.due with
  | none =>
    rw [hdue] at hrest
    rw [hrest.eq_nil_of_none] at hsecond
    cases hsecond
  | some next =>
    rw [hdue] at hrest
    obtain ⟨e, he, hreached, -⟩ := hrest.of_getElem? hsecond
    obtain ⟨hlt, -⟩ := List.getElem?_eq_some_iff.mp hsecond
    have hstep := hrest.le_of_dueAfter hlt.le he
    obtain ⟨hlow, -⟩ := nextDue_eq_some (hnext ▸ hdue) hle
    push_cast at hstep
    linarith

end IsSchedule

namespace AggregationLoop

/-! ## One turn -/

/-- What a turn does to the schedule: it ticks if that is due, and drains no longer than until the
next tick, if the clock can hold when that is due. -/
lemma schedule_of_turn (loop : AggregationLoop) (t : Turn) :
    ∃ record, (loop.turn t).1 = record ∧ record.now = t.now ∧
      (record.exported.isSome ↔ loop.due.nanos ≤ t.now.nanos) ∧
      record.due = (if loop.due.nanos ≤ t.now.nanos then nextDue loop.interval loop.due t.now
        else some loop.due) ∧
      (record.due = none ∧ loop.turn t = (record, none) ∨
        ∃ due after, record.due = some due ∧ loop.turn t = (record, some after) ∧
          after.due = due ∧ after.interval = loop.interval ∧
          after.pollTimeout = loop.pollTimeout ∧
          record.wait = loop.pollTimeout.min (due.since t.later)) := by
  by_cases hdue : loop.due.nanos ≤ t.now.nanos
  · cases hnext : nextDue loop.interval loop.due t.now with
    | none => simp [turn, hdue, hnext]
    | some due => simp [turn, hdue, hnext, finishTurn]
  · simp [turn, hdue, finishTurn]

/-! ## Runs -/

/-- What happened in the turns of a run that ticked. -/
def Run.ticks (r : Run) : List TurnRecord := r.records.filter (·.exported.isSome)

/-- The ticks of a run are a schedule from the due instant of the loop. -/
lemma isSchedule_run (loop : AggregationLoop) (turns : List Turn) :
    IsSchedule loop.interval (some loop.due) (loop.run turns).ticks := by
  induction turns generalizing loop with
  | nil => trivial
  | cons t rest ih =>
    cases hcancelled : loop.cancelled with
    | true =>
      rw [run_of_cancelled hcancelled]
      trivial
    | false =>
      obtain ⟨record, -, hnow, hticked, hdue, ⟨hnone, hturn⟩ |
        ⟨due, after, hsome, hturn, rfl, hinterval, -, -⟩⟩ := loop.schedule_of_turn t
      · have hreached : loop.due.nanos ≤ t.now.nanos := by
          by_contra hearly
          rw [if_neg hearly, hnone] at hdue
          cases hdue
        rw [if_pos hreached, ← hnow] at hdue
        have hexported := hticked.mpr hreached
        have hticks : (loop.run (t :: rest)).ticks = [record] := by
          rw [(run_of_cut_turn hcancelled hturn rest).1, Run.ticks]
          simp [hexported]
        rw [hticks]
        exact ⟨hexported, ⟨loop.due, rfl, hnow ▸ hreached, hdue⟩, trivial⟩
      · have hrest := ih after
        rw [hinterval, ← hsome] at hrest
        have hticks : (loop.run (t :: rest)).ticks =
            if record.exported.isSome then record :: (after.run rest).ticks
            else (after.run rest).ticks := by
          rw [(run_of_whole_turn hcancelled hturn rest).1]
          exact List.filter_cons
        by_cases hreached : loop.due.nanos ≤ t.now.nanos
        · have hexported := hticked.mpr hreached
          rw [if_pos hreached, ← hnow] at hdue
          rw [hticks, if_pos hexported]
          exact ⟨hexported, ⟨loop.due, rfl, hnow ▸ hreached, hdue⟩, hrest⟩
        · rw [if_neg hreached] at hdue
          rw [hticks, if_neg (mt hticked.mp hreached), ← hdue]
          exact hrest

/-- What a turn of a run does to the schedule. -/
lemma schedule_of_run {loop : AggregationLoop} {turns : List Turn} {i : ℕ} {record : TurnRecord}
    {t : Turn} (hrecord : (loop.run turns).records[i]? = some record) (ht : turns[i]? = some t) :
    ∃ due, dueAfter (some loop.due) ((loop.run turns).records.take i) = some due ∧
      record.now = t.now ∧ (record.exported.isSome ↔ due.nanos ≤ t.now.nanos) ∧
      dueAfter (some loop.due) ((loop.run turns).records.take (i + 1)) = record.due ∧
      ∀ next, record.due = some next →
        record.wait = loop.pollTimeout.min (next.since t.later) := by
  induction turns generalizing loop i with
  | nil => cases ht
  | cons u rest ih =>
    cases hcancelled : loop.cancelled with
    | true =>
      rw [run_of_cancelled hcancelled] at hrecord
      cases hrecord
    | false =>
      obtain ⟨first, -, hnow, hticked, hdue, hends⟩ := loop.schedule_of_turn u
      have hfirst : dueAfter (some loop.due) [first] = first.due := by
        change (if first.exported.isSome then first.due else some loop.due) = first.due
        split
        · rfl
        · next hexported => rw [hdue, if_neg (mt hticked.mpr hexported)]
      rcases hends with ⟨hnone, hturn⟩ | ⟨due, after, hsome, hturn, rfl, -, hpoll, hwait⟩
      · rw [(run_of_cut_turn hcancelled hturn rest).1] at hrecord ⊢
        cases i with
        | zero =>
          cases hrecord
          cases ht
          refine ⟨loop.due, rfl, hnow, hticked, hfirst, fun next hnext => ?_⟩
          rw [hnone] at hnext
          cases hnext
        | succ i => cases hrecord
      · rw [(run_of_whole_turn hcancelled hturn rest).1] at hrecord ⊢
        cases i with
        | zero =>
          cases hrecord
          cases ht
          refine ⟨loop.due, rfl, hnow, hticked, hfirst, fun next hnext => ?_⟩
          rw [hsome] at hnext
          cases hnext
          exact hwait
        | succ i =>
          have hlater := @ih after i hrecord ht
          rw [← hsome, ← hfirst, hpoll] at hlater
          exact hlater

/-! ## Turns that take place -/

/-- A loop is cancelled by the end of some turns: it was at their start, or it is from outside in
one of them, or by the answer to one of their exports. -/
def cancelledBy (cancelled : Bool) (replies : List ExportReply) (turns : List Turn)
    (records : List TurnRecord) : Bool :=
  cancelled || turns.any Turn.cancels ||
    (replies.take (records.filterMap TurnRecord.exported).length).any ExportReply.cancels

section CancelledBy

variable {cancelled : Bool} {replies : List ExportReply} {turns : List Turn}
  {records : List TurnRecord}

lemma cancelledBy_nil : cancelledBy cancelled replies [] [] = cancelled := by
  simp [cancelledBy]

/-- The answer to the export of the first turn is the first one. -/
lemma cancelledBy_cons (t : Turn) (record : TurnRecord) :
    cancelledBy cancelled replies (t :: turns) (record :: records) =
      cancelledBy (cancelled || record.exported.any (fun _ => replies.head?.any ExportReply.cancels)
        || t.cancels) (replies.drop record.exported.toList.length) turns records := by
  unfold cancelledBy
  cases hexported : record.exported with
  | none => simp [hexported, Bool.or_assoc]
  | some made =>
    cases replies with
    | nil => simp [hexported, Bool.or_assoc]
    | cons reply replies =>
      simp only [hexported, List.any_cons, List.filterMap_cons, List.length_cons,
        List.take_succ_cons, List.head?_cons, Option.any_some, Option.toList_some, List.length_nil,
        List.drop_succ_cons, List.drop_zero]
      ac_rfl

end CancelledBy

/-- After a whole turn a loop is cancelled if it was before, from outside in the turn, or by the
answer to its export, which is used up. -/
lemma cancelled_of_whole_turn {loop after : AggregationLoop} {t : Turn} {record : TurnRecord}
    (hturn : loop.turn t = (record, some after)) :
    after.cancelled = (loop.cancelled ||
        record.exported.any (fun _ => loop.replies.head?.any ExportReply.cancels) || t.cancels) ∧
      after.replies = loop.replies.drop record.exported.toList.length := by
  rcases loop.turn_cases t with ⟨record', after', hturn', hafter, hnone, -⟩ |
    ⟨record', made, hmade, -, -, -, -, ⟨-, hturn'⟩ | ⟨due, after', -, hturn', hafter⟩⟩
  · obtain ⟨rfl, ⟨⟩⟩ := Prod.ext_iff.mp (hturn'.symm.trans hturn)
    simp [hafter, hnone]
  · obtain ⟨-, ⟨⟩⟩ := Prod.ext_iff.mp (hturn'.symm.trans hturn)
  · obtain ⟨rfl, ⟨⟩⟩ := Prod.ext_iff.mp (hturn'.symm.trans hturn)
    simp [hafter, hmade]

/-- A run has no more records than turns. -/
lemma length_records_le (loop : AggregationLoop) (turns : List Turn) :
    (loop.run turns).records.length ≤ turns.length := by
  induction turns generalizing loop with
  | nil => exact le_rfl
  | cons t rest ih =>
    cases hcancelled : loop.cancelled with
    | true =>
      rw [run_of_cancelled hcancelled]
      exact Nat.zero_le _
    | false =>
      rcases hturn : loop.turn t with ⟨record, _ | after⟩
      · rw [(run_of_cut_turn hcancelled hturn rest).1]
        exact Nat.succ_le_succ (Nat.zero_le _)
      · rw [(run_of_whole_turn hcancelled hturn rest).1]
        exact Nat.succ_le_succ (ih after)

/-- A turn behind turns that took place takes place itself, unless the loop is cancelled by the end
of these or has no due instant after one of them. -/
lemma lt_length_records_iff {loop : AggregationLoop} {turns : List Turn} {i : ℕ}
    (hi : i < turns.length) (hreached : i ≤ (loop.run turns).records.length) :
    i < (loop.run turns).records.length ↔
      cancelledBy loop.cancelled loop.replies (turns.take i)
          ((loop.run turns).records.take i) = false ∧
        ∀ record ∈ (loop.run turns).records.take i, record.due.isSome := by
  induction turns generalizing loop i with
  | nil => cases hi
  | cons t rest ih =>
    cases hcancelled : loop.cancelled with
    | true =>
      rw [run_of_cancelled hcancelled]
      simp [cancelledBy]
    | false =>
      obtain ⟨record, -, -, -, -, ⟨hnone, hturn⟩ | ⟨due, after, hsome, hturn, -⟩⟩ :=
        loop.schedule_of_turn t
      · rw [(run_of_cut_turn hcancelled hturn rest).1] at hreached ⊢
        cases i with
        | zero => simp [cancelledBy_nil]
        | succ i =>
          obtain rfl : i = 0 := Nat.le_zero.mp (Nat.succ_le_succ_iff.mp hreached)
          simp [hnone]
      · rw [(run_of_whole_turn hcancelled hturn rest).1] at hreached ⊢
        cases i with
        | zero => simp [cancelledBy_nil]
        | succ i =>
          have hlater := @ih after i (Nat.lt_of_succ_lt_succ hi) (Nat.le_of_succ_le_succ hreached)
          obtain ⟨hafter, hreplies⟩ := cancelled_of_whole_turn hturn
          rw [hcancelled] at hafter
          simp only [List.length_cons, List.take_succ_cons, Nat.succ_lt_succ_iff,
            List.forall_mem_cons, hsome, Option.isSome_some, true_and]
          rw [cancelledBy_cons, ← hafter, ← hreplies]
          exact hlater

/-! ## The schedule of a run -/

/-- The schedule of a run that started at an instant. -/
structure KeepsSchedule (interval pollTimeout : Duration) (started : Instant) (cancelled : Bool)
    (replies : List ExportReply) (turns : List Turn) (r : Run) : Prop where
  length_le : r.records.length ≤ turns.length
  /-- There is a record of each turn until the loop is cancelled or has no due instant any more. -/
  takes_place : ∀ i < turns.length, i ≤ r.records.length → (i < r.records.length ↔
    cancelledBy cancelled replies (turns.take i) (r.records.take i) = false ∧
      ∀ record ∈ r.records.take i, record.due.isSome)
  /-- A turn takes place at its reading of the clock, and ticks exactly if a tick is due by then. -/
  ticks_iff : ∀ (i : ℕ) record t, r.records[i]? = some record → turns[i]? = some t →
    ∃ due, dueAfter (some started) (r.records.take i) = some due ∧ record.now = t.now ∧
      (record.exported.isSome ↔ due.nanos ≤ t.now.nanos)
  /-- The ticks do not come faster than one in an interval. -/
  le_now : ∀ (k : ℕ) tick, r.ticks[k]? = some tick →
    started.nanos + k * interval.nanos ≤ tick.now.nanos
  /-- After a tick the next one is due between now and an interval from now. -/
  next_due : ∀ tick ∈ r.ticks, ∀ due, tick.due = some due →
    tick.now.nanos ≤ due.nanos ∧ due.nanos ≤ tick.now.nanos + interval.nanos
  /-- There is a next due instant, unless the clock cannot hold an interval from now. -/
  exists_due : started.Representable → ∀ tick ∈ r.ticks, tick.due = none →
    (Instant.reach : ℤ) ≤ tick.now.nanos + interval.nanos
  /-- Three ticks in a row span at least an interval. -/
  no_burst : ∀ (k : ℕ) first third, r.ticks[k]? = some first → r.ticks[k + 2]? = some third →
    first.now.nanos + interval.nanos ≤ third.now.nanos
  /-- As long as no tick comes later than an interval after it is due, each is due at its multiple
  of the interval. -/
  no_drift : ∀ k ≤ r.ticks.length,
    (∀ i < k, ∀ tick due, r.ticks[i]? = some tick →
      dueAfter (some started) (r.ticks.take i) = some due →
      tick.now.nanos ≤ due.nanos + interval.nanos) →
    ∀ due, dueAfter (some started) (r.ticks.take k) = some due →
      due.nanos = started.nanos + k * interval.nanos
  /-- A drain waits no longer than the poll timeout and no longer than until the next tick. -/
  wait_le : ∀ (i : ℕ) record t due, r.records[i]? = some record → turns[i]? = some t →
    dueAfter (some started) (r.records.take (i + 1)) = some due →
    record.wait.nanos ≤ min pollTimeout.nanos (due.nanos - t.later.nanos).toNat

/-- **The loop keeps its schedule.**  Whatever the pipeline, the interval, the poll timeout and the
readings of the clock, each turn takes place until the loop is cancelled or breaks off, the ticks of
a run neither burst nor drift, and no drain outlasts the time until the next tick. -/
theorem keepsSchedule_of_start (p : Pipeline) (interval pollTimeout : Duration)
    (started : Instant) (cancelled : Bool) (replies : List ExportReply) (turns : List Turn) :
    let loop := start p interval pollTimeout started cancelled replies
    KeepsSchedule interval pollTimeout started cancelled replies turns (loop.run turns) := by
  intro loop
  have hschedule : IsSchedule interval (some started) (loop.run turns).ticks :=
    isSchedule_run loop turns
  constructor
  case length_le => exact loop.length_records_le turns
  case takes_place =>
    intro i hi hreached
    exact lt_length_records_iff hi hreached
  case ticks_iff =>
    intro i record t hrecord ht
    obtain ⟨due, hdue, hnow, hticked, -⟩ := schedule_of_run hrecord ht
    exact ⟨due, hdue, hnow, hticked⟩
  case le_now =>
    intro k tick htick
    obtain ⟨due, hdue, hle, -⟩ := hschedule.of_getElem? htick
    obtain ⟨hlt, -⟩ := List.getElem?_eq_some_iff.mp htick
    exact (hschedule.le_of_dueAfter hlt.le hdue).trans hle
  case next_due =>
    intro tick hmem due hdue
    obtain ⟨k, htick⟩ := List.mem_iff_getElem?.mp hmem
    obtain ⟨d, -, hle, hnext, -⟩ := hschedule.of_getElem? htick
    rw [hnext] at hdue
    obtain ⟨hlow, hhigh, -⟩ := nextDue_eq_some hdue hle
    exact ⟨hlow, hhigh⟩
  case exists_due =>
    intro hstarted tick hmem hnone
    obtain ⟨k, htick⟩ := List.mem_iff_getElem?.mp hmem
    obtain ⟨hlt, -⟩ := List.getElem?_eq_some_iff.mp htick
    obtain ⟨d, hd, hle, hnext, -⟩ := hschedule.of_getElem? htick
    rw [hnext] at hnone
    have hholds := hschedule.representable_of_dueAfter hstarted hlt.le hd
    exact nextDue_eq_none hnone hle hholds.1
  case no_burst =>
    intro k first third hfirst hthird
    exact hschedule.now_add_le hfirst hthird
  case no_drift =>
    intro k hk hpunctual due hdue
    exact hschedule.eq_of_dueAfter hk hpunctual hdue
  case wait_le =>
    intro i record t due hrecord ht hdue
    obtain ⟨-, -, -, -, hafter, hwait⟩ := schedule_of_run hrecord ht
    have hrecordDue : record.due = some due := hafter.symm.trans hdue
    rw [hwait due hrecordDue]
    exact (Duration.nanos_min _ _).le

/-- A tick that comes late is followed by an early one; one that comes too late for that, by one an
interval later. -/
example :
    let turns : List Turn := [0, 10, 27, 30, 65].map fun n => ⟨⟨n⟩, none, [], [], ⟨n⟩, false⟩
    let p := Pipeline.initial (.ofCapacities 1 1 1) 1 .unsampled [] "web" .unread
    ((start p ⟨10⟩ ⟨4⟩ ⟨0⟩ false []).run turns).ticks.map TurnRecord.due =
      [some ⟨10⟩, some ⟨20⟩, some ⟨30⟩, some ⟨40⟩, some ⟨75⟩] := by
  decide +kernel

end AggregationLoop

end NodeTelemetry
