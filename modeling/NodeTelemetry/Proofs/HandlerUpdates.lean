import Mathlib
import NodeTelemetry.Pipeline
import NodeTelemetry.Proofs.UpdateTotals

/-!
# Handler calls as updates

A handler changes several tables at once.  What it leaves in their records is what a short list of
updates of single records leaves there (`ProbeCall.updates`); only the count of rejected accesses
to the counters differs, since a handler looks its node up once.  The list depends on the tables
through the wakeup of a switch alone.  So the records after a run of handler calls are those after a
list of updates (`Tables.sameRecords_callAll`), whose totals are known, and a question about the
list is answered by the calls themselves (`Tables.filterMap_callUpdates`).
-/

namespace NodeTelemetry

/-! ## The updates of one call -/

/-- The time at which the process of a switch was woken, if that is known. -/
def ProbeCall.woken? (c : ProbeCall) (wakeups : WakeupTable) : Option UInt64 :=
  match c.callback with
  | .switch pid => (wakeups.take pid).1
  | _ => none

/-- The updates that a handler call amounts to, when the process of a switch was woken at the given
time. -/
def ProbeCall.updates (c : ProbeCall) (woken : Option UInt64) : List TableUpdate :=
  let roundTrip (millis : UInt64) : List TableUpdate :=
    [.observe c.node millis, .increment c.node .rttSum millis, .increment c.node .rttCount 1,
      .touch c.node c.now]
  match c.callback with
  | .roundTrip millis => roundTrip millis
  | .ack srtt => roundTrip (srttToMillis srtt)
  | .retransmit => [.increment c.node .retransCount 1, .touch c.node c.now]
  | .packetDrop reason =>
    [.recordDrop reason, .increment c.node .dropCount 1, .touch c.node c.now]
  | .wakeup pid => [.recordWakeup pid c.now]
  | .switch pid =>
    match woken with
    | none => []
    | some time =>
      [.takeWakeup pid, .increment c.node .runqlatSum (waitMillis time c.now),
        .increment c.node .runqlatCount 1, .touch c.node c.now]

/-- Two updates of one record leave the records as one update by both changes does. -/
lemma SlotTable.slots_update_update {α : Type} (t : SlotTable α) (key : UInt32) (initial : α)
    (change₁ change₂ : α → α) :
    ((t.update key initial change₁).update key initial change₂).slots =
      (t.update key initial fun r => change₂ (change₁ r)).slots := by
  refine KeyMap.ext_get? fun key' => ?_
  change SlotTable.get? _ key' = SlotTable.get? _ key'
  simp only [get?_update_eq_ite, capacity_update]
  by_cases hkey : key.toNat < t.capacity ∧ key' = key <;> simp_all

/-- An update of a table depends on its capacity and its records only. -/
lemma SlotTable.slots_update_congr {α : Type} {t u : SlotTable α}
    (hcapacity : t.capacity = u.capacity) (hslots : t.slots = u.slots) (key : UInt32) (initial : α)
    (change : α → α) :
    (t.update key initial change).slots = (u.update key initial change).slots := by
  unfold update get?
  rw [hcapacity, hslots]
  split <;> rfl

namespace Tables

/-- Two tables hold the same, except that they may have turned away a different number of accesses
to their counters. -/
structure SameRecords (t u : Tables) : Prop where
  capacity : t.counters.capacity = u.counters.capacity
  slots : t.counters.slots = u.counters.slots
  histograms : t.histograms = u.histograms
  dropReasons : t.dropReasons = u.dropReasons
  wakeups : t.wakeups = u.wakeups

namespace SameRecords

variable {t u v : Tables}

lemma refl (t : Tables) : t.SameRecords t := ⟨rfl, rfl, rfl, rfl, rfl⟩

lemma trans (htu : t.SameRecords u) (huv : u.SameRecords v) : t.SameRecords v :=
  ⟨htu.capacity.trans huv.capacity, htu.slots.trans huv.slots,
    htu.histograms.trans huv.histograms, htu.dropReasons.trans huv.dropReasons,
    htu.wakeups.trans huv.wakeups⟩

lemma get?_counters (h : t.SameRecords u) (node : UInt32) :
    t.counters.get? node = u.counters.get? node := by
  unfold SlotTable.get?
  rw [h.slots]

/-- An update leaves tables with the same records so. -/
lemma apply (h : t.SameRecords u) (x : TableUpdate) : (t.apply x).SameRecords (u.apply x) := by
  obtain ⟨hcapacity, hslots, hhistograms, hdropReasons, hwakeups⟩ := h
  cases x with
  | increment node field delta =>
    refine ⟨?_, SlotTable.slots_update_congr hcapacity hslots _ _ _, hhistograms, hdropReasons,
      hwakeups⟩
    simpa [Tables.apply, CounterTable.increment] using hcapacity
  | touch node time =>
    refine ⟨?_, SlotTable.slots_update_congr hcapacity hslots _ _ _, hhistograms, hdropReasons,
      hwakeups⟩
    simpa [Tables.apply, CounterTable.touch] using hcapacity
  | observe node value =>
    exact ⟨hcapacity, hslots, by rw [Tables.apply, Tables.apply, hhistograms], hdropReasons,
      hwakeups⟩
  | recordDrop reason =>
    exact ⟨hcapacity, hslots, hhistograms, by rw [Tables.apply, Tables.apply, hdropReasons],
      hwakeups⟩
  | recordWakeup pid time =>
    exact ⟨hcapacity, hslots, hhistograms, hdropReasons, by
      rw [Tables.apply, Tables.apply, hwakeups]⟩
  | takeWakeup pid =>
    exact ⟨hcapacity, hslots, hhistograms, hdropReasons, by
      rw [Tables.apply, Tables.apply, hwakeups]⟩

lemma applyAll (h : t.SameRecords u) (xs : List TableUpdate) :
    (t.applyAll xs).SameRecords (u.applyAll xs) := by
  induction xs generalizing t u with
  | nil => exact h
  | cons x xs ih => exact ih (h.apply x)

end SameRecords

/-- Adding to some counters of a node and touching it in one access leaves what one update after
another leaves. -/
lemma sameRecords_bump (t : Tables) (node : UInt32) (now : UInt64)
    (amounts : List (CounterField × UInt64)) :
    (t.bump node now fun c => amounts.foldl (fun c a => c.add a.1 a.2) c).SameRecords
      (t.applyAll (amounts.map (fun a => .increment node a.1 a.2) ++ [.touch node now])) := by
  induction amounts generalizing t with
  | nil => exact .refl _
  | cons a amounts ih =>
    have hrest := ih (t.apply (.increment node a.1 a.2))
    have hslots := SlotTable.slots_update_update t.counters node .zero (fun c => c.add a.1 a.2)
      fun c => (amounts.foldl (fun c a => c.add a.1 a.2) c).touch now
    have hfirst : (t.bump node now fun c =>
        (a :: amounts).foldl (fun c a => c.add a.1 a.2) c).SameRecords
        ((t.apply (.increment node a.1 a.2)).bump node now fun c =>
          amounts.foldl (fun c a => c.add a.1 a.2) c) :=
      ⟨by simp [bump, Tables.apply, CounterTable.increment], hslots.symm, rfl, rfl, rfl⟩
    exact hfirst.trans hrest

/-- A handler leaves the records that its updates leave. -/
lemma sameRecords_run (t : Tables) (c : ProbeCall) :
    (c.run t).1.SameRecords (t.applyAll (c.updates (c.woken? t.wakeups))) := by
  obtain ⟨callback, node, now⟩ := c
  cases callback with
  | roundTrip millis =>
    exact sameRecords_bump (t.apply (.observe node millis)) node now
      [(.rttSum, millis), (.rttCount, 1)]
  | ack srtt =>
    exact sameRecords_bump (t.apply (.observe node (srttToMillis srtt))) node now
      [(.rttSum, srttToMillis srtt), (.rttCount, 1)]
  | retransmit => exact sameRecords_bump t node now [(.retransCount, 1)]
  | packetDrop reason =>
    exact sameRecords_bump (t.apply (.recordDrop reason)) node now [(.dropCount, 1)]
  | wakeup pid => exact .refl _
  | switch pid =>
    cases hpending : t.wakeups.pending.get? pid with
    | none =>
      have htake := WakeupTable.take_of_get?_eq_none hpending
      simp only [ProbeCall.run, ProbeCall.updates, ProbeCall.woken?, htake]
      exact .refl t
    | some woken =>
      have htake := WakeupTable.take_of_get?_eq_some hpending
      have hbump := sameRecords_bump (t.apply (.takeWakeup pid)) node now
        [(.runqlatSum, waitMillis woken now), (.runqlatCount, 1)]
      simp only [Tables.apply, htake] at hbump
      simp only [ProbeCall.run, ProbeCall.updates, ProbeCall.woken?, htake, applyAll_cons,
        Tables.apply]
      exact hbump

/-! ## Runs of calls -/

/-- The tables after a list of handler calls, the first one first. -/
def callAll (t : Tables) (calls : List ProbeCall) : Tables :=
  calls.foldl (fun t c => (c.run t).1) t

/-- The updates that a list of handler calls amounts to. -/
def callUpdates (t : Tables) : List ProbeCall → List TableUpdate
  | [] => []
  | c :: rest => c.updates (c.woken? t.wakeups) ++ callUpdates (c.run t).1 rest

/-- A run of handler calls leaves the records that its updates leave. -/
lemma sameRecords_callAll {t u : Tables} (h : t.SameRecords u) (calls : List ProbeCall) :
    (t.callAll calls).SameRecords (u.applyAll (t.callUpdates calls)) := by
  induction calls generalizing t u with
  | nil => exact h
  | cons c calls ih =>
    have hstep : (c.run t).1.SameRecords (u.applyAll (c.updates (c.woken? t.wakeups))) :=
      (sameRecords_run t c).trans (h.applyAll _)
    have happend : u.applyAll (t.callUpdates (c :: calls)) =
        (u.applyAll (c.updates (c.woken? t.wakeups))).applyAll
          ((c.run t).1.callUpdates calls) :=
      List.foldl_append
    rw [happend]
    exact ih hstep

/-- What each call shows in at most one of its updates, whatever is known of wakeups, is shown by
the updates of a run as often as by its calls, and in their order. -/
lemma filterMap_callUpdates {β : Type} {f : TableUpdate → Option β} {g : ProbeCall → Option β}
    (h : ∀ c woken, (ProbeCall.updates c woken).filterMap f = (g c).toList) (t : Tables)
    (calls : List ProbeCall) : (t.callUpdates calls).filterMap f = calls.filterMap g := by
  induction calls generalizing t with
  | nil => rfl
  | cons c calls ih =>
    rw [callUpdates, List.filterMap_append, h, ih]
    cases hc : g c <;> simp [hc]

end Tables

/-- Handler calls change the tables of a pipeline, whatever becomes of their events. -/
lemma Pipeline.tables_actAll_calls (p : Pipeline) (calls : List ProbeCall) :
    (p.actAll (calls.map .call)).tables = p.tables.callAll calls := by
  induction calls generalizing p with
  | nil => rfl
  | cons c calls ih =>
    have hstep := ih (p.call c)
    rw [tables_call] at hstep
    exact hstep

end NodeTelemetry
