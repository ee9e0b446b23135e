import Mathlib
import NodeTelemetry.Proofs.HandlerReports
import NodeTelemetry.Proofs.WakeupCount

/-!
# Switches and their wakeups

Whether a switch records a wait depends on everything that was called before it.  A process waits
after a run of calls exactly if one of its wakeups was stored and not taken since
(`Tables.isSome_get?_callAll_iff`), and the time kept for it is that of its latest wakeup
(`Tables.lastWakeup?_of_get?_callAll`).  Both follow from what one call does to one process
(`WakeupTable.get?_afterCall`).  To all of them together it does a balance: the process that begins
to wait, with those that waited, are the process that stops waiting with those that wait then
(`WakeupTable.keys_afterCall_perm`).
-/

namespace NodeTelemetry

/-! ## One call -/

/-- The milliseconds of a wait are whole, and none if the clock went back. -/
lemma toNat_waitMillis (woken now : UInt64) :
    (waitMillis woken now).toNat = (now.toNat - woken.toNat) / 1000000 := by
  unfold waitMillis
  split
  · next hlt =>
    rw [UInt64.toNat_div, UInt64.toNat_sub_of_le _ _ (UInt64.le_of_lt hlt)]
    rfl
  · next hge =>
    have hle := UInt64.le_iff_toNat_le.mp (UInt64.not_lt.mp hge)
    rw [Nat.sub_eq_zero_of_le hle]
    rfl

/-- The wakeups after a handler call. -/
def WakeupTable.afterCall (w : WakeupTable) (c : ProbeCall) : WakeupTable :=
  match c.callback with
  | .wakeup pid => w.recordWakeup pid c.now
  | .switch pid => (w.take pid).2
  | _ => w

/-- What a handler does to the wakeups depends on nothing else. -/
lemma ProbeCall.wakeups_run (c : ProbeCall) (t : Tables) :
    (c.run t).1.wakeups = t.wakeups.afterCall c := by
  obtain ⟨callback, node, now⟩ := c
  cases callback with
  | switch pid =>
    cases hpending : t.wakeups.pending.get? pid with
    | none => simp [run, WakeupTable.afterCall, WakeupTable.take_of_get?_eq_none hpending]
    | some woken =>
      simp [run, WakeupTable.afterCall, WakeupTable.take_of_get?_eq_some hpending,
        Tables.recordRunqueueWait, Tables.bump]
  | _ => rfl

namespace ProbeCall

/-- The process whose wakeup a call stores: it waits afterwards. -/
def storedWakeup? (w : WakeupTable) (c : ProbeCall) : Option UInt32 :=
  match c.callback with
  | .wakeup pid => if ((w.recordWakeup pid c.now).pending.get? pid).isSome then some pid else none
  | _ => none

/-- The process whose wakeup a call stores though it did not wait before. -/
def newWakeup? (w : WakeupTable) (c : ProbeCall) : Option UInt32 :=
  (c.storedWakeup? w).filter fun pid => (w.pending.get? pid).isNone

/-- The process whose wakeup a call takes. -/
def takenWakeup? (w : WakeupTable) (c : ProbeCall) : Option UInt32 :=
  match c.callback with
  | .switch pid => if (w.take pid).1.isSome then some pid else none
  | _ => none

/-- The time of a call that is a wakeup of a process, stored or not. -/
def wakeupTime? (pid : UInt32) (c : ProbeCall) : Option UInt64 :=
  if c.callback = .wakeup pid then some c.now else none

variable {w : WakeupTable} {c : ProbeCall} {pid : UInt32}

/-- A wakeup is stored exactly if there is room for its process. -/
lemma storedWakeup?_eq_some_iff (h : w.IsCounted) :
    c.storedWakeup? w = some pid ↔ c.callback = .wakeup pid ∧ w.HasRoomFor pid := by
  obtain ⟨callback, node, now⟩ := c
  cases callback with
  | wakeup pid' =>
    have hget := WakeupTable.get?_recordWakeup h pid' pid' now
    simp only [storedWakeup?, hget, true_and]
    by_cases hroom : w.HasRoomFor pid'
    · simp only [hroom, if_true, Option.isSome_some, Option.some.injEq, Callback.wakeup.injEq]
      constructor
      · rintro rfl
        exact ⟨rfl, hroom⟩
      · exact And.left
    · have hnone : w.pending.get? pid' = none := by
        rw [← Option.not_isSome_iff_eq_none]
        exact fun hsome => hroom (.inl hsome)
      simp only [hroom, if_false, hnone, Option.isSome_none, Bool.false_eq_true, reduceCtorEq,
        Callback.wakeup.injEq, false_iff, not_and]
      rintro rfl
      exact hroom
  | _ => simp [storedWakeup?]

/-- A wakeup is taken exactly by a switch to a process that waits. -/
lemma takenWakeup?_eq_some_iff :
    c.takenWakeup? w = some pid ↔ c.callback = .switch pid ∧ (w.pending.get? pid).isSome := by
  obtain ⟨callback, node, now⟩ := c
  cases callback with
  | switch pid' =>
    simp only [takenWakeup?, WakeupTable.take_fst, Callback.switch.injEq]
    constructor
    · intro htaken
      split at htaken
      · next hsome =>
        cases htaken
        exact ⟨rfl, hsome⟩
      · cases htaken
    · rintro ⟨rfl, hsome⟩
      rw [if_pos hsome]
  | _ => simp [takenWakeup?]

end ProbeCall

namespace WakeupTable

variable {w : WakeupTable}

/-- A handler call keeps the limit. -/
lemma maxInflight_afterCall (w : WakeupTable) (c : ProbeCall) :
    (w.afterCall c).maxInflight = w.maxInflight := by
  unfold afterCall recordWakeup take
  repeat' split
  all_goals rfl

/-- A handler call keeps the count. -/
lemma IsCounted.afterCall (h : w.IsCounted) (c : ProbeCall) : (w.afterCall c).IsCounted := by
  obtain ⟨callback, node, now⟩ := c
  cases callback with
  | wakeup pid => exact h.recordWakeup pid now
  | switch pid => exact h.take pid
  | _ => exact h

/-- A call makes a process wait from now on if it stores its wakeup, makes it wait no longer if it
takes its wakeup, and else leaves it as it is. -/
lemma get?_afterCall (h : w.IsCounted) (c : ProbeCall) (pid : UInt32) :
    (w.afterCall c).pending.get? pid =
      if c.storedWakeup? w = some pid then some c.now
      else if c.takenWakeup? w = some pid then none
      else w.pending.get? pid := by
  have hstored : c.storedWakeup? w = some pid ↔ _ := ProbeCall.storedWakeup?_eq_some_iff h
  have htaken : c.takenWakeup? w = some pid ↔ _ := ProbeCall.takenWakeup?_eq_some_iff
  obtain ⟨callback, node, now⟩ := c
  cases callback with
  | wakeup pid' =>
    have hget := get?_recordWakeup h pid' pid now
    by_cases hpid : pid = pid'
    · subst hpid
      simp only [true_and] at hstored hget
      simp only [afterCall, hget, hstored, htaken, reduceCtorEq, false_and, if_false]
    · have hpid' : pid' ≠ pid := Ne.symm hpid
      simp [afterCall, hget, hstored, htaken, hpid, hpid']
  | switch pid' =>
    have hget := get?_take w pid' pid
    by_cases hpid : pid = pid'
    · subst hpid
      cases hpending : w.pending.get? pid <;> simp [afterCall, hget, hstored, htaken, hpending]
    · have hpid' : pid' ≠ pid := Ne.symm hpid
      simp [afterCall, hget, hstored, htaken, hpid, hpid']
  | _ => simp [afterCall, hstored, htaken]

/-- A process whose wakeup was taken waits no longer. -/
lemma get?_afterCall_of_takenWakeup? (h : w.IsCounted) {c : ProbeCall} {pid : UInt32}
    (htaken : c.takenWakeup? w = some pid) : (w.afterCall c).pending.get? pid = none := by
  obtain ⟨hswitch, -⟩ := ProbeCall.takenWakeup?_eq_some_iff.mp htaken
  have hstored : c.storedWakeup? w ≠ some pid := by
    rw [Ne, ProbeCall.storedWakeup?_eq_some_iff h, hswitch]
    exact fun hwakeup => Callback.noConfusion hwakeup.1
  rw [get?_afterCall h, if_neg hstored, if_pos htaken]

/-- The process that begins to wait, with those that waited before a call, are the process that
stops waiting with those that wait after the call. -/
lemma keys_afterCall_perm (h : w.IsCounted) (c : ProbeCall) :
    ((c.newWakeup? w).toList ++ w.pending.keys).Perm
      ((c.takenWakeup? w).toList ++ (w.afterCall c).pending.keys) := by
  obtain ⟨callback, node, now⟩ := c
  cases callback with
  | wakeup pid =>
    change List.Perm _ (w.recordWakeup pid now).pending.keys
    rcases recordWakeup_cases h pid now with
      ⟨hpending, heq⟩ | ⟨hnew, -, heq⟩ | ⟨hnew, -, heq⟩
    · have hnone : ProbeCall.newWakeup? w ⟨.wakeup pid, node, now⟩ = none := by
        simp [ProbeCall.newWakeup?, ProbeCall.storedWakeup?, heq, Option.filter,
          Option.isSome_iff_ne_none.mp hpending]
      rw [hnone, heq]
      exact (KeyMap.keys_insert_perm hpending now).symm
    · have hsome : ProbeCall.newWakeup? w ⟨.wakeup pid, node, now⟩ = some pid := by
        simp [ProbeCall.newWakeup?, ProbeCall.storedWakeup?, heq, hnew]
      rw [hsome, heq]
      exact (KeyMap.keys_insert_perm_cons hnew now).symm
    · have hnone : ProbeCall.newWakeup? w ⟨.wakeup pid, node, now⟩ = none := by
        simp [ProbeCall.newWakeup?, ProbeCall.storedWakeup?, heq, hnew]
      rw [hnone, heq]
      exact .refl _
  | switch pid =>
    change List.Perm w.pending.keys (_ ++ (w.take pid).2.pending.keys)
    cases hpending : w.pending.get? pid with
    | none =>
      have hnone : ProbeCall.takenWakeup? w ⟨.switch pid, node, now⟩ = none := by
        simp [ProbeCall.takenWakeup?, take_fst, hpending]
      rw [hnone, take_of_get?_eq_none hpending]
      exact .refl _
    | some woken =>
      have hsome : ProbeCall.takenWakeup? w ⟨.switch pid, node, now⟩ = some pid := by
        simp [ProbeCall.takenWakeup?, take_fst, hpending]
      rw [hsome, take_of_get?_eq_some hpending]
      exact KeyMap.keys_perm_cons_erase (by rw [hpending]; rfl)
  | _ => exact .refl _

end WakeupTable

/-! ## Runs of calls -/

namespace Tables

/-- The time of the latest wakeup of a process among some calls, stored or not. -/
def lastWakeup? (pid : UInt32) (calls : List ProbeCall) : Option UInt64 :=
  (calls.filterMap (ProbeCall.wakeupTime? pid)).getLast?

/-- One of the wakeups of a process was stored and no switch took it since. -/
def WokenSince (pid : UInt32) (moments : List (Tables × ProbeCall)) : Prop :=
  ∃ before m after, moments = before ++ m :: after ∧
    m.2.storedWakeup? m.1.wakeups = some pid ∧
    ∀ s ∈ after, s.2.takenWakeup? s.1.wakeups ≠ some pid

/-- The processes that began to wait, in order. -/
def newWakeups (t : Tables) (calls : List ProbeCall) : List UInt32 :=
  (t.moments calls).filterMap fun m => m.2.newWakeup? m.1.wakeups

/-- The processes whose wakeups were taken, in order. -/
def takenWakeups (t : Tables) (calls : List ProbeCall) : List UInt32 :=
  (t.moments calls).filterMap fun m => m.2.takenWakeup? m.1.wakeups

/-- The waits that a run of calls reports, in order. -/
def waits (t : Tables) (calls : List ProbeCall) : List Event :=
  (t.reports calls).filter (·.eventType = .runqlat)

lemma lastWakeup?_concat (pid : UInt32) (calls : List ProbeCall) (c : ProbeCall) :
    lastWakeup? pid (calls ++ [c]) =
      if c.callback = .wakeup pid then some c.now else lastWakeup? pid calls := by
  unfold lastWakeup? ProbeCall.wakeupTime?
  by_cases hc : c.callback = .wakeup pid <;> simp [hc]

lemma not_wokenSince_nil (pid : UInt32) : ¬ WokenSince pid [] := by
  rintro ⟨before, m, after, heq, -, -⟩
  simp at heq

/-- A process was woken since if the last call stored its wakeup, or it was woken before and the
last call did not take its wakeup. -/
lemma wokenSince_concat {pid : UInt32} {moments : List (Tables × ProbeCall)}
    {m : Tables × ProbeCall} :
    WokenSince pid (moments ++ [m]) ↔
      m.2.storedWakeup? m.1.wakeups = some pid ∨
        (m.2.takenWakeup? m.1.wakeups ≠ some pid ∧ WokenSince pid moments) :=
  exists_last_concat
    (P := fun _ (m : Tables × ProbeCall) => m.2.storedWakeup? m.1.wakeups = some pid)
    (Q := fun m => m.2.takenWakeup? m.1.wakeups ≠ some pid)

/-- A handler call reports a wait exactly if it takes a wakeup, whose process the event names. -/
lemma map_extraData_run (t : Tables) (c : ProbeCall) :
    ((c.run t).2.filter (·.eventType = .runqlat)).map Event.extraData =
      c.takenWakeup? t.wakeups := by
  obtain ⟨callback, node, now⟩ := c
  cases callback with
  | switch pid =>
    cases hpending : t.wakeups.pending.get? pid with
    | none =>
      simp [ProbeCall.run, ProbeCall.takenWakeup?, WakeupTable.take_of_get?_eq_none hpending]
    | some woken =>
      simp [ProbeCall.run, ProbeCall.takenWakeup?, WakeupTable.take_of_get?_eq_some hpending]
  | _ => rfl

/-- The reported waits are those of the processes whose wakeups were taken. -/
lemma map_extraData_waits (t : Tables) (calls : List ProbeCall) :
    (t.waits calls).map Event.extraData = t.takenWakeups calls := by
  rw [waits, reports, takenWakeups, List.filter_filterMap, List.map_filterMap]
  exact List.filterMap_congr fun m _ => map_extraData_run m.1 m.2

/-- The amounts added to the sums of waits of a node are the values of its waits. -/
lemma filterMap_adds?_runqlatSum (t : Tables) (calls : List ProbeCall) (node : UInt32) :
    ((t.reports calls).filter (·.nodeId = node)).filterMap (Event.adds? .runqlatSum) =
      ((t.waits calls).filter (·.nodeId = node)).map Event.value := by
  rw [waits, List.filter_comm, ← List.filterMap_eq_map]
  refine (List.filterMap_congr fun e _ => ?_).trans List.filterMap_filter.symm
  obtain ⟨nodeId, eventType, value, time, extra⟩ := e
  cases eventType <;> rfl

/-- The table of wakeups keeps its limit. -/
lemma maxInflight_callAll (t : Tables) (calls : List ProbeCall) :
    (t.callAll calls).wakeups.maxInflight = t.wakeups.maxInflight := by
  induction calls using List.reverseRecOn with
  | nil => rfl
  | append_singleton calls c ih =>
    rw [callAll_concat, ProbeCall.wakeups_run, ← ih]
    exact WakeupTable.maxInflight_afterCall _ c

/-- A run of calls keeps the count. -/
lemma isCounted_callAll {t : Tables} (h : t.wakeups.IsCounted) (calls : List ProbeCall) :
    (t.callAll calls).wakeups.IsCounted := by
  induction calls using List.reverseRecOn with
  | nil => exact h
  | append_singleton calls c ih =>
    rw [callAll_concat, ProbeCall.wakeups_run]
    exact ih.afterCall c

/-- The time kept for a process that did not wait at first is that of its latest wakeup. -/
lemma lastWakeup?_of_get?_callAll {t : Tables} {pid : UInt32} {time : UInt64}
    (h : t.wakeups.IsCounted) (hnone : t.wakeups.pending.get? pid = none) {calls : List ProbeCall}
    (hget : (t.callAll calls).wakeups.pending.get? pid = some time) :
    lastWakeup? pid calls = some time := by
  induction calls using List.reverseRecOn with
  | nil =>
    rw [show t.callAll [] = t from rfl, hnone] at hget
    cases hget
  | append_singleton calls c ih =>
    have hcounted := isCounted_callAll h calls
    rw [callAll_concat, ProbeCall.wakeups_run, WakeupTable.get?_afterCall hcounted] at hget
    rw [lastWakeup?_concat]
    split at hget
    · next hstored =>
      obtain ⟨hcallback, -⟩ := (ProbeCall.storedWakeup?_eq_some_iff hcounted).mp hstored
      rw [if_pos hcallback, hget]
    · next hstored =>
      split at hget
      · cases hget
      · -- a wakeup of a process that waits would have been stored
        have hcallback : c.callback ≠ .wakeup pid := fun hcallback =>
          hstored ((ProbeCall.storedWakeup?_eq_some_iff hcounted).mpr
            ⟨hcallback, .inl (by rw [hget]; rfl)⟩)
        rw [if_neg hcallback]
        exact ih hget

section Waiting

variable {t : Tables} (h : t.wakeups.IsCounted) (hempty : t.wakeups.pending = .empty)
include h hempty

/-- If no process waits at first, one waits after a run exactly if it was woken since. -/
lemma isSome_get?_callAll_iff (pid : UInt32) (calls : List ProbeCall) :
    ((t.callAll calls).wakeups.pending.get? pid).isSome ↔ WokenSince pid (t.moments calls) := by
  induction calls using List.reverseRecOn with
  | nil =>
    rw [show t.callAll [] = t from rfl, hempty, KeyMap.get?_empty]
    exact ⟨fun hsome => (Bool.false_ne_true hsome).elim, fun hsince =>
      (not_wokenSince_nil pid hsince).elim⟩
  | append_singleton calls c ih =>
    have hcounted := isCounted_callAll h calls
    rw [callAll_concat, ProbeCall.wakeups_run, WakeupTable.get?_afterCall hcounted,
      moments_concat, wokenSince_concat, ← ih]
    by_cases hstored : c.storedWakeup? (t.callAll calls).wakeups = some pid
    · simp [hstored]
    · by_cases htaken : c.takenWakeup? (t.callAll calls).wakeups = some pid <;>
        simp [hstored, htaken]

/-- If no process waits at first, those that began to wait are those whose wakeups were taken and
those that wait still. -/
lemma newWakeups_perm (calls : List ProbeCall) :
    (t.newWakeups calls).Perm
      (t.takenWakeups calls ++ (t.callAll calls).wakeups.pending.keys) := by
  induction calls using List.reverseRecOn with
  | nil =>
    rw [show t.callAll [] = t from rfl, hempty]
    exact .refl _
  | append_singleton calls c ih =>
    have hlast : ∀ f : Tables × ProbeCall → Option UInt32,
        [(t.callAll calls, c)].filterMap f = (f (t.callAll calls, c)).toList := by
      intro f
      cases hf : f (t.callAll calls, c) <;> simp [hf]
    have hstep := WakeupTable.keys_afterCall_perm (isCounted_callAll h calls) c
    unfold newWakeups takenWakeups at ih ⊢
    rw [moments_concat, List.filterMap_append, List.filterMap_append, hlast, hlast, callAll_concat,
      ProbeCall.wakeups_run]
    refine (ih.append_right _).trans ?_
    rw [List.append_assoc, List.append_assoc]
    exact (List.perm_append_comm.trans hstep).append_left _

end Waiting

end Tables

/-! ## Switches of a pipeline -/

open Tables

/-- How the switches of a list of calls, made on empty tables, are paired with the wakeups. -/
structure Pipeline.PairsWakeups (maxNodes maxInflight : ℕ) (empty : Tables)
    (calls : List ProbeCall) (p : Pipeline) : Prop where
  /-- A wakeup is stored if its process waits, or fewer processes wait than the table can hold. -/
  stores_iff : ∀ pid node now,
    ProbeCall.storedWakeup? p.tables.wakeups ⟨.wakeup pid, node, now⟩ = some pid ↔
      WokenSince pid (empty.moments calls) ∨ p.tables.wakeups.pending.size < maxInflight
  /-- A switch to a process that was woken since records and reports the milliseconds since its
  latest wakeup. -/
  switch_of_woken : ∀ pid node now, WokenSince pid (empty.moments calls) →
    ∃ time millis, lastWakeup? pid calls = some time ∧
      millis.toNat = (now.toNat - time.toNat) / 1000000 ∧
      p.call ⟨.switch pid, node, now⟩ =
        { p with tables := { p.tables with wakeups := (p.tables.wakeups.take pid).2
          }.recordRunqueueWait node now millis }.emit ⟨node, .runqlat, millis, now, pid⟩
  /-- Any other switch changes nothing at all. -/
  switch_of_not_woken : ∀ pid node now, ¬ WokenSince pid (empty.moments calls) →
    p.call ⟨.switch pid, node, now⟩ = p
  /-- A process that was woken since was woken after the last switch that took its wakeup, so no
  wakeup counts for two waits. -/
  woken_between : ∀ before s between pid, calls = before ++ s :: between →
    s.takenWakeup? (empty.callAll before).wakeups = some pid →
    WokenSince pid (empty.moments calls) → (lastWakeup? pid between).isSome
  /-- A process that began to wait and whose wakeup was not taken waits still. -/
  waiting : (empty.newWakeups calls).length =
    (empty.takenWakeups calls).length + p.tables.wakeups.pending.size
  /-- The waits reported are those of the switches that took a wakeup. -/
  waits : (empty.waits calls).map Event.extraData = empty.takenWakeups calls
  /-- The waits of a node are added up. -/
  runqlatSum : ∀ node, node.toNat < maxNodes → (p.tables.countersOf node).runqlatSum.toNat =
    (((empty.waits calls).filter (·.nodeId = node)).map (·.value.toNat)).sum % 2 ^ 64
  /-- The waits are counted on their nodes, except those on unknown nodes. -/
  runqlatCount : (p.tables.counters.slots.entries.map fun e => e.2.runqlatCount.toNat).sum +
      (empty.waits calls).countP (maxNodes ≤ ·.nodeId.toNat) ≡
    (empty.takenWakeups calls).length [MOD 2 ^ 64]
  /-- Nothing is lost of fewer waits than a counter can count. -/
  runqlatCount_of_lt : (empty.takenWakeups calls).length < 2 ^ 64 →
    (p.tables.counters.slots.entries.map fun e => e.2.runqlatCount.toNat).sum +
        (empty.waits calls).countP (maxNodes ≤ ·.nodeId.toNat) =
      (empty.takenWakeups calls).length

namespace Pipeline

/-- A switch to a process that waits records and reports the time from its wakeup. -/
lemma call_switch_of_get?_eq_some {p : Pipeline} {pid : UInt32} {woken : UInt64}
    (h : p.tables.wakeups.pending.get? pid = some woken) (node : UInt32) (now : UInt64) :
    p.call ⟨.switch pid, node, now⟩ =
      { p with tables := { p.tables with wakeups := (p.tables.wakeups.take pid).2
        }.recordRunqueueWait node now (waitMillis woken now) }.emit
        ⟨node, .runqlat, waitMillis woken now, now, pid⟩ := by
  simp [call, ProbeCall.run, WakeupTable.take_of_get?_eq_some h]

/-- A switch to a process that does not wait leaves the pipeline as it is. -/
lemma call_switch_of_get?_eq_none {p : Pipeline} {pid : UInt32}
    (h : p.tables.wakeups.pending.get? pid = none) (node : UInt32) (now : UInt64) :
    p.call ⟨.switch pid, node, now⟩ = p := by
  unfold call
  rw [ProbeCall.run_switch_of_not_pending rfl h]

/-- **Switches are paired with wakeups.**  Whatever the capacities, the policy and the channel, and
whatever the handlers are called with, a switch finds the latest wakeup of its process, and it finds
it once. -/
theorem pairsWakeups_of_calls (maxNodes maxDropReasons maxInflight : UInt64)
    (channelCapacity : ℕ) (policy : SamplingPolicy) (words : List UInt32) (host : String)
    (cpu : CpuSource) (calls : List ProbeCall) :
    let empty := Tables.ofCapacities maxNodes maxDropReasons maxInflight
    let p := initial empty channelCapacity policy words host cpu
    (p.actAll (calls.map .call)).PairsWakeups maxNodes.toNat maxInflight.toNat empty calls := by
  intro empty p
  have htables : (p.actAll (calls.map .call)).tables = empty.callAll calls :=
    tables_actAll_calls p calls
  generalize p.actAll (calls.map .call) = q at htables
  have hempty : empty.wakeups.IsCounted := WakeupTable.isCounted_ofMaxInflight maxInflight
  have hcounted := isCounted_callAll hempty calls
  have hwaits := fun pid => isSome_get?_callAll_iff hempty rfl pid calls
  have hlength : (empty.waits calls).length = (empty.takenWakeups calls).length := by
    rw [← map_extraData_waits, List.length_map]
  constructor
  case stores_iff =>
    intro pid node now
    rw [ProbeCall.storedWakeup?_eq_some_iff (by rwa [htables]), ← hwaits, htables,
      WakeupTable.HasRoomFor, maxInflight_callAll]
    exact ⟨And.right, fun hroom => ⟨rfl, hroom⟩⟩
  case switch_of_woken =>
    intro pid node now hwoken
    obtain ⟨time, htime⟩ := Option.isSome_iff_exists.mp ((hwaits pid).mpr hwoken)
    refine ⟨time, waitMillis time now, lastWakeup?_of_get?_callAll hempty rfl htime,
      toNat_waitMillis time now, ?_⟩
    rw [← htables] at htime
    exact call_switch_of_get?_eq_some htime node now
  case switch_of_not_woken =>
    intro pid node now hwoken
    rw [← hwaits, Option.not_isSome_iff_eq_none, ← htables] at hwoken
    exact call_switch_of_get?_eq_none hwoken node now
  case woken_between =>
    rintro before s between pid rfl htaken hwoken
    have hbefore := isCounted_callAll hempty before
    have hnone : (s.run (empty.callAll before)).1.wakeups.pending.get? pid = none := by
      rw [ProbeCall.wakeups_run]
      exact WakeupTable.get?_afterCall_of_takenWakeup? hbefore htaken
    have hafter : (s.run (empty.callAll before)).1.wakeups.IsCounted := by
      rw [ProbeCall.wakeups_run]
      exact hbefore.afterCall s
    obtain ⟨time, htime⟩ := Option.isSome_iff_exists.mp ((hwaits pid).mpr hwoken)
    rw [callAll, List.foldl_append] at htime
    rw [lastWakeup?_of_get?_callAll hafter hnone htime]
    rfl
  case waiting =>
    have hlength := (newWakeups_perm hempty rfl calls).length_eq
    rwa [List.length_append, KeyMap.length_keys, ← htables] at hlength
  case waits => exact map_extraData_waits empty calls
  case runqlatSum =>
    intro node hnode
    rw [htables]
    refine (toNat_get_countersOf_callAll maxNodes maxDropReasons maxInflight calls hnode
      .runqlatSum).trans ?_
    rw [filterMap_adds?_runqlatSum, List.map_map]
    rfl
  case runqlatCount =>
    rw [htables, ← hlength]
    exact sum_countField_callAll maxNodes maxDropReasons maxInflight calls .runqlat
      fun n _ => Nat.mod_modEq n UInt64.size
  case runqlatCount_of_lt =>
    intro hlt
    rw [← hlength] at hlt ⊢
    rw [htables, ← Nat.modEq_zero_iff]
    refine sum_countField_callAll maxNodes maxDropReasons maxInflight calls .runqlat fun n hn => ?_
    rw [Nat.modEq_zero_iff]
    exact Nat.mod_eq_of_lt (hn.trans_lt hlt)

end Pipeline

/-- A table of one place turns the second process away, whose switch then takes nothing. -/
example : (Tables.ofCapacities 1 0 1).takenWakeups [⟨.wakeup 1, 0, 5⟩, ⟨.wakeup 2, 0, 6⟩,
    ⟨.switch 2, 0, 7⟩, ⟨.wakeup 1, 0, 8⟩, ⟨.switch 1, 0, 9⟩, ⟨.switch 1, 0, 10⟩] = [1] := by
  decide

end NodeTelemetry
