import Mathlib
import NodeTelemetry.Proofs.HandlerAccounts

/-!
# What handlers report

A handler reports an event of what it recorded, or, if it recorded nothing of a node, none.  So the
events that a run of handler calls reports, before any of them is sampled or refused, are a ledger
of the counters: each event adds known amounts to the counters of its node (`Event.adds?`), and a
counter is the sum of these amounts (`Tables.toNat_get_countersOf_callAll`).  The events of a kind
are counted by one of the counters, and its sum over all nodes, with the events of unknown nodes, is
the number of these events (`Tables.sum_countField_callAll`).
-/

namespace NodeTelemetry

open TableUpdate

/-! ## Events and counters -/

/-- The counter that counts the events of a kind. -/
def EventType.countField : EventType → CounterField
  | .rtt => .rttCount
  | .retrans => .retransCount
  | .drop => .dropCount
  | .runqlat => .runqlatCount

/-- What an event adds to a counter of its node. -/
def Event.adds? (field : CounterField) (e : Event) : Option UInt64 :=
  match e.eventType, field with
  | .rtt, .rttSum => some e.value
  | .rtt, .rttCount => some 1
  | .retrans, .retransCount => some 1
  | .drop, .dropCount => some 1
  | .runqlat, .runqlatSum => some e.value
  | .runqlat, .runqlatCount => some 1
  | _, _ => none

/-- The counter of a kind gets one for each event of the kind. -/
lemma Event.adds?_countField (e : Event) (kind : EventType) :
    e.adds? kind.countField = if e.eventType = kind then some 1 else none := by
  obtain ⟨node, eventType, value, time, extra⟩ := e
  cases eventType <;> cases kind <;> rfl

/-- Adding up the ones of the events of a kind is counting these events. -/
lemma sum_adds?_countField (kind : EventType) (events : List Event) :
    ((events.filterMap (Event.adds? kind.countField)).map UInt64.toNat).sum =
      events.countP (·.eventType = kind) := by
  rw [sum_map_filterMap, countP_eq_sum_map]
  refine congrArg List.sum (List.map_congr_left fun e _ => ?_)
  rw [Event.adds?_countField]
  by_cases hkind : e.eventType = kind <;> simp [hkind]

/-- An event is of one of the four kinds. -/
lemma length_eq_sum_countP_eventType (events : List Event) :
    events.length = events.countP (·.eventType = .rtt) + events.countP (·.eventType = .retrans) +
      events.countP (·.eventType = .drop) + events.countP (·.eventType = .runqlat) := by
  induction events with
  | nil => rfl
  | cons e events ih =>
    simp only [List.length_cons, List.countP_cons, ih]
    cases e.eventType <;> simp <;> omega

/-- A handler reports events of its own node. -/
lemma ProbeCall.nodeId_of_run {c : ProbeCall} {t : Tables} {e : Event}
    (h : (c.run t).2 = some e) : e.nodeId = c.node := by
  obtain ⟨callback, node, now⟩ := c
  cases callback with
  | wakeup pid => cases h
  | switch pid =>
    cases hpending : t.wakeups.pending.get? pid with
    | none =>
      rw [run_switch_of_not_pending rfl hpending] at h
      cases h
    | some woken =>
      simp only [run, WakeupTable.take_of_get?_eq_some hpending, Option.some.injEq] at h
      rw [← h]
  | _ =>
    cases h
    rfl

namespace Tables

/-! ## The ledger of a run -/

/-- The calls of a run, each with the tables that it finds. -/
def moments (t : Tables) : List ProbeCall → List (Tables × ProbeCall)
  | [] => []
  | c :: rest => (t, c) :: (c.run t).1.moments rest

/-- The events that a run of calls reports, in order. -/
def reports (t : Tables) (calls : List ProbeCall) : List Event :=
  (t.moments calls).filterMap fun m => (m.2.run m.1).2

lemma callAll_concat (t : Tables) (calls : List ProbeCall) (c : ProbeCall) :
    t.callAll (calls ++ [c]) = (c.run (t.callAll calls)).1 := by
  rw [callAll, List.foldl_concat]
  rfl

/-- The last call of a run finds the tables that the calls before it leave. -/
lemma moments_concat (t : Tables) (calls : List ProbeCall) (c : ProbeCall) :
    t.moments (calls ++ [c]) = t.moments calls ++ [(t.callAll calls, c)] := by
  induction calls generalizing t with
  | nil => rfl
  | cons d calls ih => exact congrArg ((t, d) :: ·) (ih (d.run t).1)

lemma reports_cons (t : Tables) (c : ProbeCall) (calls : List ProbeCall) :
    t.reports (c :: calls) = (c.run t).2.toList ++ (c.run t).1.reports calls := by
  rw [reports, reports, show t.moments (c :: calls) = (t, c) :: (c.run t).1.moments calls from rfl]
  cases hevent : (c.run t).2 <;> simp [hevent]

/-- Calls on one node report events of that node. -/
lemma nodeId_of_mem_reports {t : Tables} {calls : List ProbeCall} {node : UInt32}
    (h : ∀ c ∈ calls, c.node = node) {e : Event} (he : e ∈ t.reports calls) :
    e.nodeId = node := by
  induction calls generalizing t with
  | nil => cases he
  | cons c calls ih =>
    obtain ⟨hfirst, hrest⟩ := List.forall_mem_cons.mp h
    rw [reports_cons, List.mem_append, Option.mem_toList] at he
    rcases he with hevent | hlater
    · exact (ProbeCall.nodeId_of_run hevent).trans hfirst
    · exact ih hrest hlater

/-- A handler adds to the counters what the event that it reports says. -/
lemma filterMap_amount?_updates (t : Tables) (c : ProbeCall) (field : CounterField) :
    (c.updates (c.woken? t.wakeups)).filterMap (amount? field) =
      (c.run t).2.toList.filterMap fun e => (e.adds? field).map fun a => (e.nodeId, a) := by
  obtain ⟨callback, node, now⟩ := c
  cases callback with
  | switch pid =>
    cases hpending : t.wakeups.pending.get? pid with
    | none =>
      have htake := WakeupTable.take_of_get?_eq_none hpending
      simp only [ProbeCall.run, ProbeCall.updates, ProbeCall.woken?, htake]
      rfl
    | some woken =>
      have htake := WakeupTable.take_of_get?_eq_some hpending
      simp only [ProbeCall.run, ProbeCall.updates, ProbeCall.woken?, htake]
      cases field <;> rfl
  | _ => cases field <;> rfl

/-- A run of calls adds to the counters what the reported events say. -/
lemma filterMap_amount?_callUpdates (t : Tables) (calls : List ProbeCall) (field : CounterField) :
    (t.callUpdates calls).filterMap (amount? field) =
      (t.reports calls).filterMap fun e => (e.adds? field).map fun a => (e.nodeId, a) := by
  induction calls generalizing t with
  | nil => rfl
  | cons c calls ih =>
    rw [callUpdates, List.filterMap_append, filterMap_amount?_updates, ih, reports_cons,
      List.filterMap_append]

/-- The amounts of the events of a node are what is listed under the node. -/
lemma valuesAt_filterMap_adds? (node : UInt32) (field : CounterField) (events : List Event) :
    valuesAt node (events.filterMap fun e => (e.adds? field).map fun a => (e.nodeId, a)) =
      (events.filter (·.nodeId = node)).filterMap (Event.adds? field) := by
  rw [valuesAt, List.filter_filterMap, List.map_filterMap, List.filterMap_filter]
  refine List.filterMap_congr fun e _ => ?_
  cases hadds : e.adds? field <;> by_cases hnode : e.nodeId = node <;> simp [hnode, Option.filter]

section Fresh

variable (maxNodes maxDropReasons maxInflight : UInt64) (calls : List ProbeCall) {node : UInt32}

/-- A counter of a node in range is the sum of what the reported events of the node add to it. -/
lemma toNat_get_countersOf_callAll (hnode : node.toNat < maxNodes.toNat) (field : CounterField) :
    let fresh := ofCapacities maxNodes maxDropReasons maxInflight
    (((fresh.callAll calls).countersOf node).get field).toNat =
      ((((fresh.reports calls).filter (·.nodeId = node)).filterMap (Event.adds? field)).map
        UInt64.toNat).sum % UInt64.size := by
  intro fresh
  have htotals := totals_applyAll maxNodes maxDropReasons maxInflight (fresh.callUpdates calls)
  have hsame := sameRecords_callAll (.refl fresh) calls
  have hcounter := htotals.toNat_get_of_calls hnode field
  rw [filterMap_amount?_callUpdates, valuesAt_filterMap_adds?] at hcounter
  rw [countersOf, hsame.get?_counters]
  exact hcounter

/-- The counter of a kind counts the events of the kind that the node reported. -/
lemma toNat_countField_callAll (hnode : node.toNat < maxNodes.toNat) (kind : EventType) :
    let fresh := ofCapacities maxNodes maxDropReasons maxInflight
    (((fresh.callAll calls).countersOf node).get kind.countField).toNat =
      ((fresh.reports calls).filter (·.nodeId = node)).countP (·.eventType = kind)
        % UInt64.size := by
  intro fresh
  rw [toNat_get_countersOf_callAll maxNodes maxDropReasons maxInflight calls hnode,
    sum_adds?_countField]

/-- The counts of a kind on all nodes, with the events of unknown nodes, are the events of the kind,
up to a modulus for which a count that wraps is not wrong. -/
lemma sum_countField_callAll {m : ℕ} (kind : EventType) :
    let fresh := ofCapacities maxNodes maxDropReasons maxInflight
    let events := (fresh.reports calls).filter (·.eventType = kind)
    (∀ n ≤ events.length, n % UInt64.size ≡ n [MOD m]) →
      ((fresh.callAll calls).counters.slots.entries.map fun e =>
          (e.2.get kind.countField).toNat).sum + events.countP (maxNodes.toNat ≤ ·.nodeId.toNat) ≡
        events.length [MOD m] := by
  intro fresh events hmod
  have htotals := totals_applyAll maxNodes maxDropReasons maxInflight (fresh.callUpdates calls)
  have hsame := sameRecords_callAll (.refl fresh) calls
  have hcount : ∀ node, (events.map Event.nodeId).count node =
      ((fresh.reports calls).filter (·.nodeId = node)).countP (·.eventType = kind) := by
    intro node
    rw [List.count, List.countP_map, List.countP_filter, List.countP_filter]
    refine List.countP_congr fun e _ => ?_
    simp [and_comm]
  have hinside : ∀ node, ((fresh.callAll calls).counters.get? node).isSome →
      node.toNat < maxNodes.toNat := by
    intro node hnode
    rw [hsame.get?_counters] at hnode
    exact ((htotals.counters_isSome node).mp hnode).1
  have hnumber : ∀ node c, (fresh.callAll calls).counters.get? node = some c →
      (c.get kind.countField).toNat ≡ (events.map Event.nodeId).count node [MOD m] := by
    intro node c hc
    have hnode := hinside node (by rw [hc]; rfl)
    have htoNat : (((fresh.callAll calls).countersOf node).get kind.countField).toNat = _ :=
      toNat_countField_callAll maxNodes maxDropReasons maxInflight calls hnode kind
    rw [countersOf, hc, Option.getD_some, ← hcount] at htoNat
    rw [htoNat]
    exact hmod _ (List.count_le_length.trans_eq (List.length_map _))
  have hused : ∀ node ∈ events.map Event.nodeId, node.toNat < maxNodes.toNat →
      ((fresh.callAll calls).counters.get? node).isSome := by
    intro node hmem hlt
    obtain ⟨e, he, rfl⟩ := List.mem_map.mp hmem
    obtain ⟨hreported, hkind⟩ := List.mem_filter.mp he
    have hadds : e.adds? kind.countField = some 1 := by
      rw [Event.adds?_countField, if_pos (of_decide_eq_true hkind)]
    have hadded : (fresh.callUpdates calls).filterMap (delta? e.nodeId kind.countField) ≠ [] := by
      rw [filterMap_delta?, filterMap_amount?_callUpdates, valuesAt_filterMap_adds?]
      refine List.ne_nil_of_mem (List.mem_filterMap.mpr ⟨e, ?_, hadds⟩)
      exact List.mem_filter.mpr ⟨hreported, decide_eq_true rfl⟩
    rw [hsame.get?_counters]
    exact (htotals.counters_isSome e.nodeId).mpr ⟨hlt, mem_map_counterKey? hadded⟩
  have hsum := SlotTable.sum_add_countP_modEq hnumber hinside hused
  rwa [List.countP_map, List.length_map] at hsum

end Fresh

end Tables

end NodeTelemetry
