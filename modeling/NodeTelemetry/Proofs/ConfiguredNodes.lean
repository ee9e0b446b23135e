import Mathlib
import NodeTelemetry.Config
import NodeTelemetry.Pipeline
import NodeTelemetry.Proofs.HandlerUpdates

/-!
# A validated configuration loses no node

Validation compares the range of the processor hash with the capacity of the tables of nodes, so a
handler that finds its node by that hash never names a node outside the tables.  What a table needs
is said once (`SlotTable.HoldsBelow`): it has room for all keys below a bound, turned none away and
holds no other key.  An update below the bound keeps this (`SlotTable.HoldsBelow.update`), a handler
call is at most one update of the counters and at most one of the histograms
(`ProbeCall.counters_run`, `ProbeCall.histograms_run`), and so every run of calls keeps it
(`Tables.HoldsNodesBelow.callAll`).
-/

namespace NodeTelemetry

/-! ## What validation accepts -/

namespace Config

/-- What validation demands of a configuration, said of unbounded numbers. -/
structure Admissible (c : Config) : Prop where
  interval_pos : 1 ≤ c.intervalSecs.toNat
  pollTimeout_pos : 1 ≤ c.pollTimeoutMs.toNat
  /-- The poll timeout is shorter than the interval, both in milliseconds. -/
  pollTimeout_lt : c.pollTimeoutMs.toNat < 1000 * c.intervalSecs.toNat
  channelCapacity_pos : 1 ≤ c.channelCapacity.toNat
  maxNodes_pos : 1 ≤ c.maxNodes.toNat
  maxDropReasons_pos : 1 ≤ c.maxDropReasons.toNat
  maxInflightWakeups_pos : 1 ≤ c.maxInflightWakeups.toNat
  nodeSlots_pos : 1 ≤ c.nodeSlots.toNat
  nodeSlots_le : c.nodeSlots.toNat ≤ c.maxNodes.toNat

/-- The poll timeout reaches the interval exactly if it does so counted in milliseconds. -/
lemma interval_le_pollTimeout_iff (c : Config) :
    c.interval.nanos ≤ c.pollTimeout.nanos ↔
      1000 * c.intervalSecs.toNat ≤ c.pollTimeoutMs.toNat := by
  simp only [interval, pollTimeout, Duration.ofSecs, Duration.ofMillis, nanosPerSecond]
  omega

/-- A word is zero exactly if its number is not at least one. -/
lemma eq_zero_iff_not_one_le (n : UInt64) : n = 0 ↔ ¬ 1 ≤ n.toNat := by
  rw [← UInt64.toNat_inj, UInt64.toNat_zero]
  omega

/-- There is no slot exactly if there is not at least one. -/
lemma nodeSlots_eq_zero_iff (c : Config) : c.nodeSlots = 0 ↔ ¬ 1 ≤ c.nodeSlots.toNat := by
  rw [← UInt32.toNat_inj, UInt32.toNat_zero]
  omega

/-- Slots and nodes are compared as numbers, although their words differ in width. -/
lemma maxNodes_lt_nodeSlots_iff (c : Config) :
    c.maxNodes < c.nodeSlots.toUInt64 ↔ c.maxNodes.toNat < c.nodeSlots.toNat := by
  rw [UInt64.lt_iff_toNat_lt, UInt32.toNat_toUInt64]

/-- No fault is found exactly in an admissible configuration. -/
lemma fault?_eq_none_iff (c : Config) : c.fault? = none ↔ c.Admissible := by
  unfold fault?
  simp only [interval_le_pollTimeout_iff, nodeSlots_eq_zero_iff, maxNodes_lt_nodeSlots_iff,
    eq_zero_iff_not_one_le, Bool.or_eq_true, decide_eq_true_iff]
  constructor
  · intro h
    split_ifs at h with h₁ h₂ h₃ h₄ h₅ h₆
    constructor <;> omega
  · rintro ⟨h₁, h₂, h₃, h₄, h₅, h₆, h₇, h₈, h₉⟩
    rw [if_neg (by omega), if_neg (by omega), if_neg (by omega), if_neg (by omega),
      if_neg (by omega), if_neg (by omega)]

end Config

/-! ## Tables that hold all keys below a bound -/

/-- A table has room for all keys below a bound, turned none away and holds no other key. -/
structure SlotTable.HoldsBelow {α : Type} (bound : ℕ) (t : SlotTable α) : Prop where
  le_capacity : bound ≤ t.capacity
  rejected_eq : t.rejected = 0
  lt_of_isSome : ∀ key, (t.get? key).isSome → key.toNat < bound

namespace SlotTable.HoldsBelow

variable {α : Type} {bound : ℕ} {t : SlotTable α} {key : UInt32}

/-- A table without records holds all keys below its capacity. -/
lemma ofCapacity {capacity : ℕ} (h : bound ≤ capacity) :
    HoldsBelow bound (SlotTable.ofCapacity capacity : SlotTable α) :=
  ⟨h, rfl, fun key hkey => by simp at hkey⟩

/-- An update below the bound is not turned away and brings no key above the bound. -/
lemma update (h : HoldsBelow bound t) (hkey : key.toNat < bound) (initial : α)
    (change : α → α) : HoldsBelow bound (t.update key initial change) := by
  have hroom : key.toNat < t.capacity := hkey.trans_le h.le_capacity
  refine ⟨by rw [capacity_update]; exact h.le_capacity, ?_, fun key' hkey' => ?_⟩
  · rw [rejected_update, if_pos hroom]
    exact h.rejected_eq
  · rw [get?_update_eq_ite] at hkey'
    split_ifs at hkey' with hit
    · rw [hit.2]
      exact hkey
    · exact h.lt_of_isSome key' hkey'

/-- An update below the bound changes the record of its key, and no other. -/
lemma get?_update (h : HoldsBelow bound t) (hkey : key.toNat < bound) (initial : α)
    (change : α → α) (key' : UInt32) :
    (t.update key initial change).get? key' =
      if key' = key then some (change ((t.get? key).getD initial)) else t.get? key' :=
  SlotTable.get?_update t (hkey.trans_le h.le_capacity) key' initial change

end SlotTable.HoldsBelow

/-! ## Handler calls -/

/-- What a handler adds to the counters of its node, if it records something of its node whatever
the tables hold. -/
def Callback.amounts? : Callback → Option (List (CounterField × UInt64))
  | .roundTrip millis => some [(.rttSum, millis), (.rttCount, 1)]
  | .ack srtt => some [(.rttSum, srttToMillis srtt), (.rttCount, 1)]
  | .retransmit => some [(.retransCount, 1)]
  | .packetDrop _ => some [(.dropCount, 1)]
  | .wakeup _ => none
  | .switch _ => none

/-- A list of amounts is added to counters, which are touched then. -/
def NodeCounters.addAll (amounts : List (CounterField × UInt64)) (time : UInt64)
    (c : NodeCounters) : NodeCounters :=
  (amounts.foldl (fun c a => c.add a.1 a.2) c).touch time

namespace ProbeCall

/-- What a call adds to the counters of its node.  A switch adds the wait of its process, if that
was woken. -/
def counterAmounts? (c : ProbeCall) (wakeups : WakeupTable) :
    Option (List (CounterField × UInt64)) :=
  match c.callback with
  | .switch pid => (wakeups.take pid).1.map fun woken =>
    [(.runqlatSum, waitMillis woken c.now), (.runqlatCount, 1)]
  | callback => callback.amounts?

/-- The sample that a call adds to the histogram of its node. -/
def histogramSample? (c : ProbeCall) : Option UInt64 :=
  match c.callback with
  | .roundTrip millis => some millis
  | .ack srtt => some (srttToMillis srtt)
  | _ => none

/-- A call updates the counters of its node once, or not at all. -/
lemma counters_run (c : ProbeCall) (t : Tables) :
    (c.run t).1.counters = (c.counterAmounts? t.wakeups).elim t.counters fun amounts =>
      t.counters.update c.node .zero (NodeCounters.addAll amounts c.now) := by
  obtain ⟨callback, node, now⟩ := c
  cases callback with
  | switch pid =>
    cases hpending : t.wakeups.pending.get? pid with
    | none =>
      simp only [run, counterAmounts?, WakeupTable.take_of_get?_eq_none hpending]
      rfl
    | some woken =>
      simp only [run, counterAmounts?, WakeupTable.take_of_get?_eq_some hpending]
      rfl
  | _ => rfl

/-- A call updates the histogram of its node once, or not at all. -/
lemma histograms_run (c : ProbeCall) (t : Tables) :
    (c.run t).1.histograms =
      c.histogramSample?.elim t.histograms (t.histograms.observe c.node) := by
  obtain ⟨callback, node, now⟩ := c
  cases callback with
  | switch pid =>
    cases hpending : t.wakeups.pending.get? pid with
    | none => simp only [run, WakeupTable.take_of_get?_eq_none hpending, histogramSample?,
        Option.elim_none]
    | some woken =>
      simp only [run, WakeupTable.take_of_get?_eq_some hpending, histogramSample?]
      rfl
  | _ => rfl

end ProbeCall

/-- The tables of nodes hold all nodes below a bound. -/
structure Tables.HoldsNodesBelow (bound : ℕ) (t : Tables) : Prop where
  counters : t.counters.HoldsBelow bound
  histograms : t.histograms.HoldsBelow bound

namespace Tables.HoldsNodesBelow

variable {bound : ℕ} {t : Tables}

/-- A call on a node below the bound keeps the tables so. -/
lemma run (h : t.HoldsNodesBelow bound) {c : ProbeCall} (hnode : c.node.toNat < bound) :
    (c.run t).1.HoldsNodesBelow bound := by
  refine ⟨?_, ?_⟩
  · rw [c.counters_run]
    cases c.counterAmounts? t.wakeups with
    | none => exact h.counters
    | some amounts => exact h.counters.update hnode _ _
  · rw [c.histograms_run]
    cases c.histogramSample? with
    | none => exact h.histograms
    | some sample =>
      exact h.histograms.update hnode .empty fun histogram => histogram.observe sample

/-- A run of calls on nodes below the bound keeps the tables so. -/
lemma callAll (h : t.HoldsNodesBelow bound) {calls : List ProbeCall}
    (hnodes : ∀ c ∈ calls, c.node.toNat < bound) : (t.callAll calls).HoldsNodesBelow bound := by
  induction calls generalizing t with
  | nil => exact h
  | cons c calls ih =>
    have hstep := h.run (hnodes c List.mem_cons_self)
    exact ih hstep fun c' hc' => hnodes c' (List.mem_cons_of_mem _ hc')

/-- All tracked nodes are below the bound. -/
lemma lt_of_mem_trackedNodes (h : t.HoldsNodesBelow bound) {node : UInt32}
    (hnode : node ∈ t.trackedNodes) : node.toNat < bound := by
  rcases KeyMap.mem_unionKeys.mp hnode with hcounters | hhistogram
  · exact h.counters.lt_of_isSome node hcounters
  · exact h.histograms.lt_of_isSome node hhistogram

end Tables.HoldsNodesBelow

/-! ## Nodes named by a strategy -/

namespace NodeStrategy

/-- A call of a handler on a processor, which finds its node by the strategy. -/
def callOn (s : NodeStrategy) (callback : Callback) (cpu : UInt32) (now : UInt64) : ProbeCall :=
  ⟨callback, s.nodeOn cpu, now⟩

/-- Calls of handlers, each with its processor and the reading of the clock. -/
def calls (s : NodeStrategy) (work : List (Callback × UInt32 × UInt64)) : List ProbeCall :=
  work.map fun w => s.callOn w.1 w.2.1 w.2.2

/-- The hash of a processor is below the number of slots. -/
lemma nodeOn_cpuHash_lt {slots : UInt32} (h : 1 ≤ slots.toNat) (cpu : UInt32) :
    ((cpuHash slots).nodeOn cpu).toNat < slots.toNat := by
  have hne : slots ≠ 0 := by
    rintro rfl
    exact absurd h (by decide)
  rw [nodeOn, if_neg hne, UInt32.toNat_mod]
  exact Nat.mod_lt _ h

end NodeStrategy

namespace Pipeline

/-- The nodes of a number of slots are all held: no access to their tables was turned away, no other
node is tracked, and whatever handler is called next finds the counters of its node. -/
structure LosesNoNode (slots : UInt32) (p : Pipeline) : Prop where
  counters_rejected : p.tables.counters.rejected = 0
  histograms_rejected : p.tables.histograms.rejected = 0
  tracked_lt : ∀ node ∈ p.tables.trackedNodes, node.toNat < slots.toNat
  /-- A call adds to the counters of the node that it names, from zero if it is the first one, and
  to no others. -/
  applied : ∀ callback cpu now amounts, Callback.amounts? callback = some amounts →
    let call := (NodeStrategy.cpuHash slots).callOn callback cpu now
    ∀ node, (p.call call).tables.counters.get? node =
      if node = call.node then
        some (NodeCounters.addAll amounts now ((p.tables.counters.get? node).getD .zero))
      else p.tables.counters.get? node

/-- A pipeline whose tables hold the nodes of the slots loses none. -/
lemma losesNoNode_of_holdsNodesBelow {slots : UInt32} {p : Pipeline} (hslots : 1 ≤ slots.toNat)
    (h : p.tables.HoldsNodesBelow slots.toNat) : p.LosesNoNode slots := by
  refine ⟨h.counters.rejected_eq, h.histograms.rejected_eq,
    fun node => h.lt_of_mem_trackedNodes, fun callback cpu now amounts hamounts => ?_⟩
  intro call node
  have hnode : call.node.toNat < slots.toNat := NodeStrategy.nodeOn_cpuHash_lt hslots cpu
  have hcounter : call.counterAmounts? p.tables.wakeups = some amounts := by
    cases callback <;> first | exact hamounts | cases hamounts
  rw [tables_call, call.counters_run, hcounter, Option.elim_some,
    h.counters.get?_update hnode _ _ node]
  split_ifs with hit
  · rw [hit]
    rfl
  · rfl

end Pipeline

/-- **A validated configuration loses no node.**  Validation accepts exactly the admissible
configurations, and with the tables and the processor hash of such a configuration no run of handler
calls, on whatever processors, loses what it records of a node. -/
theorem Config.validate_eq_ok_iff_and_losesNoNode (c : Config) :
    (c.validate = .ok () ↔ c.Admissible) ∧
      (c.validate = .ok () → ∀ (policy : SamplingPolicy) (words : List UInt32) (host : String)
        (cpu : CpuSource) (work : List (Callback × UInt32 × UInt64)),
        let p := Pipeline.initial c.tables c.channelCapacity.toNat policy words host cpu
        let calls := (NodeStrategy.cpuHash c.nodeSlots).calls work
        (p.actAll (calls.map .call)).LosesNoNode c.nodeSlots) := by
  have hiff : c.validate = .ok () ↔ c.Admissible := validate_eq_ok_iff.trans c.fault?_eq_none_iff
  refine ⟨hiff, fun hvalid policy words host cpu work => ?_⟩
  intro p calls
  have hadmissible := hiff.mp hvalid
  have hslots : 1 ≤ c.nodeSlots.toNat := hadmissible.nodeSlots_pos
  have hstart : p.tables.HoldsNodesBelow c.nodeSlots.toNat :=
    ⟨.ofCapacity hadmissible.nodeSlots_le, .ofCapacity hadmissible.nodeSlots_le⟩
  have hnodes : ∀ call ∈ calls, call.node.toNat < c.nodeSlots.toNat := by
    intro call hcall
    obtain ⟨w, -, rfl⟩ := List.mem_map.mp hcall
    exact NodeStrategy.nodeOn_cpuHash_lt hslots w.2.1
  refine Pipeline.losesNoNode_of_holdsNodesBelow hslots ?_
  rw [Pipeline.tables_actAll_calls]
  exact hstart.callAll hnodes

/-- As many slots as nodes, two of each: a round trip on the last processor, a drop of an unknown
reason, a switch that nobody waited for, and an acknowledgement. -/
theorem Config.losesNoNode_of_two_slots :
    let c : Config := { Config.standard with
      maxNodes := 2, nodeSlots := 2, intervalSecs := 1, pollTimeoutMs := 999 }
    let work : List (Callback × UInt32 × UInt64) := [(.roundTrip 5, 0xffffffff, 1),
      (.packetDrop 99, 6, 2), (.switch 7, 5, 3), (.ack 0xfa00, 3, 4)]
    let p := Pipeline.initial c.tables c.channelCapacity.toNat .unsampled [] "web" .unread
    let q := p.actAll (((NodeStrategy.cpuHash c.nodeSlots).calls work).map .call)
    c.validate = .ok () ∧ q.LosesNoNode 2 ∧ q.tables.trackedNodes = [0, 1] ∧
      q.tables.dropReasons.rejected = 1 := by
  intro c work p q
  have hvalid : c.validate = .ok () := by decide
  exact ⟨hvalid, c.validate_eq_ok_iff_and_losesNoNode.2 hvalid .unsampled [] "web" .unread work,
    by decide, by decide⟩

end NodeTelemetry
