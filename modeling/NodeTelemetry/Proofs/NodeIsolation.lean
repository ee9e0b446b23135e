import Mathlib
import NodeTelemetry.Proofs.EventIndependence
import NodeTelemetry.Proofs.HandlerUpdates
import NodeTelemetry.Proofs.TickLoop

/-!
# Nodes do not interfere

What is reported of a node depends on what happens on that node and on the ticks, and on nothing
that happens on other nodes.  Two states of the metrics agree at a node if they hold the same of it:
the same records, and the same baseline of its rates.  After an input that does not concern the node
the state agrees with the one before (`MetricsState.agreesAt_step_of_not_concerns`).  An input that
concerns the node takes states that agree at it to states that agree at it, and shows the same of it
(`MetricsState.AgreesAt.step`); a tick does so although its loop goes over the tracked nodes, which
differ between the two states.  So the inputs that do not concern a node can be left out of a run
(`MetricsState.AgreesAt.trace_filter`), and two runs that are then the same show the same.

A switch is the one handler whose effect on its node depends on the table of wakeups, which belongs
to no node.
-/

namespace NodeTelemetry

/-! ## What concerns a node -/

/-- The node whose records an update may change.  Drop reasons and wakeups belong to no node. -/
def TableUpdate.node? : TableUpdate → Option UInt32
  | .increment node _ _ => some node
  | .touch node _ => some node
  | .observe node _ => some node
  | .recordDrop _ => none
  | .recordWakeup _ _ => none
  | .takeWakeup _ => none

/-- The node whose records a handler call may change. -/
def ProbeCall.node? (c : ProbeCall) : Option UInt32 :=
  match c.callback with
  | .wakeup _ => none
  | _ => some c.node

namespace MetricsInput

/-- An input may change what is held of a node, or show it.  A tick concerns all nodes. -/
def concerns (node : UInt32) : MetricsInput → Bool
  | .call c => c.node? = some node
  | .update u => u.node? = some node
  | .tick _ _ => true

/-- An input is a switch on a node. -/
def isSwitchOn (node : UInt32) : MetricsInput → Bool
  | .call ⟨.switch _, n, _⟩ => n = node
  | _ => false

end MetricsInput

/-- The updates of a call change the records of its node only. -/
lemma ProbeCall.node?_of_mem_updates (c : ProbeCall) (woken : Option UInt64) :
    ∀ u ∈ c.updates woken, u.node? = none ∨ u.node? = c.node? := by
  obtain ⟨callback, n, now⟩ := c
  cases callback <;> cases woken <;> simp [updates, node?, TableUpdate.node?]

/-! ## Tables that agree at a node -/

namespace SlotTable

variable {α : Type} {t u : SlotTable α} {key key' : UInt32}

/-- An update leaves the records of other keys alone. -/
lemma get?_update_of_ne (hne : key' ≠ key) (t : SlotTable α) (initial : α) (change : α → α) :
    (t.update key initial change).get? key' = t.get? key' := by
  rw [get?_update_eq_ite, if_neg fun h => hne h.2]

/-- An update of tables with one capacity and the same record under a key leaves them so. -/
lemma get?_update_congr (hcapacity : t.capacity = u.capacity) (hget : t.get? key' = u.get? key')
    (key : UInt32) (initial : α) (change : α → α) :
    (t.update key initial change).get? key' = (u.update key initial change).get? key' := by
  rw [get?_update_eq_ite, get?_update_eq_ite, hcapacity, hget]
  by_cases hkey : key' = key
  · rw [← hkey, hget]
  · rw [if_neg fun h => hkey h.2, if_neg fun h => hkey h.2]

end SlotTable

namespace Tables

/-- Two tables for the same nodes hold the same of a node. -/
structure AgreesAt (node : UInt32) (t u : Tables) : Prop where
  counterCapacity : t.counters.capacity = u.counters.capacity
  histogramCapacity : t.histograms.capacity = u.histograms.capacity
  counters : t.counters.get? node = u.counters.get? node
  histograms : t.histograms.get? node = u.histograms.get? node

/-- Tables with the same records agree at every node. -/
lemma SameRecords.agreesAt {t u : Tables} (h : t.SameRecords u) (node : UInt32) :
    t.AgreesAt node u :=
  ⟨h.capacity, congrArg _ h.histograms, h.get?_counters node, by rw [h.histograms]⟩

namespace AgreesAt

variable {node : UInt32} {t u v : Tables}

lemma refl (node : UInt32) (t : Tables) : t.AgreesAt node t := ⟨rfl, rfl, rfl, rfl⟩

lemma symm (h : t.AgreesAt node u) : u.AgreesAt node t :=
  ⟨h.counterCapacity.symm, h.histogramCapacity.symm, h.counters.symm, h.histograms.symm⟩

lemma trans (htu : t.AgreesAt node u) (huv : u.AgreesAt node v) : t.AgreesAt node v :=
  ⟨htu.counterCapacity.trans huv.counterCapacity, htu.histogramCapacity.trans huv.histogramCapacity,
    htu.counters.trans huv.counters, htu.histograms.trans huv.histograms⟩

/-- A snapshot of a node is made of what the tables hold of it. -/
lemma snapshot_eq (h : t.AgreesAt node u) : t.snapshot node = u.snapshot node := by
  rw [snapshot, snapshot, h.counters, h.histograms]

lemma apply (h : t.AgreesAt node u) (x : TableUpdate) : (t.apply x).AgreesAt node (u.apply x) := by
  obtain ⟨hcounterCapacity, hhistogramCapacity, hcounters, hhistograms⟩ := h
  cases x with
  | increment n field delta =>
    refine ⟨?_, hhistogramCapacity, ?_, hhistograms⟩
    · simpa [Tables.apply, CounterTable.increment] using hcounterCapacity
    · exact SlotTable.get?_update_congr hcounterCapacity hcounters _ _ _
  | touch n time =>
    refine ⟨?_, hhistogramCapacity, ?_, hhistograms⟩
    · simpa [Tables.apply, CounterTable.touch] using hcounterCapacity
    · exact SlotTable.get?_update_congr hcounterCapacity hcounters _ _ _
  | observe n value =>
    refine ⟨hcounterCapacity, ?_, hcounters, ?_⟩
    · simpa [Tables.apply, HistogramTable.observe] using hhistogramCapacity
    · exact SlotTable.get?_update_congr hhistogramCapacity hhistograms _ _ _
  | _ => exact ⟨hcounterCapacity, hhistogramCapacity, hcounters, hhistograms⟩

lemma applyAll (h : t.AgreesAt node u) (xs : List TableUpdate) :
    (t.applyAll xs).AgreesAt node (u.applyAll xs) := by
  induction xs generalizing t u with
  | nil => exact h
  | cons x xs ih => exact ih (h.apply x)

/-- A handler call takes tables that agree at a node to such tables, if a switch finds the same. -/
lemma run {c : ProbeCall} (h : t.AgreesAt node u)
    (hwoken : c.woken? t.wakeups = c.woken? u.wakeups) :
    (c.run t).1.AgreesAt node (c.run u).1 := by
  have ht := (sameRecords_run t c).agreesAt node
  have hu := (sameRecords_run u c).agreesAt node
  rw [hwoken] at ht
  exact ht.trans ((h.applyAll _).trans hu.symm)

end AgreesAt

variable {node : UInt32} {t : Tables}

/-- An update that does not change the records of a node leaves the tables in agreement at it. -/
lemma agreesAt_apply_of_ne {x : TableUpdate} (hne : x.node? ≠ some node) (t : Tables) :
    t.AgreesAt node (t.apply x) := by
  have hother : ∀ n, x.node? = some n → node ≠ n := by
    rintro n hx rfl
    exact hne hx
  cases x with
  | increment n field delta =>
    exact ⟨(SlotTable.capacity_update _ _ _ _).symm, rfl,
      (SlotTable.get?_update_of_ne (hother n rfl) _ _ _).symm, rfl⟩
  | touch n time =>
    exact ⟨(SlotTable.capacity_update _ _ _ _).symm, rfl,
      (SlotTable.get?_update_of_ne (hother n rfl) _ _ _).symm, rfl⟩
  | observe n value =>
    exact ⟨rfl, (SlotTable.capacity_update _ _ _ _).symm, rfl,
      (SlotTable.get?_update_of_ne (hother n rfl) _ _ _).symm⟩
  | _ => exact ⟨rfl, rfl, rfl, rfl⟩

lemma agreesAt_applyAll_of_ne {xs : List TableUpdate} (hne : ∀ x ∈ xs, x.node? ≠ some node)
    (t : Tables) : t.AgreesAt node (t.applyAll xs) := by
  induction xs generalizing t with
  | nil => exact .refl node t
  | cons x xs ih =>
    have hfirst := agreesAt_apply_of_ne (hne x List.mem_cons_self) t
    exact hfirst.trans (ih (fun y hy => hne y (List.mem_cons_of_mem _ hy)) _)

/-- A handler call on another node leaves the tables in agreement at a node. -/
lemma agreesAt_run_of_ne {c : ProbeCall} (hne : c.node? ≠ some node) (t : Tables) :
    t.AgreesAt node (c.run t).1 := by
  have hupdates : ∀ x ∈ c.updates (c.woken? t.wakeups), x.node? ≠ some node := by
    intro x hx
    rcases c.node?_of_mem_updates _ x hx with hnone | hsame
    · rw [hnone]
      exact (Option.some_ne_none node).symm
    · rwa [hsame]
  exact (agreesAt_applyAll_of_ne hupdates t).trans ((sameRecords_run t c).agreesAt node).symm

end Tables

/-! ## States that agree at a node -/

/-- What is seen of a node at a step: after a tick its snapshots, of which there is at most one, and
its records. -/
def nodeView (node : UInt32) (seen : Option (List Snapshot) × Tables) :
    Option (List Snapshot × Option (NodeCounters × Histogram)) :=
  seen.1.map fun made => (made.filter (·.nodeId = node), seen.2.snapshot node)

namespace MetricsState

/-- Two states hold the same of a node. -/
structure AgreesAt (node : UInt32) (m k : MetricsState) : Prop where
  tables : m.tables.AgreesAt node k.tables
  host : m.host = k.host
  rates : m.rates.get? node = k.rates.get? node

/-- The state after a list of inputs, the first one first. -/
def after (m : MetricsState) (inputs : List MetricsInput) : MetricsState :=
  inputs.foldl (fun m i => (m.step i).2) m

variable {node : UInt32} {m k l : MetricsState}

namespace AgreesAt

lemma refl (node : UInt32) (m : MetricsState) : m.AgreesAt node m := ⟨.refl node _, rfl, rfl⟩

lemma symm (h : m.AgreesAt node k) : k.AgreesAt node m :=
  ⟨h.tables.symm, h.host.symm, h.rates.symm⟩

lemma trans (hmk : m.AgreesAt node k) (hkl : k.AgreesAt node l) : m.AgreesAt node l :=
  ⟨hmk.tables.trans hkl.tables, hmk.host.trans hkl.host, hmk.rates.trans hkl.rates⟩

end AgreesAt

/-- An input that does not concern a node shows nothing of it and leaves the state in agreement
at it. -/
lemma agreesAt_step_of_not_concerns {i : MetricsInput} (hi : i.concerns node = false)
    (m : MetricsState) : (m.step i).1 = none ∧ m.AgreesAt node (m.step i).2 := by
  cases i with
  | call c => exact ⟨rfl, Tables.agreesAt_run_of_ne (of_decide_eq_false hi) m.tables, rfl, rfl⟩
  | update u => exact ⟨rfl, Tables.agreesAt_apply_of_ne (of_decide_eq_false hi) m.tables, rfl, rfl⟩
  | tick now percent => cases hi

/-- An input that is no switch on the node takes states that agree at the node to such states, and
shows the same of the node. -/
lemma AgreesAt.step {i : MetricsInput} (h : m.AgreesAt node k)
    (hi : i.concerns node = true) (hswitch : i.isSwitchOn node = false) :
    nodeView node ((m.step i).1, (m.step i).2.tables) =
        nodeView node ((k.step i).1, (k.step i).2.tables) ∧
      (m.step i).2.AgreesAt node (k.step i).2 := by
  obtain ⟨htables, hhost, hrates⟩ := h
  cases i with
  | call c =>
    have hwoken : c.woken? m.tables.wakeups = c.woken? k.tables.wakeups := by
      obtain ⟨callback, n, now⟩ := c
      cases callback with
      | switch pid =>
        have hn : n = node := Option.some_inj.mp (of_decide_eq_true hi)
        exact absurd hn (of_decide_eq_false hswitch)
      | _ => rfl
    exact ⟨rfl, htables.run hwoken, hhost, hrates⟩
  | update u => exact ⟨rfl, htables.apply u, hhost, hrates⟩
  | tick now percent =>
    have hm := Aggregator.snapshots_trackedNodes m.host percent now m.tables node m.rates
    have hk := Aggregator.snapshots_trackedNodes k.host percent now k.tables node k.rates
    have hmade : Aggregator.nodeTick m.host percent now m.tables node (m.rates.get? node) =
        Aggregator.nodeTick k.host percent now k.tables node (k.rates.get? node) := by
      rw [Aggregator.nodeTick, Aggregator.nodeTick, htables.snapshot_eq, hhost, hrates]
    rw [hmade] at hm
    refine ⟨?_, htables, hhost, ?_⟩
    · exact congrArg some (Prod.ext (hm.1.trans hk.1.symm) htables.snapshot_eq)
    · rw [hrates] at hm
      exact hm.2.trans hk.2.symm

/-- The inputs that do not concern a node can be left out: the ticks show the same of it, and the
states after the run agree at it. -/
lemma AgreesAt.trace_filter {inputs : List MetricsInput} (h : m.AgreesAt node k)
    (hswitch : ∀ i ∈ inputs.filter (·.concerns node), i.isSwitchOn node = false) :
    (m.trace inputs).filterMap (nodeView node) =
        (k.trace (inputs.filter (·.concerns node))).filterMap (nodeView node) ∧
      (m.after inputs).AgreesAt node (k.after (inputs.filter (·.concerns node))) := by
  induction inputs generalizing m k with
  | nil => exact ⟨rfl, h⟩
  | cons i inputs ih =>
    cases hi : i.concerns node with
    | false =>
      obtain ⟨hnone, hagrees⟩ := agreesAt_step_of_not_concerns hi m
      rw [List.filter_cons_of_neg (Bool.eq_false_iff.mp hi)] at hswitch ⊢
      rw [trace, hnone]
      exact ih (hagrees.symm.trans h) hswitch
    | true =>
      rw [List.filter_cons_of_pos hi] at hswitch ⊢
      obtain ⟨hfirst, hrest⟩ := List.forall_mem_cons.mp hswitch
      obtain ⟨hview, hagrees⟩ := h.step hi hfirst
      obtain ⟨hlater, hafter⟩ := ih hagrees hrest
      rw [trace, trace, List.filterMap_cons, List.filterMap_cons, hview, hlater]
      exact ⟨rfl, hafter⟩

end MetricsState

/-! ## Pipelines -/

namespace Pipeline

/-- The metrics of a pipeline after a run are the metrics after the common inputs of the run. -/
lemma metrics_run (p : Pipeline) (steps : List Step) :
    (p.run steps).2.metrics = p.metrics.after (commonInputs p.aggregator.cpu steps) := by
  induction steps generalizing p with
  | nil => rfl
  | cons s rest ih =>
    rw [run_snd_cons, ih]
    rcases s with ⟨c | u | e⟩ | _ | ⟨now, kernelText⟩
    · change (p.call c).metrics.after (commonInputs (p.call c).aggregator.cpu rest) = _
      rw [metrics_call, aggregator_call]
      rfl
    all_goals rfl

/-- **Node isolation.**  Two pipelines start empty with tables of the same capacities and the same
host name.  If the calls and updates on a node are the same in both runs and fall in the same way
between the same ticks, and no call on the node is a switch, then after each tick both runs show the
same snapshot of the node, or none, and the same records of it, and they end with the same records
and the same baseline of its rates, whatever happens on other nodes. -/
theorem nodeView_eq_of_concerning_inputs_eq (node : UInt32)
    (maxNodes maxDropReasons maxInflight : UInt64) (host : String) (capacity₁ capacity₂ : ℕ)
    (policy₁ policy₂ : SamplingPolicy) (words₁ words₂ : List UInt32) (cpu₁ cpu₂ : CpuSource)
    (steps₁ steps₂ : List Step)
    (hinputs : (commonInputs cpu₁ steps₁).filter (·.concerns node) =
      (commonInputs cpu₂ steps₂).filter (·.concerns node))
    (hswitch : ∀ i ∈ commonInputs cpu₁ steps₁, i.isSwitchOn node = false) :
    let tables := Tables.ofCapacities maxNodes maxDropReasons maxInflight
    let p₁ := initial tables capacity₁ policy₁ words₁ host cpu₁
    let p₂ := initial tables capacity₂ policy₂ words₂ host cpu₂
    (p₁.commonTrace steps₁).filterMap (nodeView node) =
        (p₂.commonTrace steps₂).filterMap (nodeView node) ∧
      (p₁.run steps₁).2.tables.snapshot node = (p₂.run steps₂).2.tables.snapshot node ∧
      (p₁.run steps₁).2.aggregator.rates.get? node =
        (p₂.run steps₂).2.aggregator.rates.get? node := by
  intro tables p₁ p₂
  have hfirst : ∀ i ∈ (commonInputs cpu₁ steps₁).filter (·.concerns node),
      i.isSwitchOn node = false := fun i hi => hswitch i (List.mem_filter.mp hi).1
  have hsecond := hfirst
  rw [hinputs] at hsecond
  obtain ⟨htrace₁, hafter₁⟩ := (MetricsState.AgreesAt.refl node p₁.metrics).trace_filter hfirst
  obtain ⟨htrace₂, hafter₂⟩ := (MetricsState.AgreesAt.refl node p₂.metrics).trace_filter hsecond
  have hmetrics : p₁.metrics = p₂.metrics := rfl
  have hend : (p₁.run steps₁).2.metrics.AgreesAt node (p₂.run steps₂).2.metrics := by
    rw [metrics_run, metrics_run]
    refine hafter₁.trans ?_
    rw [hinputs, hmetrics]
    exact hafter₂.symm
  refine ⟨?_, hend.tables.snapshot_eq, hend.rates⟩
  rw [commonTrace_eq_trace, commonTrace_eq_trace]
  refine htrace₁.trans ?_
  rw [hinputs, hmetrics]
  exact htrace₂.symm

/-- Node 1 has a round trip, a tick, a retransmission and a tick in both runs.  In the first run
node 2 counts drops; in the second node 0 loses a packet, node 3 has a histogram without counters,
an unknown node has a round trip, and node 0 switches to a process that was woken. -/
theorem nodeView_eq_of_other_tracked_nodes :
    let roundTrip : Step := .act (.call ⟨.roundTrip 5, 1, 10⟩)
    let retransmit : Step := .act (.call ⟨.retransmit, 1, 20⟩)
    let ticks : Step × Step := (.tick ⟨5⟩ none, .tick ⟨2000000005⟩ none)
    let steps₁ : List Step :=
      [roundTrip, .act (.update (.increment 2 .dropCount 3)), ticks.1, retransmit, ticks.2]
    let steps₂ : List Step := [.act (.call ⟨.packetDrop 0, 0, 7⟩), roundTrip,
      .act (.call ⟨.wakeup 3, 1, 8⟩), ticks.1, .act (.update (.observe 3 7)), retransmit,
      .act (.call ⟨.roundTrip 9, 9, 11⟩), .act (.call ⟨.switch 3, 0, 12⟩), .drain, ticks.2]
    let tables := Tables.ofCapacities 4 2 2
    let p₁ := initial tables 0 .unsampled [] "web" .unread
    let p₂ := initial tables 3 .standard [7] "web" .unread
    ((commonInputs .unread steps₁).filter (·.concerns 1) =
        (commonInputs .unread steps₂).filter (·.concerns 1) ∧
      ∀ i ∈ commonInputs .unread steps₁, i.isSwitchOn 1 = false) ∧
    ((p₁.commonTrace steps₁).filterMap (nodeView 1) =
        (p₂.commonTrace steps₂).filterMap (nodeView 1) ∧
      (p₁.run steps₁).2.tables.snapshot 1 = (p₂.run steps₂).2.tables.snapshot 1 ∧
      (p₁.run steps₁).2.aggregator.rates.get? 1 = (p₂.run steps₂).2.aggregator.rates.get? 1) ∧
    (p₁.run steps₁).2.tables.trackedNodes = [1, 2] ∧
      (p₂.run steps₂).2.tables.trackedNodes = [0, 1, 3] :=
  ⟨⟨rfl, by decide⟩, nodeView_eq_of_concerning_inputs_eq 1 4 2 2 "web" 0 3 .unsampled .standard []
    [7] .unread .unread _ _ rfl (by decide), by decide +kernel, by decide +kernel⟩

end Pipeline

end NodeTelemetry
